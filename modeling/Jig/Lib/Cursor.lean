import Jig.Lib.Text
import Mathlib.Algebra.Ring.Nat
import Mathlib.Data.List.Infix

/-!
# Positions in a byte string

A reader that walks a byte string from its front, and the relation between its positions: what was
read is what lies between them (`Cursor.Advances`).
-/

namespace Jig.Lib

/-- A position in a byte string that fits the memory. -/
structure Cursor where
  bytes : Bytes
  offset : Nat
  offset_le : offset ≤ bytes.length
  length_lt : bytes.length < 2 ^ 64

namespace Cursor

variable {c c' c'' : Cursor} {w w' : Bytes}

def rest (c : Cursor) : Bytes :=
  c.bytes.drop c.offset

/-- The second position is reached by reading a word from the first. -/
structure Advances (c : Cursor) (w : Bytes) (c' : Cursor) : Prop where
  bytes : c'.bytes = c.bytes
  offset : c'.offset = c.offset + w.length
  rest : c.rest = w ++ c'.rest

theorem Advances.trans (h : c.Advances w c') (h' : c'.Advances w' c'') :
    c.Advances (w ++ w') c'' where
  bytes := h'.bytes.trans h.bytes
  offset := by rw [h'.offset, h.offset, List.length_append, Nat.add_assoc]
  rest := by rw [h.rest, h'.rest, List.append_assoc]

theorem length_rest (c : Cursor) : c.rest.length = c.bytes.length - c.offset :=
  List.length_drop

theorem ext_of_eq (hbytes : c.bytes = c'.bytes) (hoffset : c.offset = c'.offset) : c = c' := by
  obtain ⟨bytes, offset, _, _⟩ := c
  obtain ⟨bytes', offset', _, _⟩ := c'
  obtain rfl : bytes = bytes' := hbytes
  obtain rfl : offset = offset' := hoffset
  rfl

/-- A word that comes next can be read. -/
theorem Advances.exists_of_rest {r : Bytes} (h : c.rest = w ++ r) :
    ∃ c', c.Advances w c' ∧ c'.rest = r := by
  have hlength := congrArg List.length h
  rw [length_rest, List.length_append] at hlength
  have hle := c.offset_le
  have hrest : c.bytes.drop (c.offset + w.length) = r := by
    rw [← List.drop_drop]
    show c.rest.drop w.length = r
    rw [h, List.drop_left]
  by_cases hw : w.length ≤ c.bytes.length - c.offset
  · refine ⟨{ c with offset := c.offset + w.length, offset_le := by omega }, ⟨rfl, rfl, ?_⟩, hrest⟩
    exact h.trans (congrArg (w ++ ·) hrest.symm)
  · omega

/-- Between two words there is a position. -/
theorem Advances.split (h : c.Advances (w ++ w') c'') :
    ∃ c', c.Advances w c' ∧ c'.Advances w' c'' := by
  have hrest := h.rest
  rw [List.append_assoc] at hrest
  obtain ⟨c', hc', hrest'⟩ := Advances.exists_of_rest hrest
  refine ⟨c', hc', h.bytes.trans hc'.bytes.symm, ?_, hrest'⟩
  rw [h.offset, hc'.offset, List.length_append, Nat.add_assoc]

/-- The bytes between two positions. -/
theorem Advances.slice (h : c.Advances w c') (h' : c'.Advances w' c'') :
    (c.bytes.take c''.offset).drop c'.offset = w' := by
  rw [← h.bytes, List.drop_take, h'.offset, Nat.add_sub_cancel_left]
  show c'.rest.take w'.length = w'
  rw [h'.rest, List.take_left]

end Cursor

end Jig.Lib

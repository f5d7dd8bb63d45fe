import Jig.Lib.Text
import Mathlib.Algebra.Ring.Nat
import Mathlib.Data.List.Infix

/-!
# Texts and their bytes

A Rust `str` as its characters, the bytes UTF-8 stores them in, and slices at a byte offset. On
ASCII texts every byte prefix is the bytes of a prefix (`exists_of_isPrefix_encode`), and only the
newline character holds the newline byte at its end (`getLast?_encode_eq_newline_iff`).
-/

namespace Jig.Lib.Utf8

/-- `str::as_bytes`. -/
def encode (text : List Char) : Bytes :=
  text.flatMap String.utf8EncodeChar

/-- `std::str::from_utf8`. -/
def decode? (bytes : Bytes) : Option (List Char) :=
  bytes.toByteArray.utf8Decode?.map Array.toList

/-- `str::len`. -/
def byteLen (text : List Char) : Nat :=
  (encode text).length

def isAscii (c : Char) : Bool :=
  c.toNat < 128

/-- `text[..n]`, for a byte offset `n` between two characters. -/
def sliceTo : Nat → List Char → List Char
  | _, [] => []
  | n, c :: rest => if n < c.utf8Size then [] else c :: sliceTo (n - c.utf8Size) rest

@[simp] theorem encode_nil : encode [] = [] := rfl

@[simp] theorem encode_cons (c : Char) (text : List Char) :
    encode (c :: text) = String.utf8EncodeChar c ++ encode text := rfl

variable (a b : List Char) {bytes : Bytes}

@[simp] theorem encode_append : encode (a ++ b) = encode a ++ encode b :=
  List.flatMap_append

@[simp] theorem utf8EncodeChar_newline : String.utf8EncodeChar '\n' = [10] := rfl

@[simp] theorem byteLen_nil : byteLen [] = 0 := rfl

@[simp] theorem byteLen_append : byteLen (a ++ b) = byteLen a + byteLen b := by
  simp [byteLen]

@[simp] theorem byteLen_cons (c : Char) (text : List Char) :
    byteLen (c :: text) = c.utf8Size + byteLen text := by
  simp [byteLen]

variable {text : List Char}

theorem byteLen_pos : 0 < byteLen text ↔ text ≠ [] := by
  cases text with
  | nil => simp
  | cons c rest =>
      have := c.utf8Size_pos
      simp only [byteLen_cons, ne_eq, reduceCtorEq, not_false_eq_true, iff_true]
      omega

/-- A text is read back from its bytes. -/
@[simp] theorem decode?_encode (text : List Char) : decode? (encode text) = some text := by
  show Option.map Array.toList text.utf8Encode.utf8Decode? = _
  rw [List.utf8Decode?_utf8Encode]
  rfl

theorem encode_toList_injective : Function.Injective fun text : String => encode text.toList := by
  intro a b h
  have hchars := congrArg decode? h
  simp only [decode?_encode, Option.some.injEq] at hchars
  exact String.toList_inj.mp hchars

/-- Bytes that are a text are the bytes of that text. -/
theorem encode_of_decode? (h : decode? bytes = some text) : encode text = bytes := by
  obtain ⟨chars, hchars, rfl⟩ := Option.map_eq_some_iff.mp h
  have hsome : bytes.toByteArray.utf8Decode?.isSome := Option.isSome_of_eq_some hchars
  have hencode : (bytes.toByteArray.utf8Decode?.get hsome).toList.utf8Encode = bytes.toByteArray :=
    ByteArray.utf8Encode_get_utf8Decode?
  rw [Option.get_of_eq_some hsome hchars] at hencode
  exact List.toByteArray_inj.mp hencode

/-- Slicing where one text ends and another begins. -/
@[simp] theorem sliceTo_append : sliceTo (byteLen a) (a ++ b) = a := by
  induction a with
  | nil =>
      cases b with
      | nil => rfl
      | cons c rest =>
          rw [List.nil_append, byteLen_nil, sliceTo, if_pos c.utf8Size_pos]
  | cons c rest ih =>
      rw [byteLen_cons, List.cons_append, sliceTo, if_neg (by omega), Nat.add_sub_cancel_left, ih]

theorem take_encode : (encode (a ++ b)).take (byteLen a) = encode a := by
  rw [encode_append]
  exact List.take_left

theorem drop_encode : (encode (a ++ b)).drop (byteLen a) = encode b := by
  rw [encode_append]
  exact List.drop_left

/-! ### ASCII -/

theorem utf8EncodeChar_of_isAscii {c : Char} (h : isAscii c = true) :
    String.utf8EncodeChar c = [c.val.toUInt8] := by
  refine String.utf8EncodeChar_eq_singleton (Char.utf8Size_eq_one_iff.mpr ?_)
  have hlt : c.val.toNat < 128 := by simpa [isAscii] using h
  show c.val.toNat ≤ 127
  omega

/-- An ASCII character takes one byte. -/
theorem encode_of_isAscii (h : ∀ c ∈ text, isAscii c = true) :
    encode text = text.map (·.val.toUInt8) := by
  induction text with
  | nil => rfl
  | cons c rest ih =>
      rw [List.forall_mem_cons] at h
      rw [encode_cons, utf8EncodeChar_of_isAscii h.1, ih h.2]
      rfl

/-- **Cut anywhere.** Every byte prefix of an ASCII text is the bytes of a prefix of it. -/
theorem exists_of_isPrefix_encode (h : ∀ c ∈ text, isAscii c = true)
    (hbytes : bytes <+: encode text) : ∃ q, q <+: text ∧ bytes = encode q := by
  refine ⟨text.take bytes.length, List.take_prefix _ _, ?_⟩
  rw [encode_of_isAscii fun c hc => h c (List.mem_of_mem_take hc), List.map_take,
    ← encode_of_isAscii h]
  exact List.prefix_iff_eq_take.mp hbytes

/-- Among the prefixes of an ASCII text bytes compare as the texts do. -/
theorem encode_isPrefix_encode_iff {a b : List Char} (h : ∀ c ∈ text, isAscii c = true)
    (ha : a <+: text) (hb : b <+: text) : encode a <+: encode b ↔ a <+: b := by
  constructor
  · intro hpre
    have hlen := hpre.length_le
    rw [encode_of_isAscii fun c hc => h c (ha.subset hc),
      encode_of_isAscii fun c hc => h c (hb.subset hc), List.length_map, List.length_map] at hlen
    exact List.prefix_of_prefix_length_le ha hb hlen
  · rintro ⟨rest, rfl⟩
    rw [encode_append]
    exact List.prefix_append _ _

/-! ### The last byte -/

theorem or_high_ne_newline (b : UInt8) : b ||| 128 ≠ 10 := by
  intro h
  have hle : 128 ≤ (b ||| 128).toNat := by
    rw [UInt8.toNat_or]
    exact Nat.right_le_or
  rw [h] at hle
  exact absurd hle (by decide)

/-- The last byte of a character that takes several has its high bit set. -/
theorem getLast?_utf8EncodeChar_eq_newline_iff {c : Char} :
    (String.utf8EncodeChar c).getLast? = some 10 ↔ c = '\n' := by
  refine ⟨fun h => ?_, fun h => by subst h; rfl⟩
  obtain hsize | hsize | hsize | hsize := c.utf8Size_eq
  · rw [String.utf8EncodeChar_eq_singleton hsize] at h
    have hlow : c.val.toNat ≤ 127 := Char.utf8Size_eq_one_iff.mp hsize
    have hbyte : c.val.toUInt8.toNat = 10 := congrArg UInt8.toNat (Option.some.inj h)
    rw [UInt32.toNat_toUInt8, Nat.mod_eq_of_lt (by omega)] at hbyte
    exact Char.ext (UInt32.toNat_inj.mp hbyte)
  · rw [String.utf8EncodeChar_eq_cons_cons hsize] at h
    exact absurd (Option.some.inj h) (or_high_ne_newline _)
  · rw [String.utf8EncodeChar_eq_cons_cons_cons hsize] at h
    exact absurd (Option.some.inj h) (or_high_ne_newline _)
  · rw [String.utf8EncodeChar_eq_cons_cons_cons_cons hsize] at h
    exact absurd (Option.some.inj h) (or_high_ne_newline _)

theorem getLast?_encode_eq_newline_iff :
    (encode text).getLast? = some 10 ↔ text.getLast? = some '\n' := by
  rcases List.eq_nil_or_concat text with rfl | ⟨init, c, rfl⟩
  · simp
  · have hne : String.utf8EncodeChar c ≠ [] := by
      intro hnil
      have := congrArg List.length hnil
      rw [String.length_utf8EncodeChar] at this
      exact absurd this (Nat.pos_iff_ne_zero.mp c.utf8Size_pos)
    rw [List.concat_eq_append, encode_append, encode_cons, encode_nil, List.append_nil,
      List.getLast?_append_of_ne_nil _ hne, List.getLast?_append_of_ne_nil _ (by simp),
      getLast?_utf8EncodeChar_eq_newline_iff]
    simp

end Jig.Lib.Utf8

import Mathlib.Data.List.Basic

/-!
# Terminated lines

A list cut at a separator into lines, each with a flag that says whether the separator followed it,
and lines written back with their separators. What was written is read back
(`splitLines_joinLines`), and what was read is written again, wherever it ends
(`writeLines_splitLines`).
-/

namespace Jig.Lib

universe u

variable {α : Type u} {sep : α}

/-- Write every line, with its separator where it has one. -/
def writeLines (sep : α) (lines : List (List α × Bool)) : List α :=
  lines.flatMap fun l => if l.2 then l.1 ++ [sep] else l.1

@[simp] theorem writeLines_cons (l : List α × Bool) (lines : List (List α × Bool)) :
    writeLines sep (l :: lines) = (if l.2 then l.1 ++ [sep] else l.1) ++ writeLines sep lines :=
  rfl

@[simp] theorem writeLines_append (a b : List (List α × Bool)) :
    writeLines sep (a ++ b) = writeLines sep a ++ writeLines sep b :=
  List.flatMap_append

/-- Write every line with a separator behind it. -/
def joinLines (sep : α) (lines : List (List α)) : List α :=
  lines.flatMap (· ++ [sep])

variable [DecidableEq α]

/-- Cut at every separator. The first list is the part of the current line that has been read; what
remains of it at the end is a line without its separator. -/
def splitLines (sep : α) : List α → List α → List (List α × Bool)
  | line, [] => if line.isEmpty then [] else [(line, false)]
  | line, a :: rest =>
      if a = sep then (line, true) :: splitLines sep [] rest else splitLines sep (line ++ [a]) rest

theorem splitLines_append {l : List α} (h : sep ∉ l) (line rest : List α) :
    splitLines sep line (l ++ sep :: rest) = (line ++ l, true) :: splitLines sep [] rest := by
  induction l generalizing line with
  | nil => simp [splitLines]
  | cons a l ih =>
      rw [List.mem_cons, not_or] at h
      rw [List.cons_append, splitLines, if_neg (Ne.symm h.1), ih h.2, List.append_assoc]
      rfl

/-- **Writing and reading.** -/
theorem splitLines_joinLines {lines : List (List α)} (h : ∀ l ∈ lines, sep ∉ l) :
    splitLines sep [] (joinLines sep lines) = lines.map (·, true) := by
  induction lines with
  | nil => rfl
  | cons l lines ih =>
      rw [List.forall_mem_cons] at h
      show splitLines sep [] (l ++ [sep] ++ joinLines sep lines) = _
      rw [List.append_assoc, List.singleton_append, splitLines_append h.1, ih h.2]
      rfl

/-- No line contains the separator. -/
theorem notMem_of_mem_splitLines {line : List α} (bytes : List α) (hline : sep ∉ line) :
    ∀ l ∈ splitLines sep line bytes, sep ∉ l.1 := by
  induction bytes generalizing line with
  | nil =>
      unfold splitLines
      split
      · exact fun l hl => absurd hl List.not_mem_nil
      · exact List.forall_mem_singleton.mpr hline
  | cons a rest ih =>
      unfold splitLines
      split
      · exact List.forall_mem_cons.mpr ⟨hline, ih List.not_mem_nil⟩
      · next hne =>
          apply ih
          rw [List.mem_append, List.mem_singleton, not_or]
          exact ⟨hline, Ne.symm hne⟩

/-- Behind a final separator no line is open. -/
theorem terminated_of_getLast? {line bytes : List α}
    (h : line = [] ∧ bytes = [] ∨ bytes.getLast? = some sep) :
    ∀ l ∈ splitLines sep line bytes, l.2 = true := by
  induction bytes generalizing line with
  | nil =>
      obtain ⟨rfl, -⟩ | h := h
      · intro l hl
        cases hl
      · cases h
  | cons a rest ih =>
      obtain ⟨-, h⟩ | h := h
      · cases h
      unfold splitLines
      have hrest : rest = [] ∧ a = sep ∨ rest.getLast? = some sep := by
        cases rest with
        | nil => exact .inl ⟨rfl, by simpa using h⟩
        | cons b rest => exact .inr (by simpa [List.getLast?_cons_cons] using h)
      split
      · exact List.forall_mem_cons.mpr ⟨rfl, ih (hrest.imp (fun hnil => ⟨rfl, hnil.1⟩) id)⟩
      · next hne => exact ih (.inr (hrest.resolve_left fun hnil => hne hnil.2))

/-! ### A last line without its separator -/

/-- **Reading and writing**, wherever the text ends. -/
theorem writeLines_splitLines (line bytes : List α) :
    writeLines sep (splitLines sep line bytes) = line ++ bytes := by
  induction bytes generalizing line with
  | nil =>
      unfold splitLines
      cases line with
      | nil => rfl
      | cons a line => simp [writeLines]
  | cons a rest ih =>
      unfold splitLines
      split
      · next heq =>
          subst heq
          rw [writeLines_cons, ih]
          simp
      · rw [ih, List.append_assoc]
        rfl

/-- Behind lines that have their separators reading starts afresh. -/
theorem splitLines_writeLines_append {lines : List (List α × Bool)}
    (hended : ∀ l ∈ lines, l.2 = true) (hsep : ∀ l ∈ lines, sep ∉ l.1) (rest : List α) :
    splitLines sep [] (writeLines sep lines ++ rest) = lines ++ splitLines sep [] rest := by
  induction lines with
  | nil => rfl
  | cons l lines ih =>
      rw [List.forall_mem_cons] at hended hsep
      obtain ⟨line, ended⟩ := l
      obtain rfl : ended = true := hended.1
      rw [writeLines_cons, if_pos rfl, List.append_assoc, List.append_assoc, List.singleton_append,
        splitLines_append hsep.1, ih hended.2 hsep.2]
      rfl

/-- What holds no separator is one open line. -/
theorem splitLines_of_notMem {l : List α} (h : sep ∉ l) (line : List α) (hne : line ++ l ≠ []) :
    splitLines sep line l = [(line ++ l, false)] := by
  induction l generalizing line with
  | nil =>
      rw [List.append_nil] at hne ⊢
      rw [splitLines, if_neg (by simpa using hne)]
  | cons a l ih =>
      rw [List.mem_cons, not_or] at h
      rw [splitLines, if_neg (Ne.symm h.1), ih h.2 (line ++ [a]) (by simp), List.append_assoc]
      rfl

/-- Only the last line may be open. -/
theorem ended_of_mem_dropLast {line bytes : List α} :
    ∀ l ∈ (splitLines sep line bytes).dropLast, l.2 = true := by
  induction bytes generalizing line with
  | nil =>
      unfold splitLines
      split
      · exact fun l hl => absurd hl List.not_mem_nil
      · exact fun l hl => absurd hl List.not_mem_nil
  | cons a rest ih =>
      unfold splitLines
      split
      · cases hlines : splitLines sep [] rest with
        | nil => exact fun l hl => absurd hl List.not_mem_nil
        | cons next lines =>
            rw [List.dropLast_cons_of_ne_nil (by simp), List.forall_mem_cons, ← hlines]
            exact ⟨rfl, ih⟩
      · exact ih

/-- Every line takes at least one element. -/
theorem length_splitLines_le (line bytes : List α) :
    (splitLines sep line bytes).length ≤ line.length + bytes.length := by
  induction bytes generalizing line with
  | nil =>
      unfold splitLines
      cases line with
      | nil => exact Nat.zero_le _
      | cons a line => simp
  | cons a rest ih =>
      unfold splitLines
      split
      · have hrest := ih []
        rw [List.length_nil, Nat.zero_add] at hrest
        simp only [List.length_cons]
        omega
      · have hrest := ih (line ++ [a])
        simp only [List.length_append, List.length_cons, List.length_nil] at hrest ⊢
        omega

end Jig.Lib

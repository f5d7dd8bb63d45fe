import Mathlib.Data.List.Basic

/-!
# Patterns with wildcards

`Fills star pattern text` says that the text comes from the pattern when every `star` is replaced by
some text. A pattern is matched by its parts between the stars: the first and the last one at the
ends of the text, and the others one behind the other in between (`fills_iff_parts`). Looking for
each of them where it stands first is enough (`findInOrder_iff`).
-/

namespace Jig.Lib

universe u

variable {α : Type u} {text : List α} {words : List (List α)}

inductive Fills (star : α) : List α → List α → Prop
  | nil : Fills star [] []
  | literal {c : α} {pattern text : List α} (hc : c ≠ star) (h : Fills star pattern text) :
      Fills star (c :: pattern) (c :: text)
  | wildcard {pattern text : List α} (s : List α) (h : Fills star pattern text) :
      Fills star (star :: pattern) (s ++ text)

/-- The words stand in the text, one behind the other. -/
def InOrder : List (List α) → List α → Prop
  | [], _ => True
  | word :: words, text => ∃ s rest, text = s ++ word ++ rest ∧ InOrder words rest

/-- The parts of a pattern with any texts between them. -/
def PartsFill : List (List α) → List α → Prop
  | [], _ => False
  | [part], text => text = part
  | part :: parts, text => ∃ s rest, text = part ++ s ++ rest ∧ PartsFill parts rest

theorem InOrder.append_left (h : InOrder words text) (s : List α) : InOrder words (s ++ text) := by
  cases words with
  | nil => trivial
  | cons word words =>
      obtain ⟨s', rest, rfl, hrest⟩ := h
      exact ⟨s ++ s', rest, by simp, hrest⟩

/-- The first and the last part stand at the ends. -/
theorem partsFill_iff (first : List α) (middle : List (List α)) (last text : List α) :
    PartsFill (first :: middle ++ [last]) text ↔
      ∃ between, text = first ++ between ++ last ∧ InOrder middle between := by
  induction middle generalizing first text with
  | nil => simp [PartsFill, InOrder]
  | cons part middle ih =>
      simp only [List.cons_append, PartsFill, InOrder]
      simp only [List.cons_append] at ih
      constructor
      · rintro ⟨s, rest, rfl, hrest⟩
        obtain ⟨between, rfl, hmiddle⟩ := (ih part rest).mp hrest
        exact ⟨s ++ part ++ between, by simp, s, between, by simp, hmiddle⟩
      · rintro ⟨between, rfl, s, rest, rfl, hmiddle⟩
        exact ⟨s, part ++ rest ++ last, by simp, (ih part _).mpr ⟨rest, rfl, hmiddle⟩⟩

theorem partsFill_cons_head (c : α) (parts : List (List α)) (text : List α) (hparts : parts ≠ []) :
    PartsFill (parts.modifyHead (List.cons c)) text ↔
      ∃ rest, text = c :: rest ∧ PartsFill parts rest := by
  rcases parts with _ | ⟨part, _ | ⟨next, parts⟩⟩
  · exact absurd rfl hparts
  · simp [PartsFill]
  · simp only [List.modifyHead_cons, PartsFill]
    grind

variable [DecidableEq α]

/-- A pattern without wildcards has one part, itself, and any other one has at least two. -/
theorem splitOn_cases (star : α) (pattern : List α) :
    (star ∉ pattern ∧ pattern.splitOn star = [pattern]) ∨
      (star ∈ pattern ∧ ∃ first middle last, pattern.splitOn star = first :: middle ++ [last]) := by
  by_cases hmem : star ∈ pattern
  · obtain ⟨first, rest, rfl, hfirst⟩ := List.eq_append_cons_of_mem hmem
    have hne := List.splitOn_ne_nil star rest
    refine .inr ⟨hmem, first, (rest.splitOn star).dropLast, (rest.splitOn star).getLast hne, ?_⟩
    rw [List.splitOn_append_cons_self_of_not_mem hfirst, List.cons_append,
      List.dropLast_concat_getLast]
  · exact .inl ⟨hmem, List.splitOn_eq_singleton hmem⟩

theorem fills_iff_parts (star : α) (pattern text : List α) :
    Fills star pattern text ↔ PartsFill (pattern.splitOn star) text := by
  induction pattern generalizing text with
  | nil =>
      constructor
      · rintro ⟨⟩
        rfl
      · rintro (rfl : text = [])
        exact .nil
  | cons c pattern ih =>
      have hne : pattern.splitOn star ≠ [] := List.splitOnP_ne_nil _ _
      simp only [List.splitOn_cons_eq_if_modifyHead, beq_iff_eq]
      by_cases hc : c = star
      · subst hc
        rw [if_pos rfl]
        generalize pattern.splitOn c = parts at ih hne
        obtain ⟨part, parts, rfl⟩ := List.exists_cons_of_ne_nil hne
        constructor
        · rintro (_ | ⟨hc, _⟩ | ⟨s, h⟩)
          · exact absurd rfl hc
          · exact ⟨s, _, rfl, (ih _).mp h⟩
        · rintro ⟨s, rest, rfl, hrest⟩
          exact .wildcard s ((ih rest).mpr hrest)
      · rw [if_neg hc, partsFill_cons_head c _ _ hne]
        constructor
        · rintro (_ | ⟨-, h⟩ | ⟨s, h⟩)
          · exact ⟨_, rfl, (ih _).mp h⟩
          · exact absurd rfl hc
        · rintro ⟨rest, rfl, hrest⟩
          exact .literal hc ((ih rest).mpr hrest)

def afterFirst (word : List α) : List α → Option (List α)
  | [] => if word = [] then some [] else none
  | a :: text =>
      if word.isPrefixOf (a :: text) then some ((a :: text).drop word.length)
      else afterFirst word text

theorem exists_of_afterFirst {word rest : List α} (h : afterFirst word text = some rest) :
    ∃ s, text = s ++ word ++ rest := by
  induction text with
  | nil => exact ⟨[], by simp_all [afterFirst]⟩
  | cons a text ih =>
      rw [afterFirst] at h
      split at h
      next hword =>
        obtain ⟨tail, htail⟩ := List.isPrefixOf_iff_prefix.mp hword
        rw [← htail, List.drop_left, Option.some.injEq] at h
        exact ⟨[], by rw [← htail, h, List.nil_append]⟩
      · obtain ⟨s, rfl⟩ := ih h
        exact ⟨a :: s, rfl⟩

/-- No occurrence of a word ends before the first one does. -/
theorem afterFirst_append (s word rest : List α) :
    ∃ t, afterFirst word (s ++ word ++ rest) = some (t ++ rest) := by
  induction s with
  | nil =>
      refine ⟨[], ?_⟩
      rcases word with _ | ⟨a, word⟩
      · cases rest <;> simp [afterFirst]
      · simp [afterFirst, List.isPrefixOf_iff_prefix]
  | cons a s ih =>
      simp only [List.cons_append, afterFirst]
      split
      · refine ⟨((a :: s) ++ word).drop word.length, ?_⟩
        rw [← List.cons_append, ← List.cons_append, List.drop_append_of_le_length (by simp; omega)]
      · exact ih

/-- The words are found in order, each where it stands first. -/
def findInOrder (words : List (List α)) (text : List α) : Bool :=
  (words.foldlM (fun text word => afterFirst word text) text).isSome

theorem findInOrder_iff : findInOrder words text = true ↔ InOrder words text := by
  induction words generalizing text with
  | nil => simp [findInOrder, InOrder]
  | cons word words ih =>
      have hcons : findInOrder (word :: words) text =
          (afterFirst word text).any fun rest => findInOrder words rest := by
        unfold findInOrder
        rw [List.foldlM_cons]
        cases afterFirst word text <;> rfl
      rw [hcons, Option.any_eq_true]
      constructor
      · rintro ⟨rest, hrest, hwords⟩
        obtain ⟨s, rfl⟩ := exists_of_afterFirst hrest
        exact ⟨s, rest, rfl, ih.mp hwords⟩
      · rintro ⟨s, rest, rfl, hwords⟩
        obtain ⟨t, ht⟩ := afterFirst_append s word rest
        exact ⟨t ++ rest, ht, ih.mpr (hwords.append_left t)⟩

end Jig.Lib

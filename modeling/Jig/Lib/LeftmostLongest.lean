import Mathlib.Data.List.Infix
import Mathlib.Data.List.MinMax
import Mathlib.Data.Nat.Find

/-!
# Replacing leftmost-longest matches

A text is searched for the occurrences of some patterns from left to right: the first position where
a pattern occurs, the longest pattern there, and on behind it (`Matches`). Replacing each of them by
a marker is `replaceMatches`; `Replaced` is the same said along the text, one step at a time, which
is how it is proved of a search that sees the text piece by piece. What such a search has to wait
for are the positions from which what it has seen may still grow into a pattern (`Grows`).
-/

namespace Jig.Lib

variable {α : Type*} {patterns : List (List α)} {text : List α} {found : List (Nat × Nat)}

/-! ### Occurrences -/

/-- No pattern occurs at the start of a text. -/
def NoneAt (patterns : List (List α)) (text : List α) : Prop :=
  ∀ p ∈ patterns, ¬p <+: text

/-- The longest pattern at the start of a text. -/
structure LongestAt (patterns : List (List α)) (text p : List α) : Prop where
  mem : p ∈ patterns
  isPrefix : p <+: text
  longest : ∀ q ∈ patterns, q <+: text → q.length ≤ p.length

theorem LongestAt.not_noneAt {p : List α} (h : LongestAt patterns text p) : ¬NoneAt patterns text :=
  fun hnone => hnone p h.mem h.isPrefix

theorem LongestAt.unique {p q : List α} (h : LongestAt patterns text p)
    (h' : LongestAt patterns text q) : p = q := by
  have hlen : p.length = q.length :=
    Nat.le_antisymm (h'.longest p h.mem h.isPrefix) (h.longest q h'.mem h'.isPrefix)
  exact (List.prefix_of_prefix_length_le h.isPrefix h'.isPrefix hlen.le).eq_of_length hlen

theorem noneAt_or_exists_longestAt (patterns : List (List α)) (text : List α) :
    NoneAt patterns text ∨ ∃ p, LongestAt patterns text p := by
  classical
  have hmem {p : List α} : p ∈ patterns.filter (· <+: text) ↔ p ∈ patterns ∧ p <+: text := by simp
  cases hmax : (patterns.filter (· <+: text)).argmax List.length with
  | none =>
      rw [List.argmax_eq_none] at hmax
      refine .inl fun p hp hprefix => ?_
      exact List.not_mem_nil (hmax ▸ hmem.mpr ⟨hp, hprefix⟩)
  | some p =>
      obtain ⟨hp, hprefix⟩ := hmem.mp (List.argmax_mem hmax)
      exact .inr ⟨p, hp, hprefix, fun q hq hq' =>
        List.le_of_mem_argmax (hmem.mpr ⟨hq, hq'⟩) hmax⟩

/-! ### Matches and their replacement -/

/-- The leftmost-longest matches of a text from a position on, as positions. -/
inductive Matches (patterns : List (List α)) (text : List α) : Nat → List (Nat × Nat) → Prop
  | none {cursor : Nat} (h : ∀ i, cursor ≤ i → NoneAt patterns (text.drop i)) :
      Matches patterns text cursor []
  | next {cursor start : Nat} {p : List α} {rest : List (Nat × Nat)} (hle : cursor ≤ start)
      (hfirst : ∀ i, cursor ≤ i → i < start → NoneAt patterns (text.drop i))
      (hlongest : LongestAt patterns (text.drop start) p)
      (hrest : Matches patterns text (start + p.length) rest) :
      Matches patterns text cursor ((start, start + p.length) :: rest)

def replaceMatches (marker text : List α) : Nat → List (Nat × Nat) → List α
  | cursor, [] => text.drop cursor
  | cursor, (start, stop) :: rest =>
      (text.drop cursor).take (start - cursor) ++ (marker ++ replaceMatches marker text stop rest)

/-- The same along the text. -/
inductive Replaced (patterns : List (List α)) (marker : List α) : List α → List α → Prop
  | nil : Replaced patterns marker [] []
  | copy {a : α} {text out : List α} (hnone : NoneAt patterns (a :: text))
      (h : Replaced patterns marker text out) : Replaced patterns marker (a :: text) (a :: out)
  | replace {p text out : List α} (hlongest : LongestAt patterns (p ++ text) p)
      (h : Replaced patterns marker text out) :
      Replaced patterns marker (p ++ text) (marker ++ out)

section Replaced

variable {marker out : List α}

theorem Replaced.unique (hpatterns : ∀ p ∈ patterns, p ≠ []) {out' : List α}
    (h : Replaced patterns marker text out) (h' : Replaced patterns marker text out') :
    out = out' := by
  induction h generalizing out' with
  | nil =>
      generalize htext : ([] : List α) = text at h'
      cases h' with
      | nil => rfl
      | copy _ _ => cases htext
      | replace hlongest _ =>
          exact absurd (List.append_eq_nil_iff.mp htext.symm).1 (hpatterns _ hlongest.mem)
  | @copy a text out hnone _ ih =>
      generalize htext : a :: text = whole at h'
      cases h' with
      | nil => cases htext
      | copy _ h' =>
          cases htext
          rw [ih h']
      | replace hlongest _ =>
          rw [← htext] at hlongest
          exact absurd hnone hlongest.not_noneAt
  | @replace p text out hlongest _ ih =>
      generalize htext : p ++ text = whole at h'
      cases h' with
      | nil => exact absurd (List.append_eq_nil_iff.mp htext).1 (hpatterns _ hlongest.mem)
      | copy hnone _ =>
          rw [← htext] at hnone
          exact absurd hnone hlongest.not_noneAt
      | replace hlongest' h' =>
          rw [← htext] at hlongest'
          cases hlongest.unique hlongest'
          rw [ih (List.append_cancel_left htext ▸ h')]

/-- A part of the text where no pattern starts is copied. -/
theorem Replaced.copy_take {n : Nat} (hnone : ∀ i < n, NoneAt patterns (text.drop i))
    (h : Replaced patterns marker (text.drop n) out) :
    Replaced patterns marker text (text.take n ++ out) := by
  induction n generalizing text with
  | zero => exact h
  | succ n ih =>
      cases text with
      | nil =>
          rw [List.take_nil, List.nil_append]
          exact h
      | cons a text =>
          refine .copy (hnone 0 (Nat.succ_pos n)) (ih (fun i hi => ?_) h)
          exact hnone (i + 1) (Nat.succ_lt_succ hi)

/-- **Replacing the matches** is replacing along the text. -/
theorem Matches.replaced {cursor : Nat} (h : Matches patterns text cursor found) :
    Replaced patterns marker (text.drop cursor) (replaceMatches marker text cursor found) := by
  induction h with
  | @none cursor hnone =>
      have hcopy : Replaced patterns marker (text.drop cursor)
          ((text.drop cursor).take (text.drop cursor).length ++ []) := by
        refine Replaced.copy_take (fun i _ => ?_) ?_
        · rw [List.drop_drop]
          exact hnone _ (Nat.le_add_right _ _)
        · rw [List.drop_length]
          exact .nil
      rwa [List.take_length, List.append_nil] at hcopy
  | @next cursor start p rest hle hfirst hlongest _ ih =>
      refine Replaced.copy_take (fun i hi => ?_) ?_
      · rw [List.drop_drop]
        exact hfirst _ (Nat.le_add_right _ _) (by omega)
      · obtain ⟨tail, htail⟩ := hlongest.isPrefix
        rw [List.drop_drop, Nat.add_sub_cancel' hle, ← htail]
        rw [← htail] at hlongest
        refine .replace hlongest ?_
        rwa [← List.drop_drop, ← htail, List.drop_left] at ih

/-- Every text has its matches. -/
theorem exists_matches (hpatterns : ∀ p ∈ patterns, p ≠ []) (text : List α) (cursor : Nat) :
    ∃ found, Matches patterns text cursor found := by
  induction hlen : text.length - cursor using Nat.strong_induction_on generalizing cursor with
  | _ n ih =>
      by_cases hnone : ∀ i, cursor ≤ i → NoneAt patterns (text.drop i)
      · exact ⟨[], .none hnone⟩
      · -- the first position where a pattern occurs
        have hex : ∃ i, cursor ≤ i ∧ ¬NoneAt patterns (text.drop i) := by
          simpa only [not_forall, exists_prop] using hnone
        classical
        obtain ⟨hle, hfound⟩ := Nat.find_spec hex
        obtain ⟨p, hp⟩ := (noneAt_or_exists_longestAt patterns
          (text.drop (Nat.find hex))).resolve_left hfound
        have hpos : 0 < p.length := List.length_pos_iff.mpr (hpatterns p hp.mem)
        have hfits : p.length ≤ text.length - Nat.find hex := by
          simpa using hp.isPrefix.length_le
        obtain ⟨rest, hrest⟩ := ih (text.length - (Nat.find hex + p.length)) (by omega) _ rfl
        refine ⟨_, .next hle (fun i hi hlt => ?_) hp hrest⟩
        by_contra hsome
        exact Nat.find_min hex hlt ⟨hi, hsome⟩

/-- A text of parts that hold no pattern, with a pattern behind each but the last, and what is left
of it when these are replaced. -/
structure Segmented (patterns : List (List α)) (marker text out : List α)
    (segments : List (List α × List α)) (last : List α) : Prop where
  text_eq : text = segments.flatMap (fun s => s.1 ++ s.2) ++ last
  out_eq : out = segments.flatMap (fun s => s.1 ++ marker) ++ last
  replaced : ∀ s ∈ segments, s.2 ∈ patterns
  copied : ∀ part ∈ last :: segments.map Prod.fst, ∀ p ∈ patterns, ¬p <:+: part

theorem Replaced.exists_segmented (hpatterns : ∀ p ∈ patterns, p ≠ [])
    (h : Replaced patterns marker text out) :
    ∃ segments last, Segmented patterns marker text out segments last := by
  have hnil (p : List α) (hp : p ∈ patterns) : ¬p <:+: [] := by simpa using hpatterns p hp
  induction h with
  | nil => exact ⟨[], [], rfl, rfl, by simp, by simpa using hnil⟩
  | @copy a text out hnone _ ih =>
      obtain ⟨segments, last, rfl, rfl, hmem, hfree⟩ := ih
      rw [List.forall_mem_cons] at hfree
      -- a pattern in a part that gets longer starts with it, or was in it before
      have hcons {part : List α} (hpart : part <+: segments.flatMap (fun s => s.1 ++ s.2) ++ last)
          (hfree : ∀ p ∈ patterns, ¬p <:+: part) (p : List α) (hp : p ∈ patterns) :
          ¬p <:+: a :: part := by
        rw [List.infix_cons_iff, not_or]
        exact ⟨fun h => hnone p hp (h.trans (List.cons_prefix_cons.mpr ⟨rfl, hpart⟩)), hfree p hp⟩
      cases segments with
      | nil => exact ⟨[], a :: last, rfl, rfl, hmem, by simpa using hcons List.prefix_rfl hfree.1⟩
      | cons first segments =>
          refine ⟨(a :: first.1, first.2) :: segments, last, rfl, rfl, by simpa using hmem, ?_⟩
          simp only [List.map_cons, List.forall_mem_cons] at hfree ⊢
          exact ⟨hfree.1, hcons (by simp [List.prefix_append]) hfree.2.1, hfree.2.2⟩
  | @replace p text out hlongest _ ih =>
      obtain ⟨segments, last, rfl, rfl, hmem, hfree⟩ := ih
      refine ⟨([], p) :: segments, last, by simp, by simp,
        List.forall_mem_cons.mpr ⟨hlongest.mem, hmem⟩, ?_⟩
      simp only [List.map_cons, List.forall_mem_cons] at hfree ⊢
      exact ⟨hfree.1, hnil, hfree.2⟩

end Replaced

/-! ### Seeing a text piece by piece -/

/-- Nothing that comes behind a text makes it start with another pattern. -/
def Stable (patterns : List (List α)) (seen future : List α) : Prop :=
  ∀ p ∈ patterns, p <+: seen ++ future → p <+: seen

theorem stable_nil (patterns : List (List α)) (seen : List α) : Stable patterns seen [] := by
  intro p _ hprefix
  rwa [List.append_nil] at hprefix

/-- What was seen may grow into a pattern that is longer. -/
def Grows (patterns : List (List α)) (seen : List α) : Prop :=
  ∃ p ∈ patterns, seen <+: p ∧ seen ≠ p

variable {seen future : List α}

theorem stable_of_not_grows (h : ¬Grows patterns seen) (future : List α) :
    Stable patterns seen future := by
  intro p hp hprefix
  rcases List.prefix_or_prefix_of_prefix hprefix (List.prefix_append seen future) with hle | hle
  · exact hle
  · by_cases heq : seen = p
    · rw [heq]
    · exact absurd ⟨p, hp, hle, heq⟩ h

theorem NoneAt.append (h : NoneAt patterns seen) (hstable : Stable patterns seen future) :
    NoneAt patterns (seen ++ future) :=
  fun p hp hprefix => h p hp (hstable p hp hprefix)

theorem LongestAt.append {p : List α} (h : LongestAt patterns seen p)
    (hstable : Stable patterns seen future) : LongestAt patterns (seen ++ future) p where
  mem := h.mem
  isPrefix := h.isPrefix.trans (List.prefix_append _ _)
  longest q hq hprefix := h.longest q hq (hstable q hq hprefix)

/-- Only what the patterns are matters, not their order. -/
theorem Matches.congr {patterns' : List (List α)} (hiff : ∀ p, p ∈ patterns' ↔ p ∈ patterns)
    {cursor : Nat} (h : Matches patterns text cursor found) :
    Matches patterns' text cursor found := by
  have hnone {text : List α} (h : NoneAt patterns text) : NoneAt patterns' text :=
    fun p hp => h p ((hiff p).mp hp)
  induction h with
  | none h => exact .none fun i hi => hnone (h i hi)
  | next hle hfirst hlongest _ ih =>
      refine .next hle (fun i hi hlt => hnone (hfirst i hi hlt)) ?_ ih
      exact ⟨(hiff _).mpr hlongest.mem, hlongest.isPrefix,
        fun q hq => hlongest.longest q ((hiff q).mp hq)⟩

end Jig.Lib

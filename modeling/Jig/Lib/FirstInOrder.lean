import Mathlib.Data.List.Perm.Subperm
import Mathlib.Data.List.Sort

/-!
# The first elements of an order

The first `n` elements of a list in a total order, computed from a part of the list.
`take_insertionSort_of_crowded` says which parts are enough: every element that is left out has `n`
elements of the part below it. A list that is cut off after its first `n` elements leaves out only
such elements (`crowded_take`).
-/

namespace Jig.Lib

universe u

variable {α : Type u} {r : α → α → Prop} [DecidableRel r] {n : Nat} {l : List α} {a : α}
  {part : List α}

/-- There are `n` elements of the list below the element. -/
def Crowded (r : α → α → Prop) [DecidableRel r] (n : Nat) (l : List α) (a : α) : Prop :=
  n ≤ l.countP (r · a)

theorem Crowded.of_subperm {l' : List α} (h : Crowded r n l a) (hl : l.Subperm l') :
    Crowded r n l' a :=
  h.trans (hl.countP_le _)

/-- What a sorted list loses when it is cut off has `n` elements of the rest below it. -/
theorem crowded_take (hl : l.Pairwise r) (ha : a ∈ l) (hcut : a ∉ l.take n) :
    Crowded r n (l.take n) a := by
  have hdrop : a ∈ l.drop n := by
    rw [← List.take_append_drop n l, List.mem_append] at ha
    exact ha.resolve_left hcut
  have hlength : n ≤ (l.take n).length := by
    have hpos : 0 < (l.drop n).length := List.length_pos_of_mem hdrop
    rw [List.length_drop] at hpos
    rw [List.length_take]
    omega
  have hbelow : ∀ b ∈ l.take n, r b a := by
    rw [← List.take_append_drop n l, List.pairwise_append] at hl
    intro b hb
    exact hl.2.2 b hb a hdrop
  have hall : (l.take n).countP (r · a) = (l.take n).length := by
    rw [List.countP_eq_length]
    simpa using hbelow
  unfold Crowded
  rwa [hall]

/-- The first elements of a sorted list are not crowded by others. -/
theorem not_crowded_of_mem_take [Std.Antisymm r] (hl : l.Pairwise r) (ha : a ∈ l.take n)
    (hpart : a ∉ part) (hsub : part ⊆ l) (hnodup : part.Nodup) : ¬ Crowded r n part a := by
  obtain ⟨i, hi, rfl⟩ := List.mem_take_iff_getElem.mp ha
  have hil : i < l.length := hi.trans_le (Nat.min_le_right _ _)
  have hbefore : part.filter (r · l[i]) ⊆ l.take i := by
    intro b hb
    rw [List.mem_filter, decide_eq_true_eq] at hb
    obtain ⟨hb, hba⟩ := hb
    have hsplit : l = l.take i ++ l[i] :: l.drop (i + 1) := by
      rw [List.getElem_cons_drop, List.take_append_drop]
    have hne : b ≠ l[i] := fun heq => hpart (heq ▸ hb)
    have hmem := hsub hb
    rw [hsplit, List.mem_append, List.mem_cons] at hmem
    rcases hmem with hmem | hmem | hmem
    · exact hmem
    · exact absurd hmem hne
    · -- what follows is above, so that it cannot be below as well
      rw [hsplit, List.pairwise_append, List.pairwise_cons] at hl
      exact absurd (antisymm hba (hl.2.1.1 b hmem)) hne
  have hlength := (List.Nodup.subperm (hnodup.filter _) hbefore).length_le
  unfold Crowded
  rw [List.countP_eq_length_filter]
  rw [List.length_take] at hlength
  omega

omit [DecidableRel r] in
theorem take_filter_of_forall {p : α → Bool} (h : ∀ a ∈ l.take n, p a = true) :
    (l.filter p).take n = l.take n := by
  induction l generalizing n with
  | nil => rfl
  | cons head l ih =>
      cases n with
      | zero => rfl
      | succ n =>
          rw [List.take_succ_cons, List.forall_mem_cons] at h
          rw [List.filter_cons_of_pos h.1, List.take_succ_cons, List.take_succ_cons, ih h.2]

section Order

variable [Std.Total r] [IsTrans α r] [Std.Antisymm r] [DecidableEq α]

/-- Sorting a part is the part of the sorted list. -/
theorem insertionSort_eq_filter (hpart : part.Nodup) (hl : l.Nodup) (hsub : part ⊆ l) :
    part.insertionSort r = (l.insertionSort r).filter (· ∈ part) := by
  have hperm : (part.insertionSort r).Perm ((l.insertionSort r).filter (· ∈ part)) := by
    apply (List.perm_insertionSort r part).trans
    rw [List.perm_ext_iff_of_nodup hpart
      (((List.perm_insertionSort r l).nodup_iff.mpr hl).filter _)]
    intro a
    simp only [List.mem_filter, List.mem_insertionSort, decide_eq_true_eq]
    exact ⟨fun ha => ⟨hsub ha, ha⟩, And.right⟩
  exact hperm.eq_of_pairwise' (List.pairwise_insertionSort r part)
    ((List.pairwise_insertionSort r l).filter _)

/-- **Truncation.** -/
theorem take_insertionSort_of_crowded (hl : l.Nodup) (hpart : part.Nodup) (hsub : part ⊆ l)
    (hcrowded : ∀ a ∈ l, a ∉ part → Crowded r n part a) :
    (part.insertionSort r).take n = (l.insertionSort r).take n := by
  rw [insertionSort_eq_filter hpart hl hsub]
  apply take_filter_of_forall
  intro a ha
  rw [decide_eq_true_eq]
  by_contra hout
  have hmem : a ∈ l := (List.mem_insertionSort r).mp (List.mem_of_mem_take ha)
  have hsub' : part ⊆ l.insertionSort r := fun b hb => (List.mem_insertionSort r).mpr (hsub hb)
  exact not_crowded_of_mem_take (List.pairwise_insertionSort r l) ha hout hsub' hpart
    (hcrowded a hmem hout)

end Order

end Jig.Lib

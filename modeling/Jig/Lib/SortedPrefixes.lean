import Jig.Lib.Fallible
import Mathlib.Data.List.Chain
import Mathlib.Data.List.Perm.Basic

/-!
# Prefixes among sorted lists

Whatever lies between a list and an extension of it, in lexicographic order, extends the list too
(`isPrefix_of_between`). In a sorted sequence a list that comes before an extension of it therefore
comes right before one, and a search for two comparable lists may look at neighbours only
(`pairwise_incomparable_iff_isChain`).
-/

namespace Jig.Lib

open Std

universe u v

/-- A sort that need not be stable: equal elements come in any order. -/
structure UnstableSort {α : Type u} {κ : Type v} [Ord κ] (key : α → κ) where
  run : List α → List α
  perm : ∀ l, (run l).Perm l
  sorted : ∀ l, (run l).Pairwise fun a b => (compare (key a) (key b)).isLE = true

def UnstableSort.insertion {α : Type u} {κ : Type v} [Ord κ] [TransOrd κ] (key : α → κ) :
    UnstableSort key where
  run := List.insertionSort fun a b => (compare (key a) (key b)).isLE = true
  perm := List.perm_insertionSort _
  sorted l := by
    have : Std.Total fun a b => (compare (key a) (key b)).isLE = true :=
      ⟨fun a b => or_iff_not_imp_left.mpr fun h =>
        Ordering.isLE_of_eq_lt (OrientedCmp.lt_of_not_isLE h)⟩
    have : IsTrans α fun a b => (compare (key a) (key b)).isLE = true :=
      ⟨fun _ _ _ => TransCmp.isLE_trans⟩
    exact List.pairwise_insertionSort _ l

def Incomparable {α : Type u} (l₁ l₂ : List α) : Prop :=
  ¬l₁ <+: l₂ ∧ ¬l₂ <+: l₁

theorem Incomparable.symm {α : Type u} {l₁ l₂ : List α} (h : Incomparable l₁ l₂) :
    Incomparable l₂ l₁ :=
  And.symm h

section Ordered

variable {α : Type u} [Ord α]

theorem isLE_head_of_isLE_cons {a b : α} {l₁ l₂ : List α}
    (h : (compare (a :: l₁) (b :: l₂)).isLE = true) : (compare a b).isLE = true := by
  rw [List.compare_cons_cons] at h
  cases hab : compare a b <;> simp_all

variable [LawfulEqOrd α]

theorem isLE_tail_of_isLE_cons {a : α} {l₁ l₂ : List α}
    (h : (compare (a :: l₁) (a :: l₂)).isLE = true) : (compare l₁ l₂).isLE = true := by
  rwa [List.compare_cons_cons, ReflOrd.compare_self] at h

/-- A list comes before its extensions. -/
theorem isLE_of_isPrefix {l₁ l₂ : List α} (h : l₁ <+: l₂) : (compare l₁ l₂).isLE = true := by
  obtain ⟨rest, rfl⟩ := h
  induction l₁ with
  | nil => exact List.isLE_compareLex_nil_left
  | cons a l₁ ih =>
      rw [List.cons_append, List.compare_cons_cons, ReflOrd.compare_self]
      exact ih

variable [TransOrd α]

/-- What lies between a list and an extension of it is an extension as well. -/
theorem isPrefix_of_between {lower middle upper : List α} (h : lower <+: upper)
    (hlower : (compare lower middle).isLE = true) (hupper : (compare middle upper).isLE = true) :
    lower <+: middle := by
  induction lower generalizing middle upper with
  | nil => exact List.nil_prefix
  | cons a lower ih =>
      obtain ⟨rest, rfl⟩ := h
      cases middle with
      | nil => simp at hlower
      | cons b middle =>
          -- the heads bound each other
          obtain rfl : a = b := LawfulEqOrd.eq_of_compare (OrientedCmp.isLE_antisymm
            (isLE_head_of_isLE_cons hlower) (isLE_head_of_isLE_cons hupper))
          rw [List.cons_prefix_cons]
          exact ⟨rfl, ih (List.prefix_append lower rest) (isLE_tail_of_isLE_cons hlower)
            (isLE_tail_of_isLE_cons hupper)⟩

/-- **Neighbours suffice.** In a sorted sequence no two lists are comparable exactly when no list is
extended by the next one. -/
theorem pairwise_incomparable_iff_isChain {lists : List (List α)}
    (hsorted : lists.Pairwise fun l₁ l₂ => (compare l₁ l₂).isLE = true) :
    lists.Pairwise Incomparable ↔ lists.IsChain fun l₁ l₂ => ¬l₁ <+: l₂ := by
  constructor
  · intro h
    exact (h.imp fun hne => hne.1).isChain
  · intro h
    induction lists with
    | nil => exact .nil
    | cons first rest ih =>
        rw [List.pairwise_cons] at hsorted
        refine .cons ?_ (ih hsorted.2 h.tail)
        -- an extension of the first list makes the second one an extension
        have hnext : ∀ l ∈ rest, ¬first <+: l := by
          intro l hl hextends
          cases rest with
          | nil => cases hl
          | cons second rest =>
              rw [List.isChain_cons_cons] at h
              apply h.1
              rcases List.mem_cons.mp hl with rfl | hl
              · exact hextends
              · rw [List.pairwise_cons] at hsorted
                exact isPrefix_of_between hextends (hsorted.1 _ List.mem_cons_self)
                  (hsorted.2.1 l hl)
        intro l hl
        refine ⟨hnext l hl, fun hback => hnext l hl ?_⟩
        have heq : first = l := LawfulEqOrd.eq_of_compare
          (OrientedCmp.isLE_antisymm (hsorted.1 l hl) (isLE_of_isPrefix hback))
        exact heq ▸ List.prefix_refl first

end Ordered

end Jig.Lib

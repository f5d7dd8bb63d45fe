import Mathlib.Algebra.Order.BigOperators.Group.List
import Mathlib.Algebra.Order.Ring.Nat
import Mathlib.Data.List.Destutter
import Mathlib.Data.List.GetD
import Mathlib.Data.List.MinMax
import Mathlib.Data.List.Perm.Subperm
import Mathlib.Data.List.Sort
import Mathlib.Order.Nat

/-!
# Lists

Records with distinct keys, lists that correspond element by element, counts and sums, and what
loops make of a list: the elements with the greatest key (`keepMax`), values put into buckets
(`pushAll`), values added once (`addMissing`), and `sortDedup`.
-/

namespace Jig.Lib

variable {α κ : Type} {i : Nat}

/-- Records with distinct keys are found by their key. -/
theorem find?_eq_some_of_key_nodup [DecidableEq κ] {key : α → κ} {l : List α}
    (hnodup : (l.map key).Nodup) {a : α} (ha : a ∈ l) :
    l.find? (fun b => key b = key a) = some a := by
  cases hfind : l.find? (fun b => key b = key a) with
  | none =>
      have hnone := List.find?_eq_none.mp hfind a ha
      simp at hnone
  | some b =>
      have hkey : key b = key a := by simpa using List.find?_some hfind
      rw [List.inj_on_of_nodup_map hnodup (List.mem_of_find?_eq_some hfind) ha hkey]

/-- Records with distinct keys, where some have none: a key has one record. -/
theorem eq_of_filterMap_nodup {key : α → Option κ} {l : List α} (hnodup : (l.filterMap key).Nodup)
    {a b : α} (ha : a ∈ l) (hb : b ∈ l) {k : κ} (hka : key a = some k) (hkb : key b = some k) :
    a = b := by
  by_contra hne
  have hpairs := List.pairwise_filterMap.mp hnodup
  have hsymm : Std.Symm fun a b => ∀ k, key a = some k → ∀ k', key b = some k' → k ≠ k' :=
    ⟨fun a b h k hk k' hk' => (h k' hk' k hk).symm⟩
  exact hpairs.forall ha hb hne k hka k hkb rfl

/-- What holds of the elements of a list and of one more. -/
theorem forall_mem_concat {α : Type*} {p : α → Prop} {l : List α} {a : α} (hl : ∀ b ∈ l, p b)
    (ha : p a) : ∀ b ∈ l ++ [a], p b := by
  rw [List.forall_mem_append, List.forall_mem_singleton]
  exact ⟨hl, ha⟩

theorem exists_mem_concat {α : Type*} {p : α → Prop} {l : List α} {a : α} :
    (∃ b ∈ l ++ [a], p b) ↔ (∃ b ∈ l, p b) ∨ p a := by
  simp [or_and_right, exists_or]

/-! ## Lists that correspond element by element -/

section Forall₂

variable {β γ : Type} {R : α → β → Prop} {l : List α} {l' : List β}

theorem forall₂_map_eq_map (h : List.Forall₂ R l l') {f : α → γ} {g : β → γ}
    (hR : ∀ a b, R a b → f a = g b) : l.map f = l'.map g := by
  induction h with
  | nil => rfl
  | cons hab _ ih => rw [List.map_cons, List.map_cons, hR _ _ hab, ih]

theorem forall₂_exists_left (h : List.Forall₂ R l l') {b : β} (hb : b ∈ l') : ∃ a ∈ l, R a b := by
  induction h with
  | nil => cases hb
  | cons hab _ ih =>
      rcases List.mem_cons.mp hb with rfl | hb
      · exact ⟨_, List.mem_cons_self, hab⟩
      · obtain ⟨a, ha, hR⟩ := ih hb
        exact ⟨a, List.mem_cons_of_mem _ ha, hR⟩

theorem forall₂_exists_right (h : List.Forall₂ R l l') {a : α} (ha : a ∈ l) : ∃ b ∈ l', R a b :=
  forall₂_exists_left h.flip ha

end Forall₂

/-! ## Counting -/

/-- Counting with one element left out. -/
theorem countP_eq_add_count [DecidableEq α] {p q : α → Bool} {i : α}
    (h : ∀ a, q a = (p a && decide (a ≠ i))) (l : List α) :
    l.countP p = l.countP q + if p i then l.count i else 0 := by
  induction l with
  | nil => simp
  | cons a l ih =>
      rw [List.countP_cons, List.countP_cons, List.count_cons, ih, h]
      by_cases ha : a = i
      · subst ha
        cases p a <;> simp [Nat.add_assoc]
      · simp only [ha, ne_eq, not_false_eq_true, decide_true, Bool.and_true, beq_iff_eq, if_false,
          Nat.add_zero]
        omega

/-- Counting what is left after one more element has gone. -/
theorem countP_notMem_concat [DecidableEq α] {l done : List α} {i : α} (hi : i ∉ done) :
    l.countP (· ∉ done ++ [i]) + l.count i = l.countP (· ∉ done) := by
  rw [countP_eq_add_count (p := (· ∉ done)) (q := (· ∉ done ++ [i])) (i := i) (by simp) l,
    if_pos (decide_eq_true hi)]

/-- Of a list without repetitions, the elements outside a part of it are the rest. -/
theorem countP_notMem_add_length [DecidableEq α] {l part : List α} (hl : l.Nodup)
    (hpart : part.Nodup) (hsub : part ⊆ l) : l.countP (· ∉ part) + part.length = l.length := by
  have hfilter : (l.filter (· ∈ part)).Perm part := by
    apply (List.perm_ext_iff_of_nodup (hl.filter _) hpart).mpr
    intro a
    rw [List.mem_filter, decide_eq_true_eq]
    exact ⟨fun h => h.2, fun h => ⟨hsub h, h⟩⟩
  rw [← hfilter.length_eq, ← List.countP_eq_length_filter,
    List.length_eq_countP_add_countP (fun a => decide (a ∈ part)), Nat.add_comm]
  congr 1
  apply List.countP_congr
  intro a _
  simp

/-- Counting by index. -/
theorem countP_eq_countP_range (p : α → Bool) (l : List α) :
    l.countP p = (List.range l.length).countP fun i => (l[i]?).any p := by
  induction l with
  | nil => rfl
  | cons a l ih =>
      rw [List.countP_cons, List.length_cons, List.range_succ_eq_map, List.countP_cons,
        List.countP_map, ih]
      rfl

theorem countP_range_except {n : Nat} {p q : Nat → Bool} (hi : i < n)
    (h : ∀ j, q j = (p j && decide (j ≠ i))) :
    (List.range n).countP p = (List.range n).countP q + if p i then 1 else 0 := by
  rw [countP_eq_add_count h, List.count_eq_one_of_mem List.nodup_range (List.mem_range.mpr hi)]

/-! ## Sums and maxima -/

theorem sum_map_filterMap {α β : Type*} (entry : α → Option β) (g : β → Nat) (l : List α) :
    ((l.filterMap entry).map g).sum = (l.map fun a => ((entry a).map g).getD 0).sum := by
  induction l with
  | nil => rfl
  | cons a l ih => cases hentry : entry a <;> simp [hentry, ih]

/-- A sum over part of what a list is mapped to. -/
theorem sum_map_filter_filterMap {α β : Type*} (entry : α → Option β) (p : β → Bool) (g : β → Nat)
    (l : List α) :
    (((l.filterMap entry).filter p).map g).sum =
      ((l.filter fun a => (entry a).any p).map fun a => ((entry a).map g).getD 0).sum := by
  rw [← sum_map_filterMap, List.filterMap_filter, List.filter_filterMap]
  congr 3
  funext a
  cases entry a <;> simp [Option.filter]

/-- **Sums along an injection.** Where every element has no value or at most the value of its
parent, and no two elements share a parent, the sum is at most the sum over the parents. -/
theorem sum_map_le_of_parent {α β : Type*} {parent : α → Option β} {f : α → Nat} {g : β → Nat}
    {l : List α} {l' : List β} (hnodup : (l.filterMap parent).Nodup)
    (hmem : ∀ a ∈ l, ∀ b, parent a = some b → b ∈ l')
    (hle : ∀ a ∈ l, f a ≤ ((parent a).map g).getD 0) : (l.map f).sum ≤ (l'.map g).sum := by
  have hparents : (l.map f).sum ≤ ((l.filterMap parent).map g).sum := by
    rw [sum_map_filterMap]
    exact List.sum_le_sum hle
  have hsubset : l.filterMap parent ⊆ l' := by
    intro b hb
    obtain ⟨a, ha, hab⟩ := List.mem_filterMap.mp hb
    exact hmem a ha b hab
  obtain ⟨part, hperm, hsublist⟩ := List.Nodup.subperm hnodup hsubset
  calc (l.map f).sum ≤ ((l.filterMap parent).map g).sum := hparents
    _ = (part.map g).sum := (hperm.map g).sum_nat.symm
    _ ≤ (l'.map g).sum := (hsublist.map g).sum_le_sum fun _ _ => Nat.zero_le _

/-- A sum drops by what one of its terms loses, when no term grows. -/
theorem sum_map_add_le {α : Type*} {f g : α → Nat} {l : List α} {c : Nat}
    (hle : ∀ a ∈ l, f a ≤ g a) {a : α} (ha : a ∈ l) (hdrop : f a + c ≤ g a) :
    (l.map f).sum + c ≤ (l.map g).sum := by
  induction l with
  | nil => cases ha
  | cons b l ih =>
      rw [List.forall_mem_cons] at hle
      simp only [List.map_cons, List.sum_cons]
      rcases List.mem_cons.mp ha with rfl | ha
      · have hrest := List.sum_le_sum hle.2
        omega
      · have := ih hle.2 ha
        omega

theorem foldr_max_eq {α : Type*} {f : α → Nat} {l : List α} {n : Nat} (hle : ∀ a ∈ l, f a ≤ n)
    (hmax : n = 0 ∨ ∃ a ∈ l, f a = n) : l.foldr (fun a m => max (f a) m) 0 = n := by
  have hmap : l.foldr (fun a m => max (f a) m) 0 = (l.map f).foldr max ⊥ := List.foldr_map.symm
  rw [hmap]
  apply le_antisymm
  · exact List.max_le_of_forall_le _ _ (List.forall_mem_map.mpr hle)
  · rcases hmax with rfl | ⟨a, ha, rfl⟩
    · exact Nat.zero_le _
    · exact List.le_max_of_le (List.mem_map_of_mem ha) le_rfl

/-! ### Loops -/

section Loops

variable {σ α : Type*} {f : σ → α → σ}

/-- What no step changes. -/
theorem foldl_keeps {γ : Type*} {g : σ → γ} (h : ∀ s a, g (f s a) = g s) (l : List α) (s : σ) :
    g (l.foldl f s) = g s := by
  induction l generalizing s with
  | nil => rfl
  | cons a l ih => rw [List.foldl_cons, ih, h]

/-- What is there at the start or comes with some element. -/
theorem foldl_iff_or {P : σ → Prop} {q : α → Prop} (h : ∀ s a, P (f s a) ↔ P s ∨ q a) (l : List α)
    (s : σ) : P (l.foldl f s) ↔ P s ∨ ∃ a ∈ l, q a := by
  induction l generalizing s with
  | nil => simp
  | cons a l ih =>
      rw [List.foldl_cons, ih, h]
      simp only [List.mem_cons, exists_eq_or_imp, or_assoc]

end Loops

/-! ### Positions -/

section Positions

variable {α β : Type*}

theorem getElem?_concat_eq_some {l : List α} {a b : α} :
    (l ++ [a])[i]? = some b ↔ l[i]? = some b ∨ i = l.length ∧ a = b := by
  rcases lt_trichotomy i l.length with hlt | rfl | hgt
  · simp [List.getElem?_append_left hlt, hlt.ne]
  · simp
  · have hnone : (l ++ [a])[i]? = none := List.getElem?_eq_none (by simp; omega)
    simp [hnone, List.getElem?_eq_none hgt.le, hgt.ne']

theorem getElem?_eq_some_getD {l : List α} (d : α) (hi : i < l.length) :
    l[i]? = some (l.getD i d) := by
  rw [List.getD_eq_getElem l d hi, List.getElem?_eq_getElem hi]

theorem getD_replicate (n j : Nat) (d : α) : (List.replicate n d).getD j d = d :=
  List.getElem?_getD_replicate_default_eq d n j

theorem getD_modify {l : List α} (f : α → α) (d : α) (hi : i < l.length) (j : Nat) :
    (l.modify i f).getD j d = if j = i then f (l.getD i d) else l.getD j d := by
  simp only [List.getD_eq_getElem?_getD, List.getElem?_modify]
  by_cases hj : j = i
  · simp [hj, List.getElem?_eq_getElem hi]
  · simp [hj, Ne.symm hj]

theorem notMem_getD_replicate_nil {n : Nat} {b : β} :
    b ∉ (List.replicate n ([] : List β)).getD i [] := by
  rw [getD_replicate]
  exact List.not_mem_nil

/-- Put each value behind those at its position. -/
def pushAll (buckets : List (List β)) (pairs : List (Nat × β)) : List (List β) :=
  pairs.foldl (fun buckets pair => buckets.modify pair.1 (· ++ [pair.2])) buckets

theorem length_pushAll {buckets : List (List β)} {pairs : List (Nat × β)} :
    (pushAll buckets pairs).length = buckets.length :=
  foldl_keeps (fun _ _ => List.length_modify ..) pairs buckets

theorem mem_getD_pushAll {buckets : List (List β)} {pairs : List (Nat × β)} {b : β} :
    b ∈ (pushAll buckets pairs).getD i [] ↔
      b ∈ buckets.getD i [] ∨ i < buckets.length ∧ (i, b) ∈ pairs := by
  unfold pushAll
  induction pairs generalizing buckets with
  | nil => simp
  | cons pair pairs ih =>
      rw [List.foldl_cons, ih, List.length_modify]
      simp only [List.getD_eq_getElem?_getD, List.getElem?_modify, List.mem_cons]
      by_cases hi : i < buckets.length
      · by_cases hpair : pair.1 = i
        · simp only [List.getElem?_eq_getElem hi, hpair, if_true, Option.map_eq_map, Option.map_some,
            Option.getD_some, List.mem_append, List.mem_singleton, hi, true_and]
          constructor
          · rintro ((hb | rfl) | hmem)
            · exact .inl hb
            · exact .inr (.inl (by rw [← hpair]))
            · exact .inr (.inr hmem)
          · rintro (hb | rfl | hmem)
            · exact .inl (.inl hb)
            · exact .inl (.inr rfl)
            · exact .inr hmem
        · have hne : (i, b) ≠ pair := fun heq => hpair (by rw [← heq])
          simp [hpair, hi, hne]
      · simp [hi]

end Positions

/-! ### Adding what is missing -/

section AddMissing

variable {α β : Type*} [DecidableEq β] {f : α → β} {p : α → Bool}

/-- Add a value of a chosen element at the end, if it is not there. -/
def addMissing (p : α → Bool) (f : α → β) (found : List β) (a : α) : List β :=
  if p a && !found.contains (f a) then found ++ [f a] else found

theorem mem_foldl_addMissing {l : List α} {found : List β} {b : β} :
    b ∈ l.foldl (addMissing p f) found ↔ b ∈ found ∨ ∃ a ∈ l, p a = true ∧ f a = b := by
  refine foldl_iff_or (P := (b ∈ ·)) (fun found a => ?_) l found
  unfold addMissing
  split <;> grind

theorem nodup_foldl_addMissing {l : List α} {found : List β} (h : found.Nodup) :
    (l.foldl (addMissing p f) found).Nodup := by
  refine List.foldlRecOn l _ h fun found hfound a _ => ?_
  unfold addMissing
  split
  · next hadd =>
      have hnew : f a ∉ found := by simpa using (Bool.and_eq_true_iff.mp hadd).2
      exact List.nodup_append'.mpr ⟨hfound, List.nodup_singleton _, by simpa using hnew⟩
  · exact hfound

end AddMissing

theorem eq_singleton_iff_of_nodup {α : Type*} {l : List α} (h : l.Nodup) {a : α} :
    l = [a] ↔ ∀ b, b ∈ l ↔ b = a := by
  constructor
  · rintro rfl b
    exact List.mem_singleton
  · intro hmem
    have hperm : l.Perm [a] := (List.perm_ext_iff_of_nodup h (List.nodup_singleton a)).mpr (by
      simpa using hmem)
    exact List.perm_singleton.mp hperm

/-! ### All maxima -/

section KeepMax

variable {α : Type*} {key : α → Nat}

/-- Keep the elements with the greatest key so far. -/
def keepMax (key : α → Nat) : Option Nat × List α → α → Option Nat × List α
  | (none, _), a => (some (key a), [a])
  | (some greatest, best), a =>
      if greatest < key a then (some (key a), [a])
      else if key a = greatest then (some greatest, best ++ [a])
      else (some greatest, best)

/-- The elements of a list with the greatest key. -/
def IsMaxOf (key : α → Nat) (l : List α) : Option Nat × List α → Prop
  | (none, best) => l = [] ∧ best = []
  | (some greatest, best) =>
      (∃ a ∈ l, key a = greatest) ∧ (∀ a ∈ l, key a ≤ greatest) ∧
        best = l.filter (key · = greatest)

theorem IsMaxOf.next {l : List α} {state : Option Nat × List α} (h : IsMaxOf key l state) (a : α) :
    IsMaxOf key (l ++ [a]) (keepMax key state a) := by
  obtain ⟨_ | greatest, best⟩ := state
  · obtain ⟨rfl, rfl⟩ := h
    simp [keepMax, IsMaxOf]
  · obtain ⟨⟨b, hb, hkey⟩, hle, rfl⟩ := h
    simp only [keepMax]
    split_ifs with hlt heq
    · refine ⟨⟨a, by simp, rfl⟩, forall_mem_concat (fun c hc => (hle c hc).trans hlt.le) le_rfl, ?_⟩
      have hnone : l.filter (key · = key a) = [] := by
        rw [List.filter_eq_nil_iff]
        intro c hc
        have := hle c hc
        simp only [decide_eq_true_eq]
        omega
      rw [List.filter_append, hnone]
      simp
    · refine ⟨⟨b, by simp [hb], hkey⟩, forall_mem_concat hle heq.le, ?_⟩
      simp [List.filter_append, heq]
    · refine ⟨⟨b, by simp [hb], hkey⟩, forall_mem_concat hle (not_lt.mp hlt), ?_⟩
      simp [List.filter_append, heq]

theorem foldl_keepMax (key : α → Nat) (l : List α) :
    IsMaxOf key l (l.foldl (keepMax key) (none, [])) := by
  induction l using List.reverseRecOn with
  | nil => exact ⟨rfl, rfl⟩
  | append_singleton l a ih =>
      rw [List.foldl_concat]
      exact ih.next a

theorem mem_foldl_keepMax {l : List α} {a : α} :
    a ∈ (l.foldl (keepMax key) (none, [])).2 ↔ a ∈ l ∧ ∀ b ∈ l, key b ≤ key a := by
  have h := foldl_keepMax key l
  generalize l.foldl (keepMax key) (none, []) = state at h ⊢
  obtain ⟨_ | greatest, best⟩ := state
  · obtain ⟨rfl, rfl⟩ := h
    simp
  · obtain ⟨⟨b, hb, hkey⟩, hle, rfl⟩ := h
    simp only [List.mem_filter, decide_eq_true_eq, and_congr_right_iff]
    intro ha
    constructor
    · rintro rfl
      exact hle
    · intro hmax
      have := hmax b hb
      have := hle a ha
      omega

theorem exists_mem_foldl_keepMax (key : α → Nat) {l : List α} (h : l ≠ []) :
    ∃ a, a ∈ (l.foldl (keepMax key) (none, [])).2 := by
  have hmax := foldl_keepMax key l
  generalize l.foldl (keepMax key) (none, []) = state at hmax ⊢
  obtain ⟨_ | greatest, best⟩ := state
  · exact absurd hmax.1 h
  · obtain ⟨⟨a, ha, hkey⟩, -, rfl⟩ := hmax
    exact ⟨a, List.mem_filter.mpr ⟨ha, by simpa using hkey⟩⟩

theorem foldl_keepMax_sublist (l : List α) :
    (l.foldl (keepMax key) (none, [])).2.Sublist l := by
  have h := foldl_keepMax key l
  generalize l.foldl (keepMax key) (none, []) = state at h ⊢
  obtain ⟨_ | greatest, best⟩ := state
  · obtain ⟨rfl, rfl⟩ := h
    exact List.Sublist.refl _
  · obtain ⟨-, -, rfl⟩ := h
    exact List.filter_sublist

end KeepMax

/-! ### Sorted sets -/

section SortDedup

variable {α : Type*} [DecidableEq α]

theorem mem_destutter_ne {l : List α} {a : α} : a ∈ l.destutter (· ≠ ·) ↔ a ∈ l := by
  refine ⟨fun h => (List.destutter_sublist _ l).mem h, fun h => ?_⟩
  cases l with
  | nil => cases h
  | cons b l =>
      rw [List.destutter_cons']
      induction l generalizing b with
      | nil => simpa using h
      | cons c l ih =>
          by_cases hbc : b = c
          · rw [List.destutter'_cons_neg l (by simpa using hbc)]
            exact ih b (by simpa [hbc] using h)
          · rw [List.destutter'_cons_pos l hbc]
            rcases List.mem_cons.mp h with rfl | h
            · exact List.mem_cons_self
            · exact List.mem_cons_of_mem _ (ih c h)

/-- `sort` and `dedup` of a vector. -/
def sortDedup (le : α → α → Prop) [DecidableRel le] (l : List α) : List α :=
  (l.insertionSort le).destutter (· ≠ ·)

@[simp]
theorem mem_sortDedup {le : α → α → Prop} [DecidableRel le] {l : List α} {a : α} :
    a ∈ sortDedup le l ↔ a ∈ l := by
  rw [sortDedup, mem_destutter_ne, List.mem_insertionSort]

end SortDedup

end Jig.Lib

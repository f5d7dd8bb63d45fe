import Jig.Lib.FirstInOrder
import Jig.Repository.AffectedExact
import Jig.Repository.DistinctReasons

/-!
# Bounded evidence is exact

What `bounded_selection_reasons` shows of a target is determined by the set of all its reasons,
although each batch keeps only its first hundred reasons and a sum of digests. `allReasons` is that
set and `evidenceOf` what the set determines: all of it when it is small, otherwise the first
hundred reasons, their number and a digest of the sum.

* `value_sumDigest`: the digest of a batch is the sum modulo 2^256 of the digests of its reasons;
* `preview_eq`: truncating every batch commutes with sorting and truncating everything;
* `bounded_evidence_exact`: for every catalog, request and change.
-/

namespace Jig.Repository

open Jig.Contract Jig.Lib Std

/-! ## Specification -/

def allReasons (reasons : TargetSelectionReasons (List SelectionReason)) :
    ExtTreeSet SelectionReason :=
  reasons.batches.flatten.foldl (·.insert ·) reasons.explicit

def Digest.value (digest : Digest) : Nat := BigEndian.value digest.bytes

section Specification

variable (libs : Libraries)

/-- The sum of the numbers of the item digests. -/
def itemSum (reasons : List SelectionReason) : Nat :=
  (reasons.map fun reason => (selectionReasonItemDigest libs reason).value).sum

/-- The evidence a set of reasons determines. The digest is that of the number of reasons and of the
sum of their item digests modulo 2^256. -/
def evidenceOf (reasons : ExtTreeSet SelectionReason) : BoundedSelectionReasons :=
  if reasons.size ≤ maxSelectionReasons then
    { preview := reasons.toList, total := none, truncated := false, digest := none }
  else
    { preview := (reasons.toList.insertionSort (previewCmp · · != .gt)).take maxSelectionReasons
      total := some reasons.size
      truncated := true
      digest := some ("sha256:" ++ Text.lowerHex (libs.sha256 (selectionReasonsDigestDomain ++
        BigEndian.ofNat 8 reasons.size ++
          BigEndian.ofNat 32 (itemSum libs reasons.toList % 256 ^ 32))).bytes) }

end Specification

/-! ## Digests -/

variable {libs : Libraries}

section Digests

theorem Digest.eq_of_value_eq {a b : Digest} (h : a.value = b.value) : a = b := by
  have hbytes := BigEndian.value_injective (a.length_eq.trans b.length_eq.symm) h
  cases a
  cases b
  cases hbytes
  rfl

theorem Digest.value_lt (digest : Digest) : digest.value < 256 ^ 32 := by
  have hlt := BigEndian.value_lt digest.bytes
  rwa [digest.length_eq] at hlt

theorem value_zeroDigest : zeroDigest.value = 0 := by
  decide +kernel

theorem value_addSelectionReasonDigest (a b : Digest) :
    (addSelectionReasonDigest a b).value = (a.value + b.value) % 256 ^ 32 := by
  have hadd := BigEndian.value_addBytes (a.length_eq.trans b.length_eq.symm)
  rwa [a.length_eq] at hadd

/-- Folding digests into a sum adds the numbers they stand for modulo 2^256. -/
theorem value_foldl_add {α : Type} {digest : α → Digest} {number : α → Nat}
    (hdigest : ∀ a, (digest a).value = number a % 256 ^ 32) (l : List α) (start : Digest) :
    (l.foldl (fun sum a => addSelectionReasonDigest sum (digest a)) start).value =
      (start.value + (l.map number).sum) % 256 ^ 32 := by
  induction l generalizing start with
  | nil =>
      show start.value = (start.value + 0) % 256 ^ 32
      rw [Nat.add_zero, Nat.mod_eq_of_lt start.value_lt]
  | cons a l ih =>
      rw [List.foldl_cons, ih, value_addSelectionReasonDigest, hdigest, List.map_cons,
        List.sum_cons, Nat.mod_add_mod, Nat.add_right_comm, Nat.add_mod_mod, Nat.add_right_comm,
        Nat.add_assoc]

/-- The sum that a batch runs through its reasons. -/
def sumDigest (libs : Libraries) (reasons : List SelectionReason) : Digest :=
  reasons.foldl (fun sum reason =>
    addSelectionReasonDigest sum (selectionReasonItemDigest libs reason)) zeroDigest

theorem value_sumDigest (reasons : List SelectionReason) :
    (sumDigest libs reasons).value = itemSum libs reasons % 256 ^ 32 := by
  have hitem : ∀ reason, (selectionReasonItemDigest libs reason).value =
      (selectionReasonItemDigest libs reason).value % 256 ^ 32 := fun reason =>
    (Nat.mod_eq_of_lt (Digest.value_lt _)).symm
  unfold sumDigest
  rw [value_foldl_add hitem, value_zeroDigest, Nat.zero_add]
  rfl

theorem bytes_sumDigest (reasons : List SelectionReason) :
    (sumDigest libs reasons).bytes = BigEndian.ofNat 32 (itemSum libs reasons % 256 ^ 32) := by
  have hbytes := BigEndian.ofNat_value (sumDigest libs reasons).bytes
  rw [Digest.length_eq] at hbytes
  rw [← value_sumDigest]
  exact hbytes.symm

end Digests

/-! ## Batches -/

section Batches

/-- **A batch** keeps its first hundred reasons, their number and their sum. -/
theorem fromReasons_eq (reasons : List SelectionReason) :
    SelectionReasonBatch.fromReasons libs reasons =
      { preview := reasons.take maxSelectionReasons
        count := reasons.length
        sumDigest := sumDigest libs reasons } := by
  induction reasons using List.reverseRecOn with
  | nil => rfl
  | append_singleton reasons reason ih =>
      unfold SelectionReasonBatch.fromReasons at ih ⊢
      rw [List.foldl_concat, ih]
      have hsum : sumDigest libs (reasons ++ [reason]) =
          addSelectionReasonDigest (sumDigest libs reasons)
            (selectionReasonItemDigest libs reason) := List.foldl_concat ..
      rw [SelectionReasonBatch.push, hsum, List.length_append, List.take_append, List.length_take]
      congr 1
      by_cases hroom : reasons.length < maxSelectionReasons
      · rw [if_pos (by omega), List.take_of_length_le (Nat.le_of_lt hroom),
          List.take_of_length_le (by simp; omega)]
      · rw [if_neg (by omega), Nat.sub_eq_zero_of_le (by omega), List.take_zero, List.append_nil]

end Batches

/-! ## The order of a preview -/

section Order

instance : TransCmp previewCmp :=
  inferInstanceAs (TransCmp (compareLex (compareOn selectionReasonPriority) compare))

instance : LawfulEqCmp previewCmp where
  eq_of_compare {a b} h := by
    have hlex : (compare (selectionReasonPriority a) (selectionReasonPriority b)).then
        (compare a b) = .eq := h
    rw [Ordering.then_eq_eq] at hlex
    exact LawfulEqOrd.eq_of_compare hlex.2

abbrev ShownBefore (a b : SelectionReason) : Prop := (previewCmp a b != .gt) = true

theorem shownBefore_iff {a b : SelectionReason} : ShownBefore a b ↔ (previewCmp a b).isLE := by
  unfold ShownBefore
  cases previewCmp a b <;> simp

instance : Std.Total ShownBefore where
  total a b := by
    simp only [shownBefore_iff]
    cases hab : (previewCmp a b).isLE with
    | true => exact .inl rfl
    | false =>
        right
        have hswap : previewCmp b a = (previewCmp a b).swap := OrientedCmp.eq_swap
        rw [hswap]
        cases h : previewCmp a b <;> simp_all

instance : IsTrans SelectionReason ShownBefore where
  trans a b c hab hbc := by
    rw [shownBefore_iff] at *
    exact TransCmp.isLE_trans hab hbc

instance : Std.Antisymm ShownBefore where
  antisymm a b hab hba := by
    rw [shownBefore_iff] at *
    exact LawfulEqCmp.eq_of_compare (OrientedCmp.isLE_antisymm hab hba)

/-- Path reasons are shown in their natural order. -/
theorem shownBefore_of_paths {batch : List SelectionReason} (hascending : Ascending batch)
    (hpaths : ∀ reason ∈ batch, selectionReasonPriority reason = 1) :
    batch.Pairwise ShownBefore := by
  apply hascending.imp_of_mem
  intro a b ha hb hlt
  have hcmp : previewCmp a b = .lt := by
    show (compare (selectionReasonPriority a) (selectionReasonPriority b)).then (compare a b) = .lt
    rw [hpaths a ha, hpaths b hb, hlt]
    rfl
  rw [ShownBefore, hcmp]
  rfl

end Order

/-! ## All reasons of a target -/

section Bounded

variable {reasons : TargetSelectionReasons (List SelectionReason)} {reason : SelectionReason}

theorem mem_allReasons :
    reason ∈ allReasons reasons ↔
      reason ∈ reasons.explicit ∨ reason ∈ reasons.batches.flatten := by
  unfold allReasons
  rw [mem_treeSet_foldl_insert]
  exact or_comm

/-- The set lists the explicit reasons and the batches, each reason once. -/
theorem perm_allReasons (h : Evident reasons) :
    (allReasons reasons).toList.Perm (reasons.explicit.toList ++ reasons.batches.flatten) := by
  have hnodup : (reasons.explicit.toList ++ reasons.batches.flatten).Nodup := by
    rw [List.nodup_append']
    refine ⟨treeSet_toList_nodup _, h.distinct, ?_⟩
    intro reason hexplicit
    exact h.separate reason (ExtTreeSet.mem_toList.mp hexplicit)
  rw [List.perm_ext_iff_of_nodup (treeSet_toList_nodup _) hnodup]
  intro reason
  rw [ExtTreeSet.mem_toList, mem_allReasons, List.mem_append, ExtTreeSet.mem_toList]

theorem size_allReasons (h : Evident reasons) :
    (allReasons reasons).size =
      reasons.explicit.size + (reasons.batches.map List.length).sum := by
  have hlength := (perm_allReasons h).length_eq
  rwa [ExtTreeSet.length_toList, List.length_append, ExtTreeSet.length_toList,
    List.length_flatten] at hlength

/-- **The sum does not depend on the grouping.** -/
theorem sumDigest_allReasons (h : Evident reasons) :
    reasons.batches.foldl (fun sum batch => addSelectionReasonDigest sum (sumDigest libs batch))
        (sumDigest libs reasons.explicit.toList) =
      sumDigest libs (allReasons reasons).toList := by
  have hitems : itemSum libs (allReasons reasons).toList =
      itemSum libs reasons.explicit.toList + (reasons.batches.map (itemSum libs)).sum := by
    have hperm := ((perm_allReasons h).map fun reason =>
      (selectionReasonItemDigest libs reason).value).sum_nat
    rw [List.map_append, List.sum_append, List.map_flatten, List.sum_flatten, List.map_map] at hperm
    exact hperm
  apply Digest.eq_of_value_eq
  rw [value_foldl_add value_sumDigest, value_sumDigest, value_sumDigest, hitems, Nat.mod_add_mod]

/-- The reasons that are left when every batch is truncated. -/
def previewSet (reasons : TargetSelectionReasons (List SelectionReason)) :
    ExtTreeSet SelectionReason :=
  reasons.batches.foldl (fun preview batch =>
    (batch.take maxSelectionReasons).foldl (·.insert ·) preview) reasons.explicit

theorem mem_previewSet :
    reason ∈ previewSet reasons ↔ reason ∈ reasons.explicit ∨
      ∃ batch ∈ reasons.batches, reason ∈ batch.take maxSelectionReasons := by
  refine foldl_iff_or (P := (reason ∈ ·)) (fun preview batch => ?_) reasons.batches reasons.explicit
  rw [mem_treeSet_foldl_insert, or_comm]

/-- Truncation loses nothing when there are few reasons. -/
theorem previewSet_eq (hsmall : ∀ batch ∈ reasons.batches, batch.length ≤ maxSelectionReasons) :
    previewSet reasons = allReasons reasons := by
  apply ExtTreeSet.ext_mem
  intro reason
  rw [mem_previewSet, mem_allReasons, List.mem_flatten]
  apply or_congr_right
  refine exists_congr fun batch => and_congr_right fun hbatch => ?_
  rw [List.take_of_length_le (hsmall batch hbatch)]

/-- **Truncating first changes nothing.** -/
theorem preview_eq (h : Evident reasons) :
    ((previewSet reasons).toList.insertionSort ShownBefore).take maxSelectionReasons =
      ((allReasons reasons).toList.insertionSort ShownBefore).take maxSelectionReasons := by
  apply take_insertionSort_of_crowded (treeSet_toList_nodup _) (treeSet_toList_nodup _)
  · intro reason hreason
    rw [ExtTreeSet.mem_toList, mem_previewSet] at hreason
    rw [ExtTreeSet.mem_toList, mem_allReasons, List.mem_flatten]
    apply hreason.imp id
    rintro ⟨batch, hbatch, hin⟩
    exact ⟨batch, hbatch, List.mem_of_mem_take hin⟩
  · intro reason hall hcut
    rw [ExtTreeSet.mem_toList, mem_allReasons, List.mem_flatten] at hall
    rw [ExtTreeSet.mem_toList, mem_previewSet, not_or] at hcut
    obtain ⟨batch, hbatch, hin⟩ := hall.resolve_left hcut.1
    have hout : reason ∉ batch.take maxSelectionReasons := fun hkept =>
      hcut.2 ⟨batch, hbatch, hkept⟩
    -- the kept reasons of its own batch are all shown before it
    have hcrowded := crowded_take
      (shownBefore_of_paths (h.ascending batch hbatch) (h.paths batch hbatch)) hin hout
    apply hcrowded.of_subperm
    apply List.Nodup.subperm ((h.ascending batch hbatch).nodup.sublist (List.take_sublist _ _))
    intro kept hkept
    exact ExtTreeSet.mem_toList.mpr (mem_previewSet.mpr (.inr ⟨batch, hbatch, hkept⟩))

theorem foldl_add_length (batches : List (List SelectionReason)) (start : Nat) :
    batches.foldl (fun total batch => total + batch.length) start =
      start + (batches.map List.length).sum := by
  induction batches generalizing start with
  | nil => rfl
  | cons batch batches ih => rw [List.foldl_cons, ih, List.map_cons, List.sum_cons, Nat.add_assoc]

/-- **Bounded evidence is what the set of all reasons determines.** -/
theorem boundedSelectionReasons_eq (h : Evident reasons) :
    boundedSelectionReasons libs
        (reasons.mapBatches (SelectionReasonBatch.fromReasons libs)) =
      .ok (evidenceOf libs (allReasons reasons)) := by
  unfold boundedSelectionReasons
  simp only [TargetSelectionReasons.mapBatches, List.foldl_map, fromReasons_eq, foldl_add_length,
    ← size_allReasons h]
  have hpreview : reasons.batches.foldl (fun (preview : ExtTreeSet SelectionReason) batch =>
      (batch.take maxSelectionReasons).foldl (·.insert ·) preview) reasons.explicit =
        previewSet reasons := rfl
  rw [hpreview]
  unfold evidenceOf
  by_cases hsmall : (allReasons reasons).size ≤ maxSelectionReasons
  · have hlengths : ∀ batch ∈ reasons.batches, batch.length ≤ maxSelectionReasons := by
      intro batch hbatch
      rw [size_allReasons h] at hsmall
      have hle := (List.sublist_flatten_of_mem hbatch).length_le
      rw [List.length_flatten] at hle
      omega
    rw [if_pos hsmall, if_pos hsmall, previewSet_eq hlengths]
    rw [then_eq_ok, bailIf_eq_ok]
    simp [ExtTreeSet.length_toList]
  · rw [if_neg hsmall, if_neg hsmall, ← preview_eq h, ← bytes_sumDigest, ← sumDigest_allReasons h]
    rfl

end Bounded

/-! ## Every plan -/

/-- **Bounded evidence is exact.** The selection with truncated batches is the selection with full
batches, and what is shown of a target is what the set of all its reasons determines. -/
theorem bounded_evidence_exact {libs : Libraries} {catalog : RepositoryCatalog}
    {request : PlanRunRequest} {profile : Option ProfileId} {changedPaths : Option (List String)}
    {observedInputPaths : List String} {selected : TargetSelection SelectionReasonBatch}
    (h : selectTargets libs (SelectionReasonBatch.fromReasons libs) catalog request profile
      changedPaths observedInputPaths = .ok selected) :
    ∃ full : TargetSelection (List SelectionReason),
      selectTargets libs id catalog request profile changedPaths observedInputPaths = .ok full ∧
      full.keys = selected.keys ∧
      ∀ (target : TargetId) (reasons : TargetSelectionReasons SelectionReasonBatch),
        selected[target]? = some reasons →
          ∃ all : TargetSelectionReasons (List SelectionReason),
            full[target]? = some all ∧
            boundedSelectionReasons libs reasons = .ok (evidenceOf libs (allReasons all)) := by
  have hmap : selectTargets libs (SelectionReasonBatch.fromReasons libs ∘ id) catalog request
      profile changedPaths observedInputPaths = _ :=
    selectTargets_map (SelectionReasonBatch.fromReasons libs) request profile changedPaths
      observedInputPaths
  rw [Function.comp_id, h] at hmap
  cases hfull : selectTargets libs id catalog request profile changedPaths observedInputPaths with
  | error e =>
      rw [hfull] at hmap
      cases hmap
  | ok full =>
      rw [hfull] at hmap
      cases hmap
      refine ⟨full, rfl, ExtTreeMap.keys_map.symm, ?_⟩
      intro target reasons hget
      unfold TargetSelection.mapBatches at hget
      rw [ExtTreeMap.getElem?_map] at hget
      obtain ⟨all, hall, rfl⟩ := Option.map_eq_some_iff.mp hget
      exact ⟨all, hall, boundedSelectionReasons_eq (selectTargets_evident hfull target all hall)⟩

/-- A hundred files of the library. -/
def Layered.changedPaths : List String :=
  let digits := ["0", "1", "2", "3", "4", "5", "6", "7", "8", "9"]
  digits.flatMap fun tens => digits.map fun ones => "lib/" ++ tens ++ ones

/-- The selection of the smoke test after a change of the library. -/
def Layered.selection {B : Type} (build : List SelectionReason → B) (catalog : RepositoryCatalog) :
    Result (TargetSelection B) :=
  selectTargets .literal build catalog { selectors := ["app:smoke"] } none
    (some Layered.changedPaths) []

/-- The selector and the files make 101 reasons, so that the plan shows a hundred and a digest. -/
theorem bounded_evidence_exact_layered :
    ∃ catalog selected reasons all evidence, Layered.catalog = .ok catalog ∧
      Layered.selection (SelectionReasonBatch.fromReasons .literal) catalog = .ok selected ∧
      selected[Layered.smoke]? = some reasons ∧
      boundedSelectionReasons .literal reasons = .ok evidence ∧
      evidence = evidenceOf .literal (allReasons all) ∧
      evidence.preview.length = 100 ∧ evidence.total = some 101 ∧ evidence.digest.isSome := by
  have hrun : isOkAnd Layered.catalog (fun catalog =>
      isOkAnd (Layered.selection (SelectionReasonBatch.fromReasons .literal) catalog)
        fun selected => selected[Layered.smoke]?.any fun reasons =>
          isOkAnd (boundedSelectionReasons .literal reasons) fun evidence =>
            decide (evidence.preview.length = 100 ∧ evidence.total = some 101 ∧
              evidence.digest.isSome)) = true := by decide +kernel
  obtain ⟨catalog, hcatalog, hrun⟩ := exists_of_isOkAnd hrun
  obtain ⟨selected, hselected, hrun⟩ := exists_of_isOkAnd hrun
  obtain ⟨reasons, hreasons, hrun⟩ := Option.any_eq_true _ _ |>.mp hrun
  obtain ⟨evidence, hevidence, hshown⟩ := exists_of_isOkAnd hrun
  obtain ⟨full, -, -, hexact⟩ := bounded_evidence_exact hselected
  obtain ⟨all, -, hbounded⟩ := hexact _ _ hreasons
  exact ⟨catalog, selected, reasons, all, evidence, hcatalog, hselected, hreasons, hevidence,
    Except.ok.inj (hevidence.symm.trans hbounded), of_decide_eq_true hshown⟩

end Jig.Repository

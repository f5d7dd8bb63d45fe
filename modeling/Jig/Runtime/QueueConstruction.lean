import Jig.Runtime.QueueInvariant

/-!
# Building the ready queue

`ReadyQueue::new` succeeds on every structured plan (`new_eq_ok`), and the queue it returns starts a
run in the invariant of `QueueInvariant`: its indices follow the flattened execution layers, and the
tables it fills in one pass are the transposed dependency lists, with multiplicities.
-/

namespace Jig.Runtime

open Contract Lib State

/-! ## Numbering the targets -/

variable {tables : DependencyTables} {plan : RunPlan} {targets : List PositionedTarget}

section Numbering

theorem order_length (h : PlanStructure plan) :
    plan.executionLayers.flatten.length = plan.targets.length := by
  have hperm : plan.executionLayers.flatten.Perm (plan.targets.map (·.target)) :=
    (List.perm_ext_iff_of_nodup h.layers_nodup h.targets_nodup).mpr h.mem_layers
  rw [hperm.length_eq, List.length_map]

theorem plannedTarget_ok (h : PlanStructure plan) {t : TargetId}
    (ht : t ∈ plan.executionLayers.flatten) :
    ∃ planned ∈ plan.targets, planned.target = t ∧ plannedTarget plan t = .ok planned := by
  obtain ⟨planned, hplanned, rfl⟩ := List.mem_map.mp ((h.mem_layers t).mp ht)
  refine ⟨planned, hplanned, rfl, ?_⟩
  simp only [plannedTarget, find?_eq_some_of_key_nodup h.targets_nodup hplanned]

/-- All flattened layer entries resolve to positioned targets. -/
theorem positionedTargets_ok (h : PlanStructure plan) :
    ∃ targets, plan.executionLayers.flatten.zipIdx.mapM (positionedTarget plan) = .ok targets ∧
      targetIds targets = plan.executionLayers.flatten ∧
      ∀ target ∈ targets, target.1 ∈ plan.targets := by
  have hone : ∀ entry ∈ plan.executionLayers.flatten.zipIdx,
      ∃ target, positionedTarget plan entry = .ok target ∧ target.1.target = entry.1 ∧
        target.1 ∈ plan.targets := by
    rintro ⟨t, index⟩ hentry
    have hget := List.mem_zipIdx_iff_getElem?.mp hentry
    obtain ⟨planned, hmem, htarget, hfound⟩ := plannedTarget_ok h (List.mem_of_getElem? hget)
    have hlt : index + 1 ≤ plan.targets.length := by
      have := (List.getElem?_eq_some_iff.mp hget).1
      rw [order_length h] at this
      exact this
    refine ⟨(planned, ⟨index + 1, plan.targets.length, Nat.succ_pos index, hlt⟩), ?_, htarget,
      hmem⟩
    simp only [positionedTarget, hfound, PhasePosition.new, Nat.succ_pos, hlt, and_self, dite_true]
    rfl
  obtain ⟨targets, hok, hgood⟩ := mapM_ok_progress hone
  refine ⟨targets, hok, ?_, ?_⟩
  · rw [← List.zipIdx_map_fst 0 plan.executionLayers.flatten]
    exact (forall₂_map_eq_map hgood fun entry target h => h.1.symm).symm
  · intro target htarget
    obtain ⟨entry, _, hentry⟩ := forall₂_exists_left hgood htarget
    exact hentry.2

end Numbering

theorem getElem?_targetIndices (hnodup : (targetIds targets).Nodup) {t : TargetId}
    (ht : t ∈ targetIds targets) :
    (targetIndices targets)[t]? = some ((targetIds targets).idxOf t) := by
  have hkeys : targets.zipIdx.map (fun entry => entry.1.1.target) = targetIds targets := by
    have hmap := congrArg (List.map fun target : PositionedTarget => target.1.target)
      (List.zipIdx_map_fst 0 targets)
    rwa [List.map_map] at hmap
  have hlt : (targetIds targets).idxOf t < targets.length := by
    have := List.idxOf_lt_length_of_mem ht
    rwa [targetIds, List.length_map] at this
  rw [targetIndices, getElem?_insertAll_empty_eq_some (hkeys ▸ hnodup)]
  refine ⟨(targets[(targetIds targets).idxOf t], (targetIds targets).idxOf t), ?_, ?_, rfl⟩
  · exact List.mem_zipIdx_iff_getElem?.mpr (List.getElem?_eq_getElem hlt)
  · have hget : (targetIds targets)[(targetIds targets).idxOf t]? = some t :=
      List.getElem?_idxOf ht
    have hmap : (targetIds targets)[(targetIds targets).idxOf t]? =
        some targets[(targetIds targets).idxOf t].1.target := by
      simp only [targetIds, List.getElem?_map] at hlt ⊢
      rw [List.getElem?_eq_getElem hlt, Option.map_some]
    exact Option.some.inj (hmap.symm.trans hget)

/-! ## Filling the tables -/

/-- The tables after the first `k` targets and the given entries of target `k`. -/
structure TablesInv (targets : List PositionedTarget) (k : Nat) (entries : List Nat)
    (tables : DependencyTables) : Prop where
  dependents_length : tables.dependents.length = targets.length
  remaining_length : tables.remaining.length = targets.length
  dependents : ∀ p j, (tables.dependents.getD p []).count j =
    if j < k then (dependencyIndices targets j).count p else if j = k then entries.count p else 0
  remaining : ∀ j, tables.remaining.getD j 0 =
    if j < k then (dependencyIndices targets j).length else if j = k then entries.length else 0
  ready : ∀ j, j ∈ tables.ready ↔ j < k ∧ dependencyIndices targets j = []

section Tables

variable {indices : Std.ExtTreeMap TargetId Nat}

theorem addDependency_ok {k p : Nat} {entries : List Nat}
    (hinv : TablesInv targets k entries tables) (hk : k < targets.length) (hp : p < targets.length)
    {d : TargetId} (hd : indices[d]? = some p) :
    ∃ tables', addDependency indices k tables d = .ok tables' ∧
      TablesInv targets k (entries ++ [p]) tables' := by
  refine ⟨{ tables with
    dependents := tables.dependents.modify p (· ++ [k])
    remaining := tables.remaining.modify k (· + 1) }, by simp only [addDependency, hd], ?_⟩
  constructor
  · rw [List.length_modify, hinv.dependents_length]
  · rw [List.length_modify, hinv.remaining_length]
  · intro p' j
    have hold := hinv.dependents p' j
    show ((tables.dependents.modify p (· ++ [k])).getD p' []).count j = _
    rw [getD_modify _ _ (hinv.dependents_length ▸ hp)]
    by_cases hpp : p' = p
    · rw [if_pos hpp, ← hpp, List.count_append, hold, List.count_singleton]
      rcases Nat.lt_trichotomy j k with hjk | rfl | hjk
      · simp [hjk, Nat.ne_of_gt hjk]
      · simp [hpp]
      · simp [Nat.not_lt_of_gt hjk, Nat.ne_of_gt hjk, Nat.ne_of_lt hjk]
    · rw [if_neg hpp, hold, List.count_append, List.count_singleton]
      simp [Ne.symm hpp]
  · intro j
    have hold := hinv.remaining j
    show (tables.remaining.modify k (· + 1)).getD j 0 = _
    rw [getD_modify _ _ (hinv.remaining_length ▸ hk)]
    by_cases hjk : j = k
    · subst hjk
      simpa using hold
    · simpa [hjk] using hold
  · exact hinv.ready

theorem addDependencies_ok {k : Nat} (hinv : TablesInv targets k [] tables)
    (hk : k < targets.length) {l : List TargetId} {index : TargetId → Nat}
    (hindex : ∀ d ∈ l, indices[d]? = some (index d) ∧ index d < targets.length) :
    ∃ tables', l.foldlM (addDependency indices k) tables = .ok tables' ∧
      TablesInv targets k (l.map index) tables' := by
  apply foldlM_ok_progress fun done tables => TablesInv targets k (done.map index) tables
  · exact hinv
  · intro done d tables hprefix hdone
    have hd : d ∈ l := hprefix.subset (by simp)
    rw [List.map_append]
    exact addDependency_ok hdone hk (hindex d hd).2 (hindex d hd).1

theorem addTarget_ok {k : Nat} (hinv : TablesInv targets k [] tables) {target : PositionedTarget}
    (hk : targets[k]? = some target)
    (hindex : ∀ d ∈ target.1.dependsOn, indices[d]? = some ((targetIds targets).idxOf d) ∧
      (targetIds targets).idxOf d < targets.length) :
    ∃ tables', addTarget indices tables (target, k) = .ok tables' ∧
      TablesInv targets (k + 1) [] tables' := by
  have hlt : k < targets.length := (List.getElem?_eq_some_iff.mp hk).1
  obtain ⟨filled, hfilled, hinv'⟩ := addDependencies_ok hinv hlt hindex
  have hentries : target.1.dependsOn.map (targetIds targets).idxOf = dependencyIndices targets k := by
    simp only [dependencyIndices, hk]
  rw [hentries] at hinv'
  -- the entries of target `k` are complete: from here on it counts as processed
  have hcomplete : ∀ (P : Nat → Nat → Nat) (z : Nat) (j : Nat),
      (if j < k then P j z else if j = k then P k z else 0) =
        if j < k + 1 then P j z else if j = k + 1 then 0 else 0 := by
    intro P z j
    rcases Nat.lt_trichotomy j k with h | rfl | h
    · simp [h, Nat.lt_succ_of_lt h]
    · simp
    · simp [Nat.not_lt_of_gt h, Nat.ne_of_gt h, Nat.not_lt_of_ge (Nat.succ_le_of_lt h)]
  have hremaining : filled.remaining[k]? = some (dependencyIndices targets k).length := by
    rw [getElem?_eq_some_getD 0 (hinv'.remaining_length ▸ hlt), hinv'.remaining]
    simp
  have hdependents : ∀ p j, (filled.dependents.getD p []).count j =
      if j < k + 1 then (dependencyIndices targets j).count p
        else if j = k + 1 then ([] : List Nat).count p else 0 := by
    intro p j
    rw [hinv'.dependents, List.count_nil]
    exact hcomplete (fun j p => (dependencyIndices targets j).count p) p j
  have hcounts : ∀ j, filled.remaining.getD j 0 =
      if j < k + 1 then (dependencyIndices targets j).length
        else if j = k + 1 then ([] : List Nat).length else 0 := by
    intro j
    rw [hinv'.remaining, List.length_nil]
    exact hcomplete (fun j _ => (dependencyIndices targets j).length) 0 j
  have hadd : addTarget indices tables (target, k) =
      if (dependencyIndices targets k).length = 0 then
        .ok { filled with ready := filled.ready.insert k } else .ok filled := by
    simp only [addTarget, hfilled, hremaining, Option.some.injEq, bind, Except.bind]
  have hready : ∀ j, (j < k + 1 ∧ dependencyIndices targets j = []) ↔
      j ∈ filled.ready ∨ j = k ∧ (dependencyIndices targets k).length = 0 := by
    intro j
    rw [hinv'.ready, Nat.lt_succ_iff_lt_or_eq, or_and_right, List.length_eq_zero_iff]
    exact or_congr_right (and_congr_right fun hj => by rw [hj])
  by_cases hnil : (dependencyIndices targets k).length = 0
  · rw [if_pos hnil] at hadd
    refine ⟨_, hadd, hinv'.dependents_length, hinv'.remaining_length, hdependents, hcounts, ?_⟩
    intro j
    rw [hready, mem_treeSet_insert, and_iff_left hnil, or_comm, eq_comm]
  · rw [if_neg hnil] at hadd
    refine ⟨_, hadd, hinv'.dependents_length, hinv'.remaining_length, hdependents, hcounts, ?_⟩
    intro j
    rw [hready, or_iff_left fun h => hnil h.2]

/-- The whole pass over the targets. -/
theorem addTargets_ok (hindex : ∀ target ∈ targets, ∀ d ∈ target.1.dependsOn,
      indices[d]? = some ((targetIds targets).idxOf d) ∧
        (targetIds targets).idxOf d < targets.length) :
    ∃ tables, targets.zipIdx.foldlM (addTarget indices)
        { dependents := List.replicate targets.length []
          remaining := List.replicate targets.length 0
          ready := ∅ } = .ok tables ∧
      TablesInv targets targets.length [] tables := by
  have hstart : TablesInv targets ([] : List (PositionedTarget × Nat)).length []
      { dependents := List.replicate targets.length []
        remaining := List.replicate targets.length 0
        ready := ∅ } := by
    constructor
    · exact List.length_replicate
    · exact List.length_replicate
    · intro p j
      rw [getD_replicate]
      simp
    · intro j
      rw [getD_replicate]
      simp
    · intro j
      simp
  obtain ⟨tables, hok, hinv⟩ := foldlM_ok_progress
    (fun (done : List (PositionedTarget × Nat)) tables => TablesInv targets done.length [] tables)
    hstart (f := addTarget indices) (l := targets.zipIdx) (by
      rintro done ⟨target, index⟩ tables hprefix hdone
      obtain ⟨rest, hrest⟩ := hprefix
      have hget : targets.zipIdx[done.length]? = some (target, index) := by
        rw [← hrest]
        simp
      rw [List.getElem?_zipIdx, Option.map_eq_some_iff] at hget
      obtain ⟨target', htarget, hpair⟩ := hget
      obtain ⟨rfl, rfl⟩ := Prod.mk.inj hpair
      rw [Nat.zero_add, List.length_append, List.length_singleton]
      exact addTarget_ok hdone htarget (hindex target' (List.mem_of_getElem? htarget)))
  rw [List.length_zipIdx] at hinv
  exact ⟨tables, hok, hinv⟩

end Tables

/-! ## The initial state -/

/-- A target of an earlier layer has a smaller index. -/
theorem idxOf_lt_of_layer_lt (hnodup : plan.executionLayers.flatten.Nodup) {d t : TargetId}
    {i j : Nat} (hd : InLayer plan d i) (ht : InLayer plan t j) (hij : i < j) :
    plan.executionLayers.flatten.idxOf d < plan.executionLayers.flatten.idxOf t := by
  obtain ⟨layerD, hlayerD, hmemD⟩ := hd
  obtain ⟨layerT, hlayerT, hmemT⟩ := ht
  have hsplit : plan.executionLayers.flatten =
      (plan.executionLayers.take j).flatten ++ (plan.executionLayers.drop j).flatten := by
    rw [← List.flatten_append, List.take_append_drop]
  have hdTake : d ∈ (plan.executionLayers.take j).flatten := by
    refine List.mem_flatten.mpr ⟨layerD, ?_, hmemD⟩
    apply List.mem_of_getElem? (i := i)
    rw [List.getElem?_take, if_pos hij, hlayerD]
  have htDrop : t ∈ (plan.executionLayers.drop j).flatten := by
    refine List.mem_flatten.mpr ⟨layerT, ?_, hmemT⟩
    apply List.mem_of_getElem? (i := 0)
    rw [List.getElem?_drop, Nat.add_zero, hlayerT]
  have htTake : t ∉ (plan.executionLayers.take j).flatten := by
    rw [hsplit] at hnodup
    intro h
    exact (List.nodup_append.mp hnodup).2.2 t h t htDrop rfl
  rw [hsplit, List.idxOf_append_of_mem hdTake, List.idxOf_append_of_notMem htTake]
  exact Nat.lt_of_lt_of_le (List.idxOf_lt_length_of_mem hdTake) (Nat.le_add_right _ _)

section Targets

variable (hids : targetIds targets = plan.executionLayers.flatten)
  (hmem : ∀ target ∈ targets, target.1 ∈ plan.targets)

include hids hmem

/-- Dependencies are targets of the plan. -/
theorem mem_targetIds_of_dependsOn (h : PlanStructure plan) {target : PositionedTarget}
    (htarget : target ∈ targets) {d : TargetId} (hd : d ∈ target.1.dependsOn) :
    d ∈ targetIds targets := by
  obtain ⟨i, j, ⟨layer, hlayer, hdl⟩, _, _⟩ :=
    h.dependency_earlier target.1 (hmem target htarget) d hd
  rw [hids]
  exact List.mem_flatten.mpr ⟨layer, List.mem_of_getElem? hlayer, hdl⟩

/-- Dependencies point to earlier indices, since they are in earlier layers. -/
theorem dependencyIndices_lt (h : PlanStructure plan) {i d : Nat}
    (hd : d ∈ dependencyIndices targets i) : d < i := by
  have hnodup : (targetIds targets).Nodup := hids ▸ h.layers_nodup
  cases hi : targets[i]? with
  | none => simp [dependencyIndices, hi] at hd
  | some target =>
      simp only [dependencyIndices, hi, List.mem_map] at hd
      obtain ⟨t, ht, rfl⟩ := hd
      obtain ⟨a, b, ha, hb, hab⟩ := h.dependency_earlier target.1
        (hmem target (List.mem_of_getElem? hi)) t ht
      have hlt := idxOf_lt_of_layer_lt h.layers_nodup ha hb hab
      rw [← hids] at hlt
      have hself : (targetIds targets).idxOf target.1.target = i := by
        have hget : (targetIds targets)[i]? = some target.1.target := by
          simp only [targetIds, List.getElem?_map, hi, Option.map_some]
        obtain ⟨hilt, hval⟩ := List.getElem?_eq_some_iff.mp hget
        rw [← hval]
        exact hnodup.idxOf_getElem i hilt
      rwa [hself] at hlt

end Targets

/-- The queue that `ReadyQueue::new` makes of its tables. -/
def ReadyQueue.ofTables (targets : List PositionedTarget) (tables : DependencyTables) :
    ReadyQueue where
  targets := targets
  ready := tables.ready
  failedDependency := List.replicate targets.length false
  unfinished := targets.length
  dependents := tables.dependents
  remainingDependencies := tables.remaining

/-- The filled tables start a run in the invariant. -/
theorem TablesInv.start
    (hinv : TablesInv targets targets.length [] tables) (hnodup : (targetIds targets).Nodup)
    (hdepsLt : ∀ i, ∀ d ∈ dependencyIndices targets i, d < i) :
    DispatchInv (.start (.ofTables targets tables)) := by
  have houtside : ∀ j, ¬ j < targets.length → dependencyIndices targets j = [] := by
    intro j hj
    simp only [dependencyIndices, List.getElem?_eq_none (Nat.le_of_not_lt hj)]
  constructor
  case wellFormed =>
    refine ⟨hnodup, hdepsLt, hinv.dependents_length, List.length_replicate, hinv.remaining_length,
      ?_⟩
    intro i j
    show (tables.dependents.getD i []).count j = (dependencyIndices targets j).count i
    rw [hinv.dependents]
    by_cases hj : j < targets.length
    · rw [if_pos hj]
    · simp [hj, houtside j hj]
  case done_nodup => exact List.nodup_nil
  case done_lt => exact List.forall_mem_nil _
  case remaining =>
    intro j
    show tables.remaining.getD j 0 = (dependencyIndices targets j).countP (· ∉ ([] : List Nat))
    rw [hinv.remaining]
    by_cases hj : j < targets.length
    · simp [hj]
    · simp [hj, houtside j hj]
  case failed =>
    intro j
    show (List.replicate targets.length false).getD j false = true ↔ _
    rw [getD_replicate]
    simp [DispatchState.start]
  case ready =>
    intro j
    show (j ∈ tables.ready ∨ (j ∈ ([] : List Nat) ∧ _)) ↔ j < targets.length ∧ j ∉ [] ∧
      ∀ d ∈ dependencyIndices targets j, d ∈ []
    rw [hinv.ready]
    simp [List.eq_nil_iff_forall_not_mem]
  case ready_not_dispatched => exact fun _ _ => List.not_mem_nil
  case done_closed => exact List.forall_mem_nil _
  case dispatched_nodup => exact List.nodup_nil
  case dispatched_lt => exact List.forall_mem_nil _
  case dispatched_closed => exact List.forall_mem_nil _
  case unfinished => rfl

/-- **Construction.** On a structured plan `ReadyQueue::new` succeeds, numbers the targets by the
flattened layers, and starts a run in the invariant. -/
theorem ReadyQueue.new_eq_ok (h : PlanStructure plan) :
    ∃ queue, ReadyQueue.new plan = .ok queue ∧
      targetIds queue.targets = plan.executionLayers.flatten ∧
      (∀ target ∈ queue.targets, target.1 ∈ plan.targets) ∧
      DispatchInv (.start queue) := by
  obtain ⟨targets, hok, hids, hmem⟩ := positionedTargets_ok h
  have hnodup : (targetIds targets).Nodup := hids ▸ h.layers_nodup
  have hlength : (targetIds targets).length = targets.length := List.length_map _
  have hindex : ∀ target ∈ targets, ∀ d ∈ target.1.dependsOn,
      (targetIndices targets)[d]? = some ((targetIds targets).idxOf d) ∧
        (targetIds targets).idxOf d < targets.length := by
    intro target htarget d hd
    have hd' := mem_targetIds_of_dependsOn hids hmem h htarget hd
    exact ⟨getElem?_targetIndices hnodup hd', hlength ▸ List.idxOf_lt_length_of_mem hd'⟩
  obtain ⟨tables, htables, hinv⟩ := addTargets_ok hindex
  have hnew : ReadyQueue.new plan = .ok (.ofTables targets tables) := by
    rw [ReadyQueue.new, hok]
    simp only [bind, Except.bind, htables]
    rfl
  refine ⟨_, hnew, hids, hmem, hinv.start hnodup ?_⟩
  intro i d hd
  exact dependencyIndices_lt hids hmem h hd

end Jig.Runtime

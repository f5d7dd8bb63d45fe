import Jig.Loops.Occurrence

/-!
# What pruning keeps

`prune_history` removes finished records of a workflow beyond a limit, and never the newest
scheduled one if that is finished. A removed record is covered by a newer finished one of its
workflow, unless the newest scheduled record is still at work while the history is over the limit
(`pruneHistory_covers`).
-/

namespace Jig.Loops

open Lib

variable {retained : String → Bool} {store : ScheduleFile} {k id workflowId : String}
  {record : ScheduleOccurrence} {terminal : List String}

/-! ### Files -/

@[simp] theorem ScheduleFile.getElem?_set (store : ScheduleFile) (id k : String)
    (record : ScheduleOccurrence) : (store.set id record).occurrences[k]? =
      if id = k then some record else store.occurrences[k]? :=
  getElem?_insert_eq _ _ _ _

@[simp] theorem ScheduleFile.getElem?_remove (store : ScheduleFile) (id k : String) :
    (store.remove id).occurrences[k]? = if id = k then none else store.occurrences[k]? :=
  getElem?_erase_eq _ _ _

theorem ScheduleFile.mem_values : record ∈ store.values ↔
    ∃ k : String, store.occurrences[k]? = some record :=
  mem_valuesOf

/-- Records are stored under their ids, and those of scheduled occurrences under the id of the
occurrence. -/
def ScheduleFile.WellKeyed (store : ScheduleFile) : Prop :=
  ∀ k record, store.occurrences[k]? = some record → record.occurrenceId = k ∧
    (record.scheduledAtMs ≠ manualOccurrenceScheduledAtMs →
      k = occurrenceId record.workflowId record.scheduledAtMs)

theorem ScheduleFile.wellKeyed_empty : ScheduleFile.empty.WellKeyed := by
  intro k record h
  simp [ScheduleFile.empty] at h

/-- Two scheduled records of one workflow at one time are one. -/
theorem ScheduleFile.WellKeyed.eq_of_scheduledAtMs (h : store.WellKeyed) {k' : String}
    {record' : ScheduleOccurrence} (hget : store.occurrences[k]? = some record)
    (hget' : store.occurrences[k']? = some record')
    (hworkflow : record.workflowId = record'.workflowId)
    (htime : record.scheduledAtMs = record'.scheduledAtMs)
    (hne : record.scheduledAtMs ≠ manualOccurrenceScheduledAtMs) : k = k' := by
  rw [(h k record hget).2 hne, (h k' record' hget').2 (htime ▸ hne), hworkflow, htime]

/-! ### The ids that are kept -/

theorem mem_prunableRecords : record ∈ prunableRecords retained store workflowId ↔
    (∃ k : String, store.occurrences[k]? = some record) ∧ record.workflowId = workflowId ∧
      record.isPrunableHistory = true ∧ record.hasRetainedWorktree retained = false := by
  simp [prunableRecords, ScheduleFile.mem_values, and_assoc]

theorem mem_terminalIds : id ∈ terminalIds retained store workflowId ↔
    ∃ record ∈ prunableRecords retained store workflowId, record.occurrenceId = id := by
  unfold terminalIds
  rw [List.mem_map]
  constructor
  · rintro ⟨key, hkey, rfl⟩
    rw [List.mem_insertionSort] at hkey
    obtain ⟨record, hrecord, rfl⟩ := List.mem_map.mp hkey
    exact ⟨record, hrecord, rfl⟩
  · rintro ⟨record, hrecord, rfl⟩
    refine ⟨record.terminalKey, ?_, rfl⟩
    rw [List.mem_insertionSort]
    exact List.mem_map_of_mem hrecord

theorem length_terminalIds (retained : String → Bool) (store : ScheduleFile) (workflowId : String) :
    (terminalIds retained store workflowId).length =
      (prunableRecords retained store workflowId).length := by
  rw [terminalIds, List.length_map, List.length_insertionSort, List.length_map]

theorem subset_retainIds (kept ids : List String) : kept ⊆ retainIds kept ids := by
  induction ids generalizing kept with
  | nil => exact fun _ h => h
  | cons id rest ih =>
      unfold retainIds
      split
      · exact fun _ h => h
      · refine fun x hx => ih _ ?_
        split
        · exact hx
        · exact List.mem_append_left _ hx

/-- Within the limit everything is kept. -/
theorem mem_retainIds {kept ids : List String} (hnodup : kept.Nodup) (hkept : kept ⊆ terminal)
    (hids : ids ⊆ terminal) (hlen : terminal.length ≤ occurrenceHistoryPerWorkflow) (hid : id ∈ ids) :
    id ∈ retainIds kept ids := by
  induction ids generalizing kept with
  | nil => exact absurd hid List.not_mem_nil
  | cons id' rest ih =>
      unfold retainIds
      split
      · next hfull =>
          -- a full set of kept ids is all of them
          have hperm := (List.subperm_of_subset hnodup hkept).perm_of_length_le (by omega)
          exact hperm.symm.subset (hids hid)
      · rw [List.cons_subset] at hids
        split
        · next hmem =>
            rcases List.mem_cons.mp hid with rfl | hid
            · exact subset_retainIds _ _ hmem
            · exact ih hnodup hkept hids.2 hid
        · next hmem =>
            rcases List.mem_cons.mp hid with rfl | hid
            · exact subset_retainIds _ _ (List.mem_append_right _ List.mem_cons_self)
            · refine ih (hnodup.append (List.nodup_singleton _) ?_) ?_ hids.2 hid
              · exact fun x hx hx' => hmem (List.mem_singleton.mp hx' ▸ hx)
              · exact List.append_subset.mpr ⟨hkept, fun x hx => List.mem_singleton.mp hx ▸ hids.1⟩

theorem mem_keptIds_of_length_le {latest : Option String}
    (hlen : terminal.length ≤ occurrenceHistoryPerWorkflow) (hid : id ∈ terminal) :
    id ∈ keptIds latest terminal := by
  refine mem_retainIds ?_ ?_ (fun _ h => h) hlen hid
  · cases latest with
    | none => exact List.nodup_nil
    | some latest => exact (List.nodup_singleton latest).filter _
  · exact fun x hx => of_decide_eq_true (List.mem_filter.mp hx).2

theorem mem_keptIds_latest (hid : id ∈ terminal) : id ∈ keptIds (some id) terminal :=
  subset_retainIds _ _ (List.mem_filter.mpr ⟨List.mem_singleton.mpr rfl, decide_eq_true hid⟩)

/-! ### One workflow -/

theorem getElem?_foldl_remove {ids kept : List String} :
    (ids.foldl (fun store id => if id ∈ kept then store else store.remove id)
      store).occurrences[k]? = if k ∈ ids ∧ k ∉ kept then none else store.occurrences[k]? := by
  induction ids generalizing store with
  | nil => simp
  | cons id rest ih =>
      rw [List.foldl_cons, ih]
      by_cases hkept : k ∈ kept
      · have hne : id ∉ kept → id ≠ k := fun hid heq => hid (heq ▸ hkept)
        simp only [hkept, not_true_eq_false, and_false, if_false]
        split
        · rfl
        · next hid => rw [ScheduleFile.getElem?_remove, if_neg (hne hid)]
      · by_cases hid : id = k
        · subst hid
          simp [hkept]
        · have hget : (if id ∈ kept then store else store.remove id).occurrences[k]? =
              store.occurrences[k]? := by
            split
            · rfl
            · rw [ScheduleFile.getElem?_remove, if_neg hid]
          rw [hget]
          simp only [List.mem_cons, Ne.symm hid, false_or]

theorem getElem?_pruneWorkflow : (pruneWorkflow retained store workflowId).occurrences[k]? =
    if k ∈ terminalIds retained store workflowId ∧
        k ∉ keptIds ((latestScheduled store workflowId).map (·.occurrenceId))
          (terminalIds retained store workflowId)
      then none else store.occurrences[k]? :=
  getElem?_foldl_remove

/-- Records of the workflow that are not finished stay, and so do all others. -/
theorem pruneWorkflow_cases (retained : String → Bool) (workflowId : String)
    (hkeyed : store.WellKeyed) (hget : store.occurrences[k]? = some record) :
    (pruneWorkflow retained store workflowId).occurrences[k]? = some record ∨
      (pruneWorkflow retained store workflowId).occurrences[k]? = none ∧
        record ∈ prunableRecords retained store workflowId ∧
        k ∉ keptIds ((latestScheduled store workflowId).map (·.occurrenceId))
          (terminalIds retained store workflowId) := by
  rw [getElem?_pruneWorkflow]
  split
  · next hremoved =>
      obtain ⟨record', hrecord', hid⟩ := mem_terminalIds.mp hremoved.1
      obtain ⟨k', hget'⟩ := (mem_prunableRecords.mp hrecord').1
      have hk : k' = k := (hkeyed k' record' hget').1.symm.trans hid
      rw [hk, hget, Option.some.injEq] at hget'
      exact .inr ⟨rfl, hget' ▸ hrecord', hremoved.2⟩
  · exact .inl hget

theorem of_getElem?_pruneWorkflow
    (h : (pruneWorkflow retained store workflowId).occurrences[k]? = some record) :
    store.occurrences[k]? = some record := by
  rw [getElem?_pruneWorkflow] at h
  split at h
  · cases h
  · exact h

theorem ScheduleFile.WellKeyed.pruneWorkflow (h : store.WellKeyed) :
    (pruneWorkflow retained store workflowId).WellKeyed := fun k record hget =>
  h k record (of_getElem?_pruneWorkflow hget)

/-- The history of a workflow is within the limit, or its newest scheduled record is finished. -/
def HistoryFits (retained : String → Bool) (store : ScheduleFile) (workflowId : String) : Prop :=
  (∀ record, latestScheduled store workflowId = some record → record.isPrunableHistory = true) ∨
    (prunableRecords retained store workflowId).length ≤ occurrenceHistoryPerWorkflow

/-- A finished record of the workflow behind a time. -/
def CoveredBy (store : ScheduleFile) (workflowId : String) (scheduledAtMs : Nat) : Prop :=
  ∃ (k : String) (record : ScheduleOccurrence), store.occurrences[k]? = some record ∧
    record.workflowId = workflowId ∧ scheduledAtMs < record.scheduledAtMs ∧
    record.isPrunableHistory = true

theorem exists_latestScheduled (hget : store.occurrences[k]? = some record)
    (hne : record.scheduledAtMs ≠ manualOccurrenceScheduledAtMs) :
    ∃ (k' : String) (latest : ScheduleOccurrence),
      latestScheduled store record.workflowId = some latest ∧
      store.occurrences[k']? = some latest ∧ latest.workflowId = record.workflowId ∧
      latest.scheduledAtMs ≠ manualOccurrenceScheduledAtMs ∧
      record.scheduledAtMs ≤ latest.scheduledAtMs := by
  have hmem : record ∈ store.values.filter fun r =>
      r.workflowId = record.workflowId && r.scheduledAtMs ≠ manualOccurrenceScheduledAtMs := by
    rw [List.mem_filter]
    exact ⟨ScheduleFile.mem_values.mpr ⟨k, hget⟩, by simpa using hne⟩
  obtain ⟨latest, hlatest, hmem', hle⟩ := exists_lastMaxBy ScheduleOccurrence.scheduledAtMs hmem
  rw [List.mem_filter, ScheduleFile.mem_values] at hmem'
  obtain ⟨⟨k', hget'⟩, hcond⟩ := hmem'
  simp only [Bool.and_eq_true, decide_eq_true_eq] at hcond
  exact ⟨k', latest, hlatest, hget', hcond.1, hcond.2, hle⟩

/-- **A removed scheduled record is covered.** -/
theorem pruneWorkflow_covers (hkeyed : store.WellKeyed) (hget : store.occurrences[k]? = some record)
    (hworkflow : record.workflowId = workflowId)
    (hne : record.scheduledAtMs ≠ manualOccurrenceScheduledAtMs)
    (hfits : HistoryFits retained store workflowId)
    (hgone : (pruneWorkflow retained store workflowId).occurrences[k]? = none) :
    CoveredBy (pruneWorkflow retained store workflowId) workflowId record.scheduledAtMs := by
  subst hworkflow
  rcases pruneWorkflow_cases retained _ hkeyed hget with hkept | ⟨-, hprunable, hnotKept⟩
  · rw [hgone] at hkept
    cases hkept
  have hk : record.occurrenceId = k := (hkeyed k record hget).1
  have hterminal : k ∈ terminalIds retained store record.workflowId :=
    mem_terminalIds.mpr ⟨record, hprunable, hk⟩
  rcases hfits with hlatest | hlen
  · obtain ⟨k', latest, hsome, hget', hworkflow', hne', hle⟩ := exists_latestScheduled hget hne
    have hk' : latest.occurrenceId = k' := (hkeyed k' latest hget').1
    have hkept' (h : k' ∈ terminalIds retained store record.workflowId) :
        k' ∈ keptIds ((latestScheduled store record.workflowId).map (·.occurrenceId))
          (terminalIds retained store record.workflowId) := by
      rw [hsome, Option.map_some, hk']
      exact mem_keptIds_latest h
    have hstays :
        (pruneWorkflow retained store record.workflowId).occurrences[k']? = some latest := by
      rw [getElem?_pruneWorkflow, if_neg fun h => h.2 (hkept' h.1)]
      exact hget'
    refine ⟨k', latest, hstays, hworkflow', ?_, hlatest latest hsome⟩
    refine lt_of_le_of_ne hle fun heq => ?_
    -- at the same time it is the record itself, which is kept
    have hkk : k = k' := hkeyed.eq_of_scheduledAtMs hget hget' hworkflow'.symm heq hne
    rw [← hkk, hgone] at hstays
    cases hstays
  · rw [← length_terminalIds] at hlen
    exact absurd (mem_keptIds_of_length_le hlen hterminal) hnotKept

/-! ### All workflows -/

section Others

variable {workflowId' : String}

variable {p : ScheduleOccurrence → Bool}

theorem filter_values_remove (h : ∀ record, store.occurrences[id]? = some record → p record = false) :
    (store.remove id).values.filter p = store.values.filter p :=
  filter_valuesOf_erase h

theorem filter_values_foldl_remove {ids kept : List String}
    (h : ∀ id ∈ ids, ∀ record, store.occurrences[id]? = some record → p record = false) :
    (ids.foldl (fun store id => if id ∈ kept then store else store.remove id) store).values.filter p =
      store.values.filter p := by
  induction ids generalizing store with
  | nil => rfl
  | cons id rest ih =>
      rw [List.forall_mem_cons] at h
      rw [List.foldl_cons]
      by_cases hkept : id ∈ kept
      · rw [if_pos hkept]
        exact ih h.2
      · rw [if_neg hkept]
        refine (ih fun id' hid' record hget => ?_).trans (filter_values_remove h.1)
        rw [ScheduleFile.getElem?_remove] at hget
        split at hget
        · cases hget
        · exact h.2 id' hid' record hget

/-- Pruning one workflow does not change what is seen of another. -/
theorem filter_values_pruneWorkflow (hkeyed : store.WellKeyed)
    (hp : ∀ record, record.workflowId = workflowId → p record = false) :
    (pruneWorkflow retained store workflowId).values.filter p = store.values.filter p := by
  refine filter_values_foldl_remove fun id hid record hget => ?_
  obtain ⟨record', hrecord', rfl⟩ := mem_terminalIds.mp hid
  obtain ⟨⟨k', hget'⟩, hworkflow, -⟩ := mem_prunableRecords.mp hrecord'
  rw [(hkeyed k' record' hget').1, hget', Option.some.injEq] at hget
  exact hp record (hget ▸ hworkflow)

theorem prunableRecords_pruneWorkflow (hkeyed : store.WellKeyed) (hne : workflowId' ≠ workflowId) :
    prunableRecords retained (pruneWorkflow retained store workflowId) workflowId' =
      prunableRecords retained store workflowId' :=
  filter_values_pruneWorkflow hkeyed fun record h => by simp [h, hne.symm]

theorem latestScheduled_pruneWorkflow (hkeyed : store.WellKeyed) (hne : workflowId' ≠ workflowId) :
    latestScheduled (pruneWorkflow retained store workflowId) workflowId' =
      latestScheduled store workflowId' := by
  unfold latestScheduled
  rw [filter_values_pruneWorkflow hkeyed fun record h => by simp [h, hne.symm]]

theorem HistoryFits.pruneWorkflow (h : HistoryFits retained store workflowId')
    (hkeyed : store.WellKeyed) (hne : workflowId' ≠ workflowId) :
    HistoryFits retained (pruneWorkflow retained store workflowId) workflowId' := by
  unfold HistoryFits
  rw [prunableRecords_pruneWorkflow hkeyed hne, latestScheduled_pruneWorkflow hkeyed hne]
  exact h

end Others

section Fold

variable {ids : List String}

theorem of_getElem?_foldl_pruneWorkflow
    (h : (ids.foldl (pruneWorkflow retained) store).occurrences[k]? = some record) :
    store.occurrences[k]? = some record := by
  induction ids generalizing store with
  | nil => exact h
  | cons id rest ih => exact of_getElem?_pruneWorkflow (ih h)

variable (hkeyed : store.WellKeyed) (hget : store.occurrences[k]? = some record)

include hkeyed hget

/-- A record of another workflow, or one that is not finished, is not removed. -/
theorem getElem?_foldl_pruneWorkflow
    (h : record.workflowId ∉ ids ∨ record.isPrunableHistory = false) :
    (ids.foldl (pruneWorkflow retained) store).occurrences[k]? = some record := by
  induction ids generalizing store with
  | nil => exact hget
  | cons id rest ih =>
      refine ih hkeyed.pruneWorkflow ?_ (h.imp_left fun hnot => (List.not_mem_of_not_mem_cons hnot))
      rcases pruneWorkflow_cases retained id hkeyed hget with hkept | ⟨-, hprunable, -⟩
      · exact hkept
      · obtain ⟨-, hworkflow, hfinished, -⟩ := mem_prunableRecords.mp hprunable
        rcases h with hnot | hactive
        · exact absurd (hworkflow ▸ List.mem_cons_self) hnot
        · rw [hfinished] at hactive
          cases hactive

theorem foldl_pruneWorkflow_covers (hnodup : ids.Nodup)
    (hfits : HistoryFits retained store record.workflowId)
    (hne : record.scheduledAtMs ≠ manualOccurrenceScheduledAtMs)
    (hgone : (ids.foldl (pruneWorkflow retained) store).occurrences[k]? = none) :
    CoveredBy (ids.foldl (pruneWorkflow retained) store) record.workflowId
      record.scheduledAtMs := by
  induction ids generalizing store with
  | nil =>
      rw [List.foldl_nil, hget] at hgone
      cases hgone
  | cons id rest ih =>
      rw [List.nodup_cons] at hnodup
      rcases pruneWorkflow_cases retained id hkeyed hget with
        hkept | ⟨hremoved, hprunable, -⟩
      · refine ih hkeyed.pruneWorkflow hkept hnodup.2 (hfits.pruneWorkflow hkeyed ?_) hgone
        -- what the round of its own workflow has kept is not looked at again
        rintro rfl
        rw [List.foldl_cons, getElem?_foldl_pruneWorkflow hkeyed.pruneWorkflow hkept
          (.inl hnodup.1)] at hgone
        cases hgone
      · have hworkflow := (mem_prunableRecords.mp hprunable).2.1
        obtain ⟨k', cover, hget', hworkflow', hlt, hfinished⟩ :=
          pruneWorkflow_covers hkeyed hget hworkflow hne (hworkflow ▸ hfits) hremoved
        refine ⟨k', cover, ?_, hworkflow'.trans hworkflow.symm, hlt, hfinished⟩
        rw [List.foldl_cons]
        exact getElem?_foldl_pruneWorkflow hkeyed.pruneWorkflow hget'
          (.inl (hworkflow'.symm ▸ hnodup.1))

end Fold

theorem of_getElem?_pruneHistory (h : (pruneHistory retained store).occurrences[k]? = some record) :
    store.occurrences[k]? = some record :=
  of_getElem?_foldl_pruneWorkflow h

theorem getElem?_pruneHistory_of_not_prunable (hkeyed : store.WellKeyed)
    (hget : store.occurrences[k]? = some record) (hactive : record.isPrunableHistory = false) :
    (pruneHistory retained store).occurrences[k]? = some record :=
  getElem?_foldl_pruneWorkflow hkeyed hget (.inr hactive)

/-- **What pruning removes is covered**, where the history of its workflow fits. -/
theorem pruneHistory_covers (hkeyed : store.WellKeyed)
    (hfits : HistoryFits retained store record.workflowId)
    (hget : store.occurrences[k]? = some record)
    (hne : record.scheduledAtMs ≠ manualOccurrenceScheduledAtMs)
    (hgone : (pruneHistory retained store).occurrences[k]? = none) :
    CoveredBy (pruneHistory retained store) record.workflowId record.scheduledAtMs :=
  foldl_pruneWorkflow_covers hkeyed hget (treeSet_toList_nodup _) hfits hne hgone

end Jig.Loops

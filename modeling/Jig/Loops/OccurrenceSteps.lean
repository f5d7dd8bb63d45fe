import Jig.Loops.History

/-!
# What a step does to the records

`Evolves` says once what an operation can do to a record, and `StepShape` what it can do to a file:
a record evolves, or its owner abandons it; and a claim that nothing blocks adds one. The results
about runs are case analyses over these.
-/

namespace Jig.Loops

open Lib

def Operation.now? : Operation → Option Nat
  | .claimScheduled _ _ _ now _ _ _ => some now
  | .claimManual _ _ _ now _ _ _ => some now
  | .renew _ _ _ now => some now
  | .stageManual _ _ _ now => some now
  | .finish _ _ _ now => some now
  | .finishManual _ _ _ now => some now
  | .reconcileStale now => some now
  | .acknowledge _ now => some now
  | _ => none

def Operation.request? : Operation → Option ClaimRequest
  | .claimScheduled workflowId scheduledAtMs ttlSeconds now owner scope blockRetainedWorktree =>
      some (.scheduled workflowId scheduledAtMs ttlSeconds now owner scope blockRetainedWorktree)
  | .claimManual workflowId itemKey ttlSeconds now owner scope blockRetainedWorktree =>
      some (.manual workflowId itemKey ttlSeconds now owner scope blockRetainedWorktree)
  | _ => none

def Operation.finishes? : Operation → Option (String × String)
  | .finish id owner _ _ => some (id, owner)
  | .finishManual id owner _ _ => some (id, owner)
  | _ => none

/-! ### Records -/

/-- What no operation changes in a record. -/
structure SameOccurrence (record record' : ScheduleOccurrence) : Prop where
  occurrenceId : record'.occurrenceId = record.occurrenceId
  workflowId : record'.workflowId = record.workflowId
  scheduledAtMs : record'.scheduledAtMs = record.scheduledAtMs
  owner : record'.owner = record.owner
  usesSharedCheckout : record'.usesSharedCheckout = record.usesSharedCheckout

/-- **What an operation can do to a record.** -/
inductive Evolves (operation : Operation) (record record' : ScheduleOccurrence) : Prop
  | kept (heq : record' = record)
  | edited (hsame : SameOccurrence record record') (hactive : record.isPrunableHistory = false)
      (hstatus : record'.status = record.status)
  | finished (hsame : SameOccurrence record record') (hrunning : record.status = .running)
      (hfinish : operation.finishes? = some (record.occurrenceId, record.owner))
  | expired (now : Nat) (hsame : SameOccurrence record record') (hnow : operation.now? = some now)
      (hexpired : record.isExpired now = true)
      (hstatus : record'.status = .needsAttention ∨ record'.status = .acknowledged)
  | acknowledged (hsame : SameOccurrence record record')
      (hattention : record.status = .needsAttention)
      (hstatus : record'.status = .acknowledged)

variable {operation : Operation} {record : ScheduleOccurrence} {missing : String} {now : Nat}
  {record' : ScheduleOccurrence} {retained : String → Bool} {finish : OccurrenceFinish}
  {request : ClaimRequest}

section Records

theorem Evolves.sameOccurrence (h : Evolves operation record record') :
    SameOccurrence record record' := by
  cases h with
  | kept heq =>
      rw [heq]
      exact ⟨rfl, rfl, rfl, rfl, rfl⟩
  | edited hsame | finished hsame | expired _ hsame | acknowledged hsame => exact hsame

theorem isPrunableHistory_of_running (h : record.status = .running) :
    record.isPrunableHistory = false := by
  simp [ScheduleOccurrence.isPrunableHistory, h]

theorem isPrunableHistory_of_needsAttention (h : record.status = .needsAttention) :
    record.isPrunableHistory = false := by
  simp [ScheduleOccurrence.isPrunableHistory, h]

theorem isPrunableHistory_eq_false_iff :
    record.isPrunableHistory = false ↔
      record.status = .running ∨ record.status = .needsAttention := by
  cases h : record.status <;> simp [ScheduleOccurrence.isPrunableHistory, h]

theorem isExpired_iff : record.isExpired now = true ↔
    record.status = .running ∧ record.claimExpiresAtMs ≤ now := by
  simp [ScheduleOccurrence.isExpired]

/-- Finished records are not changed. -/
theorem Evolves.eq_of_prunable (h : Evolves operation record record')
    (hfinished : record.isPrunableHistory = true) : record' = record := by
  have hne {P : Prop} (hactive : record.isPrunableHistory = false) : P := by
    rw [hfinished] at hactive
    cases hactive
  cases h with
  | kept heq => exact heq
  | edited _ hactive _ => exact hne hactive
  | finished _ hrunning _ => exact hne (isPrunableHistory_of_running hrunning)
  | expired _ _ _ hexpired _ =>
      exact hne (isPrunableHistory_of_running (isExpired_iff.mp hexpired).1)
  | acknowledged _ hattention _ => exact hne (isPrunableHistory_of_needsAttention hattention)

theorem markExpiredClaim_status (record : ScheduleOccurrence) (now : Nat)
    (finish : Option OccurrenceFinish) :
    (markExpiredClaim record now finish).status = .needsAttention := by
  cases finish <;> rfl

theorem sameOccurrence_markExpiredClaim (record : ScheduleOccurrence) (now : Nat)
    (finish : Option OccurrenceFinish) :
    SameOccurrence record (markExpiredClaim record now finish) := by
  cases finish <;> exact ⟨rfl, rfl, rfl, rfl, rfl⟩

/-- A claim that has run out is marked. -/
theorem evolves_markExpiredClaim (hnow : operation.now? = some now)
    (hexpired : record.isExpired now = true) (finish : Option OccurrenceFinish) :
    Evolves operation record (markExpiredClaim record now finish) :=
  .expired now (sameOccurrence_markExpiredClaim record now finish) hnow hexpired
    (.inl (markExpiredClaim_status record now finish))

end Records

/-! ### Files -/

/-- Nothing blocks a claim in a file. -/
structure ClaimRequest.Unblocked (request : ClaimRequest) (store : ScheduleFile) : Prop where
  active : ∀ (k : String) (record : ScheduleOccurrence), store.occurrences[k]? = some record →
    k ≠ request.occurrenceId → record.isPrunableHistory = false →
      occurrenceClaimsOverlap record request.workflowId request.constraints.attentionScope = false
  newest : request.constraints.blockNewerOccurrences = true →
    ∀ (k : String) (record : ScheduleOccurrence), store.occurrences[k]? = some record →
      record.workflowId = request.workflowId → record.scheduledAtMs ≤ request.scheduledAtMs

/-- **What an operation can do to a file.** -/
structure StepShape (operation : Operation) (store store' : ScheduleFile) : Prop where
  old : ∀ k record, store.occurrences[k]? = some record →
    (∃ record', store'.occurrences[k]? = some record' ∧ Evolves operation record record') ∨
      (store'.occurrences[k]? = none ∧ record.isPrunableHistory = false ∧
        operation = .abandonUnexecuted k record.owner)
  new : ∀ k record', store'.occurrences[k]? = some record' → store.occurrences[k]? = none →
    ∃ request, operation.request? = some request ∧ k = request.occurrenceId ∧
      record' = request.record ∧ request.Unblocked store'

section Files

variable {store store' : ScheduleFile} {id k : String} {workflowId : String}

/-- Where a record comes from. -/
theorem StepShape.origin (h : StepShape operation store store')
    (hget : store'.occurrences[k]? = some record') :
    (∃ record, store.occurrences[k]? = some record ∧ Evolves operation record record') ∨
      ∃ request, operation.request? = some request ∧ k = request.occurrenceId ∧
        record' = request.record ∧ request.Unblocked store' := by
  cases hold : store.occurrences[k]? with
  | none => exact .inr (h.new k record' hget hold)
  | some record =>
      rcases h.old k record hold with ⟨record'', hget', hevolves⟩ | ⟨hnone, -, -⟩
      · rw [hget, Option.some.injEq] at hget'
        exact .inl ⟨record, rfl, hget' ▸ hevolves⟩
      · rw [hget] at hnone
        cases hnone

/-- A finished record stays. -/
theorem StepShape.of_prunable (h : StepShape operation store store')
    (hget : store.occurrences[k]? = some record) (hfinished : record.isPrunableHistory = true) :
    store'.occurrences[k]? = some record := by
  rcases h.old k record hget with ⟨record', hget', hevolves⟩ | ⟨-, hactive, -⟩
  · rwa [hevolves.eq_of_prunable hfinished] at hget'
  · rw [hfinished] at hactive
    cases hactive

theorem StepShape.refl (operation : Operation) (store : ScheduleFile) :
    StepShape operation store store where
  old _ record hget := .inl ⟨record, hget, .kept rfl⟩
  new _ _ hget hnone := by
    rw [hnone] at hget
    cases hget

/-- A record that evolves. -/
theorem StepShape.set (hget : store.occurrences[id]? = some record)
    (h : Evolves operation record record') : StepShape operation store (store.set id record') where
  old k record₀ hget₀ := by
    rw [ScheduleFile.getElem?_set]
    by_cases hk : id = k
    · subst hk
      rw [hget, Option.some.injEq] at hget₀
      subst hget₀
      exact .inl ⟨record', if_pos rfl, h⟩
    · exact .inl ⟨record₀, (if_neg hk).trans hget₀, .kept rfl⟩
  new k record₀ hget₀ hnone := by
    rw [ScheduleFile.getElem?_set] at hget₀
    split at hget₀
    · next hk =>
        rw [← hk, hget] at hnone
        cases hnone
    · rw [hnone] at hget₀
      cases hget₀

theorem getElem?_reconcileStaleFile : (reconcileStaleFile store now).1.occurrences[k]? =
    (store.occurrences[k]?).map fun record =>
      if record.isExpired now then markExpiredClaim record now none else record :=
  Std.ExtTreeMap.getElem?_map

theorem evolves_reconcile (hnow : operation.now? = some now) (record : ScheduleOccurrence) :
    Evolves operation record
      (if record.isExpired now then markExpiredClaim record now none else record) := by
  split
  · next hexpired => exact evolves_markExpiredClaim hnow hexpired none
  · exact .kept rfl

theorem stepShape_reconcile (hnow : operation.now? = some now) (store : ScheduleFile) :
    StepShape operation store (reconcileStaleFile store now).1 where
  old k record hget := by
    rw [getElem?_reconcileStaleFile, hget]
    exact .inl ⟨_, rfl, evolves_reconcile hnow record⟩
  new k record' hget hnone := by
    rw [getElem?_reconcileStaleFile, hnone] at hget
    cases hget

theorem find_eq_ok : store.find missing id = .ok record ↔
    store.occurrences[id]? = some record := by
  unfold ScheduleFile.find
  cases store.occurrences[id]? <;> simp

theorem find_bind_eq_ok {β : Type} {f : ScheduleOccurrence → Except String β} {b : β} :
    (store.find missing id >>= f) = .ok b ↔
      ∃ record, store.occurrences[id]? = some record ∧ f record = .ok b := by
  simp only [bind_eq_ok, find_eq_ok]

/-! ### Owners -/

variable {owner : String}

theorem requireOwner_eq_ok : requireOwner record owner = .ok ⟨⟩ ↔ record.owner = owner := by
  unfold requireOwner
  rw [ite_error_eq_ok]
  simp

/-- An owner is let in while its record runs, and after the record was marked as stale. -/
theorem requireOwnedOccurrenceState_eq_ok {state : OwnedOccurrenceState}
    (h : requireOwnedOccurrenceState record owner = .ok state) :
    record.owner = owner ∧
      ((state = .running ∧ record.status = .running) ∨
        (state = .staleReconciled ∧ record.status = .needsAttention)) := by
  unfold requireOwnedOccurrenceState at h
  rw [then_eq_ok, requireOwner_eq_ok] at h
  refine ⟨h.1, ?_⟩
  have h := h.2
  split at h
  · next hrunning =>
      cases h
      exact .inl ⟨rfl, hrunning⟩
  · split at h
    · next hstale =>
        cases h
        simp only [ScheduleOccurrence.isUnacknowledgedStaleReconciliation, Bool.and_eq_true,
          decide_eq_true_eq] at hstale
        exact .inr ⟨rfl, hstale.1.1⟩
    · cases h

theorem requireUnexecutedOwner_eq_ok (h : requireUnexecutedOwner record owner = .ok ⟨⟩) :
    record.owner = owner ∧ record.isPrunableHistory = false := by
  unfold requireUnexecutedOwner at h
  rw [then_eq_ok, requireOwner_eq_ok] at h
  refine ⟨h.1, ?_⟩
  have h := h.2
  split at h
  · next hrunning => exact isPrunableHistory_of_running hrunning
  · split at h
    · next hstale =>
        simp only [ScheduleOccurrence.isUnexecutedStaleReconciliation,
          ScheduleOccurrence.isUnacknowledgedStaleReconciliation, Bool.and_eq_true,
          decide_eq_true_eq] at hstale
        exact isPrunableHistory_of_needsAttention hstale.1.1.1.1
    · cases h

theorem requireRunningOwner_eq_ok (h : requireRunningOwner record owner = .ok ⟨⟩) :
    record.owner = owner ∧ record.status = .running := by
  unfold requireRunningOwner at h
  rw [then_eq_ok, requireOwner_eq_ok] at h
  refine ⟨h.1, ?_⟩
  by_contra hne
  rw [if_pos hne] at h
  cases h.2

variable {update : Update ScheduleOccurrence}

/-- What an owner that settles a record makes of it while it runs is given by `hsettle`. -/
theorem stepShape_settleOwned {prunesExpired prunes : Bool}
    {settle : ScheduleOccurrence → ScheduleOccurrence} (hnow : operation.now? = some now)
    (hsettle : ∀ record, store.occurrences[id]? = some record → record.owner = owner →
      record.status = .running → Evolves operation record (settle record))
    (h : settleOwned missing prunesExpired prunes settle id owner finish now store = .ok update) :
    StepShape operation store update.store := by
  unfold settleOwned at h
  obtain ⟨record, hfind, h⟩ := find_bind_eq_ok.mp h
  rw [bind_eq_ok] at h
  obtain ⟨state, hstate, h⟩ := h
  obtain ⟨howner, ⟨rfl, hrunning⟩ | ⟨rfl, hattention⟩⟩ := requireOwnedOccurrenceState_eq_ok hstate
  · dsimp only at h
    split at h
    · next hexpired =>
        -- the claim ran out before its owner came back
        cases h
        exact .set hfind (evolves_markExpiredClaim hnow (isExpired_iff.mpr ⟨hrunning, hexpired⟩) _)
    · cases h
      exact .set hfind (hsettle record hfind howner hrunning)
  · -- a stale record only takes the evidence of its owner
    cases h
    refine .set hfind (.edited ⟨rfl, rfl, rfl, rfl, rfl⟩ ?_ rfl)
    exact isPrunableHistory_of_needsAttention hattention

theorem stepShape_abandonUnexecuted
    (h : abandonUnexecuted id owner store = .ok update) :
    StepShape (.abandonUnexecuted id owner) store update.store := by
  unfold abandonUnexecuted at h
  obtain ⟨record, hfind, h⟩ := find_bind_eq_ok.mp h
  rw [then_eq_ok] at h
  obtain ⟨howner, h⟩ := h
  cases h
  obtain ⟨rfl, hactive⟩ := requireUnexecutedOwner_eq_ok howner
  refine ⟨fun k record₀ hget => ?_, fun k record' hget hnone => ?_⟩
  · rw [ScheduleFile.getElem?_remove]
    by_cases hk : id = k
    · subst hk
      rw [hfind, Option.some.injEq] at hget
      subst hget
      exact .inr ⟨if_pos rfl, hactive, rfl⟩
    · exact .inl ⟨record₀, (if_neg hk).trans hget, .kept rfl⟩
  · rw [ScheduleFile.getElem?_remove] at hget
    split at hget
    · cases hget
    · rw [hnone] at hget
      cases hget

theorem stepShape_renew {ttlSeconds : Nat}
    (h : renew id owner ttlSeconds now store = .ok update) :
    StepShape operation store update.store := by
  unfold renew at h
  obtain ⟨record, hfind, h⟩ := find_bind_eq_ok.mp h
  rw [ite_error_eq_ok, ite_error_eq_ok, ite_error_eq_ok] at h
  obtain ⟨-, hrunning, -, h⟩ := h
  cases h
  exact .set hfind (.edited ⟨rfl, rfl, rfl, rfl, rfl⟩
    (isPrunableHistory_of_running (not_not.mp hrunning)) rfl)

theorem stepShape_setRunningWorktree {worktree : Option String}
    (h : setRunningWorktree id owner worktree store = .ok update) :
    StepShape operation store update.store := by
  unfold setRunningWorktree at h
  obtain ⟨record, hfind, h⟩ := find_bind_eq_ok.mp h
  rw [then_eq_ok] at h
  obtain ⟨howner, h⟩ := h
  cases h
  exact .set hfind (.edited ⟨rfl, rfl, rfl, rfl, rfl⟩
    (isPrunableHistory_of_running (requireRunningOwner_eq_ok howner).2) rfl)

theorem stepShape_clearRunningWorktree {path : String}
    (h : clearRunningWorktree id owner path store = .ok update) :
    StepShape operation store update.store := by
  unfold clearRunningWorktree at h
  obtain ⟨record, hfind, h⟩ := find_bind_eq_ok.mp h
  rw [then_eq_ok, ite_error_eq_ok] at h
  obtain ⟨howner, -, h⟩ := h
  cases h
  exact .set hfind (.edited ⟨rfl, rfl, rfl, rfl, rfl⟩
    (isPrunableHistory_of_running (requireRunningOwner_eq_ok howner).2) rfl)

/-! ### Acknowledgement -/

theorem stepShape_acknowledgeRecord {update : Update OccurrenceAcknowledgement}
    (hnow : operation.now? = some now) (h : acknowledgeRecord id now store = .ok update) :
    StepShape operation store update.store := by
  unfold acknowledgeRecord at h
  obtain ⟨record, hfind, h⟩ := find_bind_eq_ok.mp h
  by_cases hexpired : record.isExpired now = true
  · -- a claim that has run out is marked and acknowledged at once
    obtain ⟨hrunning, hle⟩ := isExpired_iff.mp hexpired
    have hcond : (record.status = .running && record.requiresAttentionAt now) = true := by
      simp [ScheduleOccurrence.requiresAttentionAt, hrunning, hle]
    simp only [hcond, if_true, markExpiredClaim_status] at h
    cases h
    exact .set hfind (.expired now ⟨rfl, rfl, rfl, rfl, rfl⟩ hnow hexpired (.inr rfl))
  · have hcond : (record.status = .running && record.requiresAttentionAt now) = false := by
      rw [isExpired_iff] at hexpired
      cases hstatus : record.status <;> simp_all [ScheduleOccurrence.requiresAttentionAt]
    simp only [hcond, Bool.false_eq_true, if_false] at h
    split at h
    · next hattention =>
        cases h
        exact .set hfind (.acknowledged ⟨rfl, rfl, rfl, rfl, rfl⟩ hattention rfl)
    · cases h
      exact .refl operation store
    · cases h

/-! ### Claims -/

theorem latestStatusForScope_eq_none {scope : OccurrenceAttentionScope} {status : OccurrenceStatus}
    (h : latestStatusForScope store workflowId scope status = none)
    (hget : store.occurrences[k]? = some record) (hstatus : record.status = status) :
    occurrenceClaimsOverlap record workflowId scope = false := by
  rw [latestStatusForScope, lastMaxBy_eq_none_iff, List.filter_eq_nil_iff] at h
  have := h record (ScheduleFile.mem_values.mpr ⟨k, hget⟩)
  simpa [hstatus] using this

theorem latestWorkflowOccurrence_filter_eq_none {p : ScheduleOccurrence → Bool} {time : Nat}
    (hp : ∀ record, p record = decide (record.scheduledAtMs > time))
    (h : (latestWorkflowOccurrence store workflowId).filter p = none)
    (hget : store.occurrences[k]? = some record) (hworkflow : record.workflowId = workflowId) :
    record.scheduledAtMs ≤ time := by
  have hmem : record ∈ store.values.filter fun r => r.workflowId = workflowId :=
    List.mem_filter.mpr ⟨ScheduleFile.mem_values.mpr ⟨k, hget⟩, decide_eq_true hworkflow⟩
  obtain ⟨latest, hlatest, -, hle⟩ := exists_lastMaxBy ScheduleOccurrence.scheduledAtMs hmem
  have hsome : latestWorkflowOccurrence store workflowId = some latest := hlatest
  rw [hsome, Option.filter_eq_none_iff] at h
  have := h latest rfl
  rw [hp] at this
  simp only [gt_iff_lt, decide_eq_true_eq, Nat.not_lt] at this
  exact hle.trans this

variable {update : Update OccurrenceClaim}
  (h : claimIdWithExecutionAt retained request store = .ok update)

include h

/-- A claim either acquires, with nothing in its way, or leaves the reconciled file. -/
theorem claimIdWithExecutionAt_cases :
    (update.store = (reconcileStaleFile store request.now).1 ∧ update.prunes = false ∧
        ∀ record, update.result ≠ .acquired record) ∨
      (update = ⟨(reconcileStaleFile store request.now).1.set request.occurrenceId request.record,
          true, .acquired request.record⟩ ∧
        store.occurrences[request.occurrenceId]? = none ∧
        request.Unblocked ((reconcileStaleFile store request.now).1.set request.occurrenceId
          request.record)) := by
  unfold claimIdWithExecutionAt at h
  rw [then_eq_ok] at h
  obtain ⟨-, h⟩ := h
  dsimp only at h
  -- each of the five checks may end the claim, with the reconciled file
  split at h
  · cases h
    exact .inl ⟨rfl, rfl, fun _ h => by cases h⟩
  next hnew =>
  split at h
  · cases h
    exact .inl ⟨rfl, rfl, fun _ h => by cases h⟩
  next hattention =>
  split at h
  · cases h
    exact .inl ⟨rfl, rfl, fun _ h => by cases h⟩
  next hrunning =>
  split at h
  · cases h
    exact .inl ⟨rfl, rfl, fun _ h => by cases h⟩
  split at h
  · cases h
    exact .inl ⟨rfl, rfl, fun _ h => by cases h⟩
  next hnewest =>
  cases h
  have hnone : store.occurrences[request.occurrenceId]? = none := by
    rw [getElem?_reconcileStaleFile, Option.map_eq_none_iff] at hnew
    exact hnew
  refine .inr ⟨rfl, hnone, fun k record hget hne hactive => ?_,
    fun hblock k record hget hworkflow => ?_⟩
  · -- an active record in the scope would have been found by its status
    rw [ScheduleFile.getElem?_set, if_neg (Ne.symm hne)] at hget
    rcases isPrunableHistory_eq_false_iff.mp hactive with hstatus | hstatus
    · exact latestStatusForScope_eq_none hrunning hget hstatus
    · exact latestStatusForScope_eq_none hattention hget hstatus
  · -- and a newer one by its time
    rw [ScheduleFile.getElem?_set] at hget
    split at hget
    · cases hget
      exact Nat.le_refl _
    · refine latestWorkflowOccurrence_filter_eq_none (fun record => ?_) hnewest hget hworkflow
      rw [hblock, Bool.true_and]

/-- A claim reconciles the file; where it acquires, its record is new. -/
theorem stepShape_claim (hrequest : operation.request? = some request)
    (hnow : operation.now? = some request.now) :
    StepShape operation store update.store := by
  have hreconcile := stepShape_reconcile hnow store
  rcases claimIdWithExecutionAt_cases h with ⟨hstore, -, -⟩ | ⟨rfl, hnone, hfree⟩
  · rw [hstore]
    exact hreconcile
  · refine ⟨fun k record hget => ?_, fun k record' hget hnew => ?_⟩
    · have hne : request.occurrenceId ≠ k := by
        rintro rfl
        rw [hnone] at hget
        cases hget
      simp only [ScheduleFile.getElem?_set, if_neg hne]
      exact hreconcile.old k record hget
    · rw [ScheduleFile.getElem?_set] at hget
      split at hget
      · next hk =>
          cases hget
          exact ⟨request, hrequest, hk.symm, rfl, hfree⟩
      · rw [getElem?_reconcileStaleFile, hnew] at hget
        cases hget

end Files

/-! ### Operations -/

section Operations

variable {store : ScheduleFile} {update : Update Response}

theorem map_map_eq_ok {α : Type} {f : α → Response} {x : Except String (Update α)}
    (h : x.map (·.map f) = .ok update) : ∃ u, x = .ok u ∧ update = u.map f := by
  cases x with
  | error e => cases h
  | ok u =>
      cases h
      exact ⟨u, rfl, rfl⟩

/-- Finishing evolves a running record of the owner. -/
theorem evolves_finished {id owner : String} (hkeyed : store.WellKeyed)
    (hfinish : operation.finishes? = some (id, owner)) (record : ScheduleOccurrence)
    (hget : store.occurrences[id]? = some record) (howner : record.owner = owner)
    (hrunning : record.status = .running) :
    Evolves operation record (record.finished finish now) := by
  refine .finished ⟨rfl, rfl, rfl, rfl, rfl⟩ hrunning ?_
  rw [(hkeyed id record hget).1, howner]
  exact hfinish

/-- **Every operation has the shape of a step.** -/
theorem Operation.run_shape (hkeyed : store.WellKeyed)
    (h : operation.run retained store = .ok update) : StepShape operation store update.store := by
  cases operation with
  | claimScheduled | claimManual =>
      obtain ⟨u, hu, rfl⟩ := map_map_eq_ok h
      exact stepShape_claim hu rfl rfl
  | renew id owner ttlSeconds now =>
      obtain ⟨u, hu, rfl⟩ := map_map_eq_ok h
      exact stepShape_renew hu
  | stageManual id owner evidence now =>
      obtain ⟨u, hu, rfl⟩ := map_map_eq_ok h
      refine stepShape_settleOwned rfl (fun record _ _ hrunning => ?_) hu
      exact .edited ⟨rfl, rfl, rfl, rfl, rfl⟩ (isPrunableHistory_of_running hrunning) rfl
  | finish | finishManual =>
      obtain ⟨u, hu, rfl⟩ := map_map_eq_ok h
      exact stepShape_settleOwned rfl (evolves_finished hkeyed rfl) hu
  | abandonUnexecuted id owner =>
      obtain ⟨u, hu, rfl⟩ := map_map_eq_ok h
      exact stepShape_abandonUnexecuted hu
  | setRunningWorktree id owner worktree =>
      obtain ⟨u, hu, rfl⟩ := map_map_eq_ok h
      exact stepShape_setRunningWorktree hu
  | clearRunningWorktree id owner path =>
      obtain ⟨u, hu, rfl⟩ := map_map_eq_ok h
      exact stepShape_clearRunningWorktree hu
  | reconcileStale now =>
      obtain ⟨u, hu, rfl⟩ := map_map_eq_ok h
      unfold Loops.reconcileStale at hu
      rw [then_eq_ok] at hu
      cases hu.2
      exact stepShape_reconcile rfl store
  | acknowledge id now =>
      obtain ⟨u, hu, rfl⟩ := map_map_eq_ok h
      exact stepShape_acknowledgeRecord rfl hu

/-- The record of a claim is stored under the id that the claim has. -/
theorem Operation.request?_keyed (h : operation.request? = some request) :
    request.scheduledAtMs ≠ manualOccurrenceScheduledAtMs →
      request.occurrenceId = Loops.occurrenceId request.workflowId request.scheduledAtMs := by
  intro hne
  cases operation <;> cases h
  · rfl
  · exact absurd rfl hne

/-- Every record stays under its own ID. -/
theorem StepShape.wellKeyed {store' : ScheduleFile} (hkeyed : store.WellKeyed)
    (h : StepShape operation store store') : store'.WellKeyed := by
  intro k record' hget
  rcases h.origin hget with ⟨record, hold, hevolves⟩ | ⟨request, hrequest, rfl, rfl, -⟩
  · have hsame := hevolves.sameOccurrence
    rw [hsame.occurrenceId, hsame.workflowId, hsame.scheduledAtMs]
    exact hkeyed k record hold
  · exact ⟨rfl, Operation.request?_keyed hrequest⟩

/-- Pruning only removes records, -/
theorem of_getElem?_commit {k : String} (h : (update.commit retained).occurrences[k]? = some record) :
    update.store.occurrences[k]? = some record := by
  unfold Update.commit at h
  split at h
  · exact of_getElem?_pruneHistory h
  · exact h

/-- and none that is active. -/
theorem getElem?_commit_of_active {k : String} (hkeyed : update.store.WellKeyed)
    (hget : update.store.occurrences[k]? = some record) (hactive : record.isPrunableHistory = false) :
    (update.commit retained).occurrences[k]? = some record := by
  unfold Update.commit
  split
  · exact getElem?_pruneHistory_of_not_prunable hkeyed hget hactive
  · exact hget

/-- A step: nothing happens, or an operation runs and what it leaves is written. -/
theorem Event.next_cases (event : Event) (hkeyed : store.WellKeyed) :
    (event.update store = none ∧ event.next store = store) ∨
      ∃ update, event.update store = some update ∧
        StepShape event.operation store update.store ∧
        event.next store = update.commit event.retained := by
  cases hupdate : event.update store with
  | none =>
      refine .inl ⟨rfl, ?_⟩
      rw [Event.next, hupdate]
      rfl
  | some update =>
      refine .inr ⟨update, rfl, ?_, ?_⟩
      · unfold Event.update at hupdate
        cases hrun : event.operation.run event.retained store with
        | error e =>
            rw [hrun] at hupdate
            cases hupdate
        | ok u =>
            rw [hrun] at hupdate
            cases hupdate
            exact Operation.run_shape hkeyed hrun
      · rw [Event.next, hupdate]
        rfl

theorem Event.wellKeyed_next (event : Event) (hkeyed : store.WellKeyed) :
    (event.next store).WellKeyed := by
  rcases event.next_cases hkeyed with ⟨-, hnext⟩ | ⟨update, -, hshape, hnext⟩
  · rw [hnext]
    exact hkeyed
  · rw [hnext]
    exact fun k record hget => hshape.wellKeyed hkeyed k record (of_getElem?_commit hget)

theorem wellKeyed_runEvents {events : List Event} (hkeyed : store.WellKeyed) :
    (runEvents store events).WellKeyed := by
  induction events generalizing store with
  | nil => exact hkeyed
  | cons event events ih => exact ih (event.wellKeyed_next hkeyed)

end Operations

end Jig.Loops

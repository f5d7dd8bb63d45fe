import Jig.State.FoldAgrees
import Jig.State.RunProtocol

/-!
# Open and closed journals

What the processes around a run know about its journal. A journal is open with a list of completed
targets, or closed; both are statements about what `fold_events` makes of the events. The lemmas say
what each record a process appends does to an open or a closed journal, and what a read of it
returns.
-/

namespace Jig.State

open Contract Lib

/-- The events fold to a run of the plan. -/
structure FoldsTo (runId : String) (plan : RunPlan) (events : List RunEventRecord)
    (run : DurableRun) : Prop where
  folds : events.foldlM (foldEvent runId) none = .ok (some run)
  names : run.result.targets.map (·.target) = plan.targets.map (·.target)
  nodup : (plan.targets.map (·.target)).Nodup

def RunEventRecord.completesRun (event : RunEventRecord) : Bool :=
  event.kind = some .completed

def RunEventRecord.completesTarget (event : RunEventRecord) (t : TargetId) : Bool :=
  event.kind = some .targetCompleted ∧ event.target = some t

/-- The targets in `done` have one target_completed event each, the others none. -/
def TargetsOnce (events : List RunEventRecord) (done : List TargetId) : Prop :=
  ∀ t, events.countP (·.completesTarget t) = if t ∈ done then 1 else 0

/-- The run has not completed, and exactly the targets in `done` have. -/
def JournalOpen (runId : String) (plan : RunPlan) (events : List RunEventRecord)
    (done : List TargetId) : Prop :=
  ∃ run, FoldsTo runId plan events run ∧ run.result.status ≠ .completed ∧
    (∀ result ∈ run.result.targets, result.status = .completed ↔ result.target ∈ done) ∧
    TargetsOnce events done ∧ events.countP (·.completesRun) = 0

/-- The run has completed. -/
def JournalClosed (runId : String) (plan : RunPlan) (events : List RunEventRecord) : Prop :=
  ∃ run, FoldsTo runId plan events run ∧ run.result.status = .completed ∧
    (∃ done, TargetsOnce events done) ∧ events.countP (·.completesRun) = 1

/-- The loop of `block_nonterminal_run` still has to record the targets that are not in `done`. -/
structure BlockLoop.Remaining (loop : BlockLoop) (plan : RunPlan) (done : List TargetId) : Prop where
  nodup : (loop.pending.map (·.target)).Nodup
  mem : ∀ t, t ∈ loop.pending.map (·.target) ↔ t ∈ plan.targets.map (·.target) ∧ t ∉ done

section Records

variable {runId : String} {plan : RunPlan} {events : List RunEventRecord} {done : List TargetId}
  {stamp : Stamp} {run : DurableRun} {target : Option TargetId} {kind : RunEventKind} {t : TargetId}
  {event : RunEventRecord}

theorem FoldsTo.append {run' : DurableRun} (h : FoldsTo runId plan events run)
    (hstep : foldEvent runId (some run) event = .ok (some run'))
    (hnames : run'.result.targets.map (·.target) = run.result.targets.map (·.target)) :
    FoldsTo runId plan (events ++ [event]) run' where
  folds := foldlM_concat_eq_ok.mpr ⟨some run, h.folds, hstep⟩
  names := hnames.trans h.names
  nodup := h.nodup

variable {conclusion : Option RunConclusion}

theorem simpleEvent_kind : (simpleEvent runId kind target conclusion stamp).kind = some kind :=
  RunEventKind.ofName_name kind

variable {result : TargetRunResult}

theorem resultEvent_kind :
    (resultEvent runId result stamp).kind = some .targetCompleted :=
  RunEventKind.ofName_name .targetCompleted

theorem targetsOnce_append_simple (h : TargetsOnce events done) (hkind : kind ≠ .targetCompleted) :
    TargetsOnce (events ++ [simpleEvent runId kind target conclusion stamp]) done := by
  intro t
  rw [List.countP_append, h t]
  simp [RunEventRecord.completesTarget, simpleEvent_kind, hkind]

theorem targetsOnce_append_result (h : TargetsOnce events done) (hnew : result.target ∉ done) :
    TargetsOnce (events ++ [resultEvent runId result stamp]) (done ++ [result.target]) := by
  intro t
  rw [List.countP_append, h t]
  have htarget : (resultEvent runId result stamp).target = some result.target := rfl
  by_cases ht : t = result.target
  · simp [RunEventRecord.completesTarget, resultEvent_kind, htarget, ht, hnew]
  · simp [RunEventRecord.completesTarget, htarget, ht, Ne.symm ht]

theorem countP_completesRun_simple :
    (events ++ [simpleEvent runId kind target conclusion stamp]).countP (·.completesRun) =
      events.countP (·.completesRun) + if kind = .completed then 1 else 0 := by
  simp [List.countP_append, RunEventRecord.completesRun, simpleEvent_kind]

theorem countP_completesRun_result :
    (events ++ [resultEvent runId result stamp]).countP (·.completesRun) =
      events.countP (·.completesRun) := by
  simp [List.countP_append, RunEventRecord.completesRun, resultEvent_kind]

section Step

section

variable (hstatus : run.result.status ≠ .completed)

include hstatus

theorem foldEvent_running (hkind : event.kind = some .running) :
    foldEvent runId (some run) event = .ok (some (run.touch .running event.timestampMs)) := by
  simp [foldEvent, hkind, requireRun, ensureNonterminal, hstatus, bind, Except.bind]

theorem foldEvent_targetStarted (hkind : event.kind = some .targetStarted) :
    foldEvent runId (some run) event = some <$> foldTargetStarted runId run event := by
  simp [foldEvent, hkind, requireRun, ensureNonterminal, hstatus, bind, Except.bind]
  rfl

theorem foldEvent_targetCompleted (hkind : event.kind = some .targetCompleted) :
    foldEvent runId (some run) event = some <$> foldTargetCompleted runId run event := by
  simp [foldEvent, hkind, requireRun, ensureNonterminal, hstatus, bind, Except.bind]
  rfl

theorem foldEvent_completed (hkind : event.kind = some .completed) :
    foldEvent runId (some run) event = some <$> foldCompleted runId run event := by
  simp [foldEvent, hkind, requireRun, ensureNonterminal, hstatus, bind, Except.bind]
  rfl

end

theorem foldEvent_cancelRequested (hkind : event.kind = some .cancelRequested) :
    foldEvent runId (some run) event = .ok (some (foldCancelRequested run event)) := by
  simp [foldEvent, hkind, requireRun, bind, Except.bind]

end Step

/-! ### Events that are written -/

theorem journalOpen_queued (hplan : validateRunPlanStructure plan = .ok ()) :
    JournalOpen runId plan [queuedEvent runId plan stamp] [] := by
  have hkind : (queuedEvent runId plan stamp).kind = some .queued := RunEventKind.ofName_name .queued
  refine ⟨.queued runId plan stamp.nowMs, ⟨?_, ?_, ?_⟩, nofun, ?_, ?_, ?_⟩
  · simp only [List.foldlM_cons, List.foldlM_nil, foldEvent, hkind]
    rfl
  · simp [DurableRun.queued, RunResult.queued, TargetRunResult.queued]
  · exact (validateRunPlanStructure_eq_ok.mp hplan).targets_nodup
  · simp [DurableRun.queued, RunResult.queued, TargetRunResult.queued]
  · intro t
    simp [RunEventRecord.completesTarget, hkind]
  · simp [RunEventRecord.completesRun, hkind]

theorem JournalOpen.running (h : JournalOpen runId plan events done) :
    JournalOpen runId plan (events ++ [simpleEvent runId .running none none stamp]) done := by
  obtain ⟨run, hfolds, hstatus, hdone, honce, hcount⟩ := h
  refine ⟨run.touch .running stamp.nowMs,
    hfolds.append (foldEvent_running hstatus simpleEvent_kind) rfl, nofun, hdone,
    targetsOnce_append_simple honce (by decide), ?_⟩
  rw [countP_completesRun_simple, hcount]
  rfl

/-- The result of a planned target is found. -/
theorem FoldsTo.targetResult (h : FoldsTo runId plan events run)
    (ht : t ∈ plan.targets.map (·.target)) :
    ∃ result ∈ run.result.targets, result.target = t ∧
      targetResult run runId t = .ok result := by
  have hnodup : (run.result.targets.map (·.target)).Nodup := h.names ▸ h.nodup
  rw [← h.names, List.mem_map] at ht
  obtain ⟨result, hmem, hname⟩ := ht
  exact ⟨result, hmem, hname, (targetResult_eq_ok hnodup).mpr ⟨hmem, hname⟩⟩

/-- Overwriting the result of one target. -/
theorem FoldsTo.setTarget (h : FoldsTo runId plan events run) (done' : List TargetId)
    {f : TargetRunResult → TargetRunResult}
    (hdone : ∀ result ∈ run.result.targets, result.status = .completed ↔ result.target ∈ done)
    (hf : ∀ result, result.target = t →
      (f result).target = t ∧ ((f result).status = .completed ↔ t ∈ done'))
    (hother : ∀ t', t' ≠ t → (t' ∈ done' ↔ t' ∈ done)) :
    ((run.setTarget t f).result.targets.map (·.target) = run.result.targets.map (·.target)) ∧
      ∀ result ∈ (run.setTarget t f).result.targets,
        result.status = .completed ↔ result.target ∈ done' := by
  refine ⟨map_modifyFirst fun result hname => (hf result hname).1, ?_⟩
  intro result hmem
  have hnodup : (run.result.targets.map (·.target)).Nodup := h.names ▸ h.nodup
  obtain ⟨hmem, hname⟩ | ⟨stored, hmem, hname, rfl⟩ := (mem_modifyFirst hnodup).mp hmem
  · rw [hdone result hmem, hother _ hname]
  · obtain ⟨htarget, hstatus⟩ := hf stored hname
    rw [htarget, hstatus]

section

variable (h : JournalOpen runId plan events done)

include h

theorem JournalOpen.started (ht : t ∈ plan.targets.map (·.target)) (hnew : t ∉ done) :
    JournalOpen runId plan (events ++ [simpleEvent runId .targetStarted (some t) none stamp])
      done := by
  obtain ⟨run, hfolds, hstatus, hdone, honce, hcount⟩ := h
  obtain ⟨result, hmem, rfl, hfound⟩ := hfolds.targetResult ht
  have hopen : result.status ≠ .completed := mt (hdone result hmem).mp hnew
  obtain ⟨hnames, hkept⟩ := hfolds.setTarget (t := result.target)
    (f := fun result => { result with status := .running, startedAtMs := some stamp.nowMs }) done
    hdone (fun other hname => ⟨hname, by simp [hnew]⟩) (fun _ _ => Iff.rfl)
  refine ⟨(run.setTarget result.target _).touch .running stamp.nowMs, hfolds.append ?_ hnames, nofun,
    hkept, targetsOnce_append_simple honce (by decide), ?_⟩
  · rw [foldEvent_targetStarted hstatus simpleEvent_kind]
    simp [foldTargetStarted, simpleEvent, hfound, bind, Except.bind, hopen]
  · rw [countP_completesRun_simple, hcount]
    rfl

theorem JournalOpen.recorded
    (ht : result.target ∈ plan.targets.map (·.target)) (hnew : result.target ∉ done)
    (hcompleted : result.status = .completed) (hconclusion : result.conclusion ≠ none) :
    JournalOpen runId plan (events ++ [resultEvent runId result stamp])
      (done ++ [result.target]) := by
  obtain ⟨run, hfolds, hstatus, hdone, honce, hcount⟩ := h
  obtain ⟨stored, hmem, hname, hfound⟩ := hfolds.targetResult ht
  have hopen : stored.status ≠ .completed := by
    rw [Ne, hdone stored hmem, hname]
    exact hnew
  obtain ⟨hnames, hkept⟩ := hfolds.setTarget (t := result.target) (f := fun _ => result)
    (done ++ [result.target]) hdone (fun _ _ => ⟨rfl, by simp [hcompleted]⟩)
    (fun t' hne => by simp [hne])
  refine ⟨(run.setTarget result.target _).touch .running (resultEvent runId result stamp).timestampMs,
    hfolds.append ?_ hnames, nofun, hkept, targetsOnce_append_result honce hnew, ?_⟩
  · rw [foldEvent_targetCompleted hstatus resultEvent_kind]
    simp [foldTargetCompleted, resultEvent, hfound, bind, Except.bind, hopen, hcompleted,
      hconclusion]
  · rw [countP_completesRun_result, hcount]

/-- The result `block_nonterminal_run` records. -/
theorem JournalOpen.blocked {target : TargetRunResult}
    {message : String} (nowMs : Nat) (ht : target.target ∈ plan.targets.map (·.target))
    (hnew : target.target ∉ done) :
    JournalOpen runId plan
      (events ++ [resultEvent runId (blockedResult message nowMs target) stamp])
      (done ++ [target.target]) := by
  have hconclusion : (blockedResult message nowMs target).conclusion ≠ none := by
    simp [blockedResult]
  exact h.recorded ht hnew rfl hconclusion

theorem JournalOpen.completed
    (hall : ∀ t ∈ plan.targets.map (·.target), t ∈ done) {conclusion : RunConclusion} :
    JournalClosed runId plan
      (events ++ [simpleEvent runId .completed none (some conclusion) stamp]) := by
  obtain ⟨run, hfolds, hstatus, hdone, honce, hcount⟩ := h
  have hscan : run.result.targets.any (fun target => target.status ≠ .completed) = false := by
    rw [List.any_eq_false]
    intro result hmem
    have hname : result.target ∈ plan.targets.map (·.target) :=
      hfolds.names ▸ List.mem_map.mpr ⟨result, hmem, rfl⟩
    simpa using (hdone result hmem).mpr (hall _ hname)
  let completed := run.touch .completed stamp.nowMs
  refine ⟨{ completed with result := { completed.result with conclusion := some conclusion } },
    hfolds.append ?_ rfl, rfl, ⟨done, targetsOnce_append_simple honce (by decide)⟩, ?_⟩
  · rw [foldEvent_completed hstatus simpleEvent_kind]
    simp only [foldCompleted, simpleEvent, hscan]
    rfl
  · rw [countP_completesRun_simple, hcount]
    rfl

theorem JournalOpen.cancelled :
    JournalOpen runId plan (events ++ [simpleEvent runId .cancelRequested none none stamp]) done := by
  obtain ⟨run, hfolds, hstatus, hdone, honce, hcount⟩ := h
  refine ⟨{ run with
      cancelRequested := true
      result := { run.result with updatedAtMs := stamp.nowMs } },
    hfolds.append ?_ rfl, hstatus, hdone, targetsOnce_append_simple honce (by decide), ?_⟩
  · rw [foldEvent_cancelRequested simpleEvent_kind, foldCancelRequested, if_neg hstatus]
    rfl
  · rw [countP_completesRun_simple, hcount]
    rfl

end

theorem JournalClosed.cancelled (h : JournalClosed runId plan events) :
    JournalClosed runId plan (events ++ [simpleEvent runId .cancelRequested none none stamp]) := by
  obtain ⟨run, hfolds, hstatus, ⟨done, honce⟩, hcount⟩ := h
  refine ⟨run, hfolds.append ?_ rfl, hstatus, ⟨done, targetsOnce_append_simple honce (by decide)⟩, ?_⟩
  · rw [foldEvent_cancelRequested simpleEvent_kind]
    simp [foldCancelRequested, hstatus]
  · rw [countP_completesRun_simple, hcount]
    rfl

/-! ## Reads -/

theorem FoldsTo.foldEvents (h : FoldsTo runId plan events run) :
    foldEvents runId events = .ok run :=
  foldEvents_eq_ok.mpr h.folds

/-- A read of an open journal sets `block_nonterminal_run` up with the targets that remain. -/
theorem JournalOpen.foldEvents (h : JournalOpen runId plan events done) :
    ∃ run, foldEvents runId events = .ok run ∧ run.result.status ≠ .completed ∧
      (BlockLoop.start run).Remaining plan done := by
  obtain ⟨run, hfolds, hstatus, hdone, -⟩ := h
  have hnodup : (run.result.targets.map (·.target)).Nodup := hfolds.names ▸ hfolds.nodup
  refine ⟨run, hfolds.foldEvents, hstatus, ?_, ?_⟩
  · exact hnodup.sublist (List.filter_sublist.map _)
  · intro t
    rw [← hfolds.names]
    simp only [BlockLoop.start, List.mem_map, List.mem_filter, decide_eq_true_eq]
    constructor
    · intro hpending
      obtain ⟨result, ⟨hmem, hopen⟩, rfl⟩ := hpending
      exact ⟨⟨result, hmem, rfl⟩, mt (hdone result hmem).mpr hopen⟩
    · intro hrest
      obtain ⟨⟨result, hmem, rfl⟩, hnew⟩ := hrest
      exact ⟨result, ⟨hmem, mt (hdone result hmem).mp hnew⟩, rfl⟩

theorem JournalClosed.foldEvents (h : JournalClosed runId plan events) :
    ∃ run, foldEvents runId events = .ok run ∧ run.result.status = .completed := by
  obtain ⟨run, hfolds, hstatus, -⟩ := h
  exact ⟨run, hfolds.foldEvents, hstatus⟩

/-- The validator of an archiver does not take an open run for a completed one. -/
theorem JournalOpen.completedAtMs_eq_none (h : JournalOpen runId plan events done)
    {v : RunLifecycleValidator} (hv : RunLifecycleValidator.observeAll events = .ok v) :
    v.completedAtMs = none := by
  obtain ⟨run, hfolds, hstatus, -⟩ := h
  obtain ⟨folded, hfold, hrelated⟩ :=
    (journals_together runId (observeAll_usable hv)).exists_right hv
  rw [hfolds.folds, Except.ok.injEq] at hfold
  subst hfold
  have hopen : ¬v.completed = true := mt hrelated.completed_iff.mp hstatus
  simpa [RunLifecycleValidator.completed] using hopen

end Records

end Jig.State

import Jig.State.FoldStep

/-!
# The fold and the validator accept the same journals

`observe_accepts_iff_fold` lifts the correspondence of `FoldStep` to whole lists of events. The
validator checks the id and the queued plan itself, while the fold takes them as they are; the first
part of this file follows the plan through the fold, the second the two checks and the completion
time through the validator.
-/

namespace Jig.State

open Contract Lib
open RunLifecycleValidator (observeAll)

def queuedPlan (events : List RunEventRecord) : Option RunPlan :=
  (events.find? (fun event => event.kind = some .queued)).bind (·.plan)

section Journal

variable {runId : String}

/-! ### The fold keeps the plan -/

theorem requireRun_eq_ok {run : Option DurableRun} {name : String} {current : DurableRun} :
    requireRun run runId name = .ok current ↔ run = some current := by
  cases run <;> simp [requireRun]

variable {current next : DurableRun} {event : RunEventRecord}

theorem foldTargetStarted_plan (h : foldTargetStarted runId current event = .ok next) :
    next.plan = current.plan := by
  unfold foldTargetStarted at h
  cases htarget : event.target with
  | none => simp [htarget] at h
  | some target =>
      simp only [htarget, bind_eq_ok, ite_error_eq_ok, Except.ok.injEq] at h
      obtain ⟨_, _, _, rfl⟩ := h
      rfl

theorem foldTargetCompleted_plan (h : foldTargetCompleted runId current event = .ok next) :
    next.plan = current.plan := by
  unfold foldTargetCompleted at h
  cases hresult : event.result with
  | none => simp [hresult] at h
  | some result =>
      simp only [hresult, bind_eq_ok, ite_error_eq_ok, Except.ok.injEq] at h
      obtain ⟨_, _, _, _, _, rfl⟩ := h
      rfl

theorem foldCompleted_plan (h : foldCompleted runId current event = .ok next) :
    next.plan = current.plan := by
  unfold foldCompleted at h
  obtain ⟨_, h⟩ := ite_error_eq_ok.mp h
  cases hconclusion : event.conclusion with
  | none => simp [hconclusion] at h
  | some conclusion =>
      simp only [hconclusion, Except.ok.injEq] at h
      rw [← h]
      rfl

/-- What a step of the fold does to the plan. -/
theorem foldEvent_plan {run run' : Option DurableRun}
    (h : foldEvent runId run event = .ok run') :
    (event.kind = some .queued ∧ run = none ∧ event.plan ≠ none ∧
        run'.map (·.plan) = event.plan) ∨
      (event.kind ≠ some .queued ∧ run'.map (·.plan) = run.map (·.plan)) := by
  unfold foldEvent at h
  cases hkind : event.kind with
  | none =>
      simp only [hkind, Except.ok.injEq] at h
      exact Or.inr ⟨by simp, by rw [h]⟩
  | some kind =>
      cases kind with
      | queued =>
          simp only [hkind, bind_eq_ok, Except.ok.injEq] at h
          obtain ⟨queued, hqueued, rfl⟩ := h
          unfold foldQueued at hqueued
          obtain ⟨hnone, hqueued⟩ := ite_error_eq_ok.mp hqueued
          cases hplan : event.plan with
          | none => simp [hplan] at hqueued
          | some plan =>
              simp only [hplan, Except.ok.injEq] at hqueued
              refine Or.inl ⟨rfl, by simpa using hnone, by simp, ?_⟩
              rw [← hqueued]
              rfl
      | cancelRequested =>
          simp only [hkind, bind_eq_ok, Except.ok.injEq] at h
          obtain ⟨current, hcurrent, rfl⟩ := h
          refine Or.inr ⟨by simp, ?_⟩
          rw [requireRun_eq_ok.mp hcurrent]
          unfold foldCancelRequested
          split <;> rfl
      | running =>
          simp only [hkind, bind_eq_ok, Except.ok.injEq] at h
          obtain ⟨current, hcurrent, -, -, rfl⟩ := h
          rw [requireRun_eq_ok.mp hcurrent]
          exact Or.inr ⟨by simp, rfl⟩
      | targetStarted | targetCompleted | completed =>
          simp only [hkind, bind_eq_ok, Except.ok.injEq] at h
          obtain ⟨current, hcurrent, -, -, next, hnext, rfl⟩ := h
          rw [requireRun_eq_ok.mp hcurrent]
          refine Or.inr ⟨by simp, congrArg some ?_⟩
          first
          | exact foldTargetStarted_plan hnext
          | exact foldTargetCompleted_plan hnext
          | exact foldCompleted_plan hnext

variable {events : List RunEventRecord}

theorem foldlM_foldEvent_plan {run run' : Option DurableRun}
    (h : events.foldlM (foldEvent runId) run = .ok run') :
    run'.map (·.plan) = (run.map (·.plan)).or (queuedPlan events) ∧
      ∀ event ∈ events, event.kind = some .queued →
        event.plan ≠ none ∧ event.plan = run'.map (·.plan) := by
  induction events generalizing run with
  | nil =>
      simp only [List.foldlM_nil, pure_eq_ok] at h
      simp [h, queuedPlan]
  | cons event events ih =>
      rw [List.foldlM_cons, bind_eq_ok] at h
      obtain ⟨mid, hevent, hrest⟩ := h
      obtain ⟨hplan, hall⟩ := ih hrest
      obtain ⟨hkind, rfl, hsome, hmid⟩ | ⟨hkind, hmid⟩ := foldEvent_plan hevent
      · obtain ⟨plan, heq⟩ := Option.ne_none_iff_exists'.mp hsome
        rw [hmid, heq, Option.some_or] at hplan
        refine ⟨by simp [queuedPlan, hkind, heq, hplan], ?_⟩
        intro other hother hqueued
        rcases List.mem_cons.mp hother with rfl | hother
        · exact ⟨hsome, by rw [heq, hplan]⟩
        · exact hall other hother hqueued
      · refine ⟨by simpa [queuedPlan, hkind, hmid] using hplan, ?_⟩
        intro other hother hqueued
        rcases List.mem_cons.mp hother with rfl | hother
        · exact absurd hqueued hkind
        · exact hall other hother hqueued

variable {v v' : RunLifecycleValidator}

/-! ### What the observer has seen -/

/-- What an accepted event went through. -/
theorem observe_eq_ok (h : v.observe event = .ok v') :
    (event.kind ≠ none → validateRunIdForLease event.runId = .ok ()) ∧
      ∃ v₁ v₂, v.observeQueued event = .ok v₁ ∧ v₁.observePayload event = .ok v₂ ∧
        v'.completedAtMs = v₂.completedAtMs ∧ v'.eventCount = saturatingSucc v₂.eventCount := by
  unfold RunLifecycleValidator.observe at h
  by_cases hknown : isRecognizedRunEvent event.event = true
  · simp only [hknown, if_true, bind_eq_ok, Except.ok.injEq] at h
    obtain ⟨_, hid, v₁, hqueued, v₂, hpayload, _, -, rfl⟩ := h
    exact ⟨fun _ => hid, v₁, v₂, hqueued, hpayload, rfl, rfl⟩
  · have hkind : event.kind = none := by
      simpa [isRecognizedRunEvent, RunEventRecord.kind] using hknown
    simp only [hknown, Bool.false_eq_true, if_false, bind_eq_ok, Except.ok.injEq] at h
    obtain ⟨v₁, hqueued, v₂, hpayload, _, -, rfl⟩ := h
    exact ⟨fun hne => absurd hkind hne, v₁, v₂, hqueued, hpayload, rfl, rfl⟩

theorem observeQueued_plan (h : v.observeQueued event = .ok v') (hkind : event.kind = some .queued)
    {plan : RunPlan} (hplan : event.plan = some plan) :
    validateRunPlanStructure plan = .ok () := by
  unfold RunLifecycleValidator.observeQueued at h
  simp only [hkind, hplan] at h
  obtain ⟨-, h⟩ := ite_error_eq_ok.mp h
  cases hvalid : validateRunPlanStructure plan with
  | ok _ => rfl
  | error _ => simp [hvalid] at h

theorem observeQueued_keeps (h : v.observeQueued event = .ok v') :
    v'.completedAtMs = v.completedAtMs ∧ v'.eventCount = v.eventCount := by
  unfold RunLifecycleValidator.observeQueued at h
  dsimp only at h
  split at h
  · obtain ⟨-, h⟩ := ite_error_eq_ok.mp h
    split at h
    · cases h
    · split at h
      · cases h
      · cases h
        exact ⟨rfl, rfl⟩
  · obtain ⟨-, h⟩ := ite_error_eq_ok.mp h
    cases h
    exact ⟨rfl, rfl⟩
  · cases h
    exact ⟨rfl, rfl⟩

theorem observePayload_keeps (h : v.observePayload event = .ok v') :
    v'.eventCount = v.eventCount ∧
      ((event.kind = some .completed ∧ v.completedAtMs = none ∧
          v'.completedAtMs = some event.timestampMs) ∨
        (event.kind ≠ some .completed ∧ v'.completedAtMs = v.completedAtMs)) := by
  unfold RunLifecycleValidator.observePayload at h
  split at h
  · next hkind =>
      unfold RunLifecycleValidator.observeTargetStarted at h
      split at h
      · cases h
      · simp only [ite_error_eq_ok, Except.ok.injEq] at h
        obtain ⟨-, -, rfl⟩ := h
        exact ⟨rfl, .inr ⟨by simp [hkind], rfl⟩⟩
  · next hkind =>
      unfold RunLifecycleValidator.observeTargetCompleted at h
      split at h
      · cases h
      · simp only [ite_error_eq_ok, Except.ok.injEq] at h
        obtain ⟨-, -, -, -, rfl⟩ := h
        exact ⟨rfl, .inr ⟨by simp [hkind], rfl⟩⟩
  · next hkind =>
      simp only [RunLifecycleValidator.observeCompleted, ite_error_eq_ok, Except.ok.injEq] at h
      obtain ⟨-, -, hnone, rfl⟩ := h
      exact ⟨rfl, .inl ⟨hkind, by simpa using hnone, rfl⟩⟩
  · next hkind =>
      cases h
      exact ⟨rfl, .inr ⟨hkind, rfl⟩⟩

theorem observeAll_completedAtMs (h : observeAll events = .ok v)
    (timestampMs : Nat) :
    v.completedAtMs = some timestampMs ↔
      ∃ event ∈ events, event.kind = some .completed ∧ event.timestampMs = timestampMs := by
  refine foldlM_ok_induction (fun done (v : RunLifecycleValidator) =>
    v.completedAtMs = some timestampMs ↔ ∃ event ∈ done, event.kind = some .completed ∧
      event.timestampMs = timestampMs) h (by simp) ?_
  intro done event v v' _ hdone hevent
  obtain ⟨-, v₁, v₂, hqueued, hpayload, hmid, -⟩ := observe_eq_ok hevent
  have hv₁ := (observeQueued_keeps hqueued).1
  rw [hmid, exists_mem_concat, ← hdone]
  obtain ⟨hkind, hnone, hsome⟩ | ⟨hkind, hsame⟩ := (observePayload_keeps hpayload).2
  · rw [hv₁] at hnone
    simp [hkind, hnone, hsome]
  · simp [hkind, hsame, hv₁]

/-- An accepted list has usable events. -/
theorem observeAll_usable (h : observeAll events = .ok v) :
    ∀ event ∈ events, Usable event := by
  refine foldlM_ok_induction (fun done _ => ∀ event ∈ done, Usable event) h (by simp) ?_
  intro done event v v' _ hdone hevent
  obtain ⟨hid, v₁, -, hqueued, -⟩ := observe_eq_ok hevent
  exact forall_mem_concat hdone ⟨hid, fun hkind plan => observeQueued_plan hqueued hkind⟩

/-! ### Whole journals -/

/-- The two machines on a list of usable events. -/
theorem journals_together (runId : String) (husable : ∀ event ∈ events, Usable event) :
    Together Related (observeAll events)
      (events.foldlM (foldEvent runId) none) := by
  apply Together.foldlM
  · intro event hmem v run h
    exact h.step (husable event hmem)
  · exact ⟨rfl, rfl, rfl, rfl⟩

theorem foldEvents_eq_ok {run : DurableRun} :
    foldEvents runId events = .ok run ↔ events.foldlM (foldEvent runId) none = .ok (some run) := by
  unfold foldEvents
  rw [bind_eq_ok]
  constructor
  · intro h
    obtain ⟨folded, hfolded, h⟩ := h
    cases folded with
    | none => cases h
    | some found => rw [hfolded, Except.ok.inj h]
  · intro h
    exact ⟨some run, h, rfl⟩

theorem Related.completed_iff {run : DurableRun} (h : Related v (some run)) :
    v.completed = true ↔ run.result.status = .completed := by
  unfold RunLifecycleValidator.completed
  obtain ⟨-, -, hopen | hclosed⟩ := h
  · simp [hopen.completedAtMs, hopen.status]
  · simp [hclosed.status, Option.isSome_iff_ne_none, hclosed.completedAtMs]

/-- **The validator accepts what the fold accepts**: a stream with a queued event, as far as its plan
and its run ID are valid; and the two agree on the completion and its time. -/
theorem observe_accepts_iff_fold {runId : String} {events : List RunEventRecord}
    (hid : ∀ event ∈ events, event.runId = runId) :
    (((∃ v, observeAll events = .ok v) ∧
        ∃ event ∈ events, event.event = RunEventKind.queued.name) ↔
      (∃ run, foldEvents runId events = .ok run) ∧
        (∃ plan, queuedPlan events = some plan ∧ validateRunPlanStructure plan = .ok ()) ∧
        validateRunIdForLease runId = .ok ()) ∧
    ∀ v run, observeAll events = .ok v → foldEvents runId events = .ok run →
      (v.completed = true ↔ run.result.status = .completed) ∧
      ∀ timestampMs, v.completedAtMs = some timestampMs ↔
        ∃ event ∈ events, event.event = RunEventKind.completed.name ∧
          event.timestampMs = timestampMs := by
  refine ⟨⟨?_, ?_⟩, ?_⟩
  · intro h
    obtain ⟨⟨v, hv⟩, event, hmem, hname⟩ := h
    have husable := observeAll_usable hv
    have hkind : event.kind = some .queued := RunEventKind.ofName_eq_some.mpr hname
    obtain ⟨folded, hfold, -⟩ := (journals_together runId husable).exists_right hv
    obtain ⟨hplan, hqueued⟩ := foldlM_foldEvent_plan hfold
    obtain ⟨hsome, heq⟩ := hqueued event hmem hkind
    cases folded with
    | none => exact absurd heq hsome
    | some run =>
        refine ⟨⟨run, foldEvents_eq_ok.mpr hfold⟩, ⟨run.plan, by simpa using hplan.symm, ?_⟩, ?_⟩
        · exact (husable event hmem).plan hkind run.plan heq
        · rw [← hid event hmem]
          exact (husable event hmem).id (by simp [hkind])
  · intro h
    obtain ⟨⟨run, hrun⟩, ⟨plan, hplan, hvalid⟩, hlease⟩ := h
    have hfold := foldEvents_eq_ok.mp hrun
    obtain ⟨hfolded, hqueued⟩ := foldlM_foldEvent_plan hfold
    have htogether : Together Related (observeAll events)
        (events.foldlM (foldEvent runId) none) := by
      apply journals_together
      intro event hmem
      refine ⟨fun _ => (hid event hmem) ▸ hlease, ?_⟩
      intro hkind plan' hplan'
      -- there is one queued event, and its plan is the one of the run
      have hsame : some plan' = some plan := by
        rw [← hplan', (hqueued event hmem hkind).2, hfolded, hplan]
        rfl
      rw [Option.some.inj hsame]
      exact hvalid
    obtain ⟨v, hv, -⟩ := htogether.exists_left hfold
    refine ⟨⟨v, hv⟩, ?_⟩
    obtain ⟨event, hfind, -⟩ := Option.bind_eq_some_iff.mp hplan
    refine ⟨event, List.mem_of_find?_eq_some hfind, ?_⟩
    have hkind : event.kind = some .queued := by simpa using List.find?_some hfind
    exact RunEventKind.ofName_eq_some.mp hkind
  · intro v run hv hrun
    obtain ⟨folded, hfold, hrelated⟩ :=
      (journals_together runId (observeAll_usable hv)).exists_right hv
    rw [foldEvents_eq_ok.mp hrun, Except.ok.injEq] at hfold
    subst hfold
    refine ⟨hrelated.completed_iff, ?_⟩
    intro timestampMs
    rw [observeAll_completedAtMs hv]
    simp [RunEventRecord.kind, RunEventKind.ofName_eq_some]

/-! ## Journals that grow -/

section Growth

variable {run : DurableRun} {later : List RunEventRecord}

theorem foldlM_foldEvent_of_completed {next : Option DurableRun}
    (hdone : run.result.status = .completed)
    (h : later.foldlM (foldEvent runId) (some run) = .ok next) : next = some run := by
  induction later with
  | nil => exact (Except.ok.inj h).symm
  | cons event later ih =>
      rw [List.foldlM_cons, bind_eq_ok] at h
      obtain ⟨middle, hevent, hrest⟩ := h
      -- every event that would change the run is refused
      have hsame : some run = middle := by
        unfold foldEvent at hevent
        split at hevent <;>
          simp [foldQueued, requireRun, ensureNonterminal, foldCancelRequested, hdone,
            bind_eq_ok] at hevent <;>
          exact hevent
      exact ih (hsame ▸ hrest)

/-- **A completed run is final.** Whatever is appended to the journal of a run that was read as
completed, it is read as the same run, if it can be read at all. -/
theorem completed_run_final {run' : DurableRun} (h : foldEvents runId events = .ok run)
    (hdone : run.result.status = .completed)
    (h' : foldEvents runId (events ++ later) = .ok run') : run' = run := by
  rw [foldEvents_eq_ok] at h h'
  obtain ⟨_, hearlier, hlater⟩ := foldlM_append_eq_ok.mp h'
  rw [h, Except.ok.injEq] at hearlier
  subst hearlier
  exact Option.some.inj (foldlM_foldEvent_of_completed hdone hlater)

end Growth

end Journal

/-- A run of one target whose cancellation arrives too late, with an event from a later version. -/
def lateCancellationJournal : List RunEventRecord :=
  let target : TargetId := ⟨⟨"worker", by decide⟩, ⟨"migrate", by decide⟩⟩
  let plan : RunPlan :=
    { id := "run-plan_example"
      configDigest := "sha256:config"
      source := ⟨some "abc", "sha256:worktree"⟩
      targets := [{ target, intent := .check, runner := .command "migrate" none ∅,
                    inputDigest := "sha256:input" }]
      executionLayers := [[target]] }
  let result : TargetRunResult :=
    { TargetRunResult.queued target "sha256:config" "sha256:input" with
      status := .completed, conclusion := some .success }
  [{ id := "e1", runId := "run-1", event := "queued", timestampMs := 1, plan },
   { id := "e2", runId := "run-1", event := "running", timestampMs := 2 },
   { id := "e3", runId := "run-1", event := "target_started", timestampMs := 3, target },
   { id := "e4", runId := "run-1", event := "target_annotated", timestampMs := 4 },
   { id := "e5", runId := "run-1", event := "target_completed", timestampMs := 5, target, result },
   { id := "e6", runId := "run-1", event := "completed", timestampMs := 6,
     conclusion := some .success },
   { id := "e7", runId := "run-1", event := "cancel_requested", timestampMs := 7 }]

theorem observe_accepts_iff_fold_lateCancellationJournal :
    ∃ v run, observeAll lateCancellationJournal = .ok v ∧
      foldEvents "run-1" lateCancellationJournal = .ok run ∧
      v.completedAtMs = some 6 ∧ run.result.status = .completed := by
  have hid : ∀ event ∈ lateCancellationJournal, event.runId = "run-1" := by decide
  obtain ⟨haccepts, hcompleted⟩ := observe_accepts_iff_fold hid
  have hrun : isOkAnd (observeAll lateCancellationJournal)
      (·.completedAtMs = some 6) = true := by decide
  obtain ⟨v, hv, hsix⟩ := exists_of_isOkAnd hrun
  rw [decide_eq_true_eq] at hsix
  obtain ⟨⟨run, hrun⟩, -⟩ := haccepts.mp ⟨⟨v, hv⟩, _, List.mem_cons_self, rfl⟩
  refine ⟨v, run, hv, hrun, hsix, (hcompleted v run hv hrun).1.mp ?_⟩
  simp [RunLifecycleValidator.completed, hsix]

/-- The cancellation that comes too late is read, and changes nothing. -/
theorem completed_run_final_lateCancellationJournal :
    ∃ run, foldEvents "run-1" (lateCancellationJournal.take 6) = .ok run ∧
      foldEvents "run-1" lateCancellationJournal = .ok run := by
  have hrun : isOkAnd (foldEvents "run-1" (lateCancellationJournal.take 6))
      (·.result.status = .completed) = true := by decide
  have hlate : isOkAnd (foldEvents "run-1" (lateCancellationJournal.take 6 ++
      lateCancellationJournal.drop 6)) (fun _ => true) = true := by decide
  obtain ⟨run, hrun, hdone⟩ := exists_of_isOkAnd hrun
  obtain ⟨run', hlate, -⟩ := exists_of_isOkAnd hlate
  obtain rfl := completed_run_final hrun (of_decide_eq_true hdone) hlate
  exact ⟨run', hrun, hlate⟩

end Jig.State

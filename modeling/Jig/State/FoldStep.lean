import Jig.State.FoldEvents
import Jig.State.Lifecycle

/-!
# The fold and the validator step together

Two state machines read the events of a run: `fold_events` with a vector of results, and
`RunLifecycleValidator::observe` with two sets. `Related` says when a state of the one corresponds
to a state of the other. `Related.step`: from corresponding states the two accept the same events
and reach corresponding states again, as long as the id and a queued plan are valid.
-/

namespace Jig.State

open Contract Lib Std

/-! ## Updating a record in place -/

section ModifyFirst

variable {α κ : Type} [DecidableEq κ] {key : α → κ} {k : κ} {f : α → α} {l : List α}

theorem map_modifyFirst (hf : ∀ a, key a = k → key (f a) = k) :
    (modifyFirst (fun a => key a = k) f l).map key = l.map key := by
  induction l with
  | nil => rfl
  | cons a l ih =>
      unfold modifyFirst
      by_cases ha : key a = k
      · simp [ha, hf a ha]
      · simp [ha, ih]

theorem mem_modifyFirst (hnodup : (l.map key).Nodup) {b : α} :
    b ∈ modifyFirst (fun a => key a = k) f l ↔
      (b ∈ l ∧ key b ≠ k) ∨ ∃ a ∈ l, key a = k ∧ b = f a := by
  induction l with
  | nil => simp [modifyFirst]
  | cons a l ih =>
      rw [List.map_cons, List.nodup_cons] at hnodup
      unfold modifyFirst
      by_cases ha : key a = k
      · have hrest : ∀ c ∈ l, key c ≠ k := by
          intro c hc hck
          exact hnodup.1 (ha.trans hck.symm ▸ List.mem_map_of_mem hc)
        simp only [ha, decide_true, if_true, List.mem_cons]
        grind
      · simp only [ha, decide_false, Bool.false_eq_true, if_false, List.mem_cons, ih hnodup.2]
        grind

end ModifyFirst

/-! ## Corresponding states -/

structure OpenRun (v : RunLifecycleValidator) (run : DurableRun) : Prop where
  status : run.result.status ≠ .completed
  completedAtMs : v.completedAtMs = none
  names_nodup : (run.result.targets.map (·.target)).Nodup
  planned : ∀ t, t ∈ v.plannedTargets ↔ t ∈ run.result.targets.map (·.target)
  completed : ∀ t, t ∈ v.completedTargets ↔
    ∃ result ∈ run.result.targets, result.target = t ∧ result.status = .completed

structure ClosedRun (v : RunLifecycleValidator) (run : DurableRun) : Prop where
  status : run.result.status = .completed
  completedAtMs : v.completedAtMs ≠ none
  planned : v.plannedTargets = ∅
  completed : v.completedTargets = ∅

/-- A state of the validator and a state of the fold after the same events. -/
def Related (v : RunLifecycleValidator) : Option DurableRun → Prop
  | none => v.queued = false ∧ v.knownEventCount = 0 ∧ v.completedAtMs = none ∧
      v.completedTargets = ∅
  | some run => v.queued = true ∧ validateRunPlanStructure run.plan = .ok () ∧
      (OpenRun v run ∨ ClosedRun v run)

section Step

open RunLifecycleValidator (observe observeQueued observePayload observeOrder observeTargetStarted
  observeTargetCompleted observeCompleted)

variable {v : RunLifecycleValidator} {event : RunEventRecord} {runId : String} {t : TargetId}
  {kind : RunEventKind}

/-- The event counters do not matter once the run is queued. -/
def RunLifecycleValidator.count (v : RunLifecycleValidator) : RunLifecycleValidator :=
  { v with
    knownEventCount := saturatingSucc v.knownEventCount
    eventCount := saturatingSucc v.eventCount }

variable {run : DurableRun}

theorem Related.count (h : Related v (some run)) : Related v.count (some run) := by
  obtain ⟨hqueued, hplan, hopen | hclosed⟩ := h
  · exact ⟨hqueued, hplan, Or.inl { hopen with }⟩
  · exact ⟨hqueued, hplan, Or.inr { hclosed with }⟩

theorem observe_of_kind (hkind : event.kind = some kind)
    (hid : validateRunIdForLease event.runId = .ok ()) :
    v.observe event = (do
      let v ← v.observeQueued event
      let v ← v.observePayload event
      v.observeOrder event
      .ok v.count) := by
  have hknown : isRecognizedRunEvent event.event = true := by
    unfold isRecognizedRunEvent
    rw [show RunEventKind.ofName event.event = some kind from hkind]
    rfl
  unfold observe
  simp only [hknown, if_true, hid]
  rfl

/-- After the queued event the first part of `observe` lets every other event pass. -/
theorem observeQueued_of_queued (hkind : event.kind = some kind) (hne : kind ≠ .queued)
    (hqueued : v.queued = true) : v.observeQueued event = .ok v := by
  unfold observeQueued
  cases kind with
  | queued => exact absurd rfl hne
  | _ => simp [hkind, hqueued]

/-- Before the queued event both reject every lifecycle event. -/
theorem agree_before_queued (hkind : event.kind = some kind) (hne : kind ≠ .queued)
    (hid : validateRunIdForLease event.runId = .ok ()) (h : Related v none) :
    Together Related (v.observe event) (foldEvent runId none event) := by
  rw [observe_of_kind hkind hid]
  unfold observeQueued foldEvent
  cases kind with
  | queued => exact absurd rfl hne
  | _ => simp [hkind, h.1, requireRun, bind, Except.bind, Together]

theorem agree_queued (hkind : event.kind = some .queued)
    (hid : validateRunIdForLease event.runId = .ok ())
    (hplan : ∀ plan, event.plan = some plan → validateRunPlanStructure plan = .ok ())
    {run : Option DurableRun} (h : Related v run) :
    Together Related (v.observe event) (foldEvent runId run event) := by
  rw [observe_of_kind hkind hid]
  unfold observeQueued foldEvent foldQueued
  cases run with
  | some run => simp [hkind, h.1, bind, Except.bind, Together]
  | none =>
      obtain ⟨hqueued, hknown, hcompleted, hempty⟩ := h
      cases hevent : event.plan with
      | none => simp [hkind, hqueued, hknown, bind, Except.bind, Together]
      | some plan =>
          have hvalid := hplan plan hevent
          have hstructure := validateRunPlanStructure_eq_ok.mp hvalid
          simp only [hkind, hqueued, hknown, hvalid, Nat.lt_irrefl, decide_false, Bool.or_self,
            Bool.false_eq_true, if_false, bind, Except.bind, Option.isSome_none,
            observePayload, observeOrder, hcompleted]
          apply Related.count
          have hnames : (DurableRun.queued runId plan event.timestampMs).result.targets.map
              (·.target) = plan.targets.map (·.target) := by
            simp [DurableRun.queued, RunResult.queued, TargetRunResult.queued]
          refine ⟨rfl, hvalid, Or.inl ⟨by simp [DurableRun.queued, RunResult.queued], rfl, ?_, ?_,
            ?_⟩⟩
          · rw [hnames]
            exact hstructure.targets_nodup
          · intro t
            rw [hnames]
            exact mem_treeSet_ofList
          · intro t
            simp [hempty, DurableRun.queued, RunResult.queued, TargetRunResult.queued]

/-! ### Results of targets -/

/-- What a lookup finds in a run with distinct targets. -/
theorem targetResult_eq_ok (hnodup : (run.result.targets.map (·.target)).Nodup)
    {result : TargetRunResult} :
    targetResult run runId t = .ok result ↔ result ∈ run.result.targets ∧ result.target = t := by
  unfold targetResult
  constructor
  · intro h
    split at h
    · rename_i found hfind
      obtain rfl := Except.ok.inj h
      exact ⟨List.mem_of_find?_eq_some hfind, by simpa using List.find?_some hfind⟩
    · cases h
  · intro h
    obtain ⟨hmem, rfl⟩ := h
    rw [find?_eq_some_of_key_nodup hnodup hmem]

theorem targetResult_planned (runId : String) (h : OpenRun v run) (ht : t ∈ v.plannedTargets) :
    ∃ result ∈ run.result.targets, result.target = t ∧ targetResult run runId t = .ok result ∧
      (t ∈ v.completedTargets ↔ result.status = .completed) := by
  obtain ⟨result, hmem, hname⟩ := List.mem_map.mp ((h.planned t).mp ht)
  refine ⟨result, hmem, hname, (targetResult_eq_ok h.names_nodup).mpr ⟨hmem, hname⟩, ?_⟩
  rw [h.completed]
  constructor
  · intro hcompleted
    obtain ⟨other, hother, hotherName, hstatus⟩ := hcompleted
    rw [List.inj_on_of_nodup_map h.names_nodup hmem hother (hname.trans hotherName.symm)]
    exact hstatus
  · intro hstatus
    exact ⟨result, hmem, hname, hstatus⟩

theorem targetResult_unplanned (runId : String) (h : OpenRun v run) (ht : t ∉ v.plannedTargets) :
    ∃ message, targetResult run runId t = .error message := by
  cases hresult : targetResult run runId t with
  | error message => exact ⟨message, rfl⟩
  | ok result =>
      obtain ⟨hmem, hname⟩ := (targetResult_eq_ok h.names_nodup).mp hresult
      exact absurd ((h.planned t).mpr (List.mem_map.mpr ⟨result, hmem, hname⟩)) ht

/-- Overwriting the result of a target that is not completed. -/
theorem OpenRun.setTarget (h : OpenRun v run) (ht : t ∈ v.plannedTargets)
    (hnew : t ∉ v.completedTargets) {f : TargetRunResult → TargetRunResult}
    (hf : ∀ result, result.target = t → (f result).target = t) {w : RunLifecycleValidator}
    (hplanned : w.plannedTargets = v.plannedTargets) (hnone : w.completedAtMs = none)
    (hcompleted : ∀ result, result.target = t → ∀ t', t' ∈ w.completedTargets ↔
      t' ∈ v.completedTargets ∨ (t' = t ∧ (f result).status = .completed)) {timestampMs : Nat} :
    OpenRun w ((run.setTarget t f).touch .running timestampMs) := by
  have hnames : ((run.setTarget t f).touch .running timestampMs).result.targets.map (·.target) =
      run.result.targets.map (·.target) := map_modifyFirst hf
  refine ⟨nofun, hnone, ?_, ?_, ?_⟩
  · rw [hnames]
    exact h.names_nodup
  · intro t'
    rw [hnames, hplanned]
    exact h.planned t'
  · intro t'
    obtain ⟨stored, hstored, hname, -, hstatus⟩ := targetResult_planned "" h ht
    have hunique : ∀ other ∈ run.result.targets, other.target = t → other = stored :=
      fun other hother hsame =>
        List.inj_on_of_nodup_map h.names_nodup hother hstored (hsame.trans hname.symm)
    rw [hcompleted stored hname, h.completed]
    show _ ↔ ∃ result ∈ modifyFirst (fun result => result.target = t) f run.result.targets, _
    simp only [mem_modifyFirst h.names_nodup]
    grind

/-- The set comparison of the validator is the scan of the fold. -/
theorem OpenRun.completed_eq_planned_iff (h : OpenRun v run) :
    v.completedTargets = v.plannedTargets ↔
      run.result.targets.any (fun target => target.status ≠ .completed) = false := by
  rw [List.any_eq_false]
  constructor
  · intro heq result hmem
    have hplanned : result.target ∈ v.plannedTargets :=
      (h.planned _).mpr (List.mem_map.mpr ⟨result, hmem, rfl⟩)
    rw [← heq, h.completed] at hplanned
    obtain ⟨other, hother, hname, hstatus⟩ := hplanned
    rw [List.inj_on_of_nodup_map h.names_nodup hother hmem hname] at hstatus
    simp [hstatus]
  · intro hall
    apply ExtTreeSet.ext_mem
    intro t
    rw [h.completed, h.planned, List.mem_map]
    constructor
    · intro hdone
      obtain ⟨result, hmem, hname, -⟩ := hdone
      exact ⟨result, hmem, hname⟩
    · intro hplanned
      obtain ⟨result, hmem, hname⟩ := hplanned
      exact ⟨result, hmem, hname, by simpa using hall result hmem⟩

/-! ### Events behind `queued` -/

section Queued

variable (hid : validateRunIdForLease event.runId = .ok ()) (h : Related v (some run))

include hid h

theorem agree_running (hkind : event.kind = some .running) :
    Together Related (v.observe event) (foldEvent runId (some run) event) := by
  rw [observe_of_kind hkind hid, observeQueued_of_queued hkind nofun h.1]
  obtain ⟨hqueued, hplan, hopen | hclosed⟩ := h
  · simp only [bind, Except.bind, observePayload, hkind, foldEvent,
      observeOrder, hopen.completedAtMs, requireRun, ensureNonterminal,
      hopen.status, if_false, Option.isSome_none, Bool.false_eq_true]
    apply Related.count
    exact ⟨hqueued, hplan, Or.inl ⟨nofun, hopen.2, hopen.3, hopen.4, hopen.5⟩⟩
  · have hsome : v.completedAtMs.isSome = true := Option.isSome_iff_ne_none.mpr hclosed.completedAtMs
    simp only [bind, Except.bind, observePayload, hkind, foldEvent,
      observeOrder, hsome, requireRun, ensureNonterminal,
      hclosed.status, if_true]
    exact together_error

theorem agree_targetStarted (hkind : event.kind = some .targetStarted) :
    Together Related (v.observe event) (foldEvent runId (some run) event) := by
  rw [observe_of_kind hkind hid, observeQueued_of_queued hkind nofun h.1]
  obtain ⟨hqueued, hplan, hopen | hclosed⟩ := h
  · simp only [bind, Except.bind, observePayload, hkind, foldEvent,
      observeTargetStarted, foldTargetStarted, requireRun, ensureNonterminal,
      hopen.status, if_false]
    cases htarget : event.target with
    | none => exact together_error
    | some target =>
        by_cases hmem : target ∈ v.plannedTargets
        · obtain ⟨result, -, -, hfound, hstatus⟩ := targetResult_planned runId hopen hmem
          by_cases hdone : target ∈ v.completedTargets
          · simp only [hmem, hdone, hfound, hstatus.mp hdone, not_true_eq_false, if_true, if_false]
            exact together_error
          · simp only [hmem, hdone, hfound, mt hstatus.mpr hdone, not_true_eq_false, if_false,
              observeOrder, hkind, hopen.completedAtMs, Option.isSome_none,
              Bool.false_eq_true]
            apply Related.count
            refine ⟨hqueued, hplan, Or.inl ?_⟩
            refine hopen.setTarget hmem hdone ?_ ?_ ?_ ?_
            · intro result hname
              exact hname
            · rfl
            · exact hopen.completedAtMs
            · intro result _ t'
              simp
        · obtain ⟨message, hmissing⟩ := targetResult_unplanned runId hopen hmem
          simp only [hmem, hmissing, not_false_eq_true, if_true]
          exact together_error
  · simp only [bind, Except.bind, observePayload, hkind, foldEvent,
      observeTargetStarted, hclosed.planned, requireRun, ensureNonterminal,
      hclosed.status, if_true]
    cases event.target <;> simp [Together]

theorem agree_targetCompleted (hkind : event.kind = some .targetCompleted) :
    Together Related (v.observe event) (foldEvent runId (some run) event) := by
  rw [observe_of_kind hkind hid, observeQueued_of_queued hkind nofun h.1]
  obtain ⟨hqueued, hplan, hopen | hclosed⟩ := h
  · simp only [bind, Except.bind, observePayload, hkind, foldEvent,
      observeTargetCompleted, foldTargetCompleted, requireRun,
      ensureNonterminal, hopen.status, if_false]
    cases hresult : event.result with
    | none => exact together_error
    | some result =>
        by_cases htarget : event.target = some result.target
        · by_cases hterminal : result.status ≠ .completed ∨ result.conclusion = none
          · -- The two checks come in different orders, but each of them fails.
            simp only [htarget, hterminal, ne_eq, not_true_eq_false, if_true, if_false]
            by_cases hmem : result.target ∈ v.plannedTargets <;> simp [hmem, Together]
          · by_cases hmem : result.target ∈ v.plannedTargets
            · obtain ⟨stored, -, -, hfound, hstatus⟩ :=
                targetResult_planned runId hopen hmem
              by_cases hdone : result.target ∈ v.completedTargets
              · simp only [htarget, hterminal, hmem, hdone, hfound, hstatus.mp hdone, ne_eq,
                  not_true_eq_false, if_true, if_false]
                exact together_error
              · simp only [htarget, hterminal, hmem, hdone, hfound, mt hstatus.mpr hdone, ne_eq,
                  not_true_eq_false, if_false, observeOrder, hkind,
                  hopen.completedAtMs, Option.isSome_none, Bool.false_eq_true]
                apply Related.count
                refine ⟨hqueued, hplan, Or.inl ?_⟩
                refine hopen.setTarget hmem hdone ?_ ?_ ?_ ?_
                · exact fun _ _ => rfl
                · rfl
                · rfl
                · have hcompleted : result.status = .completed := by
                    by_contra hne
                    exact hterminal (Or.inl hne)
                  intro _ _ t'
                  simp only [ExtTreeSet.mem_insert, LawfulEqCmp.compare_eq_iff_eq, hcompleted,
                    and_true]
                  rw [or_comm, eq_comm]
            · obtain ⟨message, hmissing⟩ := targetResult_unplanned runId hopen hmem
              simp only [htarget, hterminal, hmem, hmissing, ne_eq, not_true_eq_false,
                not_false_eq_true, if_true, if_false]
              exact together_error
        · simp only [htarget, ne_eq, not_false_eq_true, if_true]
          exact together_error
  · simp only [bind, Except.bind, observePayload, hkind, foldEvent,
      observeTargetCompleted, hclosed.planned, requireRun, ensureNonterminal,
      hclosed.status, if_true]
    cases event.result with
    | none => exact together_error
    | some result =>
        by_cases htarget : event.target = some result.target <;> simp [htarget, Together]

theorem agree_completed (hkind : event.kind = some .completed) :
    Together Related (v.observe event) (foldEvent runId (some run) event) := by
  rw [observe_of_kind hkind hid, observeQueued_of_queued hkind nofun h.1]
  obtain ⟨hqueued, hplan, hopen | hclosed⟩ := h
  · simp only [bind, Except.bind, observePayload, hkind, foldEvent,
      observeCompleted, foldCompleted, requireRun, ensureNonterminal,
      hopen.status, if_false]
    by_cases hall : v.completedTargets = v.plannedTargets
    · have hscan := hopen.completed_eq_planned_iff.mp hall
      simp only [hall, hscan, ne_eq, not_true_eq_false, Bool.false_eq_true, if_false]
      cases hconclusion : event.conclusion with
      | none => exact together_error
      | some conclusion =>
          simp only [hopen.completedAtMs, Option.isSome_none, Bool.false_eq_true, if_false,
            reduceCtorEq, observeOrder, hkind]
          apply Related.count
          exact ⟨hqueued, hplan, Or.inr ⟨rfl, nofun, rfl, rfl⟩⟩
    · have hscan : run.result.targets.any (fun target => target.status ≠ .completed) = true := by
        rw [← Bool.not_eq_false, ← hopen.completed_eq_planned_iff]
        exact hall
      simp only [hall, hscan, ne_eq, not_false_eq_true, if_true]
      exact together_error
  · -- Both sets are empty here, so that only the last check of the validator remains.
    have hsome : v.completedAtMs.isSome = true := Option.isSome_iff_ne_none.mpr hclosed.completedAtMs
    simp only [bind, Except.bind, observePayload, hkind, foldEvent,
      observeCompleted, hclosed.planned, hclosed.completed, hsome, requireRun,
      ensureNonterminal, hclosed.status, ne_eq, not_true_eq_false, if_true, if_false]
    cases event.conclusion <;> exact together_error

theorem agree_cancelRequested (hkind : event.kind = some .cancelRequested) :
    Together Related (v.observe event) (foldEvent runId (some run) event) := by
  rw [observe_of_kind hkind hid, observeQueued_of_queued hkind nofun h.1]
  simp only [bind, Except.bind, observePayload, hkind, foldEvent,
    observeOrder, requireRun, foldCancelRequested]
  apply Related.count
  obtain ⟨hqueued, hplan, hopen | hclosed⟩ := h
  · rw [if_neg hopen.status]
    exact ⟨hqueued, hplan, Or.inl { hopen with }⟩
  · rw [if_pos hclosed.status]
    exact ⟨hqueued, hplan, Or.inr hclosed⟩

end Queued

/-- An event with an unknown name changes nothing but a counter. -/
theorem agree_unknown (hkind : event.kind = none) {run : Option DurableRun} (h : Related v run) :
    Together Related (v.observe event) (foldEvent runId run event) := by
  have hknown : isRecognizedRunEvent event.event = false := by
    unfold isRecognizedRunEvent
    rw [show RunEventKind.ofName event.event = none from hkind]
    rfl
  unfold observe foldEvent
  simp only [hknown, observeQueued, observePayload,
    observeOrder, hkind, bind, Except.bind, Bool.false_eq_true, if_false]
  cases run with
  | none => exact h
  | some run =>
      obtain ⟨hqueued, hplan, hopen | hclosed⟩ := h
      · exact ⟨hqueued, hplan, Or.inl { hopen with }⟩
      · exact ⟨hqueued, hplan, Or.inr { hclosed with }⟩

/-- An event with a usable id and, if it is queued, a valid plan. -/
structure Usable (event : RunEventRecord) : Prop where
  id : event.kind ≠ none → validateRunIdForLease event.runId = .ok ()
  plan : event.kind = some .queued →
    ∀ plan, event.plan = some plan → validateRunPlanStructure plan = .ok ()

/-- **One event.** From corresponding states the two machines accept the same events. -/
theorem Related.step {run : Option DurableRun} (h : Related v run) (husable : Usable event) :
    Together Related (v.observe event) (foldEvent runId run event) := by
  cases hkind : event.kind with
  | none => exact agree_unknown hkind h
  | some kind =>
      have hid := husable.id (by simp [hkind])
      by_cases hqueued : kind = .queued
      · subst hqueued
        exact agree_queued hkind hid (husable.plan hkind) h
      · cases run with
        | none => exact agree_before_queued hkind hqueued hid h
        | some run =>
            cases kind with
            | queued => exact absurd rfl hqueued
            | running => exact agree_running hid h hkind
            | targetStarted => exact agree_targetStarted hid h hkind
            | targetCompleted => exact agree_targetCompleted hid h hkind
            | completed => exact agree_completed hid h hkind
            | cancelRequested => exact agree_cancelRequested hid h hkind

end Step

end Jig.State

import Jig.State.Lifecycle

/-!
# Streams of interleaved runs

`RunStreamValidator` keeps one validator for every run id, so that a stream is accepted if and only
if the events of each run are accepted on their own (`accepted_iff`). Deleting whole runs
therefore keeps a stream acceptable (`Accepted.filter`), however the runs are interleaved.
-/

namespace Jig.State

open Contract Lib

def eventsOf (runId : String) (events : List RunEventRecord) : List RunEventRecord :=
  events.filter (·.runId = runId)

namespace RunStreamValidator

def observeAll (events : List RunEventRecord) : Except String RunStreamValidator :=
  events.foldlM observe {}

/-- The validator holds, for every run with events, the validator of those events. -/
structure Holds (events : List RunEventRecord) (v : RunStreamValidator) : Prop where
  observed : ∀ runId : String, RunLifecycleValidator.observeAll (eventsOf runId events) =
    .ok (v.lifecycles[runId]?.getD {})
  present : ∀ runId : String, runId ∈ v.lifecycles ↔ eventsOf runId events ≠ []

end RunStreamValidator

/-! ## Events of one run -/

theorem eventsOf_concat_self (events : List RunEventRecord) (event : RunEventRecord) :
    eventsOf event.runId (events ++ [event]) = eventsOf event.runId events ++ [event] := by
  simp [eventsOf]

variable {events : List RunEventRecord} {runId : String} {lifecycle : RunLifecycleValidator}
  {event : RunEventRecord}

theorem eventsOf_concat_of_ne (events : List RunEventRecord) (h : event.runId ≠ runId) :
    eventsOf runId (events ++ [event]) = eventsOf runId events := by
  simp [eventsOf, h]

/-- Keeping or dropping whole runs keeps or drops all events of a run. -/
theorem eventsOf_filter (keep : String → Bool) (runId : String) (events : List RunEventRecord) :
    eventsOf runId (events.filter fun event => keep event.runId) =
      if keep runId then eventsOf runId events else [] := by
  unfold eventsOf
  rw [List.filter_filter]
  split
  · next hkeep =>
      apply List.filter_congr
      intro event _
      by_cases hid : event.runId = runId
      · simp [hid, hkeep]
      · simp [hid]
  · next hdrop =>
      rw [List.filter_eq_nil_iff]
      intro event _
      by_cases hid : event.runId = runId
      · simp [hid, hdrop]
      · simp [hid]

/-- What is accepted is accepted up to any point. -/
theorem observeAll_prefix {rest : List RunEventRecord} {v : RunLifecycleValidator}
    (h : RunLifecycleValidator.observeAll (events ++ rest) = .ok v) :
    ∃ v', RunLifecycleValidator.observeAll events = .ok v' := by
  obtain ⟨v', hv', -⟩ := foldlM_append_eq_ok.mp h
  exact ⟨v', hv'⟩

/-! ## One event -/

namespace RunStreamValidator

variable {v v' : RunStreamValidator}

theorem observe_eq_ok :
    v.observe event = .ok v' ↔ ∃ lifecycle,
      (v.lifecycles[event.runId]?.getD {}).observe event = .ok lifecycle ∧
        v' = ⟨v.lifecycles.insert event.runId lifecycle⟩ := by
  unfold observe
  rw [bind_eq_ok]
  simp only [Except.ok.injEq, eq_comm (a := v')]

theorem Holds.initial : Holds [] {} where
  observed runId := by simp [eventsOf, RunLifecycleValidator.observeAll, pure, Except.pure]
  present runId := by simp [eventsOf]

theorem Holds.observe (h : Holds events v) (hobserve : v.observe event = .ok v') :
    Holds (events ++ [event]) v' := by
  obtain ⟨lifecycle, hlifecycle, rfl⟩ := observe_eq_ok.mp hobserve
  constructor
  · intro runId
    rcases getElem?_insert_self_or v.lifecycles event.runId runId lifecycle with
      ⟨rfl, hget⟩ | ⟨hne, hget⟩
    · rw [hget, eventsOf_concat_self]
      exact foldlM_concat_eq_ok.mpr ⟨_, h.observed event.runId, hlifecycle⟩
    · rw [hget, eventsOf_concat_of_ne events hne]
      exact h.observed runId
  · intro runId
    rw [mem_insert_iff, h.present]
    by_cases hid : event.runId = runId
    · subst hid
      simp [eventsOf_concat_self]
    · simp [hid, eventsOf_concat_of_ne events hid]

/-- **The whole stream.** -/
theorem holds_of_observeAll (h : observeAll events = .ok v) : Holds events v :=
  foldlM_ok_induction Holds h .initial fun _ _ _ _ _ hs hstep => hs.observe hstep

theorem Holds.observeAll_eq_ok (h : Holds events v) (hget : v.lifecycles[runId]? = some lifecycle) :
    RunLifecycleValidator.observeAll (eventsOf runId events) = .ok lifecycle := by
  rw [h.observed runId, hget]
  rfl

/-- Without some of the runs, the others are as they were. -/
theorem Holds.getElem?_filter {kept : RunStreamValidator} {keep : String → Bool}
    (h : Holds events v) (hkept : Holds (events.filter fun event => keep event.runId) kept)
    (hget : kept.lifecycles[runId]? = some lifecycle) :
    keep runId = true ∧ v.lifecycles[runId]? = some lifecycle := by
  have hpresent := (hkept.present runId).mp (mem_of_getElem?_eq_some hget)
  have hobserved := hkept.observeAll_eq_ok hget
  rw [eventsOf_filter] at hpresent hobserved
  split at hpresent
  · next hkeep =>
      rw [if_pos hkeep] at hobserved
      have hmem := (h.present runId).mpr hpresent
      obtain ⟨lifecycle', hlifecycle'⟩ := exists_getElem?_of_mem hmem
      have hsame := (h.observeAll_eq_ok hlifecycle').symm.trans hobserved
      exact ⟨hkeep, (Except.ok.inj hsame) ▸ hlifecycle'⟩
  · exact absurd rfl hpresent

/-- A stream is accepted when the events of every run are. -/
theorem observeAll_exists
    (h : ∀ runId, ∃ lifecycle,
      RunLifecycleValidator.observeAll (eventsOf runId events) = .ok lifecycle) :
    ∃ v, observeAll events = .ok v := by
  have hprogress : ∃ v, observeAll events = .ok v ∧ Holds events v := by
    apply foldlM_ok_progress Holds .initial
    intro done event v hdone hholds
    obtain ⟨rest, rfl⟩ := hdone
    obtain ⟨last, hlast⟩ := h event.runId
    have hsplit : eventsOf event.runId (done ++ [event] ++ rest) =
        eventsOf event.runId done ++ [event] ++ eventsOf event.runId rest := by
      simp [eventsOf]
    rw [hsplit] at hlast
    obtain ⟨lifecycle, hlifecycle⟩ := observeAll_prefix hlast
    obtain ⟨before, hbefore, hstep⟩ := foldlM_concat_eq_ok.mp hlifecycle
    -- the validator the stream keeps for the run has seen the same events
    have hsame : v.lifecycles[event.runId]?.getD {} = before :=
      Except.ok.inj ((hholds.observed event.runId).symm.trans hbefore)
    have hobserve : v.observe event = .ok ⟨v.lifecycles.insert event.runId lifecycle⟩ :=
      observe_eq_ok.mpr ⟨lifecycle, hsame ▸ hstep, rfl⟩
    exact ⟨_, hobserve, hholds.observe hobserve⟩
  obtain ⟨v, hv, -⟩ := hprogress
  exact ⟨v, hv⟩

theorem finish_eq_ok {lifecycles : Std.ExtTreeMap String RunLifecycleValidator} :
    v.finish = .ok lifecycles ↔ lifecycles = v.lifecycles ∧
      ∀ (runId : String) (lifecycle : RunLifecycleValidator),
        v.lifecycles[runId]? = some lifecycle → 0 < lifecycle.knownEventCount →
          lifecycle.queued = true := by
  unfold finish
  rw [then_eq_ok, forM_eq_ok, and_comm, Except.ok.injEq, eq_comm (a := lifecycles)]
  apply and_congr_right
  intro _
  have hcheck : ∀ (runId : String) (lifecycle : RunLifecycleValidator),
      (if lifecycle.knownEventCount > 0 ∧ (!lifecycle.queued) = true then
        Except.error s!"run '{runId}' has no queued event" else .ok ()) = .ok () ↔
          (0 < lifecycle.knownEventCount → lifecycle.queued = true) := by
    intro runId lifecycle
    rw [ite_error_eq_ok]
    cases lifecycle.queued <;> simp
  simp only [Prod.forall, Std.ExtTreeMap.mem_toList_iff_getElem?_eq_some, hcheck]

end RunStreamValidator

/-! ## Accepted streams -/

def Accepted (events : List RunEventRecord) : Prop :=
  ∃ v lifecycles, RunStreamValidator.observeAll events = .ok v ∧ v.finish = .ok lifecycles

def AcceptedRun (events : List RunEventRecord) (lifecycle : RunLifecycleValidator) : Prop :=
  RunLifecycleValidator.observeAll events = .ok lifecycle ∧
    (0 < lifecycle.knownEventCount → lifecycle.queued = true)

/-- **A stream is accepted run by run.** -/
theorem accepted_iff :
    Accepted events ↔ ∀ runId, ∃ lifecycle, AcceptedRun (eventsOf runId events) lifecycle := by
  constructor
  · rintro ⟨v, lifecycles, hv, hfinish⟩ runId
    have hholds := RunStreamValidator.holds_of_observeAll hv
    refine ⟨_, hholds.observed runId, ?_⟩
    cases hget : v.lifecycles[runId]? with
    | none => exact fun h => absurd h (Nat.lt_irrefl 0)
    | some lifecycle => exact (RunStreamValidator.finish_eq_ok.mp hfinish).2 runId lifecycle hget
  · intro h
    obtain ⟨v, hv⟩ := RunStreamValidator.observeAll_exists fun runId =>
      (h runId).imp fun _ hrun => hrun.1
    have hholds := RunStreamValidator.holds_of_observeAll hv
    refine ⟨v, _, hv, RunStreamValidator.finish_eq_ok.mpr ⟨rfl, ?_⟩⟩
    intro runId lifecycle hget
    obtain ⟨lifecycle', hobserved, hqueued⟩ := h runId
    have hsame : lifecycle' = lifecycle := by
      rw [hholds.observed runId, hget] at hobserved
      exact (Except.ok.inj hobserved).symm
    exact hsame ▸ hqueued

/-- **Whole runs may go.** -/
theorem Accepted.filter (h : Accepted events) (keep : String → Bool) :
    Accepted (events.filter fun event => keep event.runId) := by
  rw [accepted_iff] at h ⊢
  intro runId
  rw [eventsOf_filter]
  split
  · exact h runId
  · exact ⟨{}, rfl, fun h => absurd h (Nat.lt_irrefl 0)⟩

end Jig.State

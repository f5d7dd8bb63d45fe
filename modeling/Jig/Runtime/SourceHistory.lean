import Jig.Runtime.SourceEpoch

/-!
# Histories of the source epoch

`Justified` says why an event of a run may happen after its past: a target is allowed to start after
an observation of the trusted fingerprint, and keeps its success when the observation made after it
shows the fingerprint that was trusted when it started. `Safe` is the invariant that carries this
along the steps of the executors; this module has the parts of a step that several executors share.
-/

namespace Jig.Runtime

open Contract Lib

/-! ## Histories -/

namespace Event

def isDiscard : Event → Bool
  | discarded => true
  | _ => false

def isObservation : Event → Bool
  | observed _ _ => true
  | _ => false

def adopts : Event → Bool
  | observed _ adopted => adopted
  | _ => false

def isFinish : Event → Bool
  | finished _ _ _ => true
  | _ => false

end Event

/-- There was such an observation, and only quiet events since. -/
def Since (quiet : Event → Bool) (past : List Event) (observation : Fingerprint) : Prop :=
  ∃ before adopted since, past = before ++ .observed observation adopted :: since ∧
    ∀ event ∈ since, quiet event = true

/-- The fingerprint that is trusted after a history. -/
def trustedOf (fingerprint : String) (history : List Event) : Fingerprint :=
  history.foldl (fun trusted event => match event with
    | .observed observation true => observation
    | _ => trusted) (.ok fingerprint)

/-- Events that leave an observation good for the start of a target. -/
def quietForStart (planned : PlannedTarget) (event : Event) : Bool :=
  !event.isDiscard && !event.adopts && !(allowsWorktreeMutation planned && event.isFinish)

/-- Why an event may happen after a past. -/
def Justified (fingerprint : String) (past : List Event) : Event → Prop
  | .allowed _ planned trusted => trustedOf fingerprint past = .ok trusted ∧
      Since (quietForStart planned) past (.ok trusted)
  | .finished id planned .success => allowsWorktreeMutation planned = false →
      ∃ before trusted since rest,
        past = before ++ .allowed id planned trusted :: since ++ .ended id :: rest ∧
          Since (!·.isObservation) rest (.ok trusted)
  | _ => True

/-- Every event of the history is justified by its past. -/
def AllJustified (fingerprint : String) (history : List Event) : Prop :=
  ∀ past event rest, history = past ++ event :: rest → Justified fingerprint past event

variable {fingerprint : String}

section Histories

variable {quiet : Event → Bool} {past events : List Event} {observation : Fingerprint}

theorem Since.append (h : Since quiet past observation)
    (hquiet : ∀ event ∈ events, quiet event = true) : Since quiet (past ++ events) observation := by
  obtain ⟨before, adopted, since, rfl, hsince⟩ := h
  refine ⟨before, adopted, since ++ events, by simp, ?_⟩
  exact List.forall_mem_append.mpr ⟨hsince, hquiet⟩

theorem Since.imp {quiet' : Event → Bool} (h : Since quiet past observation)
    (himp : ∀ event, quiet event = true → quiet' event = true) : Since quiet' past observation := by
  obtain ⟨before, adopted, since, rfl, hsince⟩ := h
  exact ⟨before, adopted, since, rfl, fun event hevent => himp event (hsince event hevent)⟩

theorem since_observed (past : List Event) (observation : Fingerprint) (adopted : Bool)
    (hquiet : ∀ event ∈ events, quiet event = true) :
    Since quiet (past ++ .observed observation adopted :: events) observation :=
  ⟨past, adopted, events, rfl, hquiet⟩

theorem trustedOf_append (hquiet : ∀ event ∈ events, event.adopts = false) :
    trustedOf fingerprint (past ++ events) = trustedOf fingerprint past := by
  unfold trustedOf
  rw [List.foldl_append]
  induction events generalizing past with
  | nil => rfl
  | cons event events ih =>
      rw [List.forall_mem_cons] at hquiet
      rw [List.foldl_cons]
      cases event with
      | observed observation adopted =>
          obtain rfl : adopted = false := hquiet.1
          exact ih hquiet.2
      | _ => exact ih hquiet.2

theorem trustedOf_adopted (past : List Event) (observation : Fingerprint) :
    trustedOf fingerprint (past ++ [.observed observation true]) = observation := by
  simp [trustedOf, List.foldl_append]

theorem allJustified_nil : AllJustified fingerprint [] := by
  intro past event rest h
  simp at h

/-- A history grows one event at a time. -/
theorem AllJustified.concat (h : AllJustified fingerprint past) {event : Event}
    (hevent : Justified fingerprint past event) : AllJustified fingerprint (past ++ [event]) := by
  intro past' event' rest hsplit
  cases rest using List.reverseRecOn with
  | nil =>
      obtain ⟨rfl, hlast⟩ := List.append_inj' hsplit rfl
      obtain rfl := List.cons.inj hlast |>.1
      exact hevent
  | append_singleton rest last =>
      rw [← List.cons_append, ← List.append_assoc] at hsplit
      obtain ⟨hpast, -⟩ := List.append_inj' hsplit rfl
      exact h past' event' rest hpast

end Histories

/-! ## The epoch -/

variable {conclusion : RunConclusion} {trusted : String} {f : Fingerprint} {planned : PlannedTarget}

section Epoch

variable {current observation : Fingerprint} {capture : TargetCapture}
  {epoch : ExecutionSourceEpoch}

theorem allowsWorktreeMutation_of_readOnly (h : isParallelReadOnlyCheck planned = true) :
    allowsWorktreeMutation planned = false := by
  simp only [isParallelReadOnlyCheck, Bool.and_eq_true, Bool.not_eq_true'] at h
  exact h.1.2

theorem violates_ne_success {message : String} (h : conclusion ≠ .success) :
    (capture.violates message conclusion).conclusion ≠ .success := by
  unfold TargetCapture.violates
  dsimp only
  split
  · exact h
  · next hne => exact hne

/-- A policy leaves a success alone only if the fingerprint is the expected one. -/
theorem enforceUnchanged_success {message : String → String} {expected : String}
    (h : (enforceUnchanged message planned expected current capture).conclusion = .success) :
    current = .ok expected := by
  unfold enforceUnchanged at h
  cases current with
  | error error => exact absurd h (violates_ne_success (by decide))
  | ok actual =>
      dsimp only at h
      split at h
      · next heq => rw [heq]
      · exact absurd h (violates_ne_success (by decide))

theorem enforce_success {policy : String → Fingerprint → TargetCapture → TargetCapture}
    (hpolicy : ∀ expected, (policy expected current capture).conclusion = .success →
      current = .ok expected)
    (h : (epoch.enforce planned current policy capture).conclusion = .success) :
    current = epoch.trustedFingerprint := by
  unfold ExecutionSourceEpoch.enforce at h
  split at h
  · next expected htrusted => rw [htrusted, hpolicy expected h]
  · exact absurd h (violates_ne_success (by decide))

theorem startCheck_eq_ok {changed unreadable : String → String} :
    ExecutionSourceEpoch.startCheck trusted current changed unreadable = .ok () ↔
      current = .ok trusted := by
  unfold ExecutionSourceEpoch.startCheck
  cases current with
  | error error => simp
  | ok actual => by_cases h : actual = trusted <;> simp [h]

/-- A layer is prepared by an observation, unless nothing is trusted. -/
theorem prepareReadOnlyLayerWith_cases (epoch : ExecutionSourceEpoch) (targetCount : Nat)
    (observation : Fingerprint) :
    (∃ error, epoch.trustedFingerprint = .error error ∧
        epoch.prepareReadOnlyLayerWith targetCount observation = (epoch, .error error)) ∨
      ∃ trusted precondition, epoch.trustedFingerprint = .ok trusted ∧
        epoch.prepareReadOnlyLayerWith targetCount observation =
          (epoch.observeWith observation, precondition) ∧
        (precondition = .ok () → observation = .ok trusted) := by
  unfold ExecutionSourceEpoch.prepareReadOnlyLayerWith
  cases htrusted : epoch.trustedFingerprint with
  | error error => exact .inl ⟨error, rfl, rfl⟩
  | ok trusted => exact .inr ⟨trusted, _, rfl, rfl, startCheck_eq_ok.mp⟩

theorem stoppedConclusion_success {stop : Option TargetStop}
    (h : Execution.stoppedConclusion conclusion stop = .success) : conclusion = .success := by
  unfold Execution.stoppedConclusion at h
  cases stop with
  | none => exact h
  | some stop =>
      dsimp only at h
      split at h
      · cases stop <;> cases h
      · exact h

end Epoch

/-! ## The invariant -/

/-- The history tells that the target was allowed to start and, when it has a capture, that it has
ended. -/
def Begun (target : RunningTarget) (history : List Event) : Prop :=
  ∃ before since, history = before ++ .allowed target.id target.planned target.trusted :: since ∧
    (target.capture ≠ none → .ended target.id ∈ since)

/-- The worktree was observed after the target had ended, and that was the last observation. -/
def Settled (target : RunningTarget) (fingerprint : Fingerprint) (history : List Event) : Prop :=
  ∃ before since rest,
    history = before ++ .allowed target.id target.planned target.trusted :: since ++
      .ended target.id :: rest ∧ Since (!·.isObservation) rest fingerprint

/-- Events that leave the last observation reusable. -/
def quietForReuse (event : Event) : Bool :=
  !event.isDiscard && !event.isObservation

/-- Events that happen while a worker waits for the lock of the epoch. -/
def quietForClaim (event : Event) : Bool :=
  !event.isDiscard && !event.adopts

def PhaseHolds (s : Execution) : Prop :=
  match s.phase with
  | .sequential => s.running.length ≤ 1
  | .layer queued claims => s.epoch.reuseObservationBeforeNextTarget = false ∧
      (∀ target ∈ s.running, allowsWorktreeMutation target.planned = false) ∧
      (∀ planned ∈ queued, allowsWorktreeMutation planned = false) ∧
      ∀ claim ∈ claims, allowsWorktreeMutation claim.1 = false ∧
        Since quietForClaim s.history claim.2
  | .publishing fingerprint => ∀ target ∈ s.running,
      allowsWorktreeMutation target.planned = false ∧ Settled target fingerprint s.history
  | .ready => ∀ target ∈ s.running, allowsWorktreeMutation target.planned = false

/-- The invariant of all executors. -/
structure Safe (fingerprint : String) (s : Execution) : Prop where
  justified : AllJustified fingerprint s.history
  trusted : trustedOf fingerprint s.history = s.epoch.trustedFingerprint
  reusable : s.epoch.reuseObservationBeforeNextTarget = true →
    Since quietForReuse s.history s.epoch.observedFingerprint
  begun : ∀ target ∈ s.running, s.epoch.trustedFingerprint = .ok target.trusted ∧
    Begun target s.history
  phase : PhaseHolds s

section Invariant

variable {s : Execution} {target : RunningTarget} {events : List Event} {history : List Event}

theorem Begun.append (h : Begun target history) : Begun target (history ++ events) := by
  obtain ⟨before, since, rfl, hended⟩ := h
  exact ⟨before, since ++ events, by simp, fun hne => List.mem_append_left _ (hended hne)⟩

theorem Settled.append (h : Settled target f history)
    (hquiet : ∀ event ∈ events, event.isObservation = false) :
    Settled target f (history ++ events) := by
  obtain ⟨before, since, rest, rfl, hsince⟩ := h
  refine ⟨before, since, rest ++ events, by simp, hsince.append ?_⟩
  intro event hevent
  simp [hquiet event hevent]

/-- A target that has ended is settled by the next observation. -/
theorem Begun.settled (h : Begun target history) (hcapture : target.capture ≠ none) {adopted : Bool}
    (hquiet : ∀ event ∈ events, event.isObservation = false) :
    Settled target f (history ++ .observed f adopted :: events) := by
  obtain ⟨before, since, rfl, hended⟩ := h
  obtain ⟨since₁, since₂, rfl⟩ := List.append_of_mem (hended hcapture)
  refine ⟨before, since₁, since₂ ++ .observed f adopted :: events, by simp, ?_⟩
  apply since_observed
  intro event hevent
  simp [hquiet event hevent]

/-- A settled target keeps its success only if the fingerprint is the one it started with. -/
theorem Settled.justified (h : Settled target f history)
    (hsuccess : conclusion = .success → f = .ok target.trusted) :
    Justified fingerprint history (.finished target.id target.planned conclusion) := by
  cases conclusion with
  | success =>
      intro _
      obtain ⟨before, since, rest, hhistory, hsince⟩ := h
      exact ⟨before, target.trusted, since, rest, hhistory, hsuccess rfl ▸ hsince⟩
  | _ => trivial

theorem start_safe (ready : Bool) : Safe fingerprint (.start fingerprint ready) where
  justified := allJustified_nil
  trusted := rfl
  reusable h := by cases h
  begun target h := absurd h List.not_mem_nil
  phase := by
    cases ready with
    | true => exact fun target h => absurd h List.not_mem_nil
    | false => exact Nat.zero_le 1

/-! ## Parts of a step -/

/-- Observations that are not adopted, discards and ends need no justification. -/
def Event.isPlain : Event → Bool
  | observed _ adopted => !adopted
  | discarded | ended _ => true
  | allowed _ _ _ | finished _ _ _ => false

theorem AllJustified.append (h : AllJustified fingerprint history)
    (hplain : ∀ event ∈ events, event.isPlain = true) :
    AllJustified fingerprint (history ++ events) := by
  induction events generalizing history with
  | nil => simpa using h
  | cons event events ih =>
      rw [List.forall_mem_cons] at hplain
      rw [← List.singleton_append, ← List.append_assoc]
      apply ih _ hplain.2
      apply h.concat
      cases event with
      | allowed | finished => exact absurd hplain.1 Bool.false_ne_true
      | _ => trivial

theorem adopts_of_isPlain {event : Event} (h : event.isPlain = true) : event.adopts = false := by
  cases event with
  | observed observation adopted => exact (Bool.not_eq_true' adopted).mp h
  | _ => rfl

/-- A step that records plain events and lets no target start. -/
theorem Safe.record {s' : Execution} (h : Safe fingerprint s) (events : List Event)
    (hhistory : s'.history = s.history ++ events) (hplain : ∀ event ∈ events, event.isPlain = true)
    (htrusted : s'.epoch.trustedFingerprint = s.epoch.trustedFingerprint)
    (hrunning : ∀ target ∈ s'.running, target ∈ s.running)
    (hreusable : s'.epoch.reuseObservationBeforeNextTarget = true →
      Since quietForReuse s'.history s'.epoch.observedFingerprint)
    (hphase : PhaseHolds s') : Safe fingerprint s' where
  justified := hhistory ▸ h.justified.append hplain
  trusted := by
    rw [hhistory, htrusted, ← h.trusted]
    exact trustedOf_append fun event hevent => adopts_of_isPlain (hplain event hevent)
  reusable := hreusable
  begun target htarget := by
    obtain ⟨hsame, hbegun⟩ := h.begun target (hrunning target htarget)
    exact ⟨htrusted ▸ hsame, hhistory ▸ hbegun.append⟩
  phase := hphase

/-- A target is let start. -/
theorem Safe.allow (h : Safe fingerprint s) (htrusted : s.epoch.trustedFingerprint = .ok trusted)
    (hstart : Since (quietForStart planned) s.history (.ok trusted))
    (hphase : s.AtRest ∨ allowsWorktreeMutation planned = false ∧
      (s.phase = .ready ∨ ∃ queued claims, s.phase = .layer queued claims)) :
    Safe fingerprint (s.allow planned) ∧
      (s.allow planned).epoch = s.epoch ∧ (s.allow planned).phase = s.phase ∧
      ∃ event, (s.allow planned).history = s.history ++ [event] ∧ event.isDiscard = false ∧
        event.isObservation = false ∧ event.isFinish = false := by
  have hallow : s.allow planned =
      { s with
        running := s.running ++ [{ id := s.nextId, planned, trusted }]
        nextId := s.nextId + 1
        history := s.history ++ [.allowed s.nextId planned trusted] } := by
    unfold Execution.allow
    rw [htrusted]
  rw [hallow]
  refine ⟨?_, rfl, rfl, _, rfl, rfl, rfl, rfl⟩
  -- a start is neither an observation nor a discard, so what was quiet stays quiet
  constructor
  · exact h.justified.concat ⟨h.trusted.trans htrusted, hstart⟩
  · show trustedOf fingerprint (s.history ++ [.allowed s.nextId planned trusted]) = _
    rw [trustedOf_append (List.forall_mem_singleton.mpr rfl), h.trusted]
  · intro hreuse
    exact (h.reusable hreuse).append (List.forall_mem_singleton.mpr rfl)
  · refine forall_mem_concat (fun target hold => ?_)
      ⟨htrusted, s.history, [], rfl, fun hne => absurd rfl hne⟩
    obtain ⟨hsame, hbegun⟩ := h.begun target hold
    exact ⟨hsame, hbegun.append⟩
  · have hholds := h.phase
    rcases hphase with ⟨hsequential, hnone⟩ | ⟨hreadOnly, hready | ⟨queued, claims, hlayer⟩⟩
    · unfold PhaseHolds
      dsimp only
      rw [hsequential, hnone]
      simp
    · unfold PhaseHolds at hholds ⊢
      rw [hready] at hholds
      dsimp only at hholds ⊢
      rw [hready]
      exact forall_mem_concat hholds hreadOnly
    · unfold PhaseHolds at hholds ⊢
      rw [hlayer] at hholds
      dsimp only at hholds ⊢
      rw [hlayer]
      obtain ⟨hreuse, hrunning, hqueued, hclaims⟩ := hholds
      refine ⟨hreuse, forall_mem_concat hrunning hreadOnly, hqueued, ?_⟩
      intro claim hclaim
      obtain ⟨hmutates, hsince⟩ := hclaims claim hclaim
      exact ⟨hmutates, hsince.append (List.forall_mem_singleton.mpr rfl)⟩

/-- Targets of the ready executor or of a layer are let start together. -/
theorem Safe.allowList (h : Safe fingerprint s) {planned : List PlannedTarget}
    (htrusted : s.epoch.trustedFingerprint = .ok trusted)
    (hstart : Since quietForClaim s.history (.ok trusted))
    (hreadOnly : ∀ target ∈ planned, allowsWorktreeMutation target = false)
    (hphase : s.phase = .ready ∨ ∃ queued claims, s.phase = .layer queued claims) :
    Safe fingerprint (planned.foldl Execution.allow s) := by
  induction planned generalizing s with
  | nil => exact h
  | cons target planned ih =>
      rw [List.forall_mem_cons] at hreadOnly
      have hquiet : Since (quietForStart target) s.history (.ok trusted) := by
        apply hstart.imp
        intro event hevent
        simpa [quietForStart, quietForClaim, hreadOnly.1] using hevent
      obtain ⟨hsafe, hepoch, hsame, event, hhistory, hdiscard, hobservation, -⟩ :=
        h.allow htrusted hquiet (.inr ⟨hreadOnly.1, hphase⟩)
      apply ih hsafe
      · rw [hepoch, htrusted]
      · rw [hhistory]
        apply hstart.append
        intro event' hevent'
        obtain rfl := List.mem_singleton.mp hevent'
        have hadopts : event'.adopts = false := by
          cases event' with
          | observed => cases hobservation
          | _ => rfl
        simp [quietForClaim, hdiscard, hadopts]
      · exact hreadOnly.2
      · rw [hsame]
        exact hphase

/-- A step that leaves the executor and its epoch alone, keeps of every target what it started with,
and records neither observations nor discards. -/
theorem PhaseHolds.next {s' : Execution} (h : PhaseHolds s) (hphase : s'.phase = s.phase)
    (hepoch : s'.epoch = s.epoch) (hlength : s'.running.length ≤ s.running.length)
    (hrunning : ∀ target ∈ s'.running, ∃ target' ∈ s.running, target'.id = target.id ∧
      target'.planned = target.planned ∧ target'.trusted = target.trusted)
    (hhistory : s'.history = s.history ++ events)
    (hclaim : ∀ event ∈ events, quietForClaim event = true)
    (hquiet : ∀ event ∈ events, event.isObservation = false) : PhaseHolds s' := by
  have hreadOnly (hall : ∀ target ∈ s.running, allowsWorktreeMutation target.planned = false) :
      ∀ target ∈ s'.running, allowsWorktreeMutation target.planned = false := by
    intro target htarget
    obtain ⟨target', htarget', -, hplanned, -⟩ := hrunning target htarget
    exact hplanned ▸ hall target' htarget'
  unfold PhaseHolds at h ⊢
  rw [hphase, hepoch, hhistory]
  cases hs : s.phase with
  | sequential =>
      rw [hs] at h
      exact hlength.trans h
  | layer queued claims =>
      rw [hs] at h
      obtain ⟨hreuse, hall, hqueued, hclaims⟩ := h
      refine ⟨hreuse, hreadOnly hall, hqueued, fun claim hmem => ?_⟩
      obtain ⟨hmutates, hsince⟩ := hclaims claim hmem
      exact ⟨hmutates, hsince.append hclaim⟩
  | publishing f =>
      rw [hs] at h
      intro target htarget
      obtain ⟨target', htarget', hid, hplanned, htrusted⟩ := hrunning target htarget
      obtain ⟨hmutates, hsettled⟩ := h target' htarget'
      have happend := hsettled.append hquiet
      unfold Settled at happend
      rw [hid, hplanned, htrusted] at happend
      exact ⟨hplanned ▸ hmutates, happend⟩
  | ready =>
      rw [hs] at h
      exact hreadOnly h

/-- The result of a target is published. -/
theorem Safe.publish (h : Safe fingerprint s) (hfinished : Justified fingerprint s.history
      (.finished target.id target.planned conclusion)) :
    Safe fingerprint (s.publish target conclusion) := by
  have hrunning : ∀ target' ∈ (s.publish target conclusion).running, target' ∈ s.running :=
    fun target' htarget' => List.mem_of_mem_filter htarget'
  constructor
  · exact h.justified.concat hfinished
  · show trustedOf fingerprint (s.history ++ _) = _
    rw [trustedOf_append (List.forall_mem_singleton.mpr rfl), h.trusted]
    rfl
  · intro hreuse
    exact (h.reusable hreuse).append (List.forall_mem_singleton.mpr rfl)
  · intro target' htarget'
    obtain ⟨hsame, hbegun⟩ := h.begun target' (hrunning target' htarget')
    exact ⟨hsame, hbegun.append⟩
  · refine h.phase.next rfl rfl (List.length_filter_le _ _) ?_ rfl
      (List.forall_mem_singleton.mpr rfl) (List.forall_mem_singleton.mpr rfl)
    exact fun target' htarget' => ⟨target', hrunning target' htarget', rfl, rfl, rfl⟩

end Invariant

end Jig.Runtime

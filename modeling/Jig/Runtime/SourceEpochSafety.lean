import Jig.Runtime.SourceHistory

/-!
# A run trusts only what it observed

What the executors guarantee about the worktree, for every run and whatever the observations return:

* the trusted fingerprint changes only when a target that declares the `worktree` effect and may
  have executed is finished;
* a target is allowed to start only after an observation of the trusted fingerprint that is no older
  than the last such change and was not discarded, and a target that declares the `worktree` effect
  only after an observation of its own;
* any other target keeps its success only if the observation made after it equals the fingerprint
  trusted when it started.
-/

namespace Jig.Runtime

open Contract Lib

variable {observation : Fingerprint} {planned : PlannedTarget} {s' s : Execution}
  {capture : TargetCapture}

section Invariant

variable {fingerprint : String} {target : RunningTarget} {events : List Event}

/-! ## Steps -/

/-- Between targets, and in the ready executor, the phase says nothing about the history. -/
theorem PhaseHolds.idle (h : PhaseHolds s) (hidle : s.AtRest ∨ s.phase = .ready)
    (hphase : s'.phase = s.phase) (hrunning : s'.running = s.running) : PhaseHolds s' := by
  unfold PhaseHolds at h ⊢
  rw [hphase, hrunning]
  rcases hidle with ⟨hsequential, -⟩ | hready
  · rw [hsequential] at h ⊢
    exact h
  · rw [hready] at h ⊢
    exact h

section

variable (h : Safe fingerprint s)

include h

theorem Safe.discard (hidle : s.AtRest ∨ s.phase = .ready) :
    Safe fingerprint s.discard :=
  h.record [.discarded] rfl (List.forall_mem_singleton.mpr rfl) rfl (fun _ h => h)
    (fun h => nomatch h) (h.phase.idle hidle rfl rfl)

theorem Safe.observePostcondition
    (hidle : s.AtRest ∨ s.phase = .ready) (observation : Fingerprint) :
    Safe fingerprint (s.observeLayerPostcondition s.phase observation) := by
  refine h.record [.observed observation false, .discarded] rfl ?_ rfl (fun _ h => h)
    (fun h => nomatch h) (h.phase.idle hidle rfl rfl)
  simp [Event.isPlain]

/-- The epoch after a target was prepared, before anything starts. -/
theorem Safe.prepared (hidle : s.AtRest ∨ s.phase = .ready)
    (planned : PlannedTarget) (observation : Fingerprint) :
    let observed := if s.epoch.trustedFingerprint.isOk && !s.epoch.reuses planned then
      [Event.observed observation false] else []
    let prepared := s.epoch.prepareTargetWith planned observation
    let s' := { s with epoch := prepared.1, history := s.history ++ observed }
    Safe fingerprint s' ∧ (prepared.2 = .ok () → ∃ trusted,
      s'.epoch.trustedFingerprint = .ok trusted ∧
        Since (quietForStart planned) s'.history (.ok trusted)) := by
  unfold ExecutionSourceEpoch.prepareTargetWith
  cases htrusted : s.epoch.trustedFingerprint with
  | error error =>
      refine ⟨?_, fun hok => ?_⟩
      · simpa [htrusted, Except.isOk, Except.toBool] using h
      · cases hok
  | ok trusted =>
      cases hreuse : s.epoch.reuses planned with
      | true =>
          -- the last observation serves again, and nothing has disturbed it
          simp only [ExecutionSourceEpoch.reuses, Bool.and_eq_true, Bool.not_eq_true'] at hreuse
          have hsince := h.reusable hreuse.1
          refine ⟨?_, ?_⟩
          · exact h.record [] (by simp [Except.isOk, Except.toBool]) (by simp) rfl
              (fun _ h => h) Bool.noConfusion (h.phase.idle hidle rfl rfl)
          · intro hok
            refine ⟨trusted, htrusted, ?_⟩
            have hobserved : s.epoch.observedFingerprint = .ok trusted := startCheck_eq_ok.mp hok
            rw [hobserved] at hsince
            simp only [Bool.not_true, Bool.and_false, Bool.false_eq_true, if_false,
              List.append_nil]
            apply hsince.imp
            intro event hevent
            cases event <;> simp_all [quietForReuse, quietForStart, Event.isDiscard,
              Event.isObservation, Event.adopts]
      | false =>
          refine ⟨?_, ?_⟩
          · refine h.record [.observed observation false] ?_
              (List.forall_mem_singleton.mpr rfl) rfl (fun _ h => h) Bool.noConfusion
              (h.phase.idle hidle rfl rfl)
            simp [Except.isOk, Except.toBool]
          · intro hok
            refine ⟨trusted, htrusted, ?_⟩
            have hobserved : observation = .ok trusted := startCheck_eq_ok.mp hok
            have hnew : Since (quietForStart planned)
                (s.history ++ [.observed (.ok trusted) false]) (.ok trusted) :=
              since_observed s.history _ false (by simp)
            simpa [Except.isOk, Except.toBool, hobserved] using hnew

/-- A target is prepared, and lets the rest of its batch start with it. -/
theorem Safe.prepare (planned : PlannedTarget)
    (batch : List PlannedTarget) (observation : Fingerprint)
    (hphase : s.AtRest ∧ batch = [] ∨ s.phase = .ready ∧
      ∀ target ∈ planned :: batch, allowsWorktreeMutation target = false) :
    Safe fingerprint (s.prepare planned batch observation) := by
  have hidle : s.AtRest ∨ s.phase = .ready := hphase.imp And.left And.left
  obtain ⟨hsafe, hstart⟩ := h.prepared hidle planned observation
  unfold Execution.prepare Execution.allowAll
  dsimp only at hsafe hstart ⊢
  split
  · next hok =>
      obtain ⟨trusted, htrusted, hsince⟩ := hstart hok
      rcases hphase with ⟨hrest, rfl⟩ | ⟨hready, hreadOnly⟩
      · exact (hsafe.allow htrusted hsince (.inl hrest)).1
      · apply hsafe.allowList htrusted _ hreadOnly (.inl hready)
        apply hsince.imp
        intro event hevent
        simp only [quietForStart, Bool.and_eq_true] at hevent
        simpa [quietForClaim] using hevent.1
  · exact hsafe

theorem Safe.prepareLayer (cohort queued : List PlannedTarget)
    (observation : Fingerprint) (hrest : s.AtRest)
    (hreadOnly : ∀ planned ∈ cohort ++ queued, allowsWorktreeMutation planned = false) :
    Safe fingerprint (s.prepareLayer cohort queued observation) := by
  have hdiscard := h.discard (.inl hrest)
  have hempty : s.discard.running = [] := hrest.2
  have hquiet : ∀ event ∈ [Event.observed observation false], event.isPlain = true :=
    List.forall_mem_singleton.mpr rfl
  unfold Execution.prepareLayer
  rcases prepareReadOnlyLayerWith_cases s.discard.epoch (cohort.length + queued.length)
    observation with ⟨error, htrusted, hprepare⟩ | ⟨trusted, precondition, htrusted, hprepare, hok⟩
  · simp only [hprepare, htrusted]
    refine hdiscard.record [] (by rfl) (by simp) rfl (fun _ h => h) (fun h => nomatch h) ?_
    show s.discard.running.length ≤ 1
    simp [hempty]
  · simp only [hprepare, htrusted]
    cases precondition with
    | error error =>
        refine hdiscard.record [.observed observation false] (by rfl) hquiet rfl (fun _ h => h)
          (fun h => nomatch h) ?_
        show s.discard.running.length ≤ 1
        simp [hempty]
    | ok _ =>
        have hsafe : Safe fingerprint { s.discard with
            epoch := s.discard.epoch.observeWith observation
            phase := .layer queued []
            history := s.discard.history ++ [.observed observation false] } := by
          refine hdiscard.record [.observed observation false] (by rfl) hquiet rfl (fun _ h => h)
            (fun h => nomatch h) ⟨rfl, ?_, ?_, by simp⟩
          · simp [hempty]
          · exact fun planned hplanned => hreadOnly planned (List.mem_append_right _ hplanned)
        refine hsafe.allowList htrusted ?_ ?_ (.inr ⟨queued, [], rfl⟩)
        · rw [hok rfl]
          exact since_observed _ _ false (by simp)
        · exact fun planned hplanned => hreadOnly planned (List.mem_append_left _ hplanned)

end

/-! ### Layers -/

section Layer

variable {queued : List PlannedTarget} {claims : List (PlannedTarget × Fingerprint)}
  (hphase : s.phase = .layer queued claims)

include hphase

theorem Safe.layer (h : Safe fingerprint s) :
    s.epoch.reuseObservationBeforeNextTarget = false ∧
      (∀ target ∈ s.running, allowsWorktreeMutation target.planned = false) ∧
      (∀ planned ∈ queued, allowsWorktreeMutation planned = false) ∧
      ∀ claim ∈ claims, allowsWorktreeMutation claim.1 = false ∧
        Since quietForClaim s.history claim.2 := by
  have hholds := h.phase
  unfold PhaseHolds at hholds
  rw [hphase] at hholds
  exact hholds

theorem Safe.claim (h : Safe fingerprint s) (hplanned : planned ∈ queued)
    (observation : Fingerprint) : Safe fingerprint (s.claim queued claims planned observation) := by
  obtain ⟨hreuse, hrunning, hqueued, hclaims⟩ := h.layer hphase
  refine h.record [.observed observation false] rfl (List.forall_mem_singleton.mpr rfl) rfl
    (fun _ h => h) (fun h => absurd (hreuse.symm.trans h) Bool.false_ne_true) ?_
  refine ⟨hreuse, hrunning, fun p hp => hqueued p (List.mem_of_mem_erase hp), ?_⟩
  intro claim hclaim
  rcases List.mem_cons.mp hclaim with rfl | hold
  · exact ⟨hqueued planned hplanned, since_observed _ _ _ (by simp)⟩
  · obtain ⟨hmutates, hsince⟩ := hclaims claim hold
    exact ⟨hmutates, hsince.append (List.forall_mem_singleton.mpr rfl)⟩

theorem Safe.prepareQueued (h : Safe fingerprint s) (hclaim : (planned, observation) ∈ claims) :
    Safe fingerprint (s.prepareQueued queued claims planned observation) := by
  obtain ⟨-, hrunning, hqueued, hclaims⟩ := h.layer hphase
  obtain ⟨hmutates, hsince⟩ := hclaims _ hclaim
  have hsafe : Safe fingerprint { s with
      epoch := s.epoch.discardReusableObservation.observeWith observation
      phase := .layer queued (claims.erase (planned, observation)) } := by
    refine h.record [] (by simp) (by simp) rfl (fun _ h => h) (fun h => nomatch h) ?_
    exact ⟨rfl, hrunning, hqueued, fun claim h => hclaims claim (List.mem_of_mem_erase h)⟩
  unfold Execution.prepareQueued Execution.allowAll
    ExecutionSourceEpoch.prepareQueuedReadOnlyTarget
  dsimp only
  split
  · next hok =>
      obtain ⟨trusted, htrusted, hcheck⟩ := bind_eq_ok.mp hok
      have hobserved : observation = .ok trusted := startCheck_eq_ok.mp hcheck
      refine hsafe.allowList htrusted (hobserved ▸ hsince) ?_ (.inr ⟨_, _, rfl⟩)
      exact List.forall_mem_singleton.mpr hmutates
  · exact hsafe

theorem Safe.endLayer (h : Safe fingerprint s) (observation : Fingerprint)
    (hended : ∀ target ∈ s.running, target.capture ≠ none) :
    Safe fingerprint (s.observeLayerPostcondition (.publishing observation) observation) := by
  obtain ⟨-, hrunning, -, -⟩ := h.layer hphase
  refine h.record [.observed observation false, .discarded] rfl (by simp [Event.isPlain]) rfl
    (fun _ h => h) (fun h => nomatch h) ?_
  intro target htarget
  refine ⟨hrunning target htarget, ?_⟩
  exact (h.begun target htarget).2.settled (hended target htarget)
    (List.forall_mem_singleton.mpr rfl)

end Layer

section

variable (h : Safe fingerprint s)

include h

theorem Safe.finishLayerTarget {f : Fingerprint}
    (hphase : s.phase = .publishing f) (htarget : target ∈ s.running) (capture : TargetCapture)
    (stop : Option TargetStop) :
    Safe fingerprint (s.finishLayerTarget target capture f stop) := by
  have hholds := h.phase
  unfold PhaseHolds at hholds
  rw [hphase] at hholds
  apply h.publish
  apply (hholds target htarget).2.justified
  intro hsuccess
  rw [← (h.begun target htarget).1]
  exact enforce_success (fun _ => enforceUnchanged_success) (stoppedConclusion_success hsuccess)

theorem Safe.leaveLayer (hdone : s.running = []) :
    Safe fingerprint { s with phase := .sequential } := by
  refine h.record [] (by simp) (by simp) rfl (fun _ h => h) h.reusable ?_
  unfold PhaseHolds
  simp [hdone]

theorem Safe.leaveUnstarted (id : Nat) :
    Safe fingerprint (s.leaveUnstarted id) := by
  have hsub : ∀ target ∈ (s.leaveUnstarted id).running, target ∈ s.running :=
    fun target htarget => List.mem_of_mem_filter htarget
  refine h.record [] (by simp [Execution.leaveUnstarted]) (by simp) rfl hsub h.reusable ?_
  have hnone {p : Event → Prop} : ∀ event ∈ [], p event := fun _ h => absurd h List.not_mem_nil
  refine h.phase.next rfl rfl (List.length_filter_le _ _) ?_ (List.append_nil _).symm hnone hnone
  exact fun target htarget => ⟨target, hsub target htarget, rfl, rfl, rfl⟩

theorem Safe.endTarget (id : Nat) (capture : TargetCapture) :
    Safe fingerprint (s.endTarget id capture) := by
  -- a target keeps what it started with; only its capture may be new
  have hold : ∀ target ∈ (s.endTarget id capture).running, ∃ target' ∈ s.running,
      target'.id = target.id ∧ target'.planned = target.planned ∧
        target'.trusted = target.trusted ∧ (target.capture = target'.capture ∨ target.id = id) := by
    intro target htarget
    obtain ⟨target', htarget', rfl⟩ := List.mem_map.mp htarget
    refine ⟨target', htarget', ?_⟩
    split
    · next hid => exact ⟨rfl, rfl, rfl, .inr hid⟩
    · exact ⟨rfl, rfl, rfl, .inl rfl⟩
  have hplain : ∀ event ∈ [Event.ended id], event.isPlain = true :=
    List.forall_mem_singleton.mpr rfl
  constructor
  · exact h.justified.append hplain
  · show trustedOf fingerprint (s.history ++ _) = _
    rw [trustedOf_append (List.forall_mem_singleton.mpr rfl), h.trusted]
    rfl
  · intro hreuse
    exact (h.reusable hreuse).append (List.forall_mem_singleton.mpr rfl)
  · intro target htarget
    obtain ⟨target', htarget', hid, hplanned, htrusted, hcapture⟩ := hold target htarget
    obtain ⟨hsame, before, since, hhistory, hended⟩ := h.begun target' htarget'
    refine ⟨htrusted ▸ hsame, before, since ++ [.ended id], ?_, ?_⟩
    · show s.history ++ _ = _
      rw [hhistory, hid, hplanned, htrusted]
      simp
    · intro hne
      rcases hcapture with hcapture | rfl
      · exact List.mem_append_left _ (hid ▸ hended (hcapture ▸ hne))
      · simp
  · refine h.phase.next rfl rfl (List.length_map _).le (fun target htarget => ?_) rfl
      (List.forall_mem_singleton.mpr rfl) (List.forall_mem_singleton.mpr rfl)
    obtain ⟨target', htarget', hid, hplanned, htrusted, -⟩ := hold target htarget
    exact ⟨target', htarget', hid, hplanned, htrusted⟩

/-- The sequential executor finishes its target. -/
theorem Safe.finishTarget (hphase : s.phase = .sequential) (htarget : target ∈ s.running)
    (hcapture : target.capture = some capture) (observation : Fingerprint)
    (stop : Option TargetStop) :
    Safe fingerprint (s.finishTarget target capture observation stop) := by
  have hlength := h.phase
  unfold PhaseHolds at hlength
  rw [hphase] at hlength
  have hrunning : s.running = [target] := by
    obtain ⟨other, hother⟩ := List.length_eq_one_iff.mp
      (le_antisymm hlength (List.length_pos_of_mem htarget))
    rw [hother, List.mem_singleton] at htarget
    rw [hother, htarget]
  have hbegun := (h.begun target htarget).2
  have hsequential : ∀ s' : Execution, s'.phase = .sequential → s'.running = s.running →
      PhaseHolds s' := by
    intro s' hphase' hrunning'
    unfold PhaseHolds
    rw [hphase', hrunning']
    exact hlength
  cases hmutates : allowsWorktreeMutation target.planned with
  | false =>
      -- the observation settles the target
      simp only [Execution.finishTarget, ExecutionSourceEpoch.finishTargetWith, hmutates,
        Bool.false_and, Bool.false_eq_true, if_false]
      have hsafe : Safe fingerprint { s with
          epoch := { s.epoch.observeWith observation with
            reuseObservationBeforeNextTarget := observation.isOk }
          history := s.history ++ [.observed observation false] } :=
        h.record [.observed observation false] rfl (List.forall_mem_singleton.mpr rfl) rfl
          (fun _ h => h) (fun _ => since_observed _ _ _ (by simp)) (hsequential _ hphase rfl)
      have hsettled : Settled target observation (s.history ++ [.observed observation false]) :=
        hbegun.settled (by simp [hcapture]) (by simp)
      refine hsafe.publish (hsettled.justified ?_)
      intro hsuccess
      rw [← (h.begun target htarget).1]
      exact enforce_success (fun _ => enforceUnchanged_success)
        (stoppedConclusion_success hsuccess)
  | true =>
      have hany : ∀ (past : List Event) (conclusion : RunConclusion), Justified fingerprint past
          (.finished target.id target.planned conclusion) := by
        intro past conclusion
        cases conclusion with
        | success => exact fun hnot => absurd (hmutates.symm.trans hnot) (by decide)
        | _ => trivial
      cases hexecuted : capture.mayHaveExecuted with
      | false =>
          simp only [Execution.finishTarget, ExecutionSourceEpoch.finishTargetWith, hmutates,
            hexecuted, Bool.not_false, Bool.and_true, if_true]
          have hsafe : Safe fingerprint { s with
              epoch := s.epoch.discardReusableObservation
              history := s.history ++ [.discarded] } :=
            h.record [.discarded] rfl (List.forall_mem_singleton.mpr rfl) rfl (fun _ h => h)
              (fun h => nomatch h) (hsequential _ hphase rfl)
          exact hsafe.publish (hany _ _)
      | true =>
          -- the observation is trusted from now on, and nothing else runs
          simp only [Execution.finishTarget, ExecutionSourceEpoch.finishTargetWith, hmutates,
            hexecuted, Bool.not_true, Bool.and_false, Bool.false_eq_true, if_false, if_true]
          have hadopted : Justified fingerprint s.history (.observed observation true) := trivial
          constructor
          · exact (h.justified.concat hadopted).concat (hany _ _)
          · show trustedOf fingerprint (s.history ++ [.observed observation true] ++ _) = observation
            rw [trustedOf_append (List.forall_mem_singleton.mpr rfl), trustedOf_adopted]
          · intro _
            show Since quietForReuse (s.history ++ [.observed observation true] ++ _) observation
            rw [List.append_assoc]
            exact since_observed _ _ _ (List.forall_mem_singleton.mpr rfl)
          · intro other hother
            have hfilter : other ∈ s.running.filter (·.id ≠ target.id) := hother
            rw [hrunning] at hfilter
            simp at hfilter
          · unfold PhaseHolds Execution.publish
            dsimp only
            rw [hphase]
            exact (List.length_filter_le _ _).trans hlength

end

/-! ### Batches -/

/-- Targets that had ended before the last observation are published one after the other. -/
theorem Safe.publishAll {s₀ : Execution} {conclude : RunningTarget × TargetCapture → RunConclusion}
    {batch : List (RunningTarget × TargetCapture)}
    (hbatch : ∀ entry ∈ batch, Begun entry.1 s₀.history ∧ entry.1.capture ≠ none ∧
      (conclude entry = .success → observation = .ok entry.1.trusted)) {done : List Event}
    (h : Safe fingerprint s)
    (hhistory : s.history = s₀.history ++ .observed observation false :: done)
    (hdone : ∀ event ∈ done, event.isObservation = false) :
    Safe fingerprint (batch.foldl (fun s entry => s.publish entry.1 (conclude entry)) s) := by
  induction batch generalizing s done with
  | nil => exact h
  | cons entry batch ih =>
      rw [List.forall_mem_cons] at hbatch
      obtain ⟨⟨hbegun, hcapture, hsuccess⟩, hbatch⟩ := hbatch
      have hsettled : Settled entry.1 observation s.history :=
        hhistory ▸ hbegun.settled hcapture hdone
      rw [List.foldl_cons]
      have hnext : (s.publish entry.1 (conclude entry)).history = s₀.history ++
          .observed observation false ::
            (done ++ [.finished entry.1.id entry.1.planned (conclude entry)]) := by
        show s.history ++ [_] = _
        rw [hhistory, List.append_assoc]
        rfl
      apply ih hbatch (h.publish (hsettled.justified hsuccess)) hnext
      exact forall_mem_concat hdone rfl

/-- The ready executor publishes a batch. -/
theorem Safe.finishReadyBatch (h : Safe fingerprint s) (hphase : s.phase = .ready)
    (batch : List (RunningTarget × TargetCapture))
    (hbatch : ∀ entry ∈ batch, entry.1 ∈ s.running ∧ entry.1.capture = some entry.2)
    (observation : Fingerprint) (sourceFailure : Option String) :
    Safe fingerprint (s.finishReadyBatch batch observation sourceFailure) := by
  have hobserved : Safe fingerprint { s with
      epoch := s.epoch.observeReadyReadOnlyPostconditionWith observation
      history := s.history ++ [.observed observation false] } :=
    h.record [.observed observation false] rfl (List.forall_mem_singleton.mpr rfl) rfl
      (fun _ h => h) (fun _ => since_observed _ _ _ (by simp)) (h.phase.idle (.inr hphase) rfl rfl)
  refine Safe.publishAll ?_ hobserved rfl (by simp)
  intro entry hentry
  obtain ⟨hrunning, hcapture⟩ := hbatch entry hentry
  obtain ⟨htrusted, hbegun⟩ := h.begun entry.1 hrunning
  refine ⟨hbegun, by simp [hcapture], ?_⟩
  intro hsuccess
  have hequal := enforce_success (fun _ => enforceUnchanged_success) hsuccess
  -- a failure that is kept from before is no fingerprint
  cases sourceFailure with
  | some error => exact absurd (hequal.trans htrusted) (by simp)
  | none => exact hequal.trans htrusted

/-- **One step.** -/
theorem Safe.step (h : Safe fingerprint s) (hstep : Execution.Step s s') : Safe fingerprint s' := by
  cases hstep with
  | discard hidle => exact h.discard hidle
  | prepareTarget planned observation hrest =>
      exact h.prepare planned [] observation (.inl ⟨hrest, rfl⟩)
  | finishTarget target capture observation stop hphase htarget hcapture =>
      exact h.finishTarget hphase htarget hcapture observation stop
  | prepareLayer cohort queued observation hrest hreadOnly =>
      exact h.prepareLayer cohort queued observation hrest fun planned hplanned =>
        allowsWorktreeMutation_of_readOnly (hreadOnly planned hplanned)
  | claim planned observation hphase hqueued => exact h.claim hphase hqueued observation
  | prepareQueued planned observation hphase hclaim => exact h.prepareQueued hphase hclaim
  | endLayer observation hphase hended => exact h.endLayer hphase observation hended
  | observePostcondition observation hidle => exact h.observePostcondition hidle observation
  | finishLayerTarget target capture stop hphase htarget hcapture =>
      exact h.finishLayerTarget hphase htarget capture stop
  | leaveLayer hphase hdone => exact h.leaveLayer hdone
  | prepareReady planned batch observation hphase hreadOnly =>
      exact h.prepare planned batch observation (.inr ⟨hphase, fun target htarget =>
        allowsWorktreeMutation_of_readOnly (hreadOnly target htarget)⟩)
  | finishReadyBatch batch observation sourceFailure hphase hbatch =>
      exact h.finishReadyBatch hphase batch hbatch observation sourceFailure
  | leaveUnstarted target htarget hcapture => exact h.leaveUnstarted target.id
  | endTarget target capture htarget hcapture => exact h.endTarget target.id capture

/-- **Whole runs.** -/
theorem Execution.Reachable.safe (h : Execution.Reachable fingerprint s) : Safe fingerprint s := by
  obtain ⟨ready, hrun⟩ := h
  induction hrun with
  | refl => exact start_safe ready
  | tail _ hstep ih => exact ih.step hstep

/-- In a layer nothing is reusable, so the discard that goes with a queued target is no event. -/
theorem Execution.Reachable.discard_layer (h : Execution.Reachable fingerprint s)
    {queued : List PlannedTarget} {claims : List (PlannedTarget × Fingerprint)}
    (hphase : s.phase = .layer queued claims) :
    s.epoch.discardReusableObservation = s.epoch := by
  obtain ⟨hreuse, -⟩ := h.safe.layer hphase
  unfold ExecutionSourceEpoch.discardReusableObservation
  rw [← hreuse]

end Invariant

/-! ## The trusted fingerprint -/

section Trusted

theorem allow_epoch (s : Execution) (planned : PlannedTarget) :
    (s.allow planned).epoch = s.epoch := by
  unfold Execution.allow
  split <;> rfl

@[simp]
theorem allowAll_epoch (s : Execution) (targets : List PlannedTarget)
    (precondition : Except String Unit) : (s.allowAll targets precondition).epoch = s.epoch := by
  unfold Execution.allowAll
  split
  · exact foldl_keeps allow_epoch targets s
  · rfl

@[simp]
theorem publishAll_epoch {β : Type} (s : Execution) (batch : List β)
    (target : β → RunningTarget) (conclude : β → RunConclusion) :
    (batch.foldl (fun s entry => s.publish (target entry) (conclude entry)) s).epoch = s.epoch :=
  foldl_keeps (g := Execution.epoch) (fun _ _ => by rfl) batch s

theorem prepareTargetWith_trusted (epoch : ExecutionSourceEpoch) (planned : PlannedTarget)
    (observation : Fingerprint) : (epoch.prepareTargetWith planned observation).1.trustedFingerprint =
      epoch.trustedFingerprint := by
  unfold ExecutionSourceEpoch.prepareTargetWith
  split
  · rfl
  · dsimp only
    split <;> rfl

theorem prepare_trusted (s : Execution) (planned : PlannedTarget) (batch : List PlannedTarget)
    (observation : Fingerprint) :
    (s.prepare planned batch observation).epoch.trustedFingerprint = s.epoch.trustedFingerprint := by
  unfold Execution.prepare
  dsimp only
  rw [allowAll_epoch]
  exact prepareTargetWith_trusted ..

theorem prepareLayer_trusted (s : Execution) (cohort queued : List PlannedTarget)
    (observation : Fingerprint) : (s.prepareLayer cohort queued
      observation).epoch.trustedFingerprint = s.epoch.trustedFingerprint := by
  unfold Execution.prepareLayer
  rcases prepareReadOnlyLayerWith_cases s.discard.epoch (cohort.length + queued.length)
    observation with ⟨error, -, hprepare⟩ | ⟨trusted, precondition, -, hprepare, -⟩
  · simp only [hprepare, allowAll_epoch]
    rfl
  · simp only [hprepare, allowAll_epoch]
    rfl

/-- The only operation that changes what is trusted. -/
theorem finishTarget_trusted {target : RunningTarget} {stop : Option TargetStop}
    (hchange : (s.finishTarget target capture observation stop).epoch.trustedFingerprint ≠
      s.epoch.trustedFingerprint) :
    allowsWorktreeMutation target.planned = true ∧ capture.mayHaveExecuted = true := by
  unfold Execution.finishTarget ExecutionSourceEpoch.finishTargetWith Execution.publish at hchange
  cases hmutates : allowsWorktreeMutation target.planned with
  | false => simp [hmutates, ExecutionSourceEpoch.observeWith] at hchange
  | true =>
      cases hexecuted : capture.mayHaveExecuted with
      | false =>
          simp [hmutates, hexecuted, ExecutionSourceEpoch.discardReusableObservation] at hchange
      | true => exact ⟨rfl, rfl⟩

theorem Execution.Step.trusted (h : Execution.Step s s')
    (hchange : s'.epoch.trustedFingerprint ≠ s.epoch.trustedFingerprint) :
    ∃ target ∈ s.running, ∃ capture observation stop, target.capture = some capture ∧
      allowsWorktreeMutation target.planned = true ∧ capture.mayHaveExecuted = true ∧
      s' = s.finishTarget target capture observation stop := by
  cases h with
  | finishTarget target capture observation stop hphase htarget hcapture =>
      obtain ⟨hmutates, hexecuted⟩ := finishTarget_trusted hchange
      exact ⟨target, htarget, capture, observation, stop, hcapture, hmutates, hexecuted, rfl⟩
  | prepareTarget planned observation => exact absurd (prepare_trusted ..) hchange
  | prepareReady planned batch observation => exact absurd (prepare_trusted ..) hchange
  | prepareLayer cohort queued observation => exact absurd (prepareLayer_trusted ..) hchange
  | prepareQueued planned observation =>
      refine absurd ?_ hchange
      unfold Execution.prepareQueued
      rw [allowAll_epoch]
      rfl
  | finishReadyBatch batch observation sourceFailure =>
      refine absurd ?_ hchange
      unfold Execution.finishReadyBatch
      dsimp only
      rw [publishAll_epoch]
      rfl
  | _ => exact absurd rfl hchange

end Trusted

/-- **Source-epoch safety.** In every state of every run of an executor: a step changes what is
trusted only by finishing a target that declares the `worktree` effect and may have executed; every
target that was allowed to start had been preceded by an observation of the fingerprint trusted
then, made no earlier than the last change and neither followed by a discard nor, for a target that
declares the `worktree` effect, by the end of another target; and every other target that kept its
success was followed by an observation of the fingerprint trusted when it started. -/
theorem source_epoch_safe {fingerprint : String} {s : Execution}
    (h : Execution.Reachable fingerprint s) :
    (∀ s', Execution.Step s s' →
      s'.epoch.trustedFingerprint ≠ s.epoch.trustedFingerprint →
        ∃ target ∈ s.running, ∃ capture observation stop, target.capture = some capture ∧
          allowsWorktreeMutation target.planned = true ∧ capture.mayHaveExecuted = true ∧
          s' = s.finishTarget target capture observation stop) ∧
    trustedOf fingerprint s.history = s.epoch.trustedFingerprint ∧
    (∀ past id planned trusted rest,
      s.history = past ++ .allowed id planned trusted :: rest →
        trustedOf fingerprint past = .ok trusted ∧
        ∃ before adopted since, past = before ++ .observed (.ok trusted) adopted :: since ∧
          ∀ event ∈ since, event.isDiscard = false ∧ event.adopts = false ∧
            (allowsWorktreeMutation planned = true → event.isFinish = false)) ∧
    ∀ past id planned rest, s.history = past ++ .finished id planned .success :: rest →
      allowsWorktreeMutation planned = false →
        ∃ before trusted since mid adopted after,
          past = before ++ .allowed id planned trusted :: since ++ .ended id ::
            (mid ++ .observed (.ok trusted) adopted :: after) ∧
          ∀ event ∈ after, event.isObservation = false := by
  have hsafe := h.safe
  refine ⟨fun s' hstep => hstep.trusted, hsafe.trusted, ?_, ?_⟩
  · intro past id planned trusted rest hhistory
    obtain ⟨htrusted, before, adopted, since, hpast, hquiet⟩ :=
      hsafe.justified past _ rest hhistory
    refine ⟨htrusted, before, adopted, since, hpast, ?_⟩
    intro event hevent
    have hquiet := hquiet event hevent
    simp only [quietForStart, Bool.and_eq_true, Bool.not_eq_true', Bool.and_eq_false_iff] at hquiet
    refine ⟨hquiet.1.1, hquiet.1.2, fun hmutates => ?_⟩
    exact hquiet.2.resolve_left (by simp [hmutates])
  · intro past id planned rest hhistory hmutates
    obtain ⟨before, trusted, since, tail, hpast, mid, adopted, after, rfl, hquiet⟩ :=
      hsafe.justified past _ rest hhistory hmutates
    refine ⟨before, trusted, since, mid, adopted, after, hpast, ?_⟩
    intro event hevent
    simpa using hquiet event hevent

/-! ## A generator and a check -/

namespace Generating

def target (action : ActionId) (effects : List ActionEffect) : PlannedTarget where
  target := ⟨⟨"docs", by decide⟩, action⟩
  intent := .check
  effects
  runner := .command "make" none ∅
  inputDigest := ""

def generate : PlannedTarget := target ⟨"generate", by decide⟩ [.worktree]

def check : PlannedTarget := target ⟨"check", by decide⟩ [.readOnly]

/-- A target is prepared, runs and is finished, and every observation returns the fingerprint given
for it. -/
def runTarget (s : Execution) (planned : PlannedTarget) (trusted : String)
    (before after : Fingerprint) : Execution :=
  let capture : TargetCapture := { conclusion := .success }
  ((s.prepare planned [] before).endTarget s.nextId capture).finishTarget
    ⟨s.nextId, planned, trusted, some capture⟩ capture after none

/-- The generator has run and its changes are trusted. -/
def generated : Execution :=
  runTarget (.start "a" false) generate "a" (.ok "a") (.ok "b")

/-- The check starts from the same observation and keeps its success. -/
def checked : Execution :=
  runTarget generated check "b" (.error "not observed") (.ok "b")

theorem runTarget_steps {trusted : String} {before : Fingerprint} (after : Fingerprint)
    (hrest : s.AtRest) (hstarted : (s.prepare planned [] before).phase = .sequential ∧
      (s.prepare planned [] before).running = [⟨s.nextId, planned, trusted, none⟩]) :
    Relation.ReflTransGen Execution.Step s (runTarget s planned trusted before after) := by
  have hended : ⟨s.nextId, planned, trusted, some { conclusion := .success }⟩ ∈
      ((s.prepare planned [] before).endTarget s.nextId { conclusion := .success }).running := by
    simp [Execution.endTarget, hstarted.2]
  exact ((Relation.ReflTransGen.single (.prepareTarget planned before hrest)).tail
    (.endTarget ⟨s.nextId, planned, trusted, none⟩ { conclusion := .success }
      (by simp [hstarted.2]) rfl)).tail (.finishTarget _ _ after none hstarted.1 hended rfl)

theorem checked_reachable : Execution.Reachable "a" checked :=
  ⟨false, (runTarget_steps (.ok "b") ⟨rfl, rfl⟩ ⟨rfl, rfl⟩).trans
    (runTarget_steps (.ok "b") ⟨rfl, rfl⟩ ⟨rfl, rfl⟩)⟩

end Generating

theorem source_epoch_safe_generating :
    ∃ s, Execution.Reachable "a" s ∧ trustedOf "a" s.history = .ok "b" ∧
      .finished 1 Generating.check .success ∈ s.history :=
  ⟨Generating.checked, Generating.checked_reachable,
    (source_epoch_safe Generating.checked_reachable).2.1, List.mem_of_getLast? rfl⟩

end Jig.Runtime

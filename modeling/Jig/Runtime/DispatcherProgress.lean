import Jig.Runtime.DispatcherInvariant

/-!
# Progress of the ready dispatcher

`DispatchInv` and `LoopInv` say that the loop never goes wrong; this module shows that it can always
get done. The measure is `DispatchState.weight`, the number of steps the queue has made: a pass adds
one for every ready target it may start or skip, a receive one for every result it gets, and no run
makes more than two per target. From every state of the loop there is therefore a way out in which
each worker reports the conclusion we like (`exists_exit`).
-/

namespace Jig.Runtime

open Contract Lib State Std

/-! ## Counting steps -/

/-- The number of steps made so far: each target is taken at most once and published once. -/
def DispatchState.weight (s : DispatchState) : Nat :=
  s.dispatched.length + s.published.length

variable {intrinsic : Nat → RunConclusion} {input : TickInput} {i : Nat} {o : Outcome}
  {s : DispatchState} {taking : DispatchState → Nat → Prop} {s' : DispatchState}
  {conclusion : RunConclusion}

theorem DispatchInv.weight_le (h : DispatchInv s) : s.weight ≤ 2 * s.queue.targets.length := by
  have hdispatched : s.dispatched.length ≤ s.queue.targets.length := by
    have hsub : s.dispatched.Subperm (List.range s.queue.targets.length) := by
      apply List.subperm_of_subset h.dispatched_nodup
      intro i hi
      exact List.mem_range.mpr (h.dispatched_lt i hi)
    simpa using hsub.length_le
  have hpublished : s.published.length = s.done.length := by simp [DispatchState.done]
  have := h.unfinished
  unfold DispatchState.weight
  omega

theorem DispatchState.weight_take (s : DispatchState) (i : Nat) :
    (s.take i).weight = s.weight + 1 := by
  simp only [weight, take, List.length_cons]
  omega

theorem publishTarget_weight {record : Nat → Except String Unit}
    (h : publishTarget record s i conclusion = .ok s') : s'.weight = s.weight + 1 := by
  unfold publishTarget at h
  split at h
  · cases h
  · obtain ⟨queue, _, hs'⟩ := bind_eq_ok.mp h
    obtain rfl := Except.ok.inj hs'
    simp only [DispatchState.weight, List.length_append, List.length_singleton]
    omega

/-! ### A pass -/

section Pass

variable {pass pass' : Pass}

theorem finishUnstarted_weight (h : pass.finishUnstarted input i conclusion = .ok pass') :
    pass'.coordinator.run.weight = pass.coordinator.run.weight + 1 := by
  unfold Pass.finishUnstarted at h
  obtain ⟨_, h⟩ := ite_error_eq_ok.mp h
  obtain ⟨run, hrun, hpass'⟩ := bind_eq_ok.mp h
  obtain rfl := Except.ok.inj hpass'
  exact publishTarget_weight hrun

theorem dispatchResourceCandidate_weight (h : pass.dispatchResourceCandidate input i = .ok pass') :
    pass'.coordinator.run.weight = pass.coordinator.run.weight + 1 := by
  unfold Pass.dispatchResourceCandidate at h
  cases hunsent : pass.coordinator.unsentResources with
  | zero => simp [hunsent] at h
  | succ unsent =>
      simp only [hunsent] at h
      by_cases hsender : pass.coordinator.resourceSender = true
      · rw [if_pos hsender, ite_else_error_eq_ok] at h
        obtain rfl := Except.ok.inj h.2
        exact DispatchState.weight_take _ i
      · rw [if_neg hsender] at h
        obtain rfl := Except.ok.inj h
        exact DispatchState.weight_take _ i

/-- With a slot to spare every visit is one step. -/
theorem visit_weight (hslot : input.slot i = true) (h : pass.visit input i = .ok pass') :
    pass'.coordinator.run.weight = pass.coordinator.run.weight + 1 := by
  unfold Pass.visit at h
  cases hreason : unstartedReason (input.cancelled i) (pass.coordinator.run.queue.failed i)
      pass.coordinator.sourceFailure with
  | some stop =>
      simp only [hreason] at h
      exact finishUnstarted_weight h
  | none =>
      simp only [hreason, hslot, if_true] at h
      by_cases hneeds : needsResources pass.coordinator.run.queue i = true
      · rw [if_pos hneeds] at h
        exact dispatchResourceCandidate_weight h
      · rw [if_neg hneeds] at h
        obtain rfl := Except.ok.inj h
        exact DispatchState.weight_take _ i

theorem pass_weight {c : Coordinator} (hslot : ∀ i, input.slot i = true)
    (h : c.pass input = .ok pass) :
    pass.coordinator.run.weight = c.run.weight + c.run.queue.ready.toList.length := by
  refine foldlM_ok_induction (fun done (p : Pass) =>
    p.coordinator.run.weight = c.run.weight + done.length) h rfl ?_
  intro done j p p' _ hdone hvisit
  rw [visit_weight (hslot j) hvisit, hdone, List.length_append]
  rfl

end Pass

/-! ### A receive -/

/-- Does the outcome report a target? -/
def Outcome.isResult : Outcome → Bool
  | .ordinary _ _ => true
  | .resource _ _ _ _ => true
  | .resourcesFinished _ => false

section Receive

variable {c c' : Coordinator}

theorem accept_weight {batch batch' : Batch} (h : batch.accept input o = .ok batch') :
    batch'.coordinator.run.weight + batch'.ordinary.length =
      batch.coordinator.run.weight + batch.ordinary.length + if o.isResult then 1 else 0 := by
  cases o with
  | ordinary i execution =>
      unfold Batch.accept at h
      obtain ⟨_, h⟩ := ite_error_eq_ok.mp h
      cases execution with
      | error message => cases h
      | ok conclusion =>
          obtain rfl := Except.ok.inj h
          simp only [List.length_append, List.length_singleton, Outcome.isResult, if_true]
          omega
  | resource i conclusion source acknowledged =>
      unfold Batch.accept at h
      obtain ⟨run, hrun, h⟩ := bind_eq_ok.mp h
      obtain ⟨_, h⟩ := ite_else_error_eq_ok.mp h
      obtain rfl := Except.ok.inj h
      have := publishTarget_weight hrun
      simp only [Outcome.isResult, if_true]
      omega
  | resourcesFinished result =>
      unfold Batch.accept at h
      cases hworker : batch.coordinator.resourceWorker with
      | none => simp [hworker] at h
      | some held =>
          cases result with
          | error message => simp [hworker] at h
          | ok _ =>
              simp only [hworker] at h
              obtain rfl := Except.ok.inj h
              rfl

theorem receive_weight (h : c.receive input = .ok c') :
    c'.run.weight = c.run.weight + input.outcomes.countP Outcome.isResult := by
  have hpublish {l : List (Nat × RunConclusion)} {run run' : DispatchState}
      (h : publishOrdinary input run l = .ok run') : run'.weight = run.weight + l.length := by
    refine foldlM_ok_induction (fun done (s : DispatchState) =>
      s.weight = run.weight + done.length) h rfl ?_
    intro done completion s s' _ hdone hstep
    rw [publishTarget_weight hstep, hdone, List.length_append]
    rfl
  unfold Coordinator.receive at h
  split at h
  · cases h
  · obtain ⟨batch, hbatch, h⟩ := bind_eq_ok.mp h
    obtain ⟨run, hrun, h⟩ := bind_eq_ok.mp h
    obtain rfl := Except.ok.inj h
    show run.weight = _
    rw [hpublish hrun]
    refine foldlM_ok_induction (fun done (batch : Batch) => batch.coordinator.run.weight +
      batch.ordinary.length = c.run.weight + done.countP Outcome.isResult) hbatch rfl ?_
    intro done o batch batch' _ hdone haccept
    rw [accept_weight haccept, hdone, List.countP_append, List.countP_singleton, Nat.add_assoc]

end Receive

/-! ## A way out -/

/-- An undisturbed iteration: no cancellation, no failure of the source, of the journal or of a
worker, and every reported target ends with the conclusion `intrinsic` gives it. Slots may be
refused. -/
structure TickInput.Quiet (intrinsic : Nat → RunConclusion) (input : TickInput) : Prop where
  cancelled : ∀ i, input.cancelled i = .ok false
  send : ∀ i, input.send i = true
  flush : input.flush = .ok ()
  source : input.SourceQuiet
  enforce : ∀ i conclusion, input.enforce i conclusion = conclusion
  record : ∀ i, input.record i = .ok ()
  ordinary : ∀ i execution, .ordinary i execution ∈ input.outcomes → execution = .ok (intrinsic i)
  resource : ∀ i conclusion source acknowledged,
    .resource i conclusion source acknowledged ∈ input.outcomes →
      conclusion = intrinsic i ∧ acknowledged = true
  resourcesFinished : ∀ result, .resourcesFinished result ∈ input.outcomes → result = .ok ()

theorem TickInput.Quiet.no_failure (h : input.Quiet intrinsic) (e : RunFailure) :
    ¬input.Failure e := by
  intro hfailure
  cases hfailure with
  | record hrecord => rw [h.record] at hrecord; cases hrecord
  | send hsend => rw [h.send] at hsend; cases hsend
  | flush hflush => rw [h.flush] at hflush; cases hflush
  | execution hmem => cases h.ordinary _ _ hmem
  | resources hmem => cases h.resourcesFinished _ hmem
  | acknowledgment hmem => cases (h.resource _ _ _ _ hmem).2

theorem TickInput.publishes_any (input : TickInput) (sourceFailure : Option String) :
    input.Publishes (fun _ _ _ => True) sourceFailure :=
  ⟨fun _ _ _ _ _ => trivial, fun _ _ _ _ => trivial, fun _ _ _ _ _ _ _ => trivial,
    fun _ _ _ _ _ => trivial⟩

def TickInput.undisturbed (outcomes : List Outcome) : TickInput :=
  { cancelled := fun _ => .ok false
    slot := fun _ => true
    send := fun _ => true
    precondition := .ok ()
    flush := .ok ()
    outcomes
    postcondition := none
    enforce := fun _ conclusion => conclusion
    record := fun _ => .ok () }

section Exit

variable {c c' : Coordinator}

/-- With a sound source the admission half launches what its pass admitted. -/
theorem admission_eq_ok (hprecondition : input.precondition = .ok ()) {admitted : Admitted}
    (h : c.admission input = .ok admitted) :
    ∃ pass, c.pass input = .ok pass ∧
      (admitted = .retry pass.launch ∨ admitted = .finished pass.launch ∨
        admitted = .wait pass.launch) := by
  unfold Coordinator.admission at h
  obtain ⟨pass, hpass, h⟩ := bind_eq_ok.mp h
  refine ⟨pass, hpass, ?_⟩
  have hlaunch : (if pass.launch.workers.isEmpty && pass.launch.resourceWorker.isNone then
        if pass.launch.run.queue.unfinished = 0 then .ok (.finished pass.launch)
        else if !pass.launch.run.queue.ready.isEmpty then .ok (.retry pass.launch)
        else .error (.bail stuckMessage)
      else .ok (.wait pass.launch)) = Except.ok (ε := RunFailure) admitted := by
    rw [hprecondition] at h
    cases hordinary : pass.ordinary with
    | nil => simpa only [hordinary] using h
    | cons i rest => simpa only [hordinary] using h
  split at hlaunch
  · split at hlaunch
    · exact Or.inr (Or.inl (Except.ok.inj hlaunch).symm)
    · obtain ⟨_, hretry⟩ := ite_else_error_eq_ok.mp hlaunch
      exact Or.inl (Except.ok.inj hretry).symm
  · exact Or.inr (Or.inr (Except.ok.inj hlaunch).symm)

/-- What an iteration that goes on adds to the weight: the ready targets, and the results if it came
to receive any. -/
theorem tick_weight (hprecondition : input.precondition = .ok ())
    (hslot : ∀ i, input.slot i = true) (h : c.tick input = .ok (.next c')) :
    c'.run.weight = c.run.weight + c.run.queue.ready.toList.length ∧
        c.admission input = .ok (.retry c') ∨
      ∃ c₁, c.admission input = .ok (.wait c₁) ∧ c₁.receive input = .ok c' ∧
        c'.run.weight = c.run.weight + c.run.queue.ready.toList.length +
          input.outcomes.countP Outcome.isResult := by
  unfold Coordinator.tick at h
  split at h
  · cases Except.ok.inj h
  · obtain ⟨admitted, hadmitted, h⟩ := bind_eq_ok.mp h
    obtain ⟨pass, hpass, hlaunch⟩ := admission_eq_ok hprecondition hadmitted
    have hweight : pass.launch.run.weight = _ := pass_weight hslot hpass
    rcases hlaunch with rfl | rfl | rfl
    · obtain rfl := Tick.next.inj (Except.ok.inj h)
      exact Or.inl ⟨hweight, hadmitted⟩
    · cases Except.ok.inj h
    · obtain ⟨c₂, hreceive, h⟩ := bind_eq_ok.mp h
      obtain rfl := Tick.next.inj (Except.ok.inj h)
      refine Or.inr ⟨_, hadmitted, hreceive, ?_⟩
      rw [receive_weight hreceive, hweight]

variable {publishing : Publishing}

theorem DispatchStep.targets (h : DispatchStep taking publishing s s') (hinv : DispatchInv s) :
    s'.queue.targets = s.queue.targets := by
  cases h with
  | take _ _ => rfl
  | publish hentered hnew _ hpublish =>
      obtain ⟨q', hq', hrel⟩ := hinv.publish_ok hentered hnew _
      obtain rfl := Except.ok.inj (hq'.symm.trans hpublish)
      exact hrel.targets

theorem DispatchInv.run_targets (h : DispatchInv s)
    (hrun : Relation.ReflTransGen (DispatchStep taking publishing) s s') :
    s'.queue.targets = s.queue.targets := by
  induction hrun with
  | refl => rfl
  | tail hsteps hstep ih => exact (hstep.targets (h.run hsteps)).trans ih

/-- When nothing is unfinished every index has been published. -/
theorem DispatchInv.mem_done_of_finished (h : DispatchInv s) (hfinished : s.queue.unfinished = 0)
    (hi : i < s.queue.targets.length) : i ∈ s.done := by
  by_contra hnew
  exact Nat.ne_of_gt (h.unfinished_pos hi hnew) hfinished

/-- An admissible undisturbed input does not fail. -/
theorem undisturbed_tick (hquiet : input.Quiet intrinsic) (h : LoopInv c [] [])
    (hadmissible : input.Admissible c) :
    ∃ tick, c.tick input = .ok tick ∧ Tick.Sound (fun _ _ _ => True) input c tick :=
  (tick_ensures (input.publishes_any _) h hadmissible).exists_ok hquiet.no_failure

/-- How far the loop is from its end: two for every step the queue can still make, and one for a
live resource worker. -/
def Coordinator.distance (c : Coordinator) : Nat :=
  2 * (2 * c.run.queue.targets.length - c.run.weight) + if c.resourceWorker.isSome then 1 else 0

theorem distance_lt_of_weight_lt (h' : DispatchInv c'.run)
    (htargets : c'.run.queue.targets = c.run.queue.targets)
    (hweight : c.run.weight < c'.run.weight) : c'.distance < c.distance := by
  have hbound := h'.weight_le
  unfold Coordinator.distance
  rw [htargets] at hbound ⊢
  split <;> split <;> omega

/-- One undisturbed iteration either leaves the loop or comes closer to its end. -/
def Closer (intrinsic : Nat → RunConclusion) (c : Coordinator) : Prop :=
  (∃ c', Coordinator.Exit (TickInput.Quiet intrinsic) c c') ∨
    ∃ c', Coordinator.Next (TickInput.Quiet intrinsic) c c' ∧ LoopInv c' [] [] ∧
      c'.distance < c.distance

/-- An iteration that adds to the weight brings the loop closer to its end. -/
theorem closer_of_weight (h : LoopInv c [] []) (hquiet : input.Quiet intrinsic)
    (hadmissible : input.Admissible c)
    (hweight : ∀ c', c.tick input = .ok (.next c') → c.run.weight < c'.run.weight) :
    Closer intrinsic c := by
  obtain ⟨tick, htick, hsound⟩ := undisturbed_tick hquiet h hadmissible
  cases tick with
  | finished c' => exact Or.inl ⟨c', input, hquiet, hadmissible, htick⟩
  | next c' =>
      obtain ⟨hinv, hsteps, _⟩ := hsound
      refine Or.inr ⟨c', ⟨input, hquiet, hadmissible, htick⟩, hinv, ?_⟩
      exact distance_lt_of_weight_lt hinv.run (h.run.run_targets hsteps) (hweight c' htick)

/-- What an undisturbed worker reports. -/
def Outcome.Quiet (intrinsic : Nat → RunConclusion) : Outcome → Prop
  | .ordinary i execution => execution = .ok (intrinsic i)
  | .resource i conclusion source acknowledged =>
      conclusion = intrinsic i ∧ source = none ∧ acknowledged = true
  | .resourcesFinished result => result = .ok ()

theorem undisturbed_quiet {outcomes : List Outcome} (h : ∀ o ∈ outcomes, o.Quiet intrinsic) :
    (TickInput.undisturbed outcomes).Quiet intrinsic where
  cancelled _ := rfl
  send _ := rfl
  flush := rfl
  source := ⟨rfl, rfl, fun _ _ _ _ hmem => (h _ hmem).2.1⟩
  enforce _ _ := rfl
  record _ := rfl
  ordinary _ _ hmem := h _ hmem
  resource _ _ _ _ hmem := ⟨(h _ hmem).1, (h _ hmem).2.2⟩
  resourcesFinished _ hmem := h _ hmem

theorem undisturbed_nil_quiet : (TickInput.undisturbed []).Quiet intrinsic :=
  undisturbed_quiet (List.forall_mem_nil _)

theorem undisturbed_nil_admissible : (TickInput.undisturbed []).Admissible c := by
  intro c' _ done o rest batch' hsplit
  cases done <;> cases hsplit

/-- While targets are ready, a pass starts or skips them. -/
theorem closer_of_ready (h : LoopInv c [] []) (hready : i ∈ c.run.queue.ready) :
    Closer intrinsic c := by
  apply closer_of_weight h undisturbed_nil_quiet undisturbed_nil_admissible
  intro c' htick
  have hlength : 0 < c.run.queue.ready.toList.length :=
    List.length_pos_of_mem (ExtTreeSet.mem_toList.mpr hready)
  rcases tick_weight rfl (fun _ => rfl) htick with ⟨hweight, _⟩ | ⟨c₁, _, _, hweight⟩
  · omega
  · omega

/-- The loop state that receives, when nothing was ready. -/
def Coordinator.waiting (c : Coordinator) : Coordinator :=
  (Pass.mk c [] []).launch

section NotReady

variable (hready : ∀ i, i ∉ c.run.queue.ready)
  (hbusy : (∃ i, i ∈ c.workers) ∨ c.resourceWorker.isSome)

include hready hbusy

theorem admission_of_not_ready :
    c.admission input = .ok (.wait c.waiting) := by
  have hempty : c.run.queue.ready.toList = [] := by
    rw [List.eq_nil_iff_forall_not_mem]
    intro i hi
    exact hready i (ExtTreeSet.mem_toList.mp hi)
  have hpass : c.pass input = .ok ⟨c, [], []⟩ := by
    unfold Coordinator.pass
    rw [hempty]
    rfl
  have hidle : (c.waiting.workers.isEmpty && c.waiting.resourceWorker.isNone) = false := by
    rw [Bool.and_eq_false_iff]
    rcases hbusy with ⟨i, hi⟩ | hworker
    · left
      rw [← Bool.not_eq_true, ExtTreeSet.isEmpty_iff]
      intro hnone
      have hi' : i ∈ c.waiting.workers := mem_insertMany_iff.mpr (Or.inl hi)
      rw [hnone] at hi'
      exact ExtTreeSet.not_mem_empty hi'
    · right
      show c.resourceWorker.isNone = false
      rw [Option.isNone_eq_false_iff]
      exact hworker
  unfold Coordinator.admission
  rw [hpass]
  show (if c.waiting.workers.isEmpty && c.waiting.resourceWorker.isNone then _ else _) = _
  rw [hidle]
  rfl

/-- A single outcome is admissible when the waiting loop can get it. -/
theorem admissible_singleton (houtcomes : input.outcomes = [o]) (ho : o.Admissible c.waiting) :
    input.Admissible c := by
  intro c' hadmission done o' rest batch' hsplit hdone
  rw [admission_of_not_ready hready hbusy] at hadmission
  obtain rfl := Admitted.wait.inj (Except.ok.inj hadmission)
  rw [houtcomes] at hsplit
  cases done with
  | cons _ _ => simp at hsplit
  | nil =>
      obtain ⟨rfl, _⟩ := List.cons.inj hsplit
      obtain rfl := Except.ok.inj hdone
      exact ho

/-- While a worker holds a target, its report is published. -/
theorem closer_of_report (h : LoopInv c [] []) (hquiet : o.Quiet intrinsic)
    (hresult : o.isResult = true) (ho : o.Admissible c.waiting) : Closer intrinsic c := by
  apply closer_of_weight h (undisturbed_quiet (List.forall_mem_singleton.mpr hquiet))
    (admissible_singleton hready hbusy rfl ho)
  intro c' htick
  have hcount : [o].countP Outcome.isResult = 1 := by simp [hresult]
  rcases tick_weight rfl (fun _ => rfl) htick with ⟨_, hretry⟩ | ⟨c₁, _, _, hweight⟩
  · rw [admission_of_not_ready hready hbusy] at hretry
    cases Except.ok.inj hretry
  · change _ = _ + [o].countP Outcome.isResult at hweight
    omega

omit hbusy in
/-- Without ready targets or targets in flight everything is published. -/
theorem LoopInv.unfinished_eq_zero (h : LoopInv c [] [])
    (hworkers : ∀ i, i ∉ c.workers) (hheld : c.held = []) : c.run.queue.unfinished = 0 := by
  by_contra hunfinished
  obtain ⟨i, hi⟩ := h.run.exists_entered hunfinished
  rcases hi with hi | hi
  · exact hready i hi
  · rcases (h.inflight i).mp hi with hi | hi | hi | hi
    · exact hworkers i hi
    · rw [hheld] at hi
      cases hi
    · cases hi
    · cases hi

end NotReady

theorem LoopInv.unsent_eq_zero (h : LoopInv c [] []) (hfinished : c.run.queue.unfinished = 0) :
    c.unsentResources = 0 := by
  rw [h.unsent, unstartedResources, List.countP_eq_zero]
  intro i hi
  have hdone := h.run.mem_done_of_finished hfinished (List.mem_range.mp hi)
  simp [hdone]

theorem receive_finished {held : List Nat} (hworker : c.resourceWorker = some held) :
    c.receive (TickInput.undisturbed [.resourcesFinished (.ok ())]) =
      .ok { c with resourceWorker := none, resourceSender := false } := by
  unfold Coordinator.receive
  simp only [TickInput.undisturbed, List.foldlM_cons, List.foldlM_nil, Batch.accept, hworker]
  rfl

/-- A resource worker without targets returns once everything is published. -/
theorem closer_of_idle_worker (h : LoopInv c [] []) (hready : ∀ i, i ∉ c.run.queue.ready)
    (hworkers : ∀ i, i ∉ c.workers) (hworker : c.resourceWorker = some []) :
    Closer intrinsic c := by
  have hbusy : (∃ i, i ∈ c.workers) ∨ c.resourceWorker.isSome := Or.inr (by rw [hworker]; rfl)
  have hfinished := h.unfinished_eq_zero hready hworkers (by rw [Coordinator.held, hworker]; rfl)
  have hsender : c.waiting.resourceSender = false := by
    show ((c.resourceSender || !List.isEmpty []) && c.unsentResources != 0) = false
    rw [h.unsent_eq_zero hfinished]
    exact Bool.and_false _
  have hquiet : (TickInput.undisturbed [.resourcesFinished (.ok ())]).Quiet intrinsic :=
    undisturbed_quiet (List.forall_mem_singleton.mpr rfl)
  have hadmissible : (TickInput.undisturbed [.resourcesFinished (.ok ())]).Admissible c := by
    apply admissible_singleton hready hbusy rfl
    exact ⟨[], hworker, fun _ => ⟨rfl, hsender⟩⟩
  obtain ⟨tick, htick, hsound⟩ := undisturbed_tick hquiet h hadmissible
  cases tick with
  | finished c' => exact Or.inl ⟨c', _, hquiet, hadmissible, htick⟩
  | next c' =>
      refine Or.inr ⟨c', ⟨_, hquiet, hadmissible, htick⟩, hsound.1, ?_⟩
      rcases tick_weight rfl (fun _ => rfl) htick with ⟨_, hretry⟩ | ⟨c₁, hwait, hreceive, _⟩
      · rw [admission_of_not_ready hready hbusy] at hretry
        cases Except.ok.inj hretry
      · rw [admission_of_not_ready hready hbusy] at hwait
        obtain rfl := Admitted.wait.inj (Except.ok.inj hwait)
        have hwaiting : c.waiting.resourceWorker = some [] := hworker
        rw [receive_finished hwaiting] at hreceive
        obtain rfl := Except.ok.inj hreceive
        show 2 * (2 * c.run.queue.targets.length - c.run.weight) + 0 < c.distance
        rw [Coordinator.distance, hworker]
        exact Nat.lt_succ_self _

/-- **Progress.** -/
theorem closer (h : LoopInv c [] []) : Closer intrinsic c := by
  by_cases hready : ∃ i, i ∈ c.run.queue.ready
  · obtain ⟨i, hi⟩ := hready
    exact closer_of_ready h hi
  · rw [not_exists] at hready
    by_cases hworkers : ∃ i, i ∈ c.workers
    · obtain ⟨i, hi⟩ := hworkers
      exact closer_of_report hready (Or.inl ⟨i, hi⟩) h (o := .ordinary i (.ok (intrinsic i))) rfl rfl
        (mem_insertMany_iff.mpr (Or.inl hi))
    · rw [not_exists] at hworkers
      cases hworker : c.resourceWorker with
      | none =>
          -- nothing left to do: the loop condition fails
          have hfinished := h.unfinished_eq_zero hready hworkers
            (by rw [Coordinator.held, hworker]; rfl)
          refine Or.inl ⟨c, _, undisturbed_nil_quiet, undisturbed_nil_admissible, ?_⟩
          unfold Coordinator.tick
          rw [if_pos (by rw [hfinished, hworker]; rfl)]
      | some held =>
          cases held with
          | nil => exact closer_of_idle_worker h hready hworkers hworker
          | cons i held =>
              exact closer_of_report hready (Or.inr (by rw [hworker]; rfl)) h
                (o := .resource i (intrinsic i) none true) ⟨rfl, rfl, rfl⟩ rfl
                ⟨i :: held, hworker, List.mem_cons_self⟩

/-- **The loop can always get done**: from every state it reaches, undisturbed iterations lead out
of it, with every target that starts ending as `intrinsic` says. -/
theorem exists_exit (intrinsic : Nat → RunConclusion) (h : LoopInv c [] []) :
    ∃ last final, Coordinator.Reaches (TickInput.Quiet intrinsic) c last ∧
      Coordinator.Exit (TickInput.Quiet intrinsic) last final := by
  induction hd : c.distance using Nat.strong_induction_on generalizing c with
  | _ d ih =>
      rcases closer h with ⟨final, hexit⟩ | ⟨next, hnext, hinv, hlt⟩
      · exact ⟨c, final, .refl, hexit⟩
      · obtain ⟨last, final, hreaches, hexit⟩ := ih next.distance (hd ▸ hlt) hinv rfl
        exact ⟨last, final, .head hnext hreaches, hexit⟩

end Exit

end Jig.Runtime

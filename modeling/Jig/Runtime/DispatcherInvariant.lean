import Jig.Runtime.ReadyDispatcher

/-!
# The invariant of the ready dispatcher

Every iteration of the coordinator loop is a run of the queue (`QueueInvariant`) that takes only
targets without a failed dependency. `LoopInv` couples the queue with the loop's own bookkeeping:
what is taken and not yet published is exactly what the workers and the current batch hold, and
`unsent_resources` counts the resource targets that were neither handed out nor accounted for.

`tick_ensures` analyses one iteration completely: it keeps the invariant, and it can stop only with
an error that its inputs carry (`TickInput.Failure`). The stuck-schedule error and all panics are
thereby unreachable.
-/

namespace Jig.Runtime

open Contract Lib State Std

/-! ## Errors that come from the inputs -/

/-- The failures an iteration can only get from its surroundings. -/
inductive TickInput.Failure (input : TickInput) : RunFailure → Prop where
  | record {i : Nat} {message : String} (h : input.record i = .error message) :
      Failure input (.propagated message)
  | send {i : Nat} (h : input.send i = false) :
      Failure input (.bail "resource worker stopped before accepting a ready target")
  | flush {message : String} (h : input.flush = .error message) :
      Failure input (.propagated message)
  | execution {i : Nat} {message : String} (h : .ordinary i (.error message) ∈ input.outcomes) :
      Failure input (.propagated message)
  | resources {message : String} (h : .resourcesFinished (.error message) ∈ input.outcomes) :
      Failure input (.propagated message)
  | acknowledgment {i : Nat} {conclusion : RunConclusion} {source : Option String}
      (h : .resource i conclusion source false ∈ input.outcomes) :
      Failure input (.bail "resource worker stopped during publication")

def unfailed (s : DispatchState) (i : Nat) : Prop :=
  s.queue.failed i = false

/-- The runs of the queue that the dispatcher performs. -/
abbrev Steps (publishing : Publishing) : DispatchState → DispatchState → Prop :=
  Relation.ReflTransGen (DispatchStep unfailed publishing)

/-! ## One publication -/

/-- `s'` is `s` after the publication of target `i`. -/
structure Published (publishing : Publishing) (s : DispatchState) (i : Nat)
    (conclusion : RunConclusion) (s' : DispatchState) : Prop where
  step : DispatchStep unfailed publishing s s'
  inv : DispatchInv s'
  dispatched : s'.dispatched = s.dispatched
  published : s'.published = s.published ++ [(i, conclusion)]
  targets : s'.queue.targets = s.queue.targets
  ready : ∀ j ∈ s.queue.ready, j ≠ i → j ∈ s'.queue.ready

variable {publishing : Publishing} {conclusion : RunConclusion}
  {i j : Nat} {s' s : DispatchState} {input : TickInput} {c : Coordinator} {l : List Nat}

namespace Published

variable (h : Published publishing s i conclusion s')

include h

theorem done : s'.done = s.done ++ [i] := by
  simp [DispatchState.done, h.published]

theorem deps (j : Nat) :
    s'.queue.deps j = s.queue.deps j := by
  unfold ReadyQueue.deps
  rw [h.targets]

theorem needsResources (j : Nat) :
    needsResources s'.queue j = needsResources s.queue j := by
  unfold Runtime.needsResources
  rw [h.targets]

/-- A target whose dependencies were all published keeps its failure flag. -/
theorem failed (hinv : DispatchInv s) (hnew : i ∉ s.done) (hdeps : ∀ d ∈ s.queue.deps j, d ∈ s.done) :
    s'.queue.failed j = s.queue.failed j := by
  rw [Bool.eq_iff_iff, h.inv.failed, hinv.failed, h.deps, h.published]
  refine exists_congr fun d => and_congr_right fun hd => exists_congr fun c => ?_
  have hne : d ≠ i := fun hdi => hnew (hdi ▸ hdeps d hd)
  simp [hne]

end Published

theorem publishTarget_ensures (h : DispatchInv s) (hentered : i ∈ s.queue.ready ∨ i ∈ s.dispatched)
    (hnew : i ∉ s.done) (hpublishing : publishing s i conclusion) :
    Ensures (publishTarget input.record s i conclusion) (Published publishing s i conclusion)
      input.Failure := by
  unfold publishTarget
  cases hrecord : input.record i with
  | error message => exact .record hrecord
  | ok _ =>
      obtain ⟨q', hq', hrel⟩ := h.publish_ok hentered hnew conclusion
      simp only [hq', bind, Except.bind]
      refine ⟨.publish hentered hnew hpublishing hq', h.publish hentered hnew hq', rfl, rfl,
        hrel.targets, ?_⟩
      intro j hj hne
      apply (hrel.ready j).mpr
      left
      show j ∈ s.queue.ready.erase i
      rw [mem_treeSet_erase]
      exact ⟨fun hij => hne hij.symm, hj⟩

/-! ## Resource accounting -/

/-- The resource targets that were neither handed to a worker nor published. -/
def unstartedResources (s : DispatchState) : Nat :=
  (List.range s.queue.targets.length).countP fun i =>
    needsResources s.queue i && decide (i ∉ s.done) && decide (i ∉ s.dispatched)

theorem unstartedResources_take (h : DispatchInv s) (hready : i ∈ s.queue.ready) :
    unstartedResources s =
      unstartedResources (s.take i) + if needsResources s.queue i then 1 else 0 := by
  obtain ⟨hlt, hnew, _⟩ := (h.ready i).mp (Or.inl hready)
  have hcount : unstartedResources s = unstartedResources (s.take i) + _ :=
    countP_range_except hlt fun j => by
      show (needsResources s.queue j && decide (j ∉ s.done) && decide (j ∉ i :: s.dispatched)) = _
      simp [Bool.and_assoc, Bool.and_comm]
  simpa [hnew, h.ready_not_dispatched i hready] using hcount

theorem unstartedResources_publish (h : Published publishing s i conclusion s')
    (hlt : i < s.queue.targets.length) (hnew : i ∉ s.done) :
    unstartedResources s = unstartedResources s' +
      if needsResources s.queue i && decide (i ∉ s.dispatched) then 1 else 0 := by
  unfold unstartedResources
  rw [h.targets]
  simp only [h.done, h.dispatched, h.needsResources]
  refine (countP_range_except hlt fun j => ?_).trans (congrArg _ ?_)
  · simp [Bool.and_comm, Bool.and_left_comm]
  · simp [hnew]

/-! ## The loop invariant -/

/-- The targets the resource worker holds. -/
def Coordinator.held (c : Coordinator) : List Nat :=
  c.resourceWorker.getD []

/-- The invariant inside an iteration. `ordinary` and `resource` are the taken targets that no
worker holds at the moment: those a pass has admitted, or those a batch has yet to publish. -/
structure LoopInv (c : Coordinator) (ordinary resource : List Nat) : Prop where
  run : DispatchInv c.run
  unfailed : ∀ i ∈ c.run.dispatched, c.run.queue.failed i = false
  inflight : ∀ i, (i ∈ c.run.dispatched ∧ i ∉ c.run.done) ↔
    i ∈ c.workers ∨ i ∈ c.held ∨ i ∈ ordinary ∨ i ∈ resource
  ordinary_nodup : ordinary.Nodup
  resource_nodup : resource.Nodup
  ordinary_not_workers : ∀ i ∈ ordinary, i ∉ c.workers
  resource_not_held : ∀ i ∈ resource, i ∉ c.held
  workers_plain : ∀ i ∈ c.workers, needsResources c.run.queue i = false
  ordinary_plain : ∀ i ∈ ordinary, needsResources c.run.queue i = false
  held_resource : ∀ i ∈ c.held, needsResources c.run.queue i = true
  resource_resource : ∀ i ∈ resource, needsResources c.run.queue i = true
  unsent : c.unsentResources = unstartedResources c.run
  sender : c.resourceSender = true → c.resourceWorker.isSome
  closed : c.resourceWorker.isSome → c.resourceSender = false → c.unsentResources = 0

namespace LoopInv

variable {ordinary resource : List Nat}

section

variable (h : LoopInv c ordinary resource)

include h

/-- A taken target that is not published has become ready. -/
theorem entered (hi : i ∈ c.workers ∨ i ∈ c.held ∨ i ∈ ordinary ∨ i ∈ resource) :
    i ∈ c.run.dispatched ∧ i ∉ c.run.done ∧ i < c.run.queue.targets.length ∧
      c.run.queue.failed i = false := by
  obtain ⟨hdispatched, hnew⟩ := (h.inflight i).mpr hi
  exact ⟨hdispatched, hnew, (h.run.entered (Or.inr hdispatched) hnew).1, h.unfailed i hdispatched⟩

theorem ready_lt (hready : i ∈ c.run.queue.ready) :
    i < c.run.queue.targets.length ∧ i ∉ c.run.done ∧ i ∉ c.run.dispatched := by
  obtain ⟨hlt, hnew, _⟩ := (h.run.ready i).mp (Or.inl hready)
  exact ⟨hlt, hnew, h.run.ready_not_dispatched i hready⟩

/-- The places of the taken targets are disjoint: plain and resource targets are told apart by their
plans, and within one kind each list is separate. -/
theorem plain_notMem (hi : needsResources c.run.queue i = false) : i ∉ c.held ∧ i ∉ resource := by
  constructor
  · intro hheld
    cases hi.symm.trans (h.held_resource i hheld)
  · intro hresource
    cases hi.symm.trans (h.resource_resource i hresource)

theorem resource_notMem (hi : needsResources c.run.queue i = true) :
    i ∉ c.workers ∧ i ∉ ordinary := by
  constructor
  · intro hworkers
    cases hi.symm.trans (h.workers_plain i hworkers)
  · intro hordinary
    cases hi.symm.trans (h.ordinary_plain i hordinary)

variable (hpub : Published publishing c.run i conclusion s')

include hpub

/-- Publishing leaves the failure flags of taken targets alone. -/
theorem unfailed_publish
    (hnew : i ∉ c.run.done) : ∀ j ∈ s'.dispatched, s'.queue.failed j = false := by
  intro j hj
  rw [hpub.dispatched] at hj
  rw [hpub.failed h.run hnew (h.run.dispatched_closed j hj)]
  exact h.unfailed j hj

/-- A ready target is published without having been taken. -/
theorem publish_unstarted
    (hready : i ∈ c.run.queue.ready) :
    LoopInv { c with
        run := s'
        unsentResources := c.unsentResources - if needsResources c.run.queue i then 1 else 0 }
      ordinary resource := by
  obtain ⟨hlt, hnew, hdispatched⟩ := h.ready_lt hready
  have hcount := unstartedResources_publish hpub hlt hnew
  simp only [hdispatched, not_false_eq_true, decide_true, Bool.and_true] at hcount
  have hunsent : c.unsentResources - (if needsResources c.run.queue i then 1 else 0) =
      unstartedResources s' := by
    rw [h.unsent, hcount, Nat.add_sub_cancel]
  constructor
  case run => exact hpub.inv
  case unfailed => exact h.unfailed_publish hpub hnew
  case inflight =>
    intro j
    refine Iff.trans ?_ (h.inflight j)
    show (j ∈ s'.dispatched ∧ j ∉ s'.done) ↔ _
    rw [hpub.dispatched, hpub.done, List.mem_append, List.mem_singleton, not_or]
    refine and_congr_right fun hj => and_iff_left ?_
    intro hji
    exact hdispatched (hji ▸ hj)
  case ordinary_nodup => exact h.ordinary_nodup
  case resource_nodup => exact h.resource_nodup
  case ordinary_not_workers => exact h.ordinary_not_workers
  case resource_not_held => exact h.resource_not_held
  case workers_plain => exact fun j hj => (hpub.needsResources j).trans (h.workers_plain j hj)
  case ordinary_plain => exact fun j hj => (hpub.needsResources j).trans (h.ordinary_plain j hj)
  case held_resource => exact fun j hj => (hpub.needsResources j).trans (h.held_resource j hj)
  case resource_resource =>
    exact fun j hj => (hpub.needsResources j).trans (h.resource_resource j hj)
  case unsent => exact hunsent
  case sender => exact h.sender
  case closed =>
    intro hworker hsender
    have hzero := h.closed hworker hsender
    show c.unsentResources - _ = 0
    omega

/-- A taken target is published: it leaves whichever list held it. -/
theorem publish_taken
    (hdispatched : i ∈ c.run.dispatched) (hnew : i ∉ c.run.done) (hworkers : i ∉ c.workers) :
    LoopInv { c with run := s', resourceWorker := c.resourceWorker.map (·.filter (· ≠ i)) }
      (ordinary.filter (· ≠ i)) (resource.filter (· ≠ i)) := by
  have hlt := (h.run.entered (Or.inr hdispatched) hnew).1
  have hcount := unstartedResources_publish hpub hlt hnew
  simp only [hdispatched, not_true_eq_false, decide_false, Bool.and_false, Bool.false_eq_true,
    if_false, Nat.add_zero] at hcount
  have hmem (l : List Nat) (j : Nat) : j ∈ l.filter (· ≠ i) ↔ j ∈ l ∧ j ≠ i := by simp
  have hheld (j : Nat) :
      j ∈ (c.resourceWorker.map (·.filter (· ≠ i))).getD [] ↔ j ∈ c.held ∧ j ≠ i := by
    unfold Coordinator.held
    cases c.resourceWorker with
    | none => simp
    | some held => simp
  constructor
  case run => exact hpub.inv
  case unfailed => exact h.unfailed_publish hpub hnew
  case inflight =>
    intro j
    show (j ∈ s'.dispatched ∧ j ∉ s'.done) ↔ j ∈ c.workers ∨ j ∈ Option.getD _ [] ∨ _
    rw [hpub.dispatched, hpub.done, List.mem_append, List.mem_singleton, not_or, ← and_assoc,
      h.inflight j, hheld, hmem, hmem]
    have hne : j ∈ c.workers → j ≠ i := fun hj hji => hworkers (hji ▸ hj)
    tauto
  case ordinary_nodup => exact h.ordinary_nodup.filter _
  case resource_nodup => exact h.resource_nodup.filter _
  case ordinary_not_workers => exact fun j hj => h.ordinary_not_workers j (List.mem_of_mem_filter hj)
  case resource_not_held =>
    exact fun j hj hjheld =>
      h.resource_not_held j (List.mem_of_mem_filter hj) ((hheld j).mp hjheld).1
  case workers_plain => exact fun j hj => (hpub.needsResources j).trans (h.workers_plain j hj)
  case ordinary_plain =>
    exact fun j hj => (hpub.needsResources j).trans (h.ordinary_plain j (List.mem_of_mem_filter hj))
  case held_resource =>
    exact fun j hj => (hpub.needsResources j).trans (h.held_resource j ((hheld j).mp hj).1)
  case resource_resource =>
    exact fun j hj =>
      (hpub.needsResources j).trans (h.resource_resource j (List.mem_of_mem_filter hj))
  case unsent => exact h.unsent.trans hcount
  case sender => exact fun hs => Option.isSome_map.trans (h.sender hs)
  case closed => exact fun hw => h.closed (Option.isSome_map.symm.trans hw)

end

theorem filter_ne_of_notMem (h : i ∉ l) : l.filter (· ≠ i) = l :=
  List.filter_eq_self.mpr fun _ hj => decide_eq_true fun hji => h (hji ▸ hj)

theorem filter_ne_cons (h : (i :: l).Nodup) : (i :: l).filter (· ≠ i) = l := by
  rw [List.filter_cons_of_neg (by simp), filter_ne_of_notMem (List.nodup_cons.mp h).1]

theorem map_filter_held (h : i ∉ c.held) :
    c.resourceWorker.map (·.filter (· ≠ i)) = c.resourceWorker := by
  unfold Coordinator.held at h
  cases hworker : c.resourceWorker with
  | none => rfl
  | some held =>
      rw [hworker, Option.getD_some] at h
      rw [Option.map_some, filter_ne_of_notMem h]

/-- The first ordinary target of the batch is published. -/
theorem publish_ordinary (h : LoopInv c (i :: ordinary) resource)
    (hpub : Published publishing c.run i conclusion s') :
    LoopInv { c with run := s' } ordinary resource := by
  obtain ⟨hdispatched, hnew, -, -⟩ := h.entered (Or.inr (Or.inr (Or.inl List.mem_cons_self)))
  obtain ⟨hheld, hresource⟩ := h.plain_notMem (h.ordinary_plain i List.mem_cons_self)
  have hinv := h.publish_taken hpub hdispatched hnew (h.ordinary_not_workers i List.mem_cons_self)
  rwa [map_filter_held hheld, filter_ne_cons h.ordinary_nodup, filter_ne_of_notMem hresource] at hinv

/-- The first resource target that no worker holds is published. -/
theorem publish_resource (h : LoopInv c ordinary (i :: resource))
    (hpub : Published publishing c.run i conclusion s') :
    LoopInv { c with run := s' } ordinary resource := by
  obtain ⟨hdispatched, hnew, -, -⟩ := h.entered (Or.inr (Or.inr (Or.inr List.mem_cons_self)))
  obtain ⟨hworkers, hordinary⟩ := h.resource_notMem (h.resource_resource i List.mem_cons_self)
  have hinv := h.publish_taken hpub hdispatched hnew hworkers
  rwa [map_filter_held (h.resource_not_held i List.mem_cons_self), filter_ne_of_notMem hordinary,
    filter_ne_cons h.resource_nodup] at hinv

section Concat

variable {l' : List Nat} {p : Prop} (h : l' = l ∨ (l' = l ++ [i] ∧ p))

include h

theorem mem_of_concat (hj : j ∈ l') : j ∈ l ∨ (j = i ∧ p) := by
  rcases h with rfl | ⟨rfl, hp⟩
  · exact Or.inl hj
  · rw [List.mem_append, List.mem_singleton] at hj
    exact hj.imp_right fun hji => ⟨hji, hp⟩

theorem nodup_of_concat (hl : l.Nodup) (hi : i ∉ l) : l'.Nodup := by
  rcases h with rfl | ⟨rfl, -⟩
  · exact hl
  · rw [← List.concat_eq_append, List.nodup_concat]
    exact ⟨hi, hl⟩

end Concat

section

variable (h : LoopInv c ordinary resource)

include h

/-- A target the resource worker holds is published, and the worker lets it go. -/
theorem publish_held (hi : i ∈ c.held) (hpub : Published publishing c.run i conclusion s') :
    LoopInv { c with run := s', resourceWorker := c.resourceWorker.map (·.filter (· ≠ i)) }
      ordinary resource := by
  obtain ⟨hdispatched, hnew, -, -⟩ := h.entered (Or.inr (Or.inl hi))
  obtain ⟨hworkers, hordinary⟩ := h.resource_notMem (h.held_resource i hi)
  have hinv := h.publish_taken hpub hdispatched hnew hworkers
  rwa [filter_ne_of_notMem hordinary,
    filter_ne_of_notMem fun hres => h.resource_not_held i hres hi] at hinv

/-- An ordinary worker reports: its target waits for publication. -/
theorem receive_ordinary (hi : i ∈ c.workers) :
    LoopInv { c with workers := c.workers.erase i } (ordinary ++ [i]) resource := by
  have herase : ∀ j, j ∈ c.workers.erase i ↔ j ≠ i ∧ j ∈ c.workers := by
    intro j
    rw [mem_treeSet_erase, ne_comm]
  have hnotOrdinary : i ∉ ordinary := fun hord => h.ordinary_not_workers i hord hi
  refine ⟨h.run, h.unfailed, ?_, ?_, h.resource_nodup, ?_, h.resource_not_held, ?_, ?_,
    h.held_resource, h.resource_resource, h.unsent, h.sender, h.closed⟩
  · intro j
    refine (h.inflight j).trans ?_
    show _ ↔ j ∈ c.workers.erase i ∨ j ∈ c.held ∨ j ∈ ordinary ++ [i] ∨ j ∈ resource
    rw [herase, List.mem_append, List.mem_singleton]
    by_cases hji : j = i
    · simp [hji, hi]
    · simp [hji]
  · exact nodup_of_concat (.inr ⟨rfl, trivial⟩) h.ordinary_nodup hnotOrdinary
  · intro j hj hjw
    obtain ⟨hne, hjw⟩ := (herase j).mp hjw
    rcases List.mem_append.mp hj with hj | hj
    · exact h.ordinary_not_workers j hj hjw
    · exact hne (List.mem_singleton.mp hj)
  · intro j hj
    exact h.workers_plain j ((herase j).mp hj).2
  · exact forall_mem_concat h.ordinary_plain (h.workers_plain i hi)

/-- The resource worker has returned with nothing left to publish. -/
theorem finish_resources (hheld : c.held = []) :
    LoopInv { c with resourceWorker := none, resourceSender := false } ordinary resource := by
  have hnone : ∀ j, j ∉ Coordinator.held
      { c with resourceWorker := none, resourceSender := false } := fun _ => List.not_mem_nil
  refine ⟨h.run, h.unfailed, ?_, h.ordinary_nodup, h.resource_nodup, h.ordinary_not_workers,
    fun j _ => hnone j, h.workers_plain, h.ordinary_plain, fun j hj => absurd hj (hnone j),
    h.resource_resource, h.unsent, ?_, ?_⟩
  · intro j
    have hinflight := h.inflight j
    rw [hheld] at hinflight
    exact hinflight
  · intro hsender
    cases hsender
  · intro hworker
    cases hworker

/-- The invariant does not read the retained source failure. -/
theorem setSourceFailure (sourceFailure : Option String) :
    LoopInv { c with sourceFailure } ordinary resource :=
  ⟨h.run, h.unfailed, h.inflight, h.ordinary_nodup, h.resource_nodup, h.ordinary_not_workers,
    h.resource_not_held, h.workers_plain, h.ordinary_plain, h.held_resource, h.resource_resource,
    h.unsent, h.sender, h.closed⟩

/-- A ready target is taken and goes to one of the four places. -/
theorem take (hready : i ∈ c.run.queue.ready) (hunfailed : c.run.queue.failed i = false)
    {unsent : Nat} {worker : Option (List Nat)} {ordinary' resource' : List Nat}
    (hunsent : c.unsentResources = unsent + if needsResources c.run.queue i then 1 else 0)
    (hworker : worker.isSome = c.resourceWorker.isSome)
    (hplaces : ∀ j, (j ∈ worker.getD [] ∨ j ∈ ordinary' ∨ j ∈ resource') ↔
      j = i ∨ (j ∈ c.held ∨ j ∈ ordinary ∨ j ∈ resource))
    (hheld : ∀ j ∈ worker.getD [], j ∈ c.held ∨ (j = i ∧ needsResources c.run.queue i = true ∧
      resource' = resource)) (hordinary : ordinary' = ordinary ∨
      (ordinary' = ordinary ++ [i] ∧ needsResources c.run.queue i = false))
    (hresource : resource' = resource ∨
      (resource' = resource ++ [i] ∧ needsResources c.run.queue i = true)) :
    LoopInv { c with run := c.run.take i, unsentResources := unsent, resourceWorker := worker }
      ordinary' resource' := by
  obtain ⟨hlt, hnew, hdispatched⟩ := h.ready_lt hready
  -- what is ready is in none of the places
  have hfresh : ¬(i ∈ c.workers ∨ i ∈ c.held ∨ i ∈ ordinary ∨ i ∈ resource) := by
    rw [← h.inflight]
    exact fun hi => hdispatched hi.1
  simp only [not_or] at hfresh
  obtain ⟨hnotWorkers, hnotHeld, hnotOrdinary, hnotResource⟩ := hfresh
  constructor
  case run => exact h.run.take hready
  case unfailed =>
    exact List.forall_mem_cons.mpr ⟨hunfailed, h.unfailed⟩
  case inflight =>
    intro j
    show (j ∈ i :: c.run.dispatched ∧ j ∉ c.run.done) ↔ j ∈ c.workers ∨ j ∈ worker.getD [] ∨ _
    rw [hplaces j, List.mem_cons]
    have hold := h.inflight j
    constructor
    · rintro ⟨rfl | hj, hjnew⟩
      · exact Or.inr (Or.inl rfl)
      · rcases hold.mp ⟨hj, hjnew⟩ with hw | hplace
        · exact Or.inl hw
        · exact Or.inr (Or.inr hplace)
    · rintro (hw | rfl | hplace)
      · obtain ⟨hj, hjnew⟩ := hold.mpr (Or.inl hw)
        exact ⟨Or.inr hj, hjnew⟩
      · exact ⟨Or.inl rfl, hnew⟩
      · obtain ⟨hj, hjnew⟩ := hold.mpr (Or.inr hplace)
        exact ⟨Or.inr hj, hjnew⟩
  case ordinary_nodup => exact nodup_of_concat hordinary h.ordinary_nodup hnotOrdinary
  case resource_nodup => exact nodup_of_concat hresource h.resource_nodup hnotResource
  case ordinary_not_workers =>
    intro j hj
    rcases mem_of_concat hordinary hj with hj | ⟨rfl, -⟩
    · exact h.ordinary_not_workers j hj
    · exact hnotWorkers
  case resource_not_held =>
    intro j hj hnow
    rcases hheld j hnow with hjheld | ⟨rfl, _, rfl⟩
    · rcases mem_of_concat hresource hj with hj | ⟨rfl, -⟩
      · exact h.resource_not_held j hj hjheld
      · exact hnotHeld hjheld
    · exact hnotResource hj
  case workers_plain => exact h.workers_plain
  case ordinary_plain =>
    intro j hj
    rcases mem_of_concat hordinary hj with hj | ⟨rfl, hplain⟩
    · exact h.ordinary_plain j hj
    · exact hplain
  case held_resource =>
    intro j hj
    rcases hheld j hj with hj | ⟨rfl, hneeds, _⟩
    · exact h.held_resource j hj
    · exact hneeds
  case resource_resource =>
    intro j hj
    rcases mem_of_concat hresource hj with hj | ⟨rfl, hneeds⟩
    · exact h.resource_resource j hj
    · exact hneeds
  case unsent =>
    have hcount := unstartedResources_take h.run hready
    have hold := h.unsent
    show unsent = unstartedResources (c.run.take i)
    omega
  case sender => exact fun hs => hworker ▸ h.sender hs
  case closed =>
    intro hw hs
    have hzero := h.closed (hworker ▸ hw) hs
    show unsent = 0
    omega

end

end LoopInv

/-! ## What an input may publish -/

/-- Everything an iteration publishes with this input is allowed by `publishing`. -/
structure TickInput.Publishes (publishing : Publishing) (input : TickInput)
    (sourceFailure : Option String) : Prop where
  unstarted : ∀ s i conclusion reason,
    unstartedReason (input.cancelled i) (s.queue.failed i) sourceFailure =
      some (conclusion, reason) → publishing s i conclusion
  blocked : ∀ message, input.precondition = .error message → ∀ s i, publishing s i .blocked
  resource : ∀ i conclusion source acknowledged,
    .resource i conclusion source acknowledged ∈ input.outcomes →
      ∀ s, s.queue.failed i = false → publishing s i conclusion
  ordinary : ∀ i conclusion, .ordinary i (.ok conclusion) ∈ input.outcomes →
    ∀ s, s.queue.failed i = false → publishing s i (input.enforce i conclusion)

/-! ## The pass -/

/-- The invariant of a pass that started in `c`, with the ready indices still to be visited. -/
structure PassInv (publishing : Publishing) (c : Coordinator) (rest : List Nat) (pass : Pass) :
    Prop where
  loop : LoopInv pass.coordinator pass.ordinary pass.resourceTargets
  fresh : pass.resourceTargets ≠ [] → pass.coordinator.resourceWorker = none
  rest_nodup : rest.Nodup
  rest_ready : ∀ i ∈ rest, i ∈ pass.coordinator.run.queue.ready
  steps : Steps publishing c.run pass.coordinator.run
  sourceFailure : pass.coordinator.sourceFailure = c.sourceFailure

section Pass

variable {pass : Pass} {rest : List Nat}

section

variable (h : PassInv publishing c (i :: rest) pass)

include h

theorem PassInv.rest_ready_take :
    ∀ j ∈ rest, j ∈ (pass.coordinator.run.take i).queue.ready := by
  intro j hj
  show j ∈ pass.coordinator.run.queue.ready.erase i
  rw [mem_treeSet_erase]
  refine ⟨?_, h.rest_ready j (List.mem_cons_of_mem i hj)⟩
  intro hij
  exact (List.nodup_cons.mp h.rest_nodup).1 (hij ▸ hj)

theorem PassInv.steps_take (hunfailed : pass.coordinator.run.queue.failed i = false) :
    Steps publishing c.run (pass.coordinator.run.take i) :=
  h.steps.tail (.take (h.rest_ready i List.mem_cons_self) hunfailed)

theorem finishUnstarted_ensures (hpublishing : publishing pass.coordinator.run i conclusion) :
    Ensures (pass.finishUnstarted input i conclusion) (PassInv publishing c rest)
      input.Failure := by
  have hready := h.rest_ready i List.mem_cons_self
  obtain ⟨hlt, hnew, hdispatched⟩ := h.loop.ready_lt hready
  unfold Pass.finishUnstarted
  apply Ensures.ite
  · -- the accounting covers every resource target that is still ready
    intro hunderflow
    have hcount := unstartedResources_take h.loop.run hready
    have hunsent := h.loop.unsent
    omega
  · intro _
    apply (publishTarget_ensures h.loop.run (Or.inl hready) hnew hpublishing).bind
    intro s' hpub
    refine ⟨h.loop.publish_unstarted hpub hready, h.fresh, (List.nodup_cons.mp h.rest_nodup).2, ?_,
      h.steps.tail hpub.step, h.sourceFailure⟩
    intro j hj
    apply hpub.ready j (h.rest_ready j (List.mem_cons_of_mem i hj))
    intro hji
    exact (List.nodup_cons.mp h.rest_nodup).1 (hji ▸ hj)

theorem dispatchResourceCandidate_ensures (hunfailed : pass.coordinator.run.queue.failed i = false)
    (hneeds : needsResources pass.coordinator.run.queue i = true) :
    Ensures (pass.dispatchResourceCandidate input i) (PassInv publishing c rest)
      input.Failure := by
  have hready := h.rest_ready i List.mem_cons_self
  have hcount := unstartedResources_take h.loop.run hready
  rw [hneeds, if_pos rfl, ← h.loop.unsent] at hcount
  unfold Pass.dispatchResourceCandidate
  cases hunsent : pass.coordinator.unsentResources with
  | zero => omega
  | succ unsent =>
      have hunsent' : pass.coordinator.unsentResources =
          unsent + if needsResources pass.coordinator.run.queue i then 1 else 0 := by
        rw [hneeds, hunsent]
        rfl
      simp only [hunsent]
      apply Ensures.ite
      · intro hsender
        apply Ensures.ite
        · intro _
          obtain ⟨held, hheld⟩ := Option.isSome_iff_exists.mp (h.loop.sender hsender)
          have hempty : pass.resourceTargets = [] := by
            by_contra hne
            rw [h.fresh hne] at hheld
            cases hheld
          refine ⟨?_, ?_, (List.nodup_cons.mp h.rest_nodup).2, h.rest_ready_take,
            h.steps_take hunfailed, h.sourceFailure⟩
          · apply h.loop.take hready hunfailed hunsent'
            · rw [Option.isSome_map]
            · intro j
              simp only [hheld, Option.map_some, Option.getD_some, Coordinator.held,
                List.mem_append, List.mem_singleton]
              tauto
            · intro j hj
              simp only [hheld, Option.map_some, Option.getD_some, List.mem_append,
                List.mem_singleton] at hj
              rcases hj with hj | rfl
              · left
                rw [Coordinator.held, hheld]
                exact hj
              · exact Or.inr ⟨rfl, hneeds, rfl⟩
            · exact Or.inl rfl
            · exact Or.inl rfl
          · intro hne
            exact absurd hempty hne
        · intro hsend
          exact .send (by simpa using hsend)
      · -- without an open channel there is no worker either, since the target is still unsent
        intro hsender
        have hworker : pass.coordinator.resourceWorker = none := by
          by_contra hsome
          have hzero := h.loop.closed (Option.isSome_iff_ne_none.mpr hsome) (by simpa using hsender)
          omega
        refine ⟨?_, fun _ => hworker, (List.nodup_cons.mp h.rest_nodup).2, h.rest_ready_take,
          h.steps_take hunfailed, h.sourceFailure⟩
        apply h.loop.take hready hunfailed hunsent' rfl
        · intro j
          simp only [Coordinator.held, List.mem_append, List.mem_singleton]
          tauto
        · exact fun j hj => Or.inl hj
        · exact Or.inl rfl
        · exact Or.inr ⟨rfl, hneeds⟩

end

theorem visit_ensures (hinput : input.Publishes publishing c.sourceFailure)
    (h : PassInv publishing c (i :: rest) pass) :
    Ensures (pass.visit input i) (PassInv publishing c rest) input.Failure := by
  have hready := h.rest_ready i List.mem_cons_self
  unfold Pass.visit
  cases hreason : unstartedReason (input.cancelled i) (pass.coordinator.run.queue.failed i)
      pass.coordinator.sourceFailure with
  | some stop =>
      simp only [hreason]
      apply finishUnstarted_ensures h
      rw [h.sourceFailure] at hreason
      exact hinput.unstarted _ i stop.1 stop.2 hreason
  | none =>
      have hunfailed : pass.coordinator.run.queue.failed i = false := by
        cases hfailed : pass.coordinator.run.queue.failed i with
        | false => rfl
        | true =>
            rw [hfailed] at hreason
            unfold unstartedReason at hreason
            split at hreason <;> simp at hreason
      simp only [hreason]
      apply Ensures.ite
      · exact dispatchResourceCandidate_ensures h hunfailed
      · intro hneeds
        have hplain : needsResources pass.coordinator.run.queue i = false := by simpa using hneeds
        apply Ensures.ite
        · intro _
          refine ⟨?_, h.fresh, (List.nodup_cons.mp h.rest_nodup).2, h.rest_ready_take,
            h.steps_take hunfailed, h.sourceFailure⟩
          apply h.loop.take hready hunfailed (by rw [hplain]; rfl) rfl
          · intro j
            simp only [Coordinator.held, List.mem_append, List.mem_singleton]
            tauto
          · exact fun j hj => Or.inl hj
          · exact Or.inr ⟨rfl, hplain⟩
          · exact Or.inl rfl
        · -- no slot is free, and the target stays ready
          intro _
          exact ⟨h.loop, h.fresh, (List.nodup_cons.mp h.rest_nodup).2,
            fun j hj => h.rest_ready j (List.mem_cons_of_mem i hj), h.steps, h.sourceFailure⟩

theorem pass_ensures (hinput : input.Publishes publishing c.sourceFailure) (h : LoopInv c [] []) :
    Ensures (c.pass input) (PassInv publishing c []) input.Failure := by
  apply Ensures.foldlM (PassInv publishing c)
  · exact ⟨h, fun hne => absurd rfl hne, treeSet_toList_nodup _,
      fun i hi => ExtTreeSet.mem_toList.mp hi, .refl, rfl⟩
  · intro j rest' pass' hpass
    exact visit_ensures hinput hpass

end Pass

/-! ## Launching -/

section Launch

variable {pass : Pass}

theorem blockAdmitted_ensures {message : String} (hinput : input.Publishes publishing c.sourceFailure)
    (hmessage : input.precondition = .error message) (h : PassInv publishing c [] pass) :
    Ensures (pass.blockAdmitted input message)
      (fun c' => LoopInv c' [] [] ∧ Steps publishing c.run c'.run) input.Failure := by
  have hloop : ∀ (l : List Nat) (run : DispatchState) (ordinary resource : List Nat),
      l = ordinary ++ resource → LoopInv { pass.coordinator with run } ordinary resource →
      Steps publishing c.run run →
      Ensures (l.foldlM (fun run index => publishTarget input.record run index .blocked) run)
        (fun run => LoopInv { pass.coordinator with run } [] [] ∧ Steps publishing c.run run)
        input.Failure := by
    intro l
    induction l with
    | nil =>
        intro run ordinary resource hl hinv hsteps
        obtain ⟨rfl, rfl⟩ := List.append_eq_nil_iff.mp hl.symm
        exact ⟨hinv, hsteps⟩
    | cons i l ih =>
        intro run ordinary resource hl hinv hsteps
        rw [List.foldlM_cons]
        have hmem : i ∈ ordinary ∨ i ∈ resource := by
          rw [← List.mem_append, ← hl]
          exact List.mem_cons_self
        obtain ⟨hdispatched, hnew, -, -⟩ := hinv.entered (Or.inr (Or.inr hmem))
        apply (publishTarget_ensures hinv.run (Or.inr hdispatched) hnew
          (hinput.blocked message hmessage run i)).bind
        intro run' hpub
        -- the target is the first ordinary one, or, when none is left, the first resource one
        cases ordinary with
        | cons i' ordinary =>
            obtain ⟨rfl, hl'⟩ := List.cons.inj hl
            exact ih run' ordinary resource hl' (hinv.publish_ordinary hpub) (hsteps.tail hpub.step)
        | nil =>
            rw [List.nil_append] at hl
            subst hl
            exact ih run' [] l rfl (hinv.publish_resource hpub) (hsteps.tail hpub.step)
  unfold Pass.blockAdmitted
  apply (hloop _ _ pass.ordinary pass.resourceTargets rfl h.loop h.steps).bind
  intro run hrun
  exact ⟨hrun.1.setSourceFailure (some message), hrun.2⟩

theorem mem_insertMany_iff {s : ExtTreeSet Nat} : j ∈ s.insertMany l ↔ j ∈ s ∨ j ∈ l := by
  rw [ExtTreeSet.mem_insertMany_list, List.contains_iff_mem]

/-- Launching hands every admitted target to a worker. -/
theorem launch_inv (h : PassInv publishing c [] pass) : LoopInv pass.launch [] [] := by
  have hheld : ∀ j, j ∈ pass.launch.held ↔ j ∈ pass.coordinator.held ∨ j ∈ pass.resourceTargets := by
    intro j
    show j ∈ (if pass.resourceTargets.isEmpty then pass.coordinator.resourceWorker
      else some pass.resourceTargets).getD [] ↔ _
    -- new resource targets are kept only while there is no resource worker
    cases hres : pass.resourceTargets with
    | nil => simp [Coordinator.held]
    | cons a l =>
        have hnone := h.fresh (by rw [hres]; exact List.cons_ne_nil a l)
        simp [Coordinator.held, hnone]
  have hworkers : ∀ j, j ∈ pass.launch.workers ↔ j ∈ pass.coordinator.workers ∨ j ∈ pass.ordinary :=
    fun j => mem_insertMany_iff
  constructor
  case run => exact h.loop.run
  case unfailed => exact h.loop.unfailed
  case inflight =>
    intro j
    refine (h.loop.inflight j).trans ?_
    rw [hheld, hworkers]
    have hnil : j ∉ ([] : List Nat) := List.not_mem_nil
    tauto
  case ordinary_nodup => exact List.nodup_nil
  case resource_nodup => exact List.nodup_nil
  case ordinary_not_workers => exact fun _ hj => nomatch hj
  case resource_not_held => exact fun _ hj => nomatch hj
  case workers_plain =>
    intro j hj
    rcases (hworkers j).mp hj with hj | hj
    · exact h.loop.workers_plain j hj
    · exact h.loop.ordinary_plain j hj
  case ordinary_plain => exact fun _ hj => nomatch hj
  case held_resource =>
    intro j hj
    rcases (hheld j).mp hj with hj | hj
    · exact h.loop.held_resource j hj
    · exact h.loop.resource_resource j hj
  case resource_resource => exact fun _ hj => nomatch hj
  case unsent => exact h.loop.unsent
  case sender =>
    intro hsender
    show (if pass.resourceTargets.isEmpty then pass.coordinator.resourceWorker
      else some pass.resourceTargets).isSome = true
    change ((pass.coordinator.resourceSender || !pass.resourceTargets.isEmpty) && _) = true at hsender
    rw [Bool.and_eq_true, Bool.or_eq_true] at hsender
    cases hres : pass.resourceTargets with
    | nil =>
        rw [hres] at hsender
        apply h.loop.sender
        simpa using hsender.1
    | cons a l => rfl
  case closed =>
    intro hworker hsender
    show pass.coordinator.unsentResources = 0
    change (if pass.resourceTargets.isEmpty then pass.coordinator.resourceWorker
      else some pass.resourceTargets).isSome = true at hworker
    change ((pass.coordinator.resourceSender || !pass.resourceTargets.isEmpty) &&
      pass.coordinator.unsentResources != 0) = false at hsender
    cases hres : pass.resourceTargets with
    | nil =>
        rw [hres] at hworker hsender
        by_cases hzero : pass.coordinator.unsentResources = 0
        · exact hzero
        · apply h.loop.closed hworker
          simpa [hzero] using hsender
    | cons a l =>
        rw [hres] at hsender
        simpa using hsender

/-- As long as targets are unfinished, one is ready or in flight: the first unpublished one has all
its dependencies published. -/
theorem DispatchInv.exists_entered (h : DispatchInv s) (hunfinished : s.queue.unfinished ≠ 0) :
    ∃ i, i ∈ s.queue.ready ∨ (i ∈ s.dispatched ∧ i ∉ s.done) := by
  have hexists : ∃ i, i < s.queue.targets.length ∧ i ∉ s.done := by
    by_contra hnone
    have hsub : (List.range s.queue.targets.length).Subperm s.done := by
      apply List.subperm_of_subset List.nodup_range
      intro i hi
      by_contra hnew
      exact hnone ⟨i, List.mem_range.mp hi, hnew⟩
    have hlength := hsub.length_le
    rw [List.length_range] at hlength
    have := h.unfinished
    omega
  classical
  obtain ⟨hlt, hnew⟩ := Nat.find_spec hexists
  refine ⟨Nat.find hexists, (h.ready _).mpr ⟨hlt, hnew, ?_⟩⟩
  intro d hd
  by_contra hdnew
  have hdlt := h.wellFormed.deps_lt _ d hd
  exact Nat.find_min hexists hdlt ⟨Nat.lt_trans hdlt hlt, hdnew⟩

structure TickInput.SourceQuiet (input : TickInput) : Prop where
  precondition : input.precondition = .ok ()
  postcondition : input.postcondition = none
  resource : ∀ i conclusion source acknowledged,
    .resource i conclusion source acknowledged ∈ input.outcomes → source = none

def Admitted.Sound (publishing : Publishing) (input : TickInput) (c : Coordinator)
    (admitted : Admitted) : Prop :=
  match admitted with
  | .retry c' | .wait c' => LoopInv c' [] [] ∧ Steps publishing c.run c'.run ∧
      (input.SourceQuiet → c'.sourceFailure = c.sourceFailure)
  | .finished c' => LoopInv c' [] [] ∧ Steps publishing c.run c'.run ∧
      c'.run.queue.unfinished = 0

/-- **Admission.** In particular the stuck-schedule error is not among the failures. -/
theorem admission_ensures (hinput : input.Publishes publishing c.sourceFailure)
    (h : LoopInv c [] []) :
    Ensures (c.admission input) (Admitted.Sound publishing input c) input.Failure := by
  unfold Coordinator.admission
  apply (pass_ensures hinput h).bind
  intro pass hpass
  have hlaunched : Ensures (if pass.launch.workers.isEmpty && pass.launch.resourceWorker.isNone then
        if pass.launch.run.queue.unfinished = 0 then .ok (.finished pass.launch)
        else if !pass.launch.run.queue.ready.isEmpty then .ok (.retry pass.launch)
        else .error (.bail stuckMessage)
      else .ok (.wait pass.launch)) (Admitted.Sound publishing input c) input.Failure := by
    have hinv := launch_inv hpass
    have hsteps : Steps publishing c.run pass.launch.run := hpass.steps
    have hsource : input.SourceQuiet → pass.launch.sourceFailure = c.sourceFailure :=
      fun _ => hpass.sourceFailure
    apply Ensures.ite
    · intro hidle
      apply Ensures.ite
      · intro hunfinished
        exact ⟨hinv, hsteps, hunfinished⟩
      · intro hunfinished
        apply Ensures.ite
        · intro _
          exact ⟨hinv, hsteps, hsource⟩
        · -- nothing in flight and nothing ready: then everything is published
          intro hready
          exfalso
          rw [Bool.and_eq_true, Option.isNone_iff_eq_none] at hidle
          obtain ⟨hworkers, hresources⟩ := hidle
          rcases hinv.run.exists_entered hunfinished with ⟨i, hi | hi⟩
          · apply hready
            rw [Bool.not_eq_true', ← Bool.not_eq_true]
            intro hempty
            exact ExtTreeSet.isEmpty_iff.mp hempty ▸ hi |> ExtTreeSet.not_mem_empty
          · rcases (hinv.inflight i).mp hi with hi | hi | hi | hi
            · exact ExtTreeSet.isEmpty_iff.mp hworkers ▸ hi |> ExtTreeSet.not_mem_empty
            · rw [Coordinator.held, hresources] at hi
              cases hi
            · cases hi
            · cases hi
    · intro _
      exact ⟨hinv, hsteps, hsource⟩
  split
  · rename_i message _ hprecondition
    apply (blockAdmitted_ensures hinput hprecondition hpass).bind
    intro c' hc'
    refine ⟨hc'.1, hc'.2, ?_⟩
    intro hquiet
    rw [hquiet.precondition] at hprecondition
    cases hprecondition
  · exact hlaunched

end Launch

/-! ## Receiving -/

section Receive

/-- The invariant of a batch received in `c`. -/
structure BatchInv (publishing : Publishing) (input : TickInput) (c : Coordinator)
    (batch : Batch) : Prop where
  loop : LoopInv batch.coordinator (batch.ordinary.map Prod.fst) []
  steps : Steps publishing c.run batch.coordinator.run
  received : ∀ completion ∈ batch.ordinary,
    .ordinary completion.1 (.ok completion.2) ∈ input.outcomes
  sourceFailure : input.SourceQuiet → batch.coordinator.sourceFailure = c.sourceFailure

variable {sourceFailure : Option String}

section

variable (hinput : input.Publishes publishing sourceFailure)

include hinput

theorem accept_ensures {batch : Batch}
    (h : BatchInv publishing input c batch) {o : Outcome} (ho : o ∈ input.outcomes)
    (hadmissible : o.Admissible batch.coordinator) :
    Ensures (batch.accept input o) (BatchInv publishing input c) input.Failure := by
  cases o with
  | ordinary i execution =>
      unfold Batch.accept
      apply Ensures.ite
      · -- outcomes come from workers that run
        intro hmissing
        exact absurd hadmissible hmissing
      · intro _
        cases execution with
        | error message => exact .execution ho
        | ok conclusion =>
            refine ⟨?_, h.steps, ?_, h.sourceFailure⟩
            · rw [List.map_append]
              exact h.loop.receive_ordinary hadmissible
            · exact forall_mem_concat h.received ho
  | resource i conclusion source acknowledged =>
      obtain ⟨held, hworker, hi⟩ := hadmissible
      have hheld : i ∈ batch.coordinator.held := by
        rw [Coordinator.held, hworker]
        exact hi
      obtain ⟨hdispatched, hnew, -, hunfailed⟩ := h.loop.entered (Or.inr (Or.inl hheld))
      unfold Batch.accept
      apply (publishTarget_ensures h.loop.run (Or.inr hdispatched) hnew
        (hinput.resource i conclusion source acknowledged ho _ hunfailed)).bind
      intro run' hpub
      apply Ensures.ite
      · intro _
        refine ⟨(h.loop.publish_held hheld hpub).setSourceFailure _, h.steps.tail hpub.step,
          h.received, ?_⟩
        intro hquiet
        show (batch.coordinator.sourceFailure <|> source) = c.sourceFailure
        rw [hquiet.resource i conclusion source acknowledged ho, h.sourceFailure hquiet]
        cases c.sourceFailure <;> rfl
      · intro hack
        have hfalse : acknowledged = false := by simpa using hack
        rw [hfalse] at ho
        exact .acknowledgment ho
  | resourcesFinished result =>
      obtain ⟨held, hworker, hfinished⟩ := hadmissible
      unfold Batch.accept
      simp only [hworker]
      cases result with
      | error message => exact .resources ho
      | ok _ =>
          obtain ⟨hempty, _⟩ := hfinished rfl
          have hheld : batch.coordinator.held = [] := by
            rw [Coordinator.held, hworker]
            exact hempty
          exact ⟨h.loop.finish_resources hheld, h.steps, h.received, h.sourceFailure⟩

theorem accept_batch_ensures
    (h : LoopInv c [] []) (hadmissible : AdmissibleBatch input ⟨c, []⟩ input.outcomes) :
    Ensures (input.outcomes.foldlM (Batch.accept input) ⟨c, []⟩) (BatchInv publishing input c)
      input.Failure := by
  -- besides the invariant, the motive remembers how the batch so far came about
  have hloop : Ensures (input.outcomes.foldlM (Batch.accept input) ⟨c, []⟩)
      (fun batch => BatchInv publishing input c batch ∧ ∃ done, input.outcomes = done ++ [] ∧
        done.foldlM (Batch.accept input) ⟨c, []⟩ = .ok batch) input.Failure := by
    apply Ensures.foldlM (fun (rest : List Outcome) (batch : Batch) =>
      BatchInv publishing input c batch ∧ ∃ done : List Outcome, input.outcomes = done ++ rest ∧
        done.foldlM (Batch.accept input) ⟨c, []⟩ = .ok batch)
    · refine ⟨⟨h, .refl, ?_, fun _ => rfl⟩, [], rfl, rfl⟩
      intro completion hcompletion
      cases hcompletion
    · rintro o rest batch ⟨hbatch, done, hsplit, hdone⟩
      have ho : o ∈ input.outcomes := by
        rw [hsplit]
        exact List.mem_append_right done List.mem_cons_self
      have haccept := accept_ensures hinput hbatch ho (hadmissible done o rest batch hsplit hdone)
      cases hresult : batch.accept input o with
      | error e => exact haccept.of_eq_error hresult
      | ok batch' =>
          refine ⟨haccept.of_eq_ok hresult, done ++ [o], by rw [hsplit]; simp, ?_⟩
          rw [foldlM_concat_eq_ok]
          exact ⟨batch, hdone, hresult⟩
  exact hloop.mono fun batch hbatch => hbatch.1

theorem publishOrdinary_ensures {batch : Batch}
    (h : BatchInv publishing input c batch) :
    Ensures (publishOrdinary input batch.coordinator.run batch.ordinary)
      (fun run => LoopInv { batch.coordinator with run } [] [] ∧ Steps publishing c.run run)
      input.Failure := by
  refine (Ensures.foldlM (fun (rest : List (Nat × RunConclusion)) (run : DispatchState) =>
    (∀ completion ∈ rest, completion ∈ batch.ordinary) ∧
      LoopInv { batch.coordinator with run } (rest.map Prod.fst) [] ∧
        Steps publishing c.run run) ?_ ?_).mono fun run hrun => hrun.2
  · exact ⟨fun _ hcompletion => hcompletion, h.loop, h.steps⟩
  · rintro ⟨i, conclusion⟩ rest run ⟨hsub, hinv, hsteps⟩
    have hfirst := h.received _ (hsub _ List.mem_cons_self)
    obtain ⟨hdispatched, hnew, -, hunfailed⟩ :=
      hinv.entered (Or.inr (Or.inr (Or.inl List.mem_cons_self)))
    apply (publishTarget_ensures hinv.run (Or.inr hdispatched) hnew
      (hinput.ordinary i conclusion hfirst run hunfailed)).mono
    intro run' hpub
    exact ⟨fun completion hcompletion => hsub completion (List.mem_cons_of_mem _ hcompletion),
      hinv.publish_ordinary hpub, hsteps.tail hpub.step⟩

theorem receive_ensures (h : LoopInv c [] [])
    (hadmissible : AdmissibleBatch input ⟨c, []⟩ input.outcomes) :
    Ensures (c.receive input) (fun c' => LoopInv c' [] [] ∧ Steps publishing c.run c'.run ∧
      (input.SourceQuiet → c'.sourceFailure = c.sourceFailure)) input.Failure := by
  unfold Coordinator.receive
  cases hflush : input.flush with
  | error message => exact .flush hflush
  | ok _ =>
      apply (accept_batch_ensures hinput h hadmissible).bind
      intro batch hbatch
      apply (publishOrdinary_ensures hinput hbatch).bind
      intro run hrun
      refine ⟨hrun.1.setSourceFailure _, hrun.2, ?_⟩
      intro hquiet
      show (if batch.ordinary.isEmpty then batch.coordinator.sourceFailure
        else batch.coordinator.sourceFailure <|> input.postcondition) = c.sourceFailure
      rw [hquiet.postcondition, hbatch.sourceFailure hquiet]
      split
      · rfl
      · cases c.sourceFailure <;> rfl

end

/-! ## The iteration -/

/-- What an iteration guarantees. -/
def Tick.Sound (publishing : Publishing) (input : TickInput) (c : Coordinator) (tick : Tick) :
    Prop :=
  match tick with
  | .next c' => LoopInv c' [] [] ∧ Steps publishing c.run c'.run ∧
      (input.SourceQuiet → c'.sourceFailure = c.sourceFailure)
  | .finished c' => LoopInv c' [] [] ∧ Steps publishing c.run c'.run ∧
      c'.run.queue.unfinished = 0

/-- **One iteration.** It keeps the invariant, performs a run of the queue, and fails only with an
error of its inputs. -/
theorem tick_ensures (hinput : input.Publishes publishing c.sourceFailure) (h : LoopInv c [] [])
    (hadmissible : input.Admissible c) :
    Ensures (c.tick input) (Tick.Sound publishing input c) input.Failure := by
  unfold Coordinator.tick
  apply Ensures.ite
  · intro hdone
    rw [Bool.and_eq_true, decide_eq_true_eq] at hdone
    exact ⟨h, .refl, hdone.1⟩
  · intro _
    have hadmission := admission_ensures hinput h
    cases hresult : c.admission input with
    | error e => exact hadmission.of_eq_error hresult
    | ok admitted =>
        have hsound := hadmission.of_eq_ok hresult
        cases admitted with
        | retry c' => exact hsound
        | finished c' => exact hsound
        | wait c' =>
            obtain ⟨hinv, hsteps, hsource⟩ := hsound
            apply (receive_ensures hinput hinv (hadmissible c' hresult)).bind
            intro c'' hc''
            obtain ⟨hinv', hsteps', hsource'⟩ := hc''
            exact ⟨hinv', hsteps.trans hsteps',
              fun hquiet => (hsource' hquiet).trans (hsource hquiet)⟩

end Receive

end Jig.Runtime

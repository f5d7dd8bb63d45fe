import Jig.Runtime.DispatcherProgress

/-!
# The ready queue and the plan

The invariants of the queue and of the loop, read back in terms of the plan: which entries of
`depends_on` are still open, which targets wait, and what has been published. Publications are named
by target here (`DispatchState.results`) and no longer by index.
-/

namespace Jig.Runtime

open Contract Lib State

namespace DispatchState

def results (s : DispatchState) : List (TargetId × RunConclusion) :=
  s.published.filterMap fun entry =>
    (s.queue.targets[entry.1]?).map fun target => (target.1.target, entry.2)

def publishedTargets (s : DispatchState) : List TargetId :=
  s.results.map Prod.fst

end DispatchState

/-! ## Indices and targets -/

variable {target : PositionedTarget} {i : Nat} {s : DispatchState} {d : TargetId}
  {targets : List PositionedTarget} {queue : ReadyQueue}

section Names

theorem getElem?_targetIds : (targetIds targets)[i]? = (targets[i]?).map (·.1.target) := by
  unfold targetIds
  rw [List.getElem?_map]

/-- A target is published under the index it has in the queue. -/
theorem DispatchInv.mem_results (h : DispatchInv s) (hi : s.queue.targets[i]? = some target)
    {conclusion : RunConclusion} :
    (target.1.target, conclusion) ∈ s.results ↔ (i, conclusion) ∈ s.published := by
  have hid : (targetIds s.queue.targets)[i]? = some target.1.target := by
    rw [getElem?_targetIds, hi]
    rfl
  unfold DispatchState.results
  rw [List.mem_filterMap]
  constructor
  · intro hmem
    obtain ⟨⟨j, conclusion'⟩, hpublished, hj⟩ := hmem
    obtain ⟨other, hother, hpair⟩ := Option.map_eq_some_iff.mp hj
    obtain ⟨hsame, rfl⟩ := Prod.mk.inj hpair
    have hjd : (targetIds s.queue.targets)[j]? = some target.1.target := by
      rw [getElem?_targetIds, hother, ← hsame]
      rfl
    -- ids are distinct, so equal ids stand at equal indices
    have hji : i = j := by
      have hlt : i < (targetIds s.queue.targets).length := (List.getElem?_eq_some_iff.mp hid).1
      exact (List.getElem?_inj hlt h.wellFormed.ids_nodup).mp (hid.trans hjd.symm)
    rw [hji]
    exact hpublished
  · intro hpublished
    exact ⟨(i, conclusion), hpublished, by simp only [hi, Option.map_some]⟩

theorem DispatchInv.mem_publishedTargets (h : DispatchInv s)
    (hi : s.queue.targets[i]? = some target) :
    target.1.target ∈ s.publishedTargets ↔ i ∈ s.done := by
  rw [DispatchInv.mem_done, DispatchState.publishedTargets, List.mem_map]
  constructor
  · intro hmem
    obtain ⟨⟨_, conclusion⟩, hresult, rfl⟩ := hmem
    exact ⟨conclusion, (h.mem_results hi).mp hresult⟩
  · intro hmem
    obtain ⟨conclusion, hpublished⟩ := hmem
    exact ⟨_, (h.mem_results hi).mpr hpublished, rfl⟩

theorem publishedTargets_eq (s : DispatchState) :
    s.publishedTargets = s.done.filterMap ((targetIds s.queue.targets)[·]?) := by
  simp only [DispatchState.publishedTargets, DispatchState.results, DispatchState.done,
    List.map_filterMap, List.filterMap_map, Option.map_map, getElem?_targetIds]
  rfl

theorem DispatchInv.publishedTargets_nodup (h : DispatchInv s) : s.publishedTargets.Nodup := by
  rw [publishedTargets_eq]
  apply List.Nodup.filterMap _ h.done_nodup
  intro i j id hi hj
  have hlt : i < (targetIds s.queue.targets).length := (List.getElem?_eq_some_iff.mp hi).1
  exact (List.getElem?_inj hlt h.wellFormed.ids_nodup).mp (hi.trans hj.symm)

theorem DispatchInv.publishedTargets_length (h : DispatchInv s) :
    s.publishedTargets.length = s.done.length := by
  rw [publishedTargets_eq, List.filterMap_length_eq_length]
  intro i hi
  have hlt : i < (targetIds s.queue.targets).length := by
    simpa [targetIds] using h.done_lt i hi
  rw [List.getElem?_eq_getElem hlt]
  rfl

theorem publishedTargets_subset (s : DispatchState) :
    s.publishedTargets ⊆ targetIds s.queue.targets := by
  intro id hid
  rw [publishedTargets_eq, List.mem_filterMap] at hid
  obtain ⟨i, _, hi⟩ := hid
  exact List.mem_of_getElem? hi

end Names

/-! ## The tables, read against the plan -/

/-- A run of the queue that was built for `plan`. -/
structure RunOf (plan : RunPlan) (s : DispatchState) : Prop where
  ids : targetIds s.queue.targets = plan.executionLayers.flatten
  planned : ∀ target ∈ s.queue.targets, target.1 ∈ plan.targets

/-- The state of a queue says exactly what is open in the plan. -/
structure TablesExact (plan : RunPlan) (s : DispatchState) : Prop where
  /-- `remaining_dependencies[i]` counts the entries of `depends_on` that are not published. -/
  remaining : ∀ (i : Nat) (target : PositionedTarget), s.queue.targets[i]? = some target →
    s.queue.remainingDependencies[i]? =
      some (target.1.dependsOn.countP (· ∉ s.publishedTargets))
  /-- `failed_dependency[i]` tells whether a published dependency did not succeed. -/
  failed : ∀ (i : Nat) (target : PositionedTarget), s.queue.targets[i]? = some target →
    ∃ flag, s.queue.failedDependency[i]? = some flag ∧
      (flag = true ↔
        ∃ d ∈ target.1.dependsOn, ∃ conclusion, (d, conclusion) ∈ s.results ∧ conclusion ≠ .success)
  /-- Ready or in flight are the unpublished targets without an open dependency. -/
  ready : ∀ i, (i ∈ s.queue.ready ∨ (i ∈ s.dispatched ∧ i ∉ s.done)) ↔
    ∃ target : PositionedTarget, s.queue.targets[i]? = some target ∧
      target.1.target ∉ s.publishedTargets ∧ ∀ d ∈ target.1.dependsOn, d ∈ s.publishedTargets
  unfinished : s.queue.unfinished = plan.targets.countP (·.target ∉ s.publishedTargets)
  once : s.publishedTargets.Nodup
  planned : s.publishedTargets ⊆ plan.targets.map (·.target)
  /-- Publishing what is ready or in flight does not underflow any counter. -/
  publish : ∀ i, i ∈ s.queue.ready ∨ (i ∈ s.dispatched ∧ i ∉ s.done) → ∀ conclusion,
    ∃ queue, s.queue.publish i conclusion = .ok queue
  /-- As long as something is unpublished, something can be published. -/
  progress : s.queue.unfinished ≠ 0 →
    ∃ i, i ∈ s.queue.ready ∨ (i ∈ s.dispatched ∧ i ∉ s.done)

section Exact

variable {plan : RunPlan} {publishing : Publishing}

theorem exists_index (hd : d ∈ targetIds targets) :
    ∃ target, targets[(targetIds targets).idxOf d]? = some target ∧ target.1.target = d := by
  have hid : (targetIds targets)[(targetIds targets).idxOf d]? = some d := by
    rw [List.getElem?_eq_getElem (List.idxOf_lt_length_of_mem hd), List.getElem_idxOf]
  rw [getElem?_targetIds] at hid
  obtain ⟨target, htarget, hname⟩ := Option.map_eq_some_iff.mp hid
  exact ⟨target, htarget, hname⟩

theorem RunOf.dependency (h : RunOf plan s) (hplan : PlanStructure plan)
    (hi : s.queue.targets[i]? = some target) (hd : d ∈ target.1.dependsOn) :
    ∃ parent, s.queue.targets[(targetIds s.queue.targets).idxOf d]? = some parent ∧
      parent.1.target = d := by
  apply exists_index
  rw [h.ids]
  obtain ⟨k, _, ⟨layer, hlayer, hmem⟩, _, _⟩ :=
    hplan.dependency_earlier target.1 (h.planned target (List.mem_of_getElem? hi)) d hd
  exact List.mem_flatten.mpr ⟨layer, List.mem_of_getElem? hlayer, hmem⟩

theorem RunOf.run (h : RunOf plan s) (hinv : DispatchInv s) {s' : DispatchState}
    {taking : DispatchState → Nat → Prop}
    (hrun : Relation.ReflTransGen (DispatchStep taking publishing) s s') : RunOf plan s' := by
  have htargets := hinv.run_targets hrun
  exact ⟨by rw [htargets, h.ids], fun target htarget => h.planned target (htargets ▸ htarget)⟩

theorem deps_eq (hi : queue.targets[i]? = some target) :
    queue.deps i = target.1.dependsOn.map (targetIds queue.targets).idxOf := by
  simp only [ReadyQueue.deps, dependencyIndices, hi]

/-- A dependency is published when its index is. -/
theorem RunOf.mem_publishedTargets (h : RunOf plan s) (hplan : PlanStructure plan)
    (hinv : DispatchInv s) (hi : s.queue.targets[i]? = some target) (hd : d ∈ target.1.dependsOn) :
    d ∈ s.publishedTargets ↔ (targetIds s.queue.targets).idxOf d ∈ s.done := by
  obtain ⟨parent, hparent, hname⟩ := h.dependency hplan hi hd
  rw [← hinv.mem_publishedTargets hparent, hname]

theorem tablesExact (hplan : PlanStructure plan) (h : RunOf plan s) (hinv : DispatchInv s) :
    TablesExact plan s where
  remaining i target hi := by
    have hlt : i < s.queue.remainingDependencies.length := by
      rw [hinv.wellFormed.remaining_length]
      exact (List.getElem?_eq_some_iff.mp hi).1
    refine (getElem?_eq_some_getD 0 hlt).trans (congrArg some ((hinv.remaining i).trans ?_))
    rw [deps_eq hi, List.countP_map]
    apply List.countP_congr
    intro d hd
    simp only [Function.comp_apply, decide_eq_true_eq, h.mem_publishedTargets hplan hinv hi hd]
  failed i target hi := by
    have hlt : i < s.queue.failedDependency.length := by
      rw [hinv.wellFormed.failed_length]
      exact (List.getElem?_eq_some_iff.mp hi).1
    refine ⟨_, getElem?_eq_some_getD false hlt, (hinv.failed i).trans ?_⟩
    rw [deps_eq hi]
    simp only [List.mem_map, exists_exists_and_eq_and]
    refine exists_congr fun d => and_congr_right fun hd => exists_congr fun conclusion => ?_
    obtain ⟨parent, hparent, hname⟩ := h.dependency hplan hi hd
    rw [← hinv.mem_results hparent, hname]
  ready i := by
    rw [hinv.ready]
    constructor
    · intro hopen
      obtain ⟨hlt, hnew, hdeps⟩ := hopen
      have hi := List.getElem?_eq_getElem hlt
      refine ⟨_, hi, fun hmem => hnew ((hinv.mem_publishedTargets hi).mp hmem), ?_⟩
      intro d hd
      apply (h.mem_publishedTargets hplan hinv hi hd).mpr
      apply hdeps
      rw [deps_eq hi]
      exact List.mem_map_of_mem hd
    · intro hopen
      obtain ⟨target, hi, hnew, hdeps⟩ := hopen
      refine ⟨(List.getElem?_eq_some_iff.mp hi).1,
        fun hmem => hnew ((hinv.mem_publishedTargets hi).mpr hmem), ?_⟩
      intro k hk
      rw [deps_eq hi] at hk
      obtain ⟨d, hd, rfl⟩ := List.mem_map.mp hk
      exact (h.mem_publishedTargets hplan hinv hi hd).mp (hdeps d hd)
  unfinished := by
    -- both sides are the number of targets minus what is published
    have hsub : s.publishedTargets ⊆ plan.targets.map (·.target) := by
      intro id hid
      rw [← hplan.mem_layers, ← h.ids]
      exact publishedTargets_subset s hid
    have hcount := countP_notMem_add_length hplan.targets_nodup hinv.publishedTargets_nodup hsub
    rw [List.countP_map, hinv.publishedTargets_length, List.length_map] at hcount
    have hlength : s.queue.targets.length = plan.targets.length := by
      rw [← order_length hplan, ← h.ids, targetIds, List.length_map]
    have hsum := hinv.unfinished
    have hopen : s.queue.unfinished =
        plan.targets.countP ((fun id => decide (id ∉ s.publishedTargets)) ∘ (·.target)) := by omega
    exact hopen
  once := hinv.publishedTargets_nodup
  planned id hid := by
    rw [← hplan.mem_layers, ← h.ids]
    exact publishedTargets_subset s hid
  publish i hentered conclusion := by
    have hopen := (hinv.ready i).mp hentered
    obtain ⟨queue, hqueue, _⟩ := hinv.publish_ok (hentered.imp_right And.left) hopen.2.1 conclusion
    exact ⟨queue, hqueue⟩
  progress := hinv.exists_entered

end Exact

/-! ## The loop -/

theorem LoopInv.start (h : DispatchInv (.start queue)) :
    LoopInv (Coordinator.start queue) [] [] where
  run := h
  unfailed _ hi := nomatch hi
  inflight i := by
    show (i ∈ ([] : List Nat) ∧ _) ↔
      i ∈ (∅ : Std.ExtTreeSet Nat) ∨ i ∈ ([] : List Nat) ∨ i ∈ [] ∨ i ∈ []
    simp
  ordinary_nodup := List.nodup_nil
  resource_nodup := List.nodup_nil
  ordinary_not_workers _ hi := nomatch hi
  resource_not_held _ hi := nomatch hi
  workers_plain _ hi := absurd hi Std.ExtTreeSet.not_mem_empty
  ordinary_plain _ hi := nomatch hi
  held_resource _ hi := nomatch hi
  resource_resource _ hi := nomatch hi
  unsent := by
    show queue.targets.countP (fun target => !target.1.resources.isEmpty) =
      (List.range queue.targets.length).countP fun i =>
        needsResources queue i && decide (i ∉ []) && decide (i ∉ [])
    rw [countP_eq_countP_range]
    simp [needsResources]
  sender hs := by cases hs
  closed hw := by cases hw

/-- Every state the loop reaches satisfies the invariant, and its queue is in a state of a run. -/
theorem Coordinator.Reaches.inv {allowed : TickInput → Prop} {c c' : Coordinator}
    (h : LoopInv c [] []) (hreaches : Coordinator.Reaches allowed c c') :
    LoopInv c' [] [] ∧ Steps (fun _ _ _ => True) c.run c'.run := by
  induction hreaches with
  | refl => exact ⟨h, .refl⟩
  | tail _ hnext ih =>
      obtain ⟨input, _, hadmissible, htick⟩ := hnext
      have hsound := (tick_ensures (input.publishes_any _) ih.1 hadmissible).of_eq_ok htick
      exact ⟨hsound.1, ih.2.trans hsound.2.1⟩

/-- What one iteration from a reachable state can and cannot do. -/
structure IterationSafe (plan : RunPlan) (c : Coordinator) (input : TickInput) : Prop where
  not_stuck : c.tick input ≠ .error (.bail stuckMessage)
  no_panic : ∀ message, c.tick input ≠ .error (.panic message)
  /-- On the way out every planned target has been published exactly once. -/
  all_published : ∀ c', c.tick input = .ok (.finished c') →
    c'.run.publishedTargets.Perm (plan.targets.map (·.target))

theorem stuckMessage_not_failure (input : TickInput) : ¬input.Failure (.bail stuckMessage) := by
  intro h
  generalize hmessage : RunFailure.bail stuckMessage = failure at h
  cases h with
  | send | acknowledgment => exact absurd (RunFailure.bail.inj hmessage) (by decide)
  | _ => cases hmessage

/-- When nothing is unfinished every planned target has been published exactly once. -/
theorem publishedTargets_perm {plan : RunPlan} (h : TablesExact plan s) (hplan : PlanStructure plan)
    (hfinished : s.queue.unfinished = 0) :
    s.publishedTargets.Perm (plan.targets.map (·.target)) := by
  apply (List.perm_ext_iff_of_nodup h.once hplan.targets_nodup).mpr
  intro id
  refine ⟨fun hid => h.planned hid, fun hid => ?_⟩
  obtain ⟨planned, hplanned, rfl⟩ := List.mem_map.mp hid
  have hnone := List.countP_eq_zero.mp (h.unfinished.symm.trans hfinished) planned hplanned
  simpa using hnone

/-- The queue of a plan and the loop that drives it do what the plan says. -/
structure QueueCorrect (plan : RunPlan) (queue : ReadyQueue) : Prop where
  /-- In every run of the queue, whatever is taken and whatever is published in whatever order. -/
  runs : ∀ s, Relation.ReflTransGen AnyStep (.start queue) s → TablesExact plan s
  /-- In every state of the loop, and for every outcome of the workers. -/
  loop : ∀ c, Coordinator.Reaches (fun _ => True) (.start queue) c →
    TablesExact plan c.run ∧ ∀ input, input.Admissible c → IterationSafe plan c input
  /-- From every state of the loop there is a way out. -/
  exit : ∀ c, Coordinator.Reaches (fun _ => True) (.start queue) c →
    ∃ last final, Coordinator.Reaches (fun _ => True) c last ∧
      Coordinator.Exit (fun _ => True) last final

/-- **The ready queue is exact.** For every plan that passes validation the queue can be built;
along every run its tables count the open dependencies, and the loop neither gets stuck nor panics
and publishes every planned target exactly once. -/
theorem ready_queue_exact {plan : RunPlan} (hvalid : validateRunPlanStructure plan = .ok ()) :
    ∃ queue, ReadyQueue.new plan = .ok queue ∧ QueueCorrect plan queue := by
  have hplan := validateRunPlanStructure_eq_ok.mp hvalid
  obtain ⟨queue, hnew, hids, hplanned, hinv⟩ := ReadyQueue.new_eq_ok hplan
  have hrunOf : RunOf plan (.start queue) := ⟨hids, hplanned⟩
  have hexact : ∀ (taking : DispatchState → Nat → Prop) s, Relation.ReflTransGen
      (DispatchStep taking fun _ _ _ => True) (.start queue) s → TablesExact plan s :=
    fun taking s hrun => tablesExact hplan (hrunOf.run hinv hrun) (hinv.run hrun)
  refine ⟨queue, hnew, hexact _, ?_, ?_⟩
  · intro c hc
    obtain ⟨hloop, hsteps⟩ := hc.inv (LoopInv.start hinv)
    refine ⟨hexact _ _ hsteps, fun input hadmissible => ?_⟩
    have htick := tick_ensures (input.publishes_any _) hloop hadmissible
    refine ⟨?_, ?_, ?_⟩
    · intro hstuck
      exact stuckMessage_not_failure input (htick.of_eq_error hstuck)
    · intro message hpanic
      cases htick.of_eq_error hpanic
    · intro c' hfinished
      obtain ⟨_, hsteps', hunfinished⟩ := htick.of_eq_ok hfinished
      exact publishedTargets_perm (hexact _ _ (hsteps.trans hsteps')) hplan hunfinished
  · intro c hc
    obtain ⟨hloop, _⟩ := hc.inv (LoopInv.start hinv)
    obtain ⟨last, final, hlast, input, _, hadmissible, hfinal⟩ :=
      exists_exit (fun _ => .success) hloop
    have hnext : ∀ a b, Coordinator.Next (TickInput.Quiet fun _ => .success) a b →
        Coordinator.Next (fun _ => True) a b := by
      intro a b hab
      obtain ⟨input, _, hadmissible, hnext⟩ := hab
      exact ⟨input, trivial, hadmissible, hnext⟩
    exact ⟨last, final, Relation.ReflTransGen.mono hnext _ _ hlast, input, trivial, hadmissible,
      hfinal⟩

/-- `web:bundle` names its dependency `web:prepare` twice. -/
def repeatedDependencyPlan : RunPlan :=
  let component : ComponentId := ⟨"web", by decide⟩
  let prepare : TargetId := ⟨component, ⟨"prepare", by decide⟩⟩
  let bundle : TargetId := ⟨component, ⟨"bundle", by decide⟩⟩
  { id := "run-plan_example"
    configDigest := "sha256:config"
    source := ⟨some "abc", "sha256:worktree"⟩
    targets :=
      [{ target := prepare, intent := .check, runner := .command "prepare" none ∅,
         inputDigest := "sha256:prepare-input" },
       { target := bundle, intent := .check, runner := .command "bundle" none ∅,
         inputDigest := "sha256:bundle-input", dependsOn := [prepare, prepare] }]
    executionLayers := [[prepare], [bundle]] }

theorem repeatedDependencyPlan_valid :
    validateRunPlanStructure repeatedDependencyPlan = .ok () := by
  decide

theorem ready_queue_exact_repeatedDependencyPlan :
    ∃ queue, ReadyQueue.new repeatedDependencyPlan = .ok queue ∧
      QueueCorrect repeatedDependencyPlan queue :=
  ready_queue_exact repeatedDependencyPlan_valid

end Jig.Runtime

import Jig.Runtime.LayeredLoop
import Jig.Runtime.QueueExact

/-!
# The two schedulers agree

An undisturbed run of the ready dispatcher ends with the verdicts of the plan, whatever the order in
which targets complete (`DispatchState.conclusions`). The layer-by-layer loop ends with the same
map.
-/

namespace Jig.Runtime

open Contract Lib State Std

/-! ## The ready dispatcher publishes verdicts -/

def DispatchState.conclusions (s : DispatchState) : ExtTreeMap TargetId RunConclusion :=
  insertAll Prod.fst Prod.snd ∅ s.results

def intrinsicAt (queue : ReadyQueue) (intrinsic : TargetId → RunConclusion) (i : Nat) :
    RunConclusion :=
  match queue.targets[i]? with
  | some target => intrinsic target.1.target
  | none => .success

/-- What an undisturbed dispatcher publishes: a skip after a failed dependency, and otherwise the
intrinsic conclusion. -/
def Undisturbed (intrinsic : Nat → RunConclusion) (s : DispatchState) (i : Nat)
    (conclusion : RunConclusion) : Prop :=
  conclusion = if s.queue.failed i then .skipped else intrinsic i

theorem TickInput.Quiet.publishes {intrinsic : Nat → RunConclusion} {input : TickInput}
    (h : input.Quiet intrinsic) : input.Publishes (Undisturbed intrinsic) none where
  unstarted s i conclusion reason hreason := by
    rw [h.cancelled] at hreason
    cases hfailed : s.queue.failed i with
    | false => simp [unstartedReason, hfailed] at hreason
    | true =>
        simp only [unstartedReason, hfailed, if_true, Option.some.injEq, Prod.mk.injEq] at hreason
        simp only [Undisturbed, hfailed, if_true, hreason.1]
  blocked message hmessage := by
    rw [h.source.precondition] at hmessage
    cases hmessage
  resource i conclusion source acknowledged hmem s hfailed := by
    simp only [Undisturbed, hfailed, Bool.false_eq_true, if_false]
    exact (h.resource i conclusion source acknowledged hmem).1
  ordinary i conclusion hmem s hfailed := by
    simp only [Undisturbed, hfailed, Bool.false_eq_true, if_false, h.enforce]
    exact Except.ok.inj (h.ordinary i _ hmem)

variable {intrinsic : TargetId → RunConclusion} {target : PositionedTarget}

section Dispatcher

variable {plan : RunPlan} {queue : ReadyQueue} {s s' : DispatchState}

/-- Everything published is the verdict of its target. -/
def VerdictInv (plan : RunPlan) (intrinsic : TargetId → RunConclusion) (s : DispatchState) : Prop :=
  ∀ result ∈ s.results, result.2 = verdict plan intrinsic result.1

/-- A publication extends the results by one. -/
theorem results_publish {i : Nat} {conclusion : RunConclusion} {q' : ReadyQueue}
    (hi : s.queue.targets[i]? = some target) (htargets : q'.targets = s.queue.targets) :
    DispatchState.results { s with queue := q', published := s.published ++ [(i, conclusion)] } =
      s.results ++ [(target.1.target, conclusion)] := by
  unfold DispatchState.results
  rw [List.filterMap_append, htargets]
  simp only [List.filterMap_cons, List.filterMap_nil, hi, Option.map_some]

/-- When its dependencies are published, the failure flag of a target is the test in its verdict. -/
theorem VerdictInv.failed (h : VerdictInv plan intrinsic s) (hexact : TablesExact plan s) {i : Nat}
    (hi : s.queue.targets[i]? = some target)
    (hdeps : ∀ d ∈ target.1.dependsOn, d ∈ s.publishedTargets) :
    s.queue.failed i = true ↔
      ∃ d ∈ target.1.dependsOn, verdict plan intrinsic d ≠ .success := by
  obtain ⟨flag, hflag, hiff⟩ := hexact.failed i target hi
  have hfailed : s.queue.failed i = flag := by
    rw [ReadyQueue.failed, List.getD_eq_getElem?_getD, hflag, Option.getD_some]
  rw [hfailed, hiff]
  refine exists_congr fun d => and_congr_right fun hd => ?_
  constructor
  · intro hsome
    obtain ⟨conclusion, hresult, hne⟩ := hsome
    rw [← h _ hresult]
    exact hne
  · intro hne
    obtain ⟨⟨_, conclusion⟩, hresult, rfl⟩ := List.mem_map.mp (hdeps d hd)
    refine ⟨conclusion, hresult, ?_⟩
    rw [show conclusion = _ from h _ hresult]
    exact hne

/-- **Step lemma.** -/
theorem VerdictInv.step (hplan : PlanStructure plan) (hrun : RunOf plan s) (hinv : DispatchInv s)
    (htargets : s.queue.targets = queue.targets) (h : VerdictInv plan intrinsic s)
    (hstep : DispatchStep unfailed (Undisturbed (intrinsicAt queue intrinsic)) s s') :
    VerdictInv plan intrinsic s' := by
  cases hstep with
  | take _ _ => exact h
  | @publish i conclusion q' hentered hnew hpublishing hpublish =>
      have hexact := tablesExact hplan hrun hinv
      obtain ⟨q'', hq'', hrel⟩ := hinv.publish_ok hentered hnew conclusion
      obtain rfl := Except.ok.inj (hq''.symm.trans hpublish)
      obtain ⟨target, hi, _, hdeps⟩ := (hexact.ready i).mp (hentered.imp_right fun hd => ⟨hd, hnew⟩)
      intro result hresult
      rw [results_publish hi hrel.targets, List.mem_append, List.mem_singleton] at hresult
      rcases hresult with hresult | rfl
      · exact h result hresult
      · -- the new one: the flag it was published under is the test in its verdict
        have hfailed := h.failed hexact hi hdeps
        have hplanned := hrun.planned target (List.mem_of_getElem? hi)
        have hintrinsic : intrinsicAt queue intrinsic i = intrinsic target.1.target := by
          simp only [intrinsicAt, ← htargets, hi]
        show conclusion = _
        rw [verdict_eq hplan hplanned, hpublishing, hintrinsic]
        simp only [hfailed]

/-- **Run lemma.** -/
theorem VerdictInv.run (hplan : PlanStructure plan) (hrun : RunOf plan (.start queue))
    (hinv : DispatchInv (.start queue))
    (hsteps : Steps (Undisturbed (intrinsicAt queue intrinsic)) (.start queue) s) :
    VerdictInv plan intrinsic s := by
  induction hsteps with
  | refl => exact fun result hresult => nomatch hresult
  | tail hsteps hstep ih =>
      exact ih.step hplan (hrun.run hinv hsteps) (hinv.run hsteps) (hinv.run_targets hsteps) hstep

/-- The states an undisturbed loop reaches. -/
theorem quiet_reaches {ι : Nat → RunConclusion} {c c' : Coordinator} (h : LoopInv c [] [])
    (hsource : c.sourceFailure = none) (hreaches : Coordinator.Reaches (TickInput.Quiet ι) c c') :
    LoopInv c' [] [] ∧ c'.sourceFailure = none ∧ Steps (Undisturbed ι) c.run c'.run := by
  induction hreaches with
  | refl => exact ⟨h, hsource, .refl⟩
  | @tail c₁ c₂ _ hnext ih =>
      obtain ⟨hinv, hnone, hsteps⟩ := ih
      obtain ⟨input, hquiet, hadmissible, htick⟩ := hnext
      have hpublishes : input.Publishes (Undisturbed ι) c₁.sourceFailure := hnone ▸ hquiet.publishes
      have hsound := (tick_ensures hpublishes hinv hadmissible).of_eq_ok htick
      exact ⟨hsound.1, (hsound.2.2 hquiet.source).trans hnone, hsteps.trans hsound.2.1⟩

end Dispatcher

/-! ## The map both schedulers compute -/

structure Verdicts (plan : RunPlan) (intrinsic : TargetId → RunConclusion)
    (conclusions : ExtTreeMap TargetId RunConclusion) : Prop where
  planned : ∀ t, t ∈ conclusions ↔ t ∈ plan.targets.map (·.target)
  skipped : ∀ planned ∈ plan.targets,
    (∃ d ∈ planned.dependsOn, conclusions[d]? ≠ some .success) →
      conclusions[planned.target]? = some .skipped
  started : ∀ planned ∈ plan.targets,
    (∀ d ∈ planned.dependsOn, conclusions[d]? = some .success) →
      conclusions[planned.target]? = some (intrinsic planned.target)

def verdicts (plan : RunPlan) (intrinsic : TargetId → RunConclusion) :
    ExtTreeMap TargetId RunConclusion :=
  insertAll id (verdict plan intrinsic) ∅ plan.executionLayers.flatten

/-- Undisturbed runs of the ready dispatcher all end with `conclusions`. -/
structure DispatcherConcludes (queue : ReadyQueue) (intrinsic : TargetId → RunConclusion)
    (conclusions : ExtTreeMap TargetId RunConclusion) : Prop where
  /-- No iteration fails. -/
  runs : ∀ c, Coordinator.Reaches (TickInput.Quiet (intrinsicAt queue intrinsic)) (.start queue) c →
    ∀ input : TickInput, input.Quiet (intrinsicAt queue intrinsic) → input.Admissible c →
      ∃ tick, c.tick input = .ok tick
  /-- The order in which targets complete does not matter. -/
  confluent : ∀ c final,
    Coordinator.Reaches (TickInput.Quiet (intrinsicAt queue intrinsic)) (.start queue) c →
    Coordinator.Exit (TickInput.Quiet (intrinsicAt queue intrinsic)) c final →
      final.run.conclusions = conclusions
  /-- The end can be reached from everywhere. -/
  exit : ∀ c, Coordinator.Reaches (TickInput.Quiet (intrinsicAt queue intrinsic)) (.start queue) c →
    ∃ last final, Coordinator.Reaches (TickInput.Quiet (intrinsicAt queue intrinsic)) c last ∧
      Coordinator.Exit (TickInput.Quiet (intrinsicAt queue intrinsic)) last final

/-! ## Agreement -/

section Agreement

variable {plan : RunPlan} (hplan : PlanStructure plan)

include hplan

theorem getElem?_verdicts (t : TargetId) :
    (verdicts plan intrinsic)[t]? =
      if t ∈ plan.executionLayers.flatten then some (verdict plan intrinsic t) else none := by
  by_cases ht : t ∈ plan.executionLayers.flatten
  · rw [if_pos ht]
    apply (getElem?_insertAll_empty_eq_some (by simpa using hplan.layers_nodup)).mpr
    exact ⟨t, ht, rfl, rfl⟩
  · rw [if_neg ht]
    unfold verdicts
    rw [getElem?_insertAll_of_notMem (by simpa using ht)]
    exact ExtTreeMap.getElem?_empty

theorem verdicts_spec :
    Verdicts plan intrinsic (verdicts plan intrinsic) := by
  have hlayer : ∀ planned ∈ plan.targets, (verdicts plan intrinsic)[planned.target]? =
      some (verdict plan intrinsic planned.target) := by
    intro planned hplanned
    rw [getElem?_verdicts hplan, if_pos]
    exact (hplan.mem_layers _).mpr (List.mem_map_of_mem hplanned)
  have hdependency : ∀ planned ∈ plan.targets, ∀ d ∈ planned.dependsOn,
      (verdicts plan intrinsic)[d]? = some (verdict plan intrinsic d) := by
    intro planned hplanned d hd
    obtain ⟨k, _, ⟨layer, hk, hmem⟩, _, _⟩ := hplan.dependency_earlier planned hplanned d hd
    rw [getElem?_verdicts hplan, if_pos]
    exact List.mem_flatten.mpr ⟨layer, List.mem_of_getElem? hk, hmem⟩
  refine ⟨?_, ?_, ?_⟩
  · intro t
    rw [← hplan.mem_layers, ExtTreeMap.mem_iff_isSome_getElem?, getElem?_verdicts hplan]
    by_cases ht : t ∈ plan.executionLayers.flatten
    · simp [ht]
    · simp [ht]
  · intro planned hplanned hfailed
    obtain ⟨d, hd, hne⟩ := hfailed
    rw [hdependency planned hplanned d hd] at hne
    rw [hlayer planned hplanned, verdict_eq hplan hplanned, if_pos]
    exact ⟨d, hd, fun hsuccess => hne (by rw [hsuccess])⟩
  · intro planned hplanned hall
    rw [hlayer planned hplanned, verdict_eq hplan hplanned, if_neg]
    intro hfailed
    obtain ⟨d, hd, hne⟩ := hfailed
    have hsuccess := hall d hd
    rw [hdependency planned hplanned d hd] at hsuccess
    exact hne (Option.some.inj hsuccess)

/-- A run that has published everything, each target with its verdict, ends with that map. -/
theorem conclusions_eq_verdicts {s : DispatchState}
    (hexact : TablesExact plan s) (hverdicts : VerdictInv plan intrinsic s)
    (hfinished : s.queue.unfinished = 0) : s.conclusions = verdicts plan intrinsic := by
  have hperm := publishedTargets_perm hexact hplan hfinished
  apply ExtTreeMap.ext_getElem?
  intro t
  rw [getElem?_verdicts hplan]
  by_cases ht : t ∈ plan.executionLayers.flatten
  · rw [if_pos ht]
    have hpublished : t ∈ s.publishedTargets := hperm.mem_iff.mpr ((hplan.mem_layers t).mp ht)
    obtain ⟨⟨_, conclusion⟩, hresult, rfl⟩ := List.mem_map.mp hpublished
    apply (getElem?_insertAll_empty_eq_some hexact.once).mpr
    exact ⟨_, hresult, rfl, hverdicts _ hresult⟩
  · rw [if_neg ht]
    unfold DispatchState.conclusions
    have hnot : t ∉ s.results.map Prod.fst := by
      intro hmem
      exact ht ((hplan.mem_layers t).mpr (hexact.planned hmem))
    rw [getElem?_insertAll_of_notMem hnot]
    exact ExtTreeMap.getElem?_empty

theorem dispatcher_concludes (intrinsic : TargetId → RunConclusion) :
    ∃ queue, ReadyQueue.new plan = .ok queue ∧
      DispatcherConcludes queue intrinsic (verdicts plan intrinsic) := by
  obtain ⟨queue, hnew, hids, hplanned, hinv⟩ := ReadyQueue.new_eq_ok hplan
  have hrunOf : RunOf plan (.start queue) := ⟨hids, hplanned⟩
  refine ⟨queue, hnew, ?_, ?_, ?_⟩
  · intro c hc input hquiet hadmissible
    obtain ⟨hloop, _, _⟩ := quiet_reaches (LoopInv.start hinv) rfl hc
    obtain ⟨tick, htick, _⟩ := undisturbed_tick hquiet hloop hadmissible
    exact ⟨tick, htick⟩
  · intro c final hc hexit
    obtain ⟨hloop, hnone, hsteps⟩ := quiet_reaches (LoopInv.start hinv) rfl hc
    obtain ⟨input, hquiet, hadmissible, htick⟩ := hexit
    have hpublishes : input.Publishes (Undisturbed (intrinsicAt queue intrinsic))
        c.sourceFailure := hnone ▸ hquiet.publishes
    have hsound := (tick_ensures hpublishes hloop hadmissible).of_eq_ok htick
    obtain ⟨_, hsteps', hfinished⟩ := hsound
    have hall := hsteps.trans hsteps'
    apply conclusions_eq_verdicts hplan _ (VerdictInv.run hplan hrunOf hinv hall) hfinished
    exact tablesExact hplan (hrunOf.run hinv hall) (hinv.run hall)
  · intro c hc
    obtain ⟨hloop, _, _⟩ := quiet_reaches (LoopInv.start hinv) rfl hc
    exact exists_exit _ hloop

theorem layered_concludes {env : LayerEnv} (hquiet : env.Quiet intrinsic) :
    ∃ s, runLayers env false plan = .ok s ∧ s.conclusions = verdicts plan intrinsic := by
  obtain ⟨s, hs, hinv⟩ := runLayers_ok hplan hquiet
  refine ⟨s, hs, ExtTreeMap.ext_getElem? fun t => ?_⟩
  rw [hinv.conclusions, getElem?_verdicts hplan]

end Agreement

/-- **Confluence, and agreement of the schedulers.** For every valid plan and every assignment of
intrinsic conclusions there is one map from targets to conclusions in which exactly the targets with
an unsuccessful dependency are skipped, and every undisturbed run of either scheduler ends with it.
-/
theorem schedulers_agree {plan : RunPlan} (hvalid : validateRunPlanStructure plan = .ok ())
    (intrinsic : TargetId → RunConclusion) :
    ∃ queue conclusions, ReadyQueue.new plan = .ok queue ∧ Verdicts plan intrinsic conclusions ∧
      DispatcherConcludes queue intrinsic conclusions ∧
      ∀ env : LayerEnv, env.Quiet intrinsic →
        ∃ s, runLayers env false plan = .ok s ∧ s.conclusions = conclusions := by
  have hplan := validateRunPlanStructure_eq_ok.mp hvalid
  obtain ⟨queue, hnew, hdispatcher⟩ := dispatcher_concludes hplan intrinsic
  exact ⟨queue, verdicts plan intrinsic, hnew, verdicts_spec hplan, hdispatcher,
    fun env hquiet => layered_concludes hplan hquiet⟩

/-- The environment in which nothing goes wrong. -/
def LayerEnv.undisturbed (intrinsic : TargetId → RunConclusion) : LayerEnv :=
  { cancelled := fun _ => .ok false
    authority := fun _ => .ok ()
    prepare := fun _ => .ok ()
    execute := fun t => .ok (intrinsic t)
    parallelLayer := fun layer => .ok (layer.map intrinsic)
    resourceLayer := fun layer => .ok (layer.map fun t => (t, intrinsic t))
    record := fun _ => .ok () }

theorem LayerEnv.undisturbed_quiet (intrinsic : TargetId → RunConclusion) :
    (LayerEnv.undisturbed intrinsic).Quiet intrinsic :=
  ⟨fun _ => rfl, fun _ => rfl, fun _ => rfl, fun _ => rfl, fun _ => rfl,
    fun _ => ⟨_, rfl, .refl _⟩, fun _ => rfl⟩

/-- With a first target that fails, the second is skipped by either scheduler. -/
theorem schedulers_agree_repeatedDependencyPlan :
    ∃ queue conclusions, ReadyQueue.new repeatedDependencyPlan = .ok queue ∧
      Verdicts repeatedDependencyPlan (fun _ => .failure) conclusions ∧
      DispatcherConcludes queue (fun _ => .failure) conclusions ∧
      ∃ s, runLayers (.undisturbed fun _ => .failure) false repeatedDependencyPlan = .ok s ∧
        s.conclusions = conclusions := by
  obtain ⟨queue, conclusions, hnew, hverdicts, hdispatcher, hlayers⟩ :=
    schedulers_agree repeatedDependencyPlan_valid fun _ => .failure
  exact ⟨queue, conclusions, hnew, hverdicts, hdispatcher,
    hlayers _ (LayerEnv.undisturbed_quiet _)⟩

end Jig.Runtime

import Jig.Runtime.Verdict

/-!
# The layer-by-layer loop

The other scheduler: the loop of `execute_started_check_run_inner` (`run_execution.rs`) over the
execution layers of a plan. A layer of independent read-only checks is handed to the parallel
executors as a whole; the targets of every other layer run one after the other.

What the loop asks of its surroundings is a `LayerEnv`. A resource layer publishes its results in
the order in which they become available, which the environment chooses.
-/

namespace Jig.Runtime

open Contract Lib State

/-! ## Definitions -/

structure LayerEnv where
  /-- `control.cancelled()`, before the target. -/
  cancelled : TargetId → Except String Bool
  /-- `validate_current_repository_authority`, before the target. -/
  authority : TargetId → Except String Unit
  /-- `source_epoch.prepare_target`. -/
  prepare : TargetId → Except String Unit
  /-- The conclusion of a target that is executed on its own. -/
  execute : TargetId → Except String RunConclusion
  /-- `execute_parallel_read_only_layer`: the outcomes in layer order. -/
  parallelLayer : List TargetId → Except String (List RunConclusion)
  /-- `execute_resource_layer`: the results in the order of their publication. -/
  resourceLayer : List TargetId → Except String (List (TargetId × RunConclusion))
  /-- Recording a result durably. -/
  record : TargetId → Except String Unit

structure LayeredRun where
  conclusions : Std.ExtTreeMap TargetId RunConclusion
  failedTargets : List TargetId
  stopAfterFailure : Bool
  targetIndex : Nat

def LayeredRun.start : LayeredRun :=
  ⟨∅, [], false, 0⟩

/-- An error of something the loop calls. -/
def propagate {α : Type} : Except String α → Except RunFailure α
  | .ok a => .ok a
  | .error message => .error (.propagated message)

variable (env : LayerEnv)

def LayeredRun.recordFinishedTarget (failFast : Bool) (s : LayeredRun) (target : TargetId)
    (conclusion : RunConclusion) : Except RunFailure LayeredRun := do
  let failed := conclusion = .failure ∨ conclusion = .timedOut ∨ conclusion = .blocked
  let s :=
    { s with
      conclusions := s.conclusions.insert target conclusion
      failedTargets := if failed then s.failedTargets ++ [target] else s.failedTargets
      stopAfterFailure := s.stopAfterFailure || (failed && failFast) }
  propagate (env.record target)
  .ok s

/-- Why the sequential loop does not start a target. -/
def skipReason (cancelled : Except String Bool) (dependencyFailed stopAfterFailure : Bool) :
    Option (RunConclusion × String) :=
  match cancelled with
  | .ok true => some (.cancelled, "run cancellation was requested before the target started")
  | .error error =>
      some (.blocked, s!"run cancellation state could not be inspected: {error}")
  | .ok false =>
      if dependencyFailed then
        some (.skipped, "a declared target dependency did not succeed")
      else if stopAfterFailure then
        some (.skipped,
          "the run stopped after an earlier failure because fail-fast was requested")
      else
        none

/-- `PhasePosition::new(current, total).expect(..)`. -/
def expectPosition (current total : Nat) : Except RunFailure Unit :=
  match PhasePosition.new current total with
  | some _ => .ok ()
  | none => .error (.panic "planned target position must be valid")

/-- The conclusion of a target that is not skipped. -/
def startTarget (planned : PlannedTarget) (targetIndex targetCount : Nat) :
    Except RunFailure RunConclusion :=
  let execute : Except RunFailure RunConclusion := do
    expectPosition targetIndex targetCount
    propagate (env.execute planned.target)
  if !planned.resources.isEmpty then
    execute
  else
    match env.authority planned.target, env.prepare planned.target with
    | .error _, _ => .ok .blocked
    | .ok (), .error _ => .ok .blocked
    | .ok (), .ok () => execute

def LayeredRun.concludeTarget (targetCount : Nat) (s : LayeredRun) (target : TargetId)
    (planned : PlannedTarget) : Except RunFailure RunConclusion :=
  let dependencyFailed := planned.dependsOn.any fun dependency =>
    (s.conclusions[dependency]?).any (· ≠ .success)
  match skipReason (env.cancelled target) dependencyFailed s.stopAfterFailure with
  | some (conclusion, _) => .ok conclusion
  | none => startTarget env planned s.targetIndex targetCount

def LayeredRun.runTarget (failFast : Bool) (targetCount : Nat) (s : LayeredRun)
    (entry : TargetId × PlannedTarget) : Except RunFailure LayeredRun := do
  let s := { s with targetIndex := s.targetIndex + 1 }
  let conclusion ← s.concludeTarget env targetCount entry.1 entry.2
  s.recordFinishedTarget env failFast entry.1 conclusion

def isParallelReadOnlyCheck (planned : PlannedTarget) : Bool :=
  planned.intent = .check && planned.effects.contains .readOnly &&
    !planned.effects.contains .worktree && !planned.effects.contains .external

/-- Is the layer handed to the parallel executors? -/
def LayeredRun.canRunConcurrently (failFast : Bool) (s : LayeredRun)
    (plannedLayer : List PlannedTarget) : Bool :=
  !failFast && !s.stopAfterFailure && decide (plannedLayer.length > 1) &&
    plannedLayer.all fun planned =>
      isParallelReadOnlyCheck planned &&
        planned.dependsOn.all fun dependency => s.conclusions[dependency]? = some .success

def LayeredRun.runLayer (failFast : Bool) (plan : RunPlan) (s : LayeredRun) (layer : List TargetId) :
    Except RunFailure LayeredRun := do
  let targetCount := plan.targets.length
  let plannedLayer ← layer.mapM (plannedTarget plan)
  if s.canRunConcurrently failFast plannedLayer then
    (List.range plannedLayer.length).forM fun offset =>
      expectPosition (s.targetIndex + offset + 1) targetCount
    let s := { s with targetIndex := s.targetIndex + plannedLayer.length }
    if plannedLayer.any (fun planned => !planned.resources.isEmpty) then
      let results ← propagate (env.resourceLayer layer)
      results.foldlM (fun s result => s.recordFinishedTarget env failFast result.1 result.2) s
    else
      let outcomes ← propagate (env.parallelLayer layer)
      (layer.zip outcomes).foldlM
        (fun s outcome => s.recordFinishedTarget env failFast outcome.1 outcome.2) s
  else
    (layer.zip plannedLayer).foldlM (LayeredRun.runTarget env failFast targetCount) s

/-- The loop over all layers. -/
def runLayers (failFast : Bool) (plan : RunPlan) : Except RunFailure LayeredRun :=
  plan.executionLayers.foldlM (LayeredRun.runLayer env failFast plan) .start

/-! ## An undisturbed run -/

/-- No cancellation, no failure of the source or of the journal, and every target that starts ends
with the conclusion `intrinsic` gives it. Results of a resource layer may come in any order. -/
structure LayerEnv.Quiet (intrinsic : TargetId → RunConclusion) (env : LayerEnv) : Prop where
  cancelled : ∀ t, env.cancelled t = .ok false
  authority : ∀ t, env.authority t = .ok ()
  prepare : ∀ t, env.prepare t = .ok ()
  execute : ∀ t, env.execute t = .ok (intrinsic t)
  parallelLayer : ∀ layer, env.parallelLayer layer = .ok (layer.map intrinsic)
  resourceLayer : ∀ layer, ∃ results, env.resourceLayer layer = .ok results ∧
    results.Perm (layer.map fun t => (t, intrinsic t))
  record : ∀ t, env.record t = .ok ()

/-- The loop has concluded the targets in `done`, each with its verdict. -/
structure LayeredInv (plan : RunPlan) (intrinsic : TargetId → RunConclusion) (done : List TargetId)
    (s : LayeredRun) : Prop where
  conclusions : ∀ t, s.conclusions[t]? =
    if t ∈ done then some (verdict plan intrinsic t) else none
  running : s.stopAfterFailure = false

section Quiet

variable {plan : RunPlan} {intrinsic : TargetId → RunConclusion} {env}
  {done : List TargetId} {s : LayeredRun}

theorem LayeredInv.congr (h : LayeredInv plan intrinsic done s) {done' : List TargetId}
    (hdone : ∀ t, t ∈ done ↔ t ∈ done') : LayeredInv plan intrinsic done' s :=
  ⟨fun t => by rw [h.conclusions]; simp only [hdone], h.running⟩

theorem LayeredInv.setIndex (h : LayeredInv plan intrinsic done s) (index : Nat) :
    LayeredInv plan intrinsic done { s with targetIndex := index } :=
  ⟨h.conclusions, h.running⟩

theorem expectPosition_ok {current total : Nat} (hpos : 0 < current) (hle : current ≤ total) :
    expectPosition current total = .ok () := by
  simp only [expectPosition, PhasePosition.new, hpos, hle, and_self, dite_true]

/-- Recording a verdict. -/
theorem LayeredInv.recordFinishedTarget (hquiet : env.Quiet intrinsic)
    (h : LayeredInv plan intrinsic done s) {t : TargetId} {conclusion : RunConclusion}
    (hconclusion : conclusion = verdict plan intrinsic t) :
    ∃ s', s.recordFinishedTarget env false t conclusion = .ok s' ∧
      LayeredInv plan intrinsic (done ++ [t]) s' ∧ s'.targetIndex = s.targetIndex := by
  unfold LayeredRun.recordFinishedTarget
  simp only [hquiet.record, propagate, bind, Except.bind]
  refine ⟨_, rfl, ⟨?_, ?_⟩, rfl⟩
  · intro t'
    show (s.conclusions.insert t conclusion)[t']? = _
    rw [hconclusion]
    rcases getElem?_insert_self_or s.conclusions t t' (verdict plan intrinsic t) with
      ⟨rfl, hget⟩ | ⟨hne, hget⟩
    · simp
    · have hmem : t' ∈ done ++ [t] ↔ t' ∈ done := by simp [Ne.symm hne]
      rw [hget, h.conclusions]
      simp only [hmem]
  · show (s.stopAfterFailure || (_ && false)) = false
    rw [h.running, Bool.and_false, Bool.or_false]

theorem foldlM_recordFinishedTarget (hquiet : env.Quiet intrinsic)
    {results : List (TargetId × RunConclusion)}
    (hresults : ∀ result ∈ results, result.2 = verdict plan intrinsic result.1)
    (h : LayeredInv plan intrinsic done s) :
    ∃ s', results.foldlM (fun s result => s.recordFinishedTarget env false result.1 result.2) s =
        .ok s' ∧
      LayeredInv plan intrinsic (done ++ results.map Prod.fst) s' ∧
      s'.targetIndex = s.targetIndex := by
  induction results generalizing done s with
  | nil => exact ⟨s, rfl, by simpa using h, rfl⟩
  | cons result results ih =>
      obtain ⟨s₁, hs₁, hinv₁, hindex₁⟩ :=
        h.recordFinishedTarget hquiet (hresults result List.mem_cons_self)
      obtain ⟨s₂, hs₂, hinv₂, hindex₂⟩ :=
        ih (fun r hr => hresults r (List.mem_cons_of_mem result hr)) hinv₁
      refine ⟨s₂, ?_, by simpa using hinv₂, hindex₂.trans hindex₁⟩
      rw [List.foldlM_cons, hs₁]
      exact hs₂

/-! ### Dependencies -/

/-- What stands before a target in the flattened layers includes its dependencies. -/
theorem mem_of_idxOf_lt {l₁ l₂ : List TargetId} {t d : TargetId} (hnodup : (l₁ ++ t :: l₂).Nodup)
    (hlt : (l₁ ++ t :: l₂).idxOf d < (l₁ ++ t :: l₂).idxOf t) : d ∈ l₁ := by
  have ht : t ∉ l₁ := by
    intro hmem
    exact (List.nodup_append.mp hnodup).2.2 t hmem t List.mem_cons_self rfl
  by_contra hd
  rw [List.idxOf_append_of_notMem ht, List.idxOf_append_of_notMem hd, List.idxOf_cons_self] at hlt
  omega

variable {planned : PlannedTarget}

/-- The dependency test of the sequential loop. -/
theorem LayeredInv.dependencyFailed (h : LayeredInv plan intrinsic done s)
    (hdeps : ∀ d ∈ planned.dependsOn, d ∈ done) :
    (planned.dependsOn.any fun d => (s.conclusions[d]?).any (· ≠ .success)) =
      decide (∃ d ∈ planned.dependsOn, verdict plan intrinsic d ≠ .success) := by
  rw [Bool.eq_iff_iff, List.any_eq_true, decide_eq_true_eq]
  refine exists_congr fun d => and_congr_right fun hd => ?_
  rw [h.conclusions, if_pos (hdeps d hd), Option.any_some, decide_eq_true_eq]

/-! ### Targets and layers -/

theorem startTarget_ok (hquiet : env.Quiet intrinsic) {targetIndex targetCount : Nat}
    (hpos : 0 < targetIndex) (hle : targetIndex ≤ targetCount) :
    startTarget env planned targetIndex targetCount = .ok (intrinsic planned.target) := by
  unfold startTarget
  simp only [hquiet.authority, hquiet.prepare, hquiet.execute, expectPosition_ok hpos hle, propagate,
    bind, Except.bind, ite_self]

section

variable (hplan : PlanStructure plan) (hquiet : env.Quiet intrinsic)
  (h : LayeredInv plan intrinsic done s) {rest : List TargetId} {layer : List TargetId}

include hplan hquiet h

/-- The sequential loop finds the verdict of a target whose dependencies it has concluded. -/
theorem LayeredInv.concludeTarget (hplanned : planned ∈ plan.targets)
    (hdeps : ∀ d ∈ planned.dependsOn, d ∈ done) (hpos : 0 < s.targetIndex)
    (hle : s.targetIndex ≤ plan.targets.length) :
    s.concludeTarget env plan.targets.length planned.target planned =
      .ok (verdict plan intrinsic planned.target) := by
  unfold LayeredRun.concludeTarget
  simp only [h.dependencyFailed hdeps, h.running, hquiet.cancelled, skipReason]
  rw [verdict_eq hplan hplanned, startTarget_ok hquiet hpos hle]
  by_cases hfailed : ∃ d ∈ planned.dependsOn, verdict plan intrinsic d ≠ .success
  · simp only [hfailed, decide_true, if_true]
  · simp only [hfailed, decide_false, Bool.false_eq_true, if_false]

/-- One target of a sequential layer gets its verdict. -/
theorem runTarget_ok (hindex : s.targetIndex = done.length) (hplanned : planned ∈ plan.targets)
    (hsplit : plan.executionLayers.flatten = done ++ planned.target :: rest) :
    ∃ s', s.runTarget env false plan.targets.length (planned.target, planned) = .ok s' ∧
      LayeredInv plan intrinsic (done ++ [planned.target]) s' ∧
      s'.targetIndex = (done ++ [planned.target]).length := by
  have hdeps : ∀ d ∈ planned.dependsOn, d ∈ done := by
    intro d hd
    rw [← dependenciesOf_planned hplan hplanned] at hd
    have hlt := idxOf_dependency_lt hplan hd
    have hnodup := hplan.layers_nodup
    rw [hsplit] at hlt hnodup
    exact mem_of_idxOf_lt hnodup hlt
  have hcount : s.targetIndex + 1 ≤ plan.targets.length := by
    rw [← order_length hplan, hsplit, hindex]
    simp
  have hconclusion := (h.setIndex (s.targetIndex + 1)).concludeTarget hplan hquiet hplanned hdeps
    (Nat.succ_pos _) hcount
  obtain ⟨s', hs', hinv, hindex'⟩ :=
    (h.setIndex (s.targetIndex + 1)).recordFinishedTarget hquiet (t := planned.target) rfl
  refine ⟨s', ?_, hinv, ?_⟩
  · unfold LayeredRun.runTarget
    simp only [hconclusion, bind, Except.bind]
    exact hs'
  · rw [hindex', List.length_append, List.length_singleton, ← hindex]

section

variable {plannedLayer : List PlannedTarget}
  (hlayer : List.Forall₂ (fun t planned => planned ∈ plan.targets ∧ planned.target = t)
    layer plannedLayer)

include hlayer

/-- A layer that runs sequentially. -/
theorem foldlM_runTarget (hindex : s.targetIndex = done.length)
    (hsplit : plan.executionLayers.flatten = done ++ (layer ++ rest)) :
    ∃ s', (layer.zip plannedLayer).foldlM (LayeredRun.runTarget env false plan.targets.length) s =
        .ok s' ∧
      LayeredInv plan intrinsic (done ++ layer) s' ∧ s'.targetIndex = (done ++ layer).length := by
  induction hlayer generalizing done s with
  | nil => exact ⟨s, rfl, by simpa using h, by simpa using hindex⟩
  | @cons t planned layer plannedLayer hhead _ ih =>
      obtain ⟨hplanned, rfl⟩ := hhead
      obtain ⟨s₁, hs₁, hinv₁, hindex₁⟩ := runTarget_ok hplan hquiet h hindex hplanned hsplit
      obtain ⟨s₂, hs₂, hinv₂, hindex₂⟩ := ih hinv₁ hindex₁ (by simpa using hsplit)
      refine ⟨s₂, ?_, by simpa using hinv₂, by simpa using hindex₂⟩
      rw [List.zip_cons_cons, List.foldlM_cons, hs₁]
      exact hs₂

omit hquiet in
/-- In a layer that runs concurrently all dependencies have succeeded, so every verdict is
intrinsic. -/
theorem verdict_of_canRunConcurrently (hconcurrent : s.canRunConcurrently false plannedLayer = true) :
    ∀ t ∈ layer, intrinsic t = verdict plan intrinsic t := by
  intro t ht
  obtain ⟨planned, hmem, hplanned, rfl⟩ := forall₂_exists_right hlayer ht
  unfold LayeredRun.canRunConcurrently at hconcurrent
  simp only [Bool.and_eq_true, List.all_eq_true, decide_eq_true_eq] at hconcurrent
  have hnone : ¬∃ d ∈ planned.dependsOn, verdict plan intrinsic d ≠ .success := by
    intro hfailed
    obtain ⟨d, hd, hne⟩ := hfailed
    have hsuccess := (hconcurrent.2 planned hmem).2 d hd
    rw [h.conclusions] at hsuccess
    split at hsuccess
    · exact hne (Option.some.inj hsuccess)
    · cases hsuccess
  rw [verdict_eq hplan hplanned, if_neg hnone]

end

/-- **One layer.** -/
theorem runLayer_ok (hindex : s.targetIndex = done.length)
    (hsplit : plan.executionLayers.flatten = done ++ (layer ++ rest)) :
    ∃ s', s.runLayer env false plan layer = .ok s' ∧
      LayeredInv plan intrinsic (done ++ layer) s' ∧ s'.targetIndex = (done ++ layer).length := by
  have hmapM : ∀ t ∈ layer, ∃ planned, plannedTarget plan t = .ok planned ∧
      (planned ∈ plan.targets ∧ planned.target = t) := by
    intro t ht
    have hmem : t ∈ plan.executionLayers.flatten := by
      rw [hsplit]
      simp [ht]
    obtain ⟨planned, hplanned, hname, hok⟩ := plannedTarget_ok hplan hmem
    exact ⟨planned, hok, hplanned, hname⟩
  obtain ⟨plannedLayer, hplannedLayer, hlayer⟩ := mapM_ok_progress hmapM
  unfold LayeredRun.runLayer
  simp only [hplannedLayer, bind, Except.bind]
  by_cases hconcurrent : s.canRunConcurrently false plannedLayer = true
  · -- the whole layer goes to one of the parallel executors; only the order of results may differ
    have hverdict := verdict_of_canRunConcurrently hplan h hlayer hconcurrent
    have hpositions : ((List.range plannedLayer.length).forM fun offset =>
        expectPosition (s.targetIndex + offset + 1) plan.targets.length) = .ok () := by
      apply forM_eq_ok.mpr
      intro offset hoffset
      apply expectPosition_ok (Nat.succ_pos _)
      have hlength := hlayer.length_eq
      rw [← order_length hplan, hsplit, hindex, List.length_append, List.length_append]
      rw [List.mem_range] at hoffset
      omega
    have hrecorded : ∀ results : List (TargetId × RunConclusion),
        results.Perm (layer.map fun t => (t, intrinsic t)) →
        ∃ s', results.foldlM (fun s result => s.recordFinishedTarget env false result.1 result.2)
            { s with targetIndex := s.targetIndex + plannedLayer.length } = .ok s' ∧
          LayeredInv plan intrinsic (done ++ layer) s' ∧
          s'.targetIndex = (done ++ layer).length := by
      intro results hperm
      have hresults : ∀ result ∈ results, result.2 = verdict plan intrinsic result.1 := by
        intro result hresult
        obtain ⟨t, ht, rfl⟩ := List.mem_map.mp (hperm.subset hresult)
        exact hverdict t ht
      obtain ⟨s', hs', hinv, hindex'⟩ := foldlM_recordFinishedTarget hquiet hresults
        (h.setIndex (s.targetIndex + plannedLayer.length))
      refine ⟨s', hs', hinv.congr ?_, ?_⟩
      · intro t
        have hnames : (results.map Prod.fst).Perm layer := by
          simpa [Function.comp_def] using hperm.map Prod.fst
        rw [List.mem_append, List.mem_append, hnames.mem_iff]
      · rw [hindex', List.length_append, hlayer.length_eq, ← hindex]
    rw [if_pos hconcurrent]
    simp only [hpositions]
    by_cases hresources : (plannedLayer.any fun planned => !planned.resources.isEmpty) = true
    · obtain ⟨results, hresults, hperm⟩ := hquiet.resourceLayer layer
      rw [if_pos hresources, hresults]
      exact hrecorded results hperm
    · rw [if_neg hresources, hquiet.parallelLayer]
      have hzip : layer.zip (layer.map intrinsic) = layer.map fun t => (t, intrinsic t) := by
        rw [List.map_prod_left_eq_zip]
      exact hrecorded _ (by rw [hzip])
  · rw [if_neg hconcurrent]
    exact foldlM_runTarget hplan hquiet h hlayer hindex hsplit

omit h in
/-- **The layered loop computes the verdicts.** -/
theorem runLayers_ok :
    ∃ s, runLayers env false plan = .ok s ∧
      LayeredInv plan intrinsic plan.executionLayers.flatten s := by
  have hloop : ∀ (layers : List (List TargetId)) (done : List TargetId) (s : LayeredRun),
      plan.executionLayers.flatten = done ++ layers.flatten →
      LayeredInv plan intrinsic done s → s.targetIndex = done.length →
      ∃ s', layers.foldlM (LayeredRun.runLayer env false plan) s = .ok s' ∧
        LayeredInv plan intrinsic (done ++ layers.flatten) s' := by
    intro layers
    induction layers with
    | nil =>
        intro done s _ h _
        exact ⟨s, rfl, by simpa using h⟩
    | cons layer layers ih =>
        intro done s hsplit h hindex
        rw [List.flatten_cons] at hsplit
        obtain ⟨s₁, hs₁, hinv₁, hindex₁⟩ := runLayer_ok hplan hquiet h hindex hsplit
        obtain ⟨s₂, hs₂, hinv₂⟩ := ih (done ++ layer) s₁ (by simpa using hsplit) hinv₁ hindex₁
        refine ⟨s₂, ?_, by simpa using hinv₂⟩
        rw [List.foldlM_cons, hs₁]
        exact hs₂
  exact hloop plan.executionLayers [] .start rfl ⟨fun t => by simp [LayeredRun.start], rfl⟩ rfl

end

end Quiet

end Jig.Runtime

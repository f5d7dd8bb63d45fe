import Jig.Contract.Run
import Jig.Lib.TreeMap

/-!
# The structure of a run plan

`validate_run_plan_structure` (`jig-state`, `runs/lifecycle.rs`) is the gate every queued plan
passes before a run of it is recorded. `validateRunPlanStructure` follows the source loop by loop,
and `PlanStructure` says in one place what it accepts:

* no target is planned twice, no layer is empty, and the layers partition the planned targets;
* every `depends_on` entry of a planned target lies in a strictly earlier layer.

`validateRunPlanStructure_eq_ok` proves that the two agree; the schedulers and the planner are
verified against `PlanStructure` only.
-/

namespace Jig.State

open Contract Lib Std

/-! ## The validator -/

variable (plan : RunPlan)

def plannedTargets : ExtTreeSet TargetId :=
  .ofList (plan.targets.map (·.target))

abbrev TargetLayers := ExtTreeMap TargetId Nat

variable (planned : ExtTreeSet TargetId) (layers : TargetLayers)

def recordLayerTarget (entry : TargetId × Nat) : Except String TargetLayers :=
  let (target, layerIndex) := entry
  if target ∉ planned then
    .error s!"run plan execution layers reference unknown target '{target}'"
  else if target ∈ layers then
    .error s!"run plan execution layers contain duplicate target '{target}'"
  else
    .ok (layers.insert target layerIndex)

/-- The body of the loop over the layers. -/
def recordLayer (entry : List TargetId × Nat) : Except String TargetLayers :=
  let (layer, layerIndex) := entry
  if layer.isEmpty then
    .error s!"run plan execution layer {layerIndex} is empty"
  else
    (layer.map (·, layerIndex)).foldlM (recordLayerTarget planned) layers

/-- The check of one `depends_on` entry. -/
def validateDependencyLayer (target : TargetId) (targetLayer : Nat) (dependency : TargetId) :
    Except String Unit :=
  match layers[dependency]? with
  | none => .error s!"run plan target '{target}' depends on missing target '{dependency}'"
  | some dependencyLayer =>
      if dependencyLayer ≥ targetLayer then
        .error s!"run plan target '{target}' must execute after dependency '{dependency}'"
      else
        .ok ()

/-- The dependency checks of one planned target. The lookup of its own layer is an indexing
operation, which panics on a missing key. -/
def validateTargetDependencies (planned : PlannedTarget) : Except String Unit :=
  match layers[planned.target]? with
  | none => .error "no entry found for key"
  | some targetLayer =>
      planned.dependsOn.forM (validateDependencyLayer layers planned.target targetLayer)

def validateRunPlanStructure : Except String Unit := do
  let planned := plannedTargets plan
  if planned.size ≠ plan.targets.length then
    .error "run plan contains duplicate targets"
  else
    let layers ← plan.executionLayers.zipIdx.foldlM (recordLayer planned) ∅
    let missing := (planned.toList.filter (· ∉ layers)).map toString
    if !missing.isEmpty then
      .error ("run plan execution layers omit planned target(s): " ++ ", ".intercalate missing)
    else
      plan.targets.forM (validateTargetDependencies layers)

/-! ## What it accepts -/

def InLayer (t : TargetId) (i : Nat) : Prop :=
  ∃ layer, plan.executionLayers[i]? = some layer ∧ t ∈ layer

/-- The plans an execution can rely on. -/
structure PlanStructure (plan : RunPlan) : Prop where
  targets_nodup : (plan.targets.map (·.target)).Nodup
  layer_ne_nil : ∀ layer ∈ plan.executionLayers, layer ≠ []
  layers_nodup : plan.executionLayers.flatten.Nodup
  mem_layers : ∀ t, t ∈ plan.executionLayers.flatten ↔ t ∈ plan.targets.map (·.target)
  dependency_earlier : ∀ planned ∈ plan.targets, ∀ d ∈ planned.dependsOn,
    ∃ i j, InLayer plan d i ∧ InLayer plan planned.target j ∧ i < j

/-- All pairs of a target and its layer index, in layer order. -/
def layerEntries (layers : List (List TargetId × Nat)) : List (TargetId × Nat) :=
  layers.flatMap fun entry => entry.1.map (·, entry.2)

theorem layerEntries_map_fst :
    (layerEntries plan.executionLayers.zipIdx).map Prod.fst = plan.executionLayers.flatten := by
  unfold layerEntries
  simp only [List.map_flatMap, List.map_map, Function.comp_def, List.map_id']
  rw [List.flatMap_def, List.zipIdx_map_fst]

variable {plan} {t : TargetId}

theorem mem_layerEntries {i : Nat} :
    (t, i) ∈ layerEntries plan.executionLayers.zipIdx ↔ InLayer plan t i := by
  simp only [layerEntries, List.mem_flatMap, List.mem_map, Prod.mk.injEq, InLayer, Prod.exists]
  constructor
  · rintro ⟨layer, j, hlayer, s, hs, rfl, rfl⟩
    exact ⟨layer, List.mem_zipIdx_iff_getElem?.mp hlayer, hs⟩
  · rintro ⟨layer, hlayer, ht⟩
    exact ⟨layer, i, List.mem_zipIdx_iff_getElem?.mpr hlayer, t, ht, rfl, rfl⟩

/-! ## The validator accepts exactly the structured plans -/

theorem mem_plannedTargets : t ∈ plannedTargets plan ↔ t ∈ plan.targets.map (·.target) :=
  mem_treeSet_ofList

theorem recordLayerTarget_eq_ok (m : TargetLayers) (entry : TargetId × Nat) (m' : TargetLayers) :
    recordLayerTarget planned m entry = .ok m' ↔
      entry.1 ∈ planned ∧ entry.1 ∉ m ∧ m' = m.insert entry.1 entry.2 := by
  simp only [recordLayerTarget, ite_error_eq_ok, not_not, Except.ok.injEq]
  rw [eq_comm (a := m')]

/-- The two nested loops are one loop over all entries, guarded by non-empty layers. -/
theorem foldlM_recordLayer_eq_ok {planned : ExtTreeSet TargetId}
    {layers : List (List TargetId × Nat)} {m m' : TargetLayers} :
    layers.foldlM (recordLayer planned) m = .ok m' ↔
      (∀ entry ∈ layers, entry.1 ≠ []) ∧
        (layerEntries layers).foldlM (recordLayerTarget planned) m = .ok m' := by
  induction layers generalizing m with
  | nil => simp [layerEntries]
  | cons entry layers ih =>
      have hentries : layerEntries (entry :: layers) =
          entry.1.map (·, entry.2) ++ layerEntries layers := rfl
      rw [hentries, foldlM_append_eq_ok, List.forall_mem_cons]
      simp only [List.foldlM_cons, bind_eq_ok, recordLayer, ite_error_eq_ok, List.isEmpty_iff, ih]
      constructor
      · rintro ⟨mid, ⟨hne, hmid⟩, hall, hrest⟩
        exact ⟨⟨hne, hall⟩, mid, hmid, hrest⟩
      · rintro ⟨⟨hne, hall⟩, mid, hmid, hrest⟩
        exact ⟨mid, ⟨hne, hmid⟩, hall, hrest⟩

/-- When the layer loop succeeds: no empty layer, only planned targets, none twice. -/
theorem recordLayers_eq_ok {layers : TargetLayers} :
    plan.executionLayers.zipIdx.foldlM (recordLayer (plannedTargets plan)) ∅ = .ok layers ↔
      (∀ layer ∈ plan.executionLayers, layer ≠ []) ∧
        (∀ t ∈ plan.executionLayers.flatten, t ∈ plan.targets.map (·.target)) ∧
        plan.executionLayers.flatten.Nodup ∧
        layers = insertAll Prod.fst Prod.snd ∅ (layerEntries plan.executionLayers.zipIdx) := by
  have hnonempty : (∀ entry ∈ plan.executionLayers.zipIdx, entry.1 ≠ []) ↔
      ∀ layer ∈ plan.executionLayers, layer ≠ [] := by
    constructor
    · intro h layer hlayer
      obtain ⟨i, hi⟩ := List.getElem?_of_mem hlayer
      exact h (layer, i) (List.mem_zipIdx_iff_getElem?.mpr hi)
    · intro h entry hentry
      exact h entry.1 (List.mem_of_getElem? (List.mem_zipIdx_iff_getElem?.mp hentry))
  have hplanned : (∀ entry ∈ layerEntries plan.executionLayers.zipIdx,
        entry.1 ∈ plannedTargets plan) ↔
      ∀ t ∈ plan.executionLayers.flatten, t ∈ plan.targets.map (·.target) := by
    rw [← layerEntries_map_fst, List.forall_mem_map]
    simp only [mem_plannedTargets]
  rw [foldlM_recordLayer_eq_ok,
    foldlM_insertNew_eq_ok (recordLayerTarget_eq_ok _), layerEntries_map_fst, hnonempty, hplanned]
  have hfresh : ∀ entry ∈ layerEntries plan.executionLayers.zipIdx,
      entry.1 ∉ (∅ : TargetLayers) := fun _ _ => ExtTreeMap.not_mem_empty
  constructor
  · rintro ⟨h₁, h₂, h₃, _, h₄⟩
    exact ⟨h₁, h₂, h₃, h₄⟩
  · rintro ⟨h₁, h₂, h₃, h₄⟩
    exact ⟨h₁, h₂, h₃, hfresh, h₄⟩

section Accepted

variable {layers}

/-- The layer map reads back layer membership. -/
theorem getElem?_layers (hnodup : plan.executionLayers.flatten.Nodup)
    (hlayers : layers = insertAll Prod.fst Prod.snd ∅ (layerEntries plan.executionLayers.zipIdx))
    (t : TargetId) (i : Nat) : layers[t]? = some i ↔ InLayer plan t i := by
  rw [hlayers, getElem?_insertAll_empty_eq_some (by rw [layerEntries_map_fst]; exact hnodup),
    ← mem_layerEntries]
  constructor
  · rintro ⟨entry, hentry, rfl, rfl⟩
    exact hentry
  · intro hentry
    exact ⟨(t, i), hentry, rfl, rfl⟩

theorem mem_layers_iff
    (hlayers : layers = insertAll Prod.fst Prod.snd ∅ (layerEntries plan.executionLayers.zipIdx)) :
    t ∈ layers ↔ t ∈ plan.executionLayers.flatten := by
  rw [hlayers, mem_insertAll, layerEntries_map_fst]
  simp

theorem validateDependencyLayer_eq_ok (hget : ∀ t i, layers[t]? = some i ↔ InLayer plan t i)
    {target dependency : TargetId} {j : Nat} :
    validateDependencyLayer layers target j dependency = .ok () ↔
      ∃ i, InLayer plan dependency i ∧ i < j := by
  unfold validateDependencyLayer
  simp only [← hget]
  cases hdep : layers[dependency]? with
  | none => simp
  | some i => simp

theorem validateTargetDependencies_eq_ok
    (hget : ∀ t i, layers[t]? = some i ↔ InLayer plan t i) {planned : PlannedTarget}
    (hplanned : planned.target ∈ layers) :
    validateTargetDependencies layers planned = .ok () ↔
      ∀ d ∈ planned.dependsOn, ∃ i j, InLayer plan d i ∧ InLayer plan planned.target j ∧ i < j := by
  obtain ⟨j, hj⟩ : ∃ j, layers[planned.target]? = some j :=
    Option.isSome_iff_exists.mp (ExtTreeMap.mem_iff_isSome_getElem?.mp hplanned)
  have hcheck : validateTargetDependencies layers planned =
      planned.dependsOn.forM (validateDependencyLayer layers planned.target j) := by
    simp only [validateTargetDependencies, hj]
  rw [hcheck, forM_eq_ok]
  refine forall₂_congr fun d _ => ?_
  rw [validateDependencyLayer_eq_ok hget]
  constructor
  · rintro ⟨i, hi, hij⟩
    exact ⟨i, j, hi, (hget _ _).mp hj, hij⟩
  · rintro ⟨i, j', hi, hj', hij⟩
    have hsame : j' = j := Option.some.inj (((hget _ _).mpr hj').symm.trans hj)
    exact ⟨i, hi, hsame ▸ hij⟩

end Accepted

/-- **The validator accepts exactly the structured plans.** -/
theorem validateRunPlanStructure_eq_ok :
    validateRunPlanStructure plan = .ok () ↔ PlanStructure plan := by
  have hunfold : validateRunPlanStructure plan = .ok () ↔
      (plan.targets.map (·.target)).Nodup ∧
        ∃ layers, plan.executionLayers.zipIdx.foldlM (recordLayer (plannedTargets plan)) ∅ =
            .ok layers ∧
          (∀ t ∈ plan.targets.map (·.target), t ∈ layers) ∧
          ∀ planned ∈ plan.targets, validateTargetDependencies layers planned = .ok () := by
    have hsize : (plannedTargets plan).size = plan.targets.length ↔
        (plan.targets.map (·.target)).Nodup := by
      rw [← List.length_map (f := fun planned : PlannedTarget => planned.target)]
      exact size_ofList_eq_length_iff
    simp only [validateRunPlanStructure, ite_error_eq_ok, bind_eq_ok, forM_eq_ok, hsize, not_not,
      Bool.not_eq_true', Bool.not_eq_false, List.isEmpty_iff, List.map_eq_nil_iff,
      List.filter_eq_nil_iff, ExtTreeSet.mem_toList, decide_eq_true_eq, mem_plannedTargets]
  rw [hunfold]
  constructor
  · rintro ⟨hnodup, layers, hfold, hcover, hdeps⟩
    obtain ⟨hne, hknown, hflat, hlayers⟩ := recordLayers_eq_ok.mp hfold
    have hget := getElem?_layers hflat hlayers
    refine ⟨hnodup, hne, hflat, fun t => ⟨hknown t, ?_⟩, ?_⟩
    · intro ht
      exact (mem_layers_iff hlayers).mp (hcover t ht)
    · intro planned hplanned
      exact (validateTargetDependencies_eq_ok hget
        (hcover _ (List.mem_map_of_mem hplanned))).mp (hdeps planned hplanned)
  · intro h
    let layers : TargetLayers :=
      insertAll Prod.fst Prod.snd ∅ (layerEntries plan.executionLayers.zipIdx)
    have hget : ∀ t i, layers[t]? = some i ↔ InLayer plan t i := getElem?_layers h.layers_nodup rfl
    have hcover : ∀ t ∈ plan.targets.map (·.target), t ∈ layers := by
      intro t ht
      exact (mem_layers_iff rfl).mpr ((h.mem_layers t).mpr ht)
    refine ⟨h.targets_nodup, layers, recordLayers_eq_ok.mpr ⟨h.layer_ne_nil,
      fun t => (h.mem_layers t).mp, h.layers_nodup, rfl⟩, hcover, ?_⟩
    intro planned hplanned
    exact (validateTargetDependencies_eq_ok hget (hcover _ (List.mem_map_of_mem hplanned))).mpr
      (h.dependency_earlier planned hplanned)

end Jig.State

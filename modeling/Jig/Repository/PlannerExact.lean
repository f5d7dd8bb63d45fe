import Jig.Repository.CatalogValid
import Jig.Repository.Planner
import Jig.State.PlanStructure

/-!
# Plans are executable

What the planner returns for a valid catalog:

* `mem_expandActionDependencies`: expansion selects exactly the `depends_on` closure of the
  candidates;
* `executionLayers_of_closed`: on a closed set of targets the layers always exist, so that planning
  never reports a cycle;
* `plan_executable`: the layers satisfy the structure the run store insists on.
-/

namespace Jig.Repository

open Jig.Contract Jig.Lib Jig.State Std

def RepositoryCatalog.dependsOn (catalog : RepositoryCatalog) : TargetId → List TargetId :=
  dependenciesOf catalog.actions ActionSpec.dependsOn

section Planning

/-! ## Expansion -/

variable {B : Type} {libs : Libraries} {catalog : RepositoryCatalog} {selected : TargetSelection B}
  {t : TargetId} {profile : Option ProfileId} {target : TargetId}
  {candidates selected' : TargetSelection B} {reason : SelectionReason} {source : SourceIdentity}
  {prepared : PreparedRun}

theorem contains_addReason (selected : TargetSelection B) (target t : TargetId)
    (reason : SelectionReason) :
    (addReason selected target reason).contains t = (decide (target = t) || selected.contains t) := by
  rw [Bool.eq_iff_iff, Bool.or_eq_true, decide_eq_true_eq, ExtTreeMap.contains_iff_mem,
    ExtTreeMap.contains_iff_mem]
  exact mem_updateEntry

theorem expandStep_spec {pushed : List TargetId}
    (h : expandStep catalog selected target = .ok (selected', pushed)) :
    (∀ t, selected'.contains t = true ↔
        selected.contains t = true ∨ t ∈ catalog.dependsOn target) ∧
      pushed.Nodup ∧
      ∀ t, t ∈ pushed ↔ t ∈ catalog.dependsOn target ∧ selected.contains t = false := by
  unfold expandStep at h
  split at h
  · cases h
  · next action haction =>
      have hdeps : catalog.dependsOn target = action.dependsOn := dependenciesOf_eq haction
      rw [Except.ok.injEq] at h
      have hpush := foldl_pushNew (f := addDependency target)
        (fun selected t => selected.contains t) (fun _ _ => rfl)
        (fun state a b => contains_addReason state.1 a b _) selected action.dependsOn
      rw [h] at hpush
      rw [hdeps]
      exact hpush

/-- **Expansion is exact.** -/
theorem mem_expandActionDependencies {expanded : TargetSelection B}
    (h : expandActionDependencies catalog selected = .ok expanded) :
    t ∈ expanded ↔ Reachable catalog.dependsOn (· ∈ selected) t := by
  have hall : ∀ {a b : TargetId}, b ∈ catalog.dependsOn a →
      b ∈ (valuesOf catalog.actions).flatMap ActionSpec.dependsOn := by
    intro a b hb
    obtain ⟨action, haction, hb⟩ := mem_dependenciesOf.mp hb
    exact List.mem_flatMap.mpr ⟨action, mem_valuesOf.mpr ⟨a, haction⟩, hb⟩
  have hreach := worklist_reachable (fun selected t => selected.contains t) expandStep_spec
    hall (by simp [ExtTreeMap.mem_keys]) (by simp [ExtTreeMap.nodup_keys])
    (by simp) h t
  simpa only [ExtTreeMap.contains_iff_mem] using hreach

/-! ## Candidates -/

variable {targets : List TargetId} {request : PlanRunRequest} {observedInputPaths : List String}
  {changedPaths : Option (List String)} {build : List SelectionReason → B}

theorem mem_addReason : t ∈ addReason selected target reason ↔ target = t ∨ t ∈ selected :=
  mem_updateEntry

theorem mem_foldl_addReason :
    t ∈ targets.foldl (fun selected target => addReason selected target reason) selected ↔
      t ∈ targets ∨ t ∈ selected := by
  have hfold := foldl_iff_or (P := (t ∈ ·)) (f := (addReason · · reason))
    (fun _ _ => mem_addReason.trans or_comm) targets selected
  simpa [or_comm] using hfold

theorem selectProfile_defined (hvalid : catalog.Valid libs)
    (h : selectProfile catalog request profile = .ok selected) :
    ∀ t ∈ selected, t ∈ catalog.actions := by
  unfold selectProfile at h
  split at h
  · next id =>
      split at h
      · cases h
      · next spec hspec =>
          cases h
          intro t ht
          rw [mem_foldl_addReason] at ht
          exact ht.elim (hvalid.profile_targets hspec t) (by simp)
  · split at h
    · cases h
    · cases h
      simp

theorem selectExplicit_defined (hvalid : catalog.Valid libs) {selector : String}
    (hselected : ∀ t ∈ selected, t ∈ catalog.actions)
    (h : selectExplicit libs catalog selected selector = .ok selected') :
    ∀ t ∈ selected', t ∈ catalog.actions := by
  have halias : ∀ {target : TargetId}, catalog.aliases[selector]? = some target →
      ∀ t ∈ selectLegacyAlias selected selector target, t ∈ catalog.actions := by
    intro target htarget t ht
    rcases mem_addReason.mp ht with rfl | ht
    · exact hvalid.alias_target htarget
    · exact hselected t ht
  unfold selectExplicit at h
  simp only at h
  split at h
  · next htarget =>
      cases h
      exact halias htarget
  · cases h
  · next canonical _ _ _ =>
      split at h
      · next htarget =>
          cases h
          exact halias htarget
      · cases h
      · cases h
        intro t ht
        rw [mem_foldl_addReason] at ht
        rcases ht with ht | ht
        · obtain ⟨action, haction, rfl⟩ := List.mem_map.mp (List.mem_filter.mp ht).1
          obtain ⟨key, hkey⟩ := mem_valuesOf.mp haction
          rw [hvalid.action_key hkey]
          exact mem_of_getElem?_eq_some hkey
        · exact hselected t ht

/-- Affected selection only narrows. -/
theorem selectAffectedTargets_subset {changedPaths : List String}
    (h : selectAffectedTargets libs build catalog candidates changedPaths observedInputPaths =
      .ok selected) (ht : t ∈ selected) : t ∈ candidates := by
  unfold selectAffectedTargets at h
  obtain ⟨_, -, h⟩ := bind_eq_ok.mp h
  obtain ⟨_, -, h⟩ := bind_eq_ok.mp h
  obtain ⟨_, -, h⟩ := bind_eq_ok.mp h
  obtain ⟨_, -, h⟩ := bind_eq_ok.mp h
  split at h
  · unfold selectTargetLocalAffected at h
    obtain ⟨_, -, h⟩ := bind_eq_ok.mp h
    rw [pure_eq_ok] at h
    subst h
    exact ExtTreeMap.mem_of_mem_filterMap ht
  · unfold selectComponentAffected at h
    obtain ⟨_, -, h⟩ := bind_eq_ok.mp h
    rw [pure_eq_ok] at h
    subst h
    exact ExtTreeMap.mem_of_mem_filterMap ht

/-- **Candidates are defined.** -/
theorem selectCandidates_defined (hvalid : catalog.Valid libs)
    (h : selectCandidates libs build catalog request profile changedPaths observedInputPaths =
      .ok candidates) : ∀ t ∈ candidates, t ∈ catalog.actions := by
  unfold selectCandidates at h
  obtain ⟨start, hstart, h⟩ := bind_eq_ok.mp h
  obtain ⟨selected, hselected, h⟩ := bind_eq_ok.mp h
  have hdefined : ∀ t ∈ selected, t ∈ catalog.actions := by
    refine foldlM_ok_induction (fun _ selected => ∀ t ∈ selected, t ∈ catalog.actions) hselected
      (selectProfile_defined hvalid hstart) ?_
    intro _ _ _ _ _ hs hstep
    exact selectExplicit_defined hvalid hs hstep
  split at h
  · intro t ht
    exact hdefined t (selectAffectedTargets_subset h ht)
  · rw [pure_eq_ok] at h
    subst h
    exact hdefined

/-- What a plan is made of: the closure of its candidates, all of it in the catalog. -/
theorem selectTargets_eq_ok :
    selectTargets libs build catalog request profile changedPaths observedInputPaths =
        .ok selected ↔
      ∃ candidates, selectCandidates libs build catalog request profile changedPaths
          observedInputPaths = .ok candidates ∧
        expandActionDependencies catalog candidates = .ok selected := by
  unfold selectTargets
  rw [bind_eq_ok]

/-! ## Layers -/

/-- What is reachable from defined targets is defined. -/
theorem defined_of_reachable (hvalid : catalog.Valid libs) {root : TargetId → Prop}
    (hroot : ∀ t, root t → t ∈ catalog.actions) (h : Reachable catalog.dependsOn root t) :
    t ∈ catalog.actions := by
  obtain ⟨r, hr, hrt⟩ := h
  induction hrt with
  | refl => exact hroot r hr
  | tail _ hdep ih =>
      obtain ⟨action, haction, hd⟩ := mem_dependenciesOf.mp hdep
      exact hvalid.actions.defined haction _ hd

theorem selectedDependencies_of_closed (hclosed : ∀ d ∈ catalog.dependsOn t, d ∈ targets) :
    selectedDependencies catalog targets t = catalog.dependsOn t := by
  apply List.filter_eq_self.mpr
  intro d hd
  exact decide_eq_true (hclosed d hd)

/-- **Layers exist.** On a closed set of defined targets, the layers take every target as soon as
its dependencies are taken. -/
theorem executionLayers_of_closed (hvalid : catalog.Valid libs) (hnodup : targets.Nodup)
    (hdefined : ∀ t ∈ targets, t ∈ catalog.actions)
    (hclosed : ∀ t ∈ targets, ∀ d ∈ catalog.dependsOn t, d ∈ targets) :
    ∃ layers, executionLayers catalog targets = .ok layers ∧ layers.flatten.Perm targets ∧
      Peeled (selectedDependencies catalog targets) [] layers := by
  have hall : targets.all (catalog.actions.contains ·) = true := by
    rw [List.all_eq_true]
    exact hdefined
  obtain ⟨rank, hrank⟩ := hvalid.actions.ranked
  have hdeps : ∀ t ∈ targets, ∀ d ∈ selectedDependencies catalog targets t,
      d ∈ targets ∧ rank d < rank t := by
    intro t ht d hd
    rw [selectedDependencies_of_closed (hclosed t ht)] at hd
    obtain ⟨action, haction, hmem⟩ := mem_dependenciesOf.mp hd
    exact ⟨hclosed t ht d hd, hrank haction d hmem⟩
  obtain ⟨layers, hlayers⟩ := peel_of_rank rank hdeps
  obtain ⟨hpeeled, hperm⟩ := peel_eq_ok hnodup hlayers
  refine ⟨layers, ?_, hperm, hpeeled⟩
  unfold executionLayers
  rw [if_pos hall, mapError_eq_ok]
  exact hlayers

/-! ## Read-only checks -/

section ReadOnly

variable {actions : ExtTreeMap TargetId ActionSpec}

/-- What the loop over pending targets maintains: what was seen is a read-only check, and what it
depends on is seen or pending. -/
structure ReadOnlyInvariant (actions : ExtTreeMap TargetId ActionSpec)
    (targets : List TargetId) (seen : ExtTreeSet TargetId) (pending : List TargetId) :
    Prop where
  requested : ∀ t ∈ targets, t ∈ seen ∨ t ∈ pending
  checked : ∀ t ∈ seen, ∃ action, actions[t]? = some action ∧ isReadOnlyCheck action = true ∧
    ∀ d ∈ action.dependsOn, d ∈ seen ∨ d ∈ pending

/-- The dependency entries that may still be pushed. -/
def unseenDependencies (actions : ExtTreeMap TargetId ActionSpec)
    (seen : ExtTreeSet TargetId) : Nat :=
  (actions.toList.map fun entry =>
    if seen.contains entry.1 then 0 else entry.2.dependsOn.length).sum

theorem readOnlyStep_spec {pending pushed : List TargetId} {seen seen' : ExtTreeSet TargetId}
    (hinv : ReadOnlyInvariant actions targets seen (target :: pending))
    (h : readOnlyStep actions seen target = .ok (seen', pushed)) :
    ReadOnlyInvariant actions targets seen' (pushed.reverse ++ pending) ∧
      unseenDependencies actions seen' + pushed.length ≤ unseenDependencies actions seen := by
  unfold readOnlyStep at h
  split at h
  · -- a target that was seen before only leaves the worklist
    next hseen =>
      cases h
      rw [ExtTreeSet.contains_iff_mem] at hseen
      have hdrop {t : TargetId} : t ∈ seen ∨ t ∈ target :: pending → t ∈ seen ∨ t ∈ pending :=
        Visiting.found_pop [] hseen fun _ ht => ht
      refine ⟨⟨fun t ht => hdrop (hinv.requested t ht), ?_⟩, Nat.le_refl _⟩
      intro t ht
      obtain ⟨action, haction, hcheck, hdeps⟩ := hinv.checked t ht
      exact ⟨action, haction, hcheck, fun d hd => hdrop (hdeps d hd)⟩
  · next hnew =>
      split at h
      · cases h
      · next action haction =>
          simp only [then_eq_ok, bailIf_eq_ok, pure_eq_ok, Bool.not_eq_false', Prod.mk.injEq] at h
          obtain ⟨hcheck, rfl, rfl⟩ := h
          have hmem : ∀ {t}, t ∈ seen.insert target ↔ target = t ∨ t ∈ seen := mem_treeSet_insert
          have hmove {t : TargetId} : t ∈ seen ∨ t ∈ target :: pending →
              t ∈ seen.insert target ∨ t ∈ action.dependsOn.reverse ++ pending :=
            Visiting.found_pop _ (hmem.mpr (.inl rfl)) fun _ ht => hmem.mpr (.inr ht)
          refine ⟨⟨fun t ht => hmove (hinv.requested t ht), ?_⟩, ?_⟩
          · intro t ht
            rcases hmem.mp ht with rfl | ht
            · refine ⟨action, haction, hcheck, ?_⟩
              intro d hd
              exact .inr (List.mem_append_left _ (List.mem_reverse.mpr hd))
            · obtain ⟨action', haction', hcheck', hdeps⟩ := hinv.checked t ht
              exact ⟨action', haction', hcheck', fun d hd => hmove (hdeps d hd)⟩
          · have hentry : (target, action) ∈ actions.toList :=
              ExtTreeMap.mem_toList_iff_getElem?_eq_some.mpr haction
            refine sum_map_add_le ?_ hentry ?_
            · intro entry _
              rw [ExtTreeSet.contains_insert]
              grind
            · have hself : (seen.insert target).contains target = true := by simp
              simp only [hself, hnew, if_true, Bool.false_eq_true, if_false, Nat.zero_add,
                Nat.le_refl]

theorem collectByTarget_eq_ok (actions : ExtTreeMap TargetId ActionSpec) (action : ActionSpec)
    (actions' : ExtTreeMap TargetId ActionSpec) :
    collectByTarget actions action = .ok actions' ↔
      True ∧ action.target ∉ actions ∧ actions' = actions.insert action.target action := by
  unfold collectByTarget
  simp only [then_eq_ok, bailIf_eq_ok, pure_eq_ok, contains_eq_false_iff, true_and,
    eq_comm (a := actions')]

/-- **Read-only closure.** What is accepted is a set of read-only checks, with everything they
depend on. -/
theorem validateReadOnlyCheckClosure_ok {specs : List ActionSpec}
    (h : validateReadOnlyCheckClosure specs targets = .ok ()) :
    ∃ closure : List TargetId, (∀ t ∈ targets, t ∈ closure) ∧
      ∀ t ∈ closure, ∃ action ∈ specs, action.target = t ∧ isReadOnlyCheck action = true ∧
        ∀ d ∈ action.dependsOn, d ∈ closure := by
  unfold validateReadOnlyCheckClosure at h
  obtain ⟨actions, hactions, h⟩ := bind_eq_ok.mp h
  obtain ⟨seen, hseen, -⟩ := bind_eq_ok.mp h
  have hinv : ReadOnlyInvariant actions targets seen [] := by
    refine worklist_induction (ReadOnlyInvariant actions targets) (unseenDependencies actions)
      (fun hinv hstep => readOnlyStep_spec hinv hstep) ⟨?_, by simp⟩ ?_ hseen
    · intro t ht
      exact .inr (List.mem_reverse.mpr ht)
    · -- every dependency entry is pushed at most once
      have hweight : unseenDependencies actions ∅ ≤
          ((valuesOf actions).flatMap ActionSpec.dependsOn).length := by
        rw [List.length_flatMap, valuesOf, List.map_map]
        exact List.sum_le_sum fun _ _ => by simp
      rw [List.length_reverse]
      omega
  refine ⟨seen.toList, ?_, ?_⟩
  · intro t ht
    rw [ExtTreeSet.mem_toList]
    exact (hinv.requested t ht).resolve_right List.not_mem_nil
  · intro t ht
    rw [ExtTreeSet.mem_toList] at ht
    obtain ⟨action, haction, hcheck, hdeps⟩ := hinv.checked t ht
    obtain ⟨-, hnodup, -, rfl⟩ := (foldlM_insertNew_eq_ok collectByTarget_eq_ok).mp hactions
    obtain ⟨spec, hspec, hkey, rfl⟩ := (getElem?_insertAll_empty_eq_some hnodup).mp haction
    refine ⟨spec, hspec, hkey, hcheck, ?_⟩
    intro d hd
    rw [ExtTreeSet.mem_toList]
    exact (hdeps d hd).resolve_right List.not_mem_nil

end ReadOnly

/-! ## Plans -/

variable {arguments : ExtTreeMap TargetId ActionArguments}

/-- What a planned target takes over from the selection and the catalog. -/
theorem plannedTarget_eq_ok {entry : TargetId × TargetSelectionReasons SelectionReasonBatch}
    {planned : PlannedTarget} (h : plannedTarget libs catalog source arguments entry = .ok planned) :
    planned.target = entry.1 ∧ ∃ action, catalog.actions[entry.1]? = some action ∧
      planned.dependsOn = action.dependsOn ∧ planned.effects = action.effects ∧
      planned.intent = action.intent := by
  unfold plannedTarget selectedAction at h
  obtain ⟨action, haction, h⟩ := bind_eq_ok.mp h
  obtain ⟨bounded, -, h⟩ := bind_eq_ok.mp h
  rw [pure_eq_ok] at h
  subst h
  exact ⟨rfl, action, expect_eq_ok.mp haction, rfl, rfl, rfl⟩

/-- The parts of an assembled plan that execution relies on. -/
theorem assemblePlan_eq_ok {layers : List (List TargetId)} {plan : RunPlan}
    (h : assemblePlan libs catalog source prepared layers = .ok plan) :
    plan.executionLayers = layers ∧
      plan.targets.map (·.target) = prepared.selected.keys ∧
      (∀ planned ∈ plan.targets, ∃ action, catalog.actions[planned.target]? = some action ∧
        planned.dependsOn = action.dependsOn ∧ planned.effects = action.effects ∧
        planned.intent = action.intent) ∧
      ∀ effect, effect ∈ plan.effects ↔ ∃ planned ∈ plan.targets, effect ∈ planned.effects := by
  unfold assemblePlan at h
  obtain ⟨targets, htargets, h⟩ := bind_eq_ok.mp h
  rw [pure_eq_ok] at h
  subst h
  rw [mapM_eq_ok] at htargets
  refine ⟨rfl, ?_, ?_, ?_⟩
  · rw [← ExtTreeMap.map_fst_toList_eq_keys]
    symm
    exact forall₂_map_eq_map htargets fun _ _ h => (plannedTarget_eq_ok h).1.symm
  · intro planned hplanned
    obtain ⟨entry, -, hentry⟩ := forall₂_exists_left htargets hplanned
    obtain ⟨htarget, action, haction, hrest⟩ := plannedTarget_eq_ok hentry
    exact ⟨action, htarget ▸ haction, hrest⟩
  · intro effect
    show effect ∈ (ExtTreeSet.ofList _).toList ↔ _
    rw [ExtTreeSet.mem_toList, mem_treeSet_ofList, List.mem_flatMap]

/-- Layers that were peeled from the dependencies of a plan's targets have the structure that
execution asks for. -/
theorem planStructure_of_peeled {plan : RunPlan} {deps : TargetId → List TargetId}
    (hnodup : (plan.targets.map (·.target)).Nodup)
    (hpeeled : Peeled deps [] plan.executionLayers)
    (hperm : plan.executionLayers.flatten.Perm (plan.targets.map (·.target)))
    (hdeps : ∀ planned ∈ plan.targets, planned.dependsOn = deps planned.target) :
    PlanStructure plan where
  targets_nodup := hnodup
  layer_ne_nil := hpeeled.ne_nil
  layers_nodup := hperm.nodup_iff.mpr hnodup
  mem_layers _ := hperm.mem_iff
  dependency_earlier := by
    intro planned hplanned d hd
    have hmem : planned.target ∈ plan.executionLayers.flatten :=
      hperm.mem_iff.mpr (List.mem_map_of_mem hplanned)
    rw [hdeps planned hplanned] at hd
    obtain ⟨hd, hlt⟩ :=
      ((hpeeled.layerIndex_spec hmem).1 d hd).resolve_left List.not_mem_nil
    exact ⟨_, _, getElem?_layerIndex hd, getElem?_layerIndex hmem, hlt⟩

section

variable {policy : PlanningPolicy}
  (h : prepareRun libs catalog request changedPaths observedInputPaths arguments policy =
    .ok prepared)

include h

/-- The parts of a prepared run. -/
theorem prepareRun_eq_ok :
    normalizeRequest catalog request changedPaths = .ok prepared.request ∧
      selectedProfile libs catalog prepared.request = .ok prepared.profile ∧
      validatePolicy catalog prepared.request prepared.selected.keys policy = .ok () ∧
      ∃ candidates, selectCandidates libs (SelectionReasonBatch.fromReasons libs) catalog
          prepared.request prepared.profile changedPaths observedInputPaths = .ok candidates ∧
        expandActionDependencies catalog candidates = .ok prepared.selected := by
  unfold prepareRun at h
  obtain ⟨request', hrequest, h⟩ := bind_eq_ok.mp h
  obtain ⟨profile, hprofile, h⟩ := bind_eq_ok.mp h
  obtain ⟨selected, hselected, h⟩ := bind_eq_ok.mp h
  obtain ⟨hpolicy, h⟩ := then_eq_ok.mp h
  obtain ⟨bound, -, h⟩ := bind_eq_ok.mp h
  rw [pure_eq_ok] at h
  subst h
  exact ⟨hrequest, hprofile, hpolicy, selectTargets_eq_ok.mp hselected⟩

/-- **After preparation, layers exist.** -/
theorem executionLayers_of_prepared (hvalid : catalog.Valid libs) :
    (∀ t ∈ prepared.selected, ∀ d ∈ catalog.dependsOn t, d ∈ prepared.selected) ∧
      ∃ layers, executionLayers catalog prepared.selected.keys = .ok layers ∧
        layers.flatten.Perm prepared.selected.keys ∧
        Peeled (selectedDependencies catalog prepared.selected.keys) [] layers := by
  obtain ⟨-, -, -, candidates, hcandidates, hexpand⟩ := prepareRun_eq_ok h
  have hdefined := selectCandidates_defined hvalid hcandidates
  have hclosed : ∀ t ∈ prepared.selected, ∀ d ∈ catalog.dependsOn t, d ∈ prepared.selected := by
    intro t ht d hd
    rw [mem_expandActionDependencies hexpand] at ht ⊢
    obtain ⟨r, hr, hrt⟩ := ht
    exact ⟨r, hr, hrt.tail hd⟩
  refine ⟨hclosed, executionLayers_of_closed hvalid ExtTreeMap.nodup_keys ?_ ?_⟩
  · intro t ht
    rw [ExtTreeMap.mem_keys, mem_expandActionDependencies hexpand] at ht
    exact defined_of_reachable hvalid hdefined ht
  · intro t ht d hd
    rw [ExtTreeMap.mem_keys] at ht ⊢
    exact hclosed t ht d hd

end

/-- **Outcomes.** Planning against a valid catalog fails before or after the layers, or it returns
the assembled plan. -/
theorem planRunWithSourceAndPaths_cases (hvalid : catalog.Valid libs) (request : PlanRunRequest)
    (source : SourceIdentity) (changedPaths : Option (List String))
    (observedInputPaths : List String) (arguments : ExtTreeMap TargetId ActionArguments)
    (policy : PlanningPolicy) :
    (∃ e, planRunWithSourceAndPaths libs catalog request source changedPaths observedInputPaths
        arguments policy = .error (.failure e)) ∨
      ∃ prepared layers plan, prepareRun libs catalog request changedPaths observedInputPaths
          arguments policy = .ok prepared ∧
        executionLayers catalog prepared.selected.keys = .ok layers ∧
        assemblePlan libs catalog source prepared layers = .ok plan ∧
        planRunWithSourceAndPaths libs catalog request source changedPaths observedInputPaths
          arguments policy = .ok plan := by
  unfold planRunWithSourceAndPaths
  cases hprepare : prepareRun libs catalog request changedPaths observedInputPaths arguments
      policy with
  | error e => exact .inl ⟨e, rfl⟩
  | ok prepared =>
      obtain ⟨-, layers, hlayers, -, -⟩ := executionLayers_of_prepared hprepare hvalid
      cases hplan : assemblePlan libs catalog source prepared layers with
      | error e =>
          left
          refine ⟨e, ?_⟩
          simp only [Except.mapError, bind, Except.bind, hlayers, hplan]
      | ok plan =>
          right
          refine ⟨prepared, layers, plan, rfl, hlayers, hplan, ?_⟩
          simp only [Except.mapError, bind, Except.bind, hlayers, hplan]

/-- **Plans are executable.** For a catalog `from_native_with_ignore` accepted and any request: a
plan holds exactly the `depends_on` closure of the selected candidates, the run store accepts its
structure, and each target lies one layer after the last of its dependencies. Planning never fails
with a cycle among the selected targets. -/
theorem plan_executable {contractVersion : Nat} {configDigest : String}
    {componentSpecs : List ComponentSpec} {actionSpecs : List ActionSpec}
    {profileSpecs : List ProfileSpec} {defaultCheckProfile : Option ProfileId}
    {affectedIgnore : List String}
    (hcatalog : fromNativeWithIgnore libs contractVersion configDigest componentSpecs actionSpecs
      profileSpecs defaultCheckProfile affectedIgnore = .ok catalog)
    (request : PlanRunRequest) (source : SourceIdentity) (changedPaths : Option (List String))
    (observedInputPaths : List String) (arguments : ExtTreeMap TargetId ActionArguments)
    (policy : PlanningPolicy) :
    (∀ plan, planRunWithSourceAndPaths libs catalog request source changedPaths observedInputPaths
        arguments policy = .ok plan →
      (∃ request' profile candidates, normalizeRequest catalog request changedPaths = .ok request' ∧
        selectedProfile libs catalog request' = .ok profile ∧
        selectCandidates libs (SelectionReasonBatch.fromReasons libs) catalog request' profile
          changedPaths observedInputPaths = .ok candidates ∧
        ∀ t, t ∈ plan.targets.map (·.target) ↔ Reachable catalog.dependsOn (· ∈ candidates) t) ∧
      validateRunPlanStructure plan = .ok () ∧
      ∀ planned ∈ plan.targets, layerIndex plan.executionLayers planned.target =
        planned.dependsOn.foldr (fun d m => max (layerIndex plan.executionLayers d + 1) m) 0) ∧
    ∀ remaining, planRunWithSourceAndPaths libs catalog request source changedPaths
      observedInputPaths arguments policy ≠ .error (.executionCycle remaining) := by
  have hvalid := fromNativeWithIgnore_valid hcatalog
  rcases planRunWithSourceAndPaths_cases hvalid request source changedPaths observedInputPaths
    arguments policy with ⟨e, hfail⟩ | ⟨prepared, layers, plan, hprepare, hlayers, hplan, hok⟩
  · rw [hfail]
    exact ⟨fun _ h => (nomatch h), fun _ h => (nomatch h)⟩
  rw [hok]
  refine ⟨?_, fun _ h => (nomatch h)⟩
  intro plan' hplan'
  obtain rfl := Except.ok.inj hplan'
  obtain ⟨hrequest, hprofile, -, candidates, hcandidates, hexpand⟩ := prepareRun_eq_ok hprepare
  obtain ⟨hclosed, layers', hlayers', hperm, hpeeled⟩ := executionLayers_of_prepared hprepare hvalid
  obtain rfl := Except.ok.inj (hlayers.symm.trans hlayers')
  obtain ⟨rfl, htargets, hactions, -⟩ := assemblePlan_eq_ok hplan
  -- the peeled dependencies are the `depends_on` entries, since the selection is closed
  have hdeps : ∀ planned ∈ plan.targets, planned.dependsOn =
      selectedDependencies catalog prepared.selected.keys planned.target := by
    intro planned hplanned
    obtain ⟨action, haction, hdepends, -, -⟩ := hactions planned hplanned
    have hmem : planned.target ∈ prepared.selected := by
      rw [← ExtTreeMap.mem_keys, ← htargets]
      exact List.mem_map_of_mem hplanned
    rw [selectedDependencies_of_closed, hdepends]
    · exact (dependenciesOf_eq haction).symm
    · intro d hd
      rw [ExtTreeMap.mem_keys]
      exact hclosed _ hmem d hd
  rw [← htargets] at hperm
  refine ⟨⟨_, _, candidates, hrequest, hprofile, hcandidates, ?_⟩, ?_, ?_⟩
  · intro t
    rw [htargets, ExtTreeMap.mem_keys, mem_expandActionDependencies hexpand]
  · rw [validateRunPlanStructure_eq_ok]
    apply planStructure_of_peeled _ hpeeled hperm hdeps
    rw [htargets]
    exact ExtTreeMap.nodup_keys
  · intro planned hplanned
    rw [hdeps planned hplanned]
    exact hpeeled.layerIndex_eq (hperm.mem_iff.mpr (List.mem_map_of_mem hplanned))

/-- **A plan of checks changes nothing.** Under `ChecksOnly` every target of a plan, also one that
was only depended on, is a read-only check, and neither a target nor the plan has an effect on the
worktree or outside of the repository. -/
theorem checksOnly_plan_readOnly (hvalid : catalog.Valid libs) {plan : RunPlan}
    (hplan : planRunWithSourceAndPaths libs catalog request source changedPaths observedInputPaths
      arguments .checksOnly = .ok plan) :
    (∀ planned ∈ plan.targets, planned.intent = .check ∧ .readOnly ∈ planned.effects ∧
        .worktree ∉ planned.effects ∧ .external ∉ planned.effects) ∧
      .worktree ∉ plan.effects ∧ .external ∉ plan.effects := by
  rcases planRunWithSourceAndPaths_cases hvalid request source changedPaths observedInputPaths
    arguments .checksOnly with ⟨e, hfail⟩ | ⟨prepared, layers, plan', hprepare, -, hassemble, hok⟩
  · rw [hfail] at hplan
    cases hplan
  obtain rfl := Except.ok.inj (hok.symm.trans hplan)
  obtain ⟨-, htargets, hactions, heffects⟩ := assemblePlan_eq_ok hassemble
  obtain ⟨-, -, hpolicy, -⟩ := prepareRun_eq_ok hprepare
  obtain ⟨closure, hselected, hclosure⟩ := validateReadOnlyCheckClosure_ok hpolicy
  -- the action that was checked is the one that the catalog has for the target
  have hcheck : ∀ planned ∈ plan'.targets, planned.intent = .check ∧ .readOnly ∈ planned.effects ∧
      .worktree ∉ planned.effects ∧ .external ∉ planned.effects := by
    intro planned hplanned
    obtain ⟨action, haction, -, hsame, hintent⟩ := hactions planned hplanned
    obtain ⟨spec, hspec, hname, hread, -⟩ := hclosure planned.target
      (hselected _ (htargets ▸ List.mem_map_of_mem hplanned))
    obtain ⟨key, hkey⟩ := mem_valuesOf.mp hspec
    rw [← hvalid.action_key hkey, hname, haction, Option.some.injEq] at hkey
    subst hkey
    rw [hsame, hintent]
    simpa [isReadOnlyCheck, and_assoc] using hread
  simp only [heffects, not_exists, not_and]
  exact ⟨hcheck, fun planned h => (hcheck planned h).2.2.1,
    fun planned h => (hcheck planned h).2.2.2⟩

end Planning

/-! ## A small catalog -/

namespace Sample

def api : ComponentId := ⟨"api", by decide⟩

def lint : TargetId := ⟨api, ⟨"lint", by decide⟩⟩

def test : TargetId := ⟨api, ⟨"test", by decide⟩⟩

def verify : ProfileId := ⟨"verify", by decide⟩

/-- A check of the component that runs a command and depends on others. -/
def check (target : TargetId) (dependsOn : List TargetId) : ActionSpec where
  target
  intent := .check
  effects := [.readOnly]
  runner := .command "make" none ∅
  dependsOn

def catalog : Result RepositoryCatalog :=
  fromNativeWithIgnore .literal 7 "sha256:config" [{ id := api, root := "." }]
    [check lint [], check test [lint]] [⟨verify, [test]⟩] (some verify) []

def plan (catalog : RepositoryCatalog) : Except PlanError RunPlan :=
  planRunWithSourceAndPaths .literal catalog { selectors := [" api:test "] } ⟨none, "tree"⟩ none []
    ∅ .checksOnly

end Sample

theorem plan_executable_sample :
    ∃ catalog plan, Sample.catalog = .ok catalog ∧ Sample.plan catalog = .ok plan ∧
      plan.executionLayers = [[Sample.lint], [Sample.test]] ∧
      validateRunPlanStructure plan = .ok () := by
  have hrun : isOkAnd Sample.catalog (fun catalog => isOkAnd (Sample.plan catalog) fun plan =>
      decide (plan.executionLayers = [[Sample.lint], [Sample.test]])) = true := by decide +kernel
  obtain ⟨catalog, hcatalog, hrun⟩ := exists_of_isOkAnd hrun
  obtain ⟨plan, hplan, hlayers⟩ := exists_of_isOkAnd hrun
  have hexecutable := (plan_executable hcatalog _ _ _ _ _ _).1 plan hplan
  exact ⟨catalog, plan, hcatalog, hplan, of_decide_eq_true hlayers, hexecutable.2.1⟩

/-- The lint, which nobody asked for, is among the checks of the plan. -/
theorem checksOnly_plan_readOnly_sample : ∃ catalog plan, Sample.catalog = .ok catalog ∧
    Sample.plan catalog = .ok plan ∧ plan.targets.length = 2 ∧ .worktree ∉ plan.effects := by
  have hrun : isOkAnd Sample.catalog (fun catalog => isOkAnd (Sample.plan catalog) fun plan =>
      decide (plan.targets.length = 2)) = true := by decide +kernel
  obtain ⟨catalog, hcatalog, hrun⟩ := exists_of_isOkAnd hrun
  obtain ⟨plan, hplan, hlength⟩ := exists_of_isOkAnd hrun
  exact ⟨catalog, plan, hcatalog, hplan, of_decide_eq_true hlength,
    (checksOnly_plan_readOnly (fromNativeWithIgnore_valid hcatalog) hplan).2.1⟩

end Jig.Repository

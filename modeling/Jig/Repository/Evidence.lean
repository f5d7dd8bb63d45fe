import Jig.Repository.Planner
import Jig.Repository.Propagation

/-!
# The evidence behind a selection

Selection never looks inside the batches of reasons it hands around. `selectTargets_map` says so:
the selection with one kind of batch is the selection with another kind, batch by batch. The bounded
batches of the source therefore stand for the full lists of reasons, which are the batches of the
same selection built by `id`.

`Evident` is what holds of the full reasons of every selected target: its batches are ordered, list
only path reasons, and no reason is listed twice.
-/

namespace Jig.Repository

open Jig.Contract Jig.Lib Std

/-! ## Batches are opaque -/

section Naturality

variable {B C : Type} (f : B → C) {build : List SelectionReason → B} {libs : Libraries}
  {catalog : RepositoryCatalog}

def TargetSelectionReasons.mapBatches (reasons : TargetSelectionReasons B) :
    TargetSelectionReasons C where
  explicit := reasons.explicit
  batches := reasons.batches.map f

def TargetSelection.mapBatches (selected : TargetSelection B) : TargetSelection C :=
  selected.map fun _ => TargetSelectionReasons.mapBatches f

def Propagation.mapBatches (state : Propagation B) : Propagation C where
  seen := state.seen
  propagated := state.propagated.map fun _ => List.map f

def AffectedReasonBatches.mapBatches (batches : AffectedReasonBatches B) :
    AffectedReasonBatches C where
  direct := batches.direct.map fun _ => f
  propagated := batches.propagated.map fun _ => List.map f

theorem Propagation.pass_map (batch : B) (state : Propagation B × List ComponentId)
    (dependent : ComponentId) :
    Propagation.pass (f batch) (Prod.map (Propagation.mapBatches f) id state) dependent =
      Prod.map (Propagation.mapBatches f) id (Propagation.pass batch state dependent) := by
  unfold Propagation.pass
  show (if state.1.seen.contains dependent then _ else _) = _
  by_cases hseen : state.1.seen.contains dependent
  · rw [if_pos hseen, if_pos hseen]
  · rw [if_neg hseen, if_neg hseen]
    simp only [Prod.map, Propagation.mapBatches, id_eq]
    rw [map_updateEntry (g := (· ++ [f batch])) _ _ _ (by simp)]
    rfl

theorem Propagation.step_map (catalog : RepositoryCatalog) (batch : B) (state : Propagation B)
    (pending : ComponentId) :
    Propagation.step catalog (dependentsOf catalog) (f batch) (state.mapBatches f) pending =
      (Propagation.step catalog (dependentsOf catalog) batch state pending).map
        (Prod.map (Propagation.mapBatches f) id) := by
  unfold Propagation.step
  cases catalog.components[pending]? with
  | none => rfl
  | some component =>
      show (if component.propagateAffectedToDependents then _ else _) =
        Except.map _ (if component.propagateAffectedToDependents then _ else _)
      by_cases hflag : component.propagateAffectedToDependents = true
      · rw [if_pos hflag, if_pos hflag]
        have hfold : ((dependentsOf catalog).lookup pending).toList.foldl
            (Propagation.pass (f batch)) (Prod.map (Propagation.mapBatches f) id (state, [])) = _ :=
          List.foldl_hom (Prod.map (Propagation.mapBatches f) id) (Propagation.pass_map f batch)
        exact congrArg Except.ok hfold
      · rw [if_neg hflag, if_neg hflag]
        rfl

theorem propagateOrigin_map (batches : AffectedReasonBatches B) (entry : Origin) :
    propagateOrigin (f ∘ build) catalog (batches.mapBatches f) entry =
      (propagateOrigin build catalog batches entry).map (AffectedReasonBatches.mapBatches f) := by
  obtain ⟨origin, paths⟩ := entry
  let spread := worklist (Propagation.step catalog (dependentsOf catalog)
      (build (dependencyReasons (origin, paths)))) ((valuesOf catalog.components).length + 1)
    { seen := {origin}, propagated := batches.propagated } [origin]
  have hspread : worklist (Propagation.step catalog (dependentsOf catalog)
      (f (build (dependencyReasons (origin, paths))))) ((valuesOf catalog.components).length + 1)
      (Propagation.mapBatches f { seen := {origin}, propagated := batches.propagated }) [origin] =
        spread.map (Propagation.mapBatches f) :=
    worklist_map_comm (Propagation.step_map f catalog _) _ _ _
  show (worklist (Propagation.step catalog (dependentsOf catalog)
      (f (build (dependencyReasons (origin, paths))))) ((valuesOf catalog.components).length + 1)
      (Propagation.mapBatches f { seen := {origin}, propagated := batches.propagated })
        [origin] >>= _) = Except.map _ (spread >>= _)
  rw [hspread]
  cases spread with
  | error e => rfl
  | ok state =>
      apply congrArg Except.ok
      simp only [AffectedReasonBatches.mapBatches, map_insert]
      rfl

theorem affectedReasonBatches_map (direct : Multimap ComponentId String) :
    affectedReasonBatches (f ∘ build) catalog direct =
      (affectedReasonBatches build catalog direct).map (AffectedReasonBatches.mapBatches f) := by
  unfold affectedReasonBatches
  have hstart : ({} : AffectedReasonBatches C) = AffectedReasonBatches.mapBatches f {} := by
    unfold AffectedReasonBatches.mapBatches
    simp
  rw [hstart]
  exact foldlM_map_comm (propagateOrigin_map f)

/-! ### Narrowing -/

variable (evidence : AffectedEvidence B)

def AffectedEvidence.mapBatches : AffectedEvidence C where
  authorityPaths := evidence.authorityPaths
  unclaimed := evidence.unclaimed.map f
  direct := fun target => (evidence.direct target).map f
  propagated := evidence.propagated.map fun _ => List.map f

theorem TargetSelectionReasons.attach_map (reasons : TargetSelectionReasons B) (batch : B) :
    (reasons.mapBatches f).attach (f batch) = (reasons.attach batch).mapBatches f := by
  simp [TargetSelectionReasons.attach, TargetSelectionReasons.mapBatches]

theorem foldl_attach_map (batches : List B) (reasons : TargetSelectionReasons B) :
    (batches.map f).foldl TargetSelectionReasons.attach (reasons.mapBatches f) =
      (batches.foldl TargetSelectionReasons.attach reasons).mapBatches f := by
  rw [List.foldl_map]
  exact List.foldl_hom (TargetSelectionReasons.mapBatches f)
    (TargetSelectionReasons.attach_map f)

theorem AffectedEvidence.narrow_map (target : TargetId) (reasons : TargetSelectionReasons B) :
    (evidence.mapBatches f).narrow target (reasons.mapBatches f) =
      (evidence.narrow target reasons).map (TargetSelectionReasons.mapBatches f) := by
  have hauthority : ∀ (paths : List String),
      paths.foldl (fun reasons path => reasons.insert (.directInput path)) (reasons.mapBatches f) =
        (paths.foldl (fun reasons path => reasons.insert (.directInput path)) reasons).mapBatches
          f := by
    intro paths
    exact List.foldl_hom (TargetSelectionReasons.mapBatches f) fun _ _ => rfl
  have hbatches : (evidence.mapBatches f).unclaimed.toList ++
      ((evidence.mapBatches f).direct target).toList ++
        (evidence.mapBatches f).propagated[target.component]?.getD [] =
      (evidence.unclaimed.toList ++ (evidence.direct target).toList ++
        evidence.propagated[target.component]?.getD []).map f := by
    simp only [AffectedEvidence.mapBatches, List.map_append, Option.toList_map,
      ExtTreeMap.getElem?_map]
    cases evidence.propagated[target.component]? <;> rfl
  unfold AffectedEvidence.narrow
  simp only [hbatches]
  simp only [AffectedEvidence.mapBatches, hauthority, foldl_attach_map, Option.isSome_map,
    ExtTreeMap.getElem?_map]
  split <;> rfl

theorem AffectedEvidence.filterMap_narrow_map (candidates : TargetSelection B) :
    (candidates.mapBatches f).filterMap (evidence.mapBatches f).narrow =
      TargetSelection.mapBatches f (candidates.filterMap evidence.narrow) := by
  apply ExtTreeMap.ext_getElem?
  intro target
  unfold TargetSelection.mapBatches
  rw [ExtTreeMap.getElem?_filterMap', ExtTreeMap.getElem?_map,
    ExtTreeMap.getElem?_map, ExtTreeMap.getElem?_filterMap']
  cases candidates[target]? with
  | none => rfl
  | some reasons => exact evidence.narrow_map f target reasons

theorem unclaimedBatch_map (paths : List String) :
    unclaimedBatch (f ∘ build) paths = (unclaimedBatch build paths).map f := by
  unfold unclaimedBatch
  split <;> rfl

variable (candidates : TargetSelection B) (matchers : TargetInputMatcherV1)
  (paths authorityPaths : ExtTreeSet String)

theorem selectTargetLocalAffected_map :
    selectTargetLocalAffected libs (f ∘ build) catalog (candidates.mapBatches f) matchers paths
        authorityPaths =
      (selectTargetLocalAffected libs build catalog candidates matchers paths
        authorityPaths).map (TargetSelection.mapBatches f) := by
  unfold selectTargetLocalAffected
  simp only [affectedReasonBatches_map, unclaimedBatch_map]
  generalize affectedReasonBatches build catalog _ = batches
  cases batches with
  | error e => rfl
  | ok batches =>
      apply congrArg Except.ok
      rw [← AffectedEvidence.filterMap_narrow_map]
      simp only [AffectedEvidence.mapBatches, Option.map_map]
      rfl

theorem selectComponentAffected_map :
    selectComponentAffected libs (f ∘ build) catalog (candidates.mapBatches f) matchers paths
        authorityPaths =
      (selectComponentAffected libs build catalog candidates matchers paths
        authorityPaths).map (TargetSelection.mapBatches f) := by
  unfold selectComponentAffected
  simp only [affectedReasonBatches_map, unclaimedBatch_map]
  generalize affectedReasonBatches build catalog _ = batches
  cases batches with
  | error e => rfl
  | ok batches =>
      apply congrArg Except.ok
      rw [← AffectedEvidence.filterMap_narrow_map]
      simp only [AffectedEvidence.mapBatches, AffectedReasonBatches.mapBatches,
        ExtTreeMap.getElem?_map]

theorem selectAffectedTargets_map (changedPaths observedInputPaths : List String) :
    selectAffectedTargets libs (f ∘ build) catalog (candidates.mapBatches f) changedPaths
        observedInputPaths =
      (selectAffectedTargets libs build catalog candidates changedPaths observedInputPaths).map
        (TargetSelection.mapBatches f) := by
  unfold selectAffectedTargets
  simp only [selectTargetLocalAffected_map, selectComponentAffected_map]
  -- the four steps before the branch do not mention batches
  show _ = TargetSelection.mapBatches f <$> _
  simp only [map_bind]
  refine bind_congr fun changed => bind_congr fun matchers => bind_congr fun observed =>
    bind_congr fun ignored => ?_
  split <;> rfl

/-! ## Candidates and dependencies -/

variable (selected : TargetSelection B) (target : TargetId) (reason : SelectionReason)

theorem addReason_map :
    addReason (selected.mapBatches f) target reason =
      TargetSelection.mapBatches f (addReason selected target reason) := by
  unfold addReason TargetSelection.mapBatches
  rw [map_updateEntry (g := (·.insert reason))]
  · rfl
  · exact fun _ => rfl

theorem foldl_addReason_map (targets : List TargetId) :
    targets.foldl (fun selected target => addReason selected target reason)
        (selected.mapBatches f) =
      TargetSelection.mapBatches f
        (targets.foldl (fun selected target => addReason selected target reason) selected) :=
  List.foldl_hom (TargetSelection.mapBatches f) fun selected target =>
    addReason_map f selected target reason

theorem mapBatches_empty : TargetSelection.mapBatches f (∅ : TargetSelection B) = ∅ := by
  unfold TargetSelection.mapBatches
  simp

variable (request : PlanRunRequest) (profile : Option ProfileId)

theorem selectProfile_map :
    (selectProfile catalog request profile : Result (TargetSelection C)) =
      (selectProfile catalog request profile : Result (TargetSelection B)).map
        (TargetSelection.mapBatches f) := by
  cases profile with
  | none =>
      simp only [selectProfile]
      split
      · rfl
      · exact congrArg Except.ok (mapBatches_empty f).symm
  | some id =>
      simp only [selectProfile]
      cases hprofile : catalog.profiles[id]? with
      | none => rfl
      | some profile =>
          apply congrArg Except.ok
          rw [← foldl_addReason_map, mapBatches_empty]

theorem selectExplicit_map (selector : String) :
    selectExplicit libs catalog (selected.mapBatches f) selector =
      (selectExplicit libs catalog selected selector).map (TargetSelection.mapBatches f) := by
  unfold selectExplicit selectLegacyAlias
  simp only [addReason_map, foldl_addReason_map]
  cases RepositorySelector.parse libs selector with
  | error e => cases catalog.aliases[selector]? <;> rfl
  | ok canonical =>
      dsimp only
      generalize ((valuesOf catalog.actions).map ActionSpec.target).filter canonical.matches =
        matching
      cases matching with
      | nil => cases catalog.aliases[selector]? <;> rfl
      | cons target targets => rfl

variable (changedPaths : Option (List String)) (observedInputPaths : List String)

theorem selectCandidates_map :
    selectCandidates libs (f ∘ build) catalog request profile changedPaths observedInputPaths =
      (selectCandidates libs build catalog request profile changedPaths observedInputPaths).map
        (TargetSelection.mapBatches f) := by
  unfold selectCandidates
  rw [selectProfile_map f]
  show (TargetSelection.mapBatches f <$> _ >>= _) = TargetSelection.mapBatches f <$> _
  rw [bind_map_left, map_bind]
  refine bind_congr fun start => ?_
  rw [foldlM_map_comm (selectExplicit_map f)]
  show (TargetSelection.mapBatches f <$> _ >>= _) = _
  rw [bind_map_left, map_bind]
  refine bind_congr fun selected => ?_
  cases changedPaths with
  | none => rfl
  | some changedPaths => exact selectAffectedTargets_map f _ _ _

theorem contains_mapBatches :
    (selected.mapBatches f).contains target = selected.contains target := by
  unfold TargetSelection.mapBatches
  rw [ExtTreeMap.contains_map]

theorem addDependency_map (state : TargetSelection B × List TargetId) (dependency : TargetId) :
    addDependency target (Prod.map (TargetSelection.mapBatches f) id state) dependency =
      Prod.map (TargetSelection.mapBatches f) id (addDependency target state dependency) := by
  simp only [addDependency, Prod.map, addReason_map, contains_mapBatches, id_eq]

theorem expandStep_map :
    expandStep catalog (selected.mapBatches f) target =
      (expandStep catalog selected target).map (Prod.map (TargetSelection.mapBatches f) id) := by
  unfold expandStep
  cases catalog.actions[target]? with
  | none => rfl
  | some action =>
      have hfold : action.dependsOn.foldl (addDependency target)
          (Prod.map (TargetSelection.mapBatches f) id (selected, [])) = _ :=
        List.foldl_hom (Prod.map (TargetSelection.mapBatches f) id) (addDependency_map f target)
      exact congrArg Except.ok hfold

/-- **Batches are opaque to selection.** -/
theorem selectTargets_map :
    selectTargets libs (f ∘ build) catalog request profile changedPaths observedInputPaths =
      (selectTargets libs build catalog request profile changedPaths observedInputPaths).map
        (TargetSelection.mapBatches f) := by
  unfold selectTargets
  rw [selectCandidates_map]
  show (TargetSelection.mapBatches f <$> _ >>= _) = TargetSelection.mapBatches f <$> _
  rw [bind_map_left, map_bind]
  refine bind_congr fun candidates => ?_
  unfold expandActionDependencies
  have hkeys : (candidates.mapBatches f).keys = candidates.keys := ExtTreeMap.keys_map
  rw [hkeys]
  exact worklist_map_comm (expandStep_map f) _ _ _

end Naturality

end Jig.Repository

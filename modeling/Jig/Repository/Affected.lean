import Jig.Lib.Multimap
import Jig.Repository.Catalog
import Jig.Repository.Reasons

/-!
# Affected selection

`select_affected_targets` of `jig-repository`, `affected.rs`: narrow the candidates to the targets a
list of changed paths concerns. A path concerns the targets whose inputs it matches; failing that,
the targets without inputs of the innermost components around it; failing that, every target.
Changes then spread from a component to its dependents, as far as each component on the way passes
them on.

Contracts before version 7 attribute paths to components instead of targets; both branches are here.
Loops that fill a map entry by entry are `Multimap.ofPairs` of the pairs in the order the source
inserts them.
-/

namespace Jig.Repository

open Jig.Contract Jig.Lib Std

def repositoryAuthorityInputs : List String := [".jig.toml"]

section Libraries

variable (libs : Libraries)

/-! ## Inputs of targets -/

structure TargetInputMatcherV1 where
  byTarget : ExtTreeMap TargetId (List CompiledPattern) := ∅
  componentsWithInputs : ExtTreeSet ComponentId := ∅

namespace TargetInputMatcherV1

variable (matcher : TargetInputMatcherV1)

def add (action : ActionSpec) : Result TargetInputMatcherV1 :=
  if action.inputs.isEmpty then
    .ok matcher
  else do
    let inputs ← action.inputs.mapM (compileInput libs action.target)
    return {
      byTarget := matcher.byTarget.insert action.target inputs
      componentsWithInputs := matcher.componentsWithInputs.insert action.target.component }

def new (catalog : RepositoryCatalog) : Result TargetInputMatcherV1 :=
  (valuesOf catalog.actions).foldlM (add libs) {}

def matchesAny (path : String) : Bool :=
  (valuesOf matcher.byTarget).any fun inputs => inputs.any (·.isMatch libs path)

def matchingTargets (path : String) : List TargetId :=
  (matcher.byTarget.toList.filter fun (_, inputs) => inputs.any (·.isMatch libs path)).map Prod.fst

def componentHasInputs (component : ComponentId) : Bool :=
  matcher.componentsWithInputs.contains component

end TargetInputMatcherV1

/-! ## Roots of components -/

def mostSpecificInputlessTargets (catalog : RepositoryCatalog) (path : String) : List TargetId :=
  let inputless := (valuesOf catalog.actions).filter (·.inputs.isEmpty)
  let inputlessByComponent : Multimap ComponentId TargetId :=
    .ofPairs (inputless.map fun action => (action.target.component, action.target))
  let components := valuesOf catalog.components
  let maximumDepth := ((components.filter fun component =>
    inputlessByComponent.contains component.id && rootContains component.root path).map
      fun component => rootDepth component.root).max?
  let chosen := components.filter fun component =>
    some (rootDepth component.root) == maximumDepth && rootContains component.root path
  (ExtTreeSet.ofList (chosen.flatMap fun component =>
    (inputlessByComponent.lookup component.id).toList)).toList

def mostSpecificComponentRoots (catalog : RepositoryCatalog) (matchers : TargetInputMatcherV1)
    (path : String) : List ComponentId :=
  let around := (valuesOf catalog.components).filter fun component =>
    rootContains component.root path &&
      !(component.root == "." && matchers.componentHasInputs component.id)
  let maximumDepth := (around.map fun component => rootDepth component.root).max?
  let chosen := around.filter fun component => some (rootDepth component.root) == maximumDepth
  (ExtTreeSet.ofList (chosen.map ComponentSpec.id)).toList

/-! ## Propagation to dependents -/

section Propagation

variable {B : Type} (build : List SelectionReason → B) (catalog : RepositoryCatalog)

def dependentsOf : Multimap ComponentId ComponentId :=
  .ofPairs ((valuesOf catalog.components).flatMap fun component =>
    component.dependsOn.map fun dependency => (dependency, component.id))

/-- The components that have seen one origin, and the batches each component has received. -/
structure Propagation (B : Type) where
  seen : ExtTreeSet ComponentId
  propagated : ExtTreeMap ComponentId (List B)

/-- Hand the batch to one dependent, once. -/
def Propagation.pass (batch : B) (state : Propagation B × List ComponentId)
    (dependent : ComponentId) : Propagation B × List ComponentId :=
  if state.1.seen.contains dependent then
    state
  else
    ({ seen := state.1.seen.insert dependent
       propagated := updateEntry state.1.propagated dependent [] (· ++ [batch]) },
      state.2 ++ [dependent])

/-- One round of the loop over pending components. -/
def Propagation.step (dependents : Multimap ComponentId ComponentId) (batch : B)
    (state : Propagation B) (id : ComponentId) : Result (Propagation B × List ComponentId) := do
  let component ← expect catalog.components[id]? "affected components must exist in the catalog"
  if component.propagateAffectedToDependents then
    return (dependents.lookup id).toList.foldl (Propagation.pass batch) (state, [])
  else
    return (state, [])

structure AffectedReasonBatches (B : Type) where
  direct : ExtTreeMap ComponentId B := ∅
  propagated : ExtTreeMap ComponentId (List B) := ∅

/-- One origin of `affected_reason_batches`. A component is pending once, so that a round for each
component and one for the origin are enough. -/
def propagateOrigin (batches : AffectedReasonBatches B)
    (entry : ComponentId × ExtTreeSet String) : Result (AffectedReasonBatches B) := do
  let (origin, paths) := entry
  let dependencyBatch := build (paths.toList.map fun path =>
    .componentDependency origin (some path))
  let state ← worklist (Propagation.step catalog (dependentsOf catalog) dependencyBatch)
    ((valuesOf catalog.components).length + 1)
    { seen := {origin}, propagated := batches.propagated } [origin]
  return {
    direct := batches.direct.insert origin (build (paths.toList.map .directInput))
    propagated := state.propagated }

def affectedReasonBatches (direct : Multimap ComponentId String) :
    Result (AffectedReasonBatches B) :=
  direct.toList.foldlM (propagateOrigin build catalog) {}

/-! ## Narrowing the candidates -/

/-- The batches a changed path can attach to a target. -/
structure AffectedEvidence (B : Type) where
  authorityPaths : List String
  unclaimed : Option B
  direct : TargetId → Option B
  propagated : ExtTreeMap ComponentId (List B)

/-- The last loop of both branches: the reasons of a candidate that is affected. -/
def AffectedEvidence.narrow (evidence : AffectedEvidence B) (target : TargetId)
    (reasons : TargetSelectionReasons B) : Option (TargetSelectionReasons B) :=
  let propagated := evidence.propagated[target.component]?
  let affected := !evidence.authorityPaths.isEmpty || evidence.unclaimed.isSome ||
    (evidence.direct target).isSome || propagated.isSome
  let reasons := evidence.authorityPaths.foldl (fun reasons path =>
    reasons.insert (.directInput path)) reasons
  let batches := evidence.unclaimed.toList ++ (evidence.direct target).toList ++ propagated.getD []
  if affected then some (batches.foldl TargetSelectionReasons.attach reasons) else none

def unclaimedBatch (paths : List String) : Option B :=
  if paths.isEmpty then none else some (build (paths.map .unclaimedInput))

def attributedTargets (matchers : TargetInputMatcherV1) (path : String) : List TargetId :=
  let targets := matchers.matchingTargets libs path
  if targets.isEmpty then mostSpecificInputlessTargets catalog path else targets

variable (candidates : TargetSelection B) (matchers : TargetInputMatcherV1)

def selectTargetLocalAffected (paths authorityPaths : ExtTreeSet String) :
    Result (TargetSelection B) := do
  let ordinary := (paths.filter fun path => !authorityPaths.contains path).toList
  let attributed := attributedTargets libs catalog matchers
  let pairs := ordinary.flatMap fun path => (attributed path).map fun target => (target, path)
  let directTargets : Multimap TargetId String := .ofPairs pairs
  let directComponents : Multimap ComponentId String :=
    .ofPairs (pairs.map fun (target, path) => (target.component, path))
  let unclaimedPaths := ordinary.filter fun path => (attributed path).isEmpty
  let batches ← affectedReasonBatches build catalog directComponents
  let evidence : AffectedEvidence B := {
    authorityPaths := authorityPaths.toList
    unclaimed := unclaimedBatch build unclaimedPaths
    direct := fun target =>
      directTargets[target]?.map fun paths => build (paths.toList.map .directInput)
    propagated := batches.propagated }
  return candidates.filterMap evidence.narrow

def attributedComponents (path : String) : List ComponentId :=
  let matched := (ExtTreeSet.ofList
    ((matchers.matchingTargets libs path).map TargetId.component)).toList
  if matched.isEmpty then mostSpecificComponentRoots catalog matchers path else matched

/-- The branch of `select_affected_targets` before version 7. Authority paths are attributed like
the others first and taken out afterwards. -/
def selectComponentAffected (paths authorityPaths : ExtTreeSet String) :
    Result (TargetSelection B) := do
  let attributed := attributedComponents libs catalog matchers
  let pairs := paths.toList.flatMap fun path => (attributed path).map fun id => (id, path)
  let direct : Multimap ComponentId String := .ofPairs pairs
  let direct := (direct.map fun _ paths =>
    paths.filter fun path => !authorityPaths.contains path).filter fun _ paths => !paths.isEmpty
  let unclaimedPaths := paths.toList.filter fun path =>
    (attributed path).isEmpty && !authorityPaths.contains path
  let batches ← affectedReasonBatches build catalog direct
  let evidence : AffectedEvidence B := {
    authorityPaths := authorityPaths.toList
    unclaimed := unclaimedBatch build unclaimedPaths
    direct := fun target => batches.direct[target.component]?
    propagated := batches.propagated }
  return candidates.filterMap evidence.narrow

def selectAffectedTargets (changedPaths observedInputPaths : List String) :
    Result (TargetSelection B) := do
  let changed ← normalizedChangedPaths libs changedPaths
  let matchers ← TargetInputMatcherV1.new libs catalog
  let observed ← normalizedChangedPaths libs observedInputPaths
  let paths := (observed.filter (matchers.matchesAny libs)).toList.foldl (·.insert ·) changed
  let ignoredMatchers ← catalog.affectedIgnore.mapM fun pattern =>
    (compilePathPattern libs "affected_ignore" pattern).mapError Failure.bail
  let paths := paths.filter fun path =>
    repositoryAuthorityInputs.contains path || matchers.matchesAny libs path ||
      !ignoredMatchers.any (·.isMatch libs path)
  let authorityPaths := paths.filter (repositoryAuthorityInputs.contains ·)
  if catalog.contractVersion ≥ 7 then
    selectTargetLocalAffected libs build catalog candidates matchers paths authorityPaths
  else
    selectComponentAffected libs build catalog candidates matchers paths authorityPaths

end Propagation

end Libraries

end Jig.Repository

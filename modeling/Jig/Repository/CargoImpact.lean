import Jig.Cargo.Impact
import Jig.Repository.Catalog

/-!
# Cargo impacts of a plan

`attach_cargo_impacts_with_acquirer` of `jig-repository`, `cargo_impact.rs`: the changed paths are
assigned to the Rust components of a plan, Cargo's metadata is acquired once for each of their
roots, and each component gets the impact of the paths it owns.

The acquirer, and whether the request is cancelled when the code asks, are arguments. What is
attached is kept together with the paths that the selector was given, where it was called.
-/

namespace Jig.Repository

open Jig.Cargo Jig.Contract Jig.Lib Std

/-! ## Components -/

structure RustComponent where
  id : ComponentId
  root : String
  workspaceManifest : String
deriving DecidableEq

def componentManifest (root : String) : String :=
  if root = "." then "Cargo.toml" else root ++ "/Cargo.toml"

structure RustComponents where
  byId : ExtTreeMap ComponentId RustComponent
  keyed : ∀ {id : ComponentId} {component : RustComponent}, byId[id]? = some component →
    component.id = id

/-- The components in the order of their IDs. -/
def RustComponents.values (components : RustComponents) : List RustComponent :=
  valuesOf components.byId

variable (components : List RustComponent)

/-- Components collected under their own IDs; of two with one ID the last stays. -/
def RustComponents.ofList : RustComponents where
  byId := insertAll RustComponent.id id ∅ components
  keyed := by
    intro id component hget
    induction components using List.reverseRecOn with
    | nil => simp at hget
    | append_singleton components last ih =>
        rw [insertAll_append, insertAll_cons, insertAll_nil, getElem?_insert_eq] at hget
        split at hget
        · next heq =>
            obtain rfl := Option.some.inj hget
            exact heq
        · exact ih hget

def selectedRustComponents (catalog : RepositoryCatalog) (plan : RunPlan) : RustComponents :=
  .ofList (plan.targets.filterMap fun target =>
    catalog.components[target.target.component]?.bind fun component =>
      if component.adapters.any (· == "rust") then
        some { id := component.id, root := component.root
               workspaceManifest := componentManifest component.root }
      else
        none)

variable (libs : Libraries) (catalog : RepositoryCatalog) (plan : RunPlan)

def selectedObservedInputPaths (components : RustComponents) (observedInputPaths : List String) :
    Result (List String) := do
  let matchers ← (plan.targets.filter fun planned =>
    components.byId.contains planned.target.component).mapM fun planned => do
      let action ← expect catalog.actions[planned.target]?
        "selected targets must exist in the repository catalog"
      action.inputs.mapM (compileInput libs planned.target)
  return observedInputPaths.filter fun path => matchers.flatten.any (·.isMatch libs path)

/-! ## Assignment of changed paths -/

def rustConfigurationDirectory (path : String) : Option String :=
  if path = ".cargo" ∨ (Text.stripStart ".cargo/" path).isSome then
    some "."
  else
    match Text.beforeText "/.cargo/" path with
    | some directory => some directory
    | none =>
        match Text.stripEnd "/.cargo" path with
        | some directory => some directory
        | none =>
            let (directory, file) := (Text.rsplitOnce '/' path).getD (".", path)
            if configurationFiles.contains file then some directory else none

/-- The components that get a path, in the three lists of `PathAssignments`. -/
structure PathOwners where
  owned : List RustComponent := []
  ambiguous : List RustComponent := []
  shadowed : List RustComponent := []

def configuredComponents (path : String) : List RustComponent :=
  match rustConfigurationDirectory path with
  | some directory => components.filter fun component =>
      rootContains directory component.root && !rootContains component.root path
  | none => []

/-- One round of the loop of `assign_changed_paths`. -/
def assignChangedPath (path : String) : PathOwners :=
  let matching := components.filter fun component => rootContains component.root path
  match (matching.map fun component => rootDepth component.root).max? with
  | none => { owned := configuredComponents components path }
  | some maxDepth =>
      match matching.filter fun component => rootDepth component.root == maxDepth with
      | [only] =>
          { owned := configuredComponents components path ++ [only]
            shadowed := components.filter fun component =>
              rootContains component.root path && rootDepth component.root < maxDepth }
      | deepest => { owned := configuredComponents components path, ambiguous := deepest }

structure PathAssignments where
  owned : ExtTreeMap ComponentId (List String)
  ambiguous : ExtTreeMap ComponentId (List String)
  shadowed : ExtTreeMap ComponentId (List String)

def assigned (paths : List String) (list : PathOwners → List RustComponent) :
    ExtTreeMap ComponentId (List String) :=
  groupPairs (paths.flatMap fun path =>
    (list (assignChangedPath components path)).map fun component => (component.id, path))

def assignChangedPaths (components : RustComponents) (paths : ExtTreeSet String) :
    PathAssignments where
  owned := assigned components.values paths.toList PathOwners.owned
  ambiguous := assigned components.values paths.toList PathOwners.ambiguous
  shadowed := assigned components.values paths.toList PathOwners.shadowed

/-! ## Acquisition -/

structure CargoMetadataAcquisition where
  graph : CargoMetadataGraphV1
  context : CargoImpactContextV1

inductive CargoMetadataAcquisitionError where
  | missingManifest
  | unsupportedWorkspaceRoot
  | programUnavailable
  | processFailed
  | nonZeroExit
  | timedOut
  | outputLimitExceeded
  | metadataValidation (error : CargoMetadataErrorV1)
  | cancelledBeforeStart
  | cancelled
  | unsupportedContext

def validationReason : CargoMetadataErrorV1 → CargoImpactReasonV1
  | .duplicateSelector => .duplicateSelector
  | .incompleteResolve | .unknownPackage | .unknownWorkspaceMember | .missingResolveNode
  | .missingDependencyKinds => .incompleteResolve
  | .invalidRepositoryRoot => .unsupportedWorkspaceRoot
  | .invalidJson | .unsupportedFormat .. | .missingField _ | .invalidString _ | .invalidPath _
  | .duplicatePackageId | .duplicateResolveNode | .duplicateWorkspaceMember => .metadataMalformed
  | .metadataTooLarge .. | .limitExceeded .. => .metadataResourceLimitExceeded

def CargoMetadataAcquisitionError.publicReason :
    CargoMetadataAcquisitionError → Option CargoImpactReasonV1
  | .unsupportedContext => some .unsupportedContext
  | .cancelledBeforeStart | .cancelled => none
  | .metadataValidation error => some (validationReason error)
  | .missingManifest => some .workspaceManifestMissing
  | .unsupportedWorkspaceRoot => some .unsupportedWorkspaceRoot
  | .programUnavailable => some .cargoProgramUnavailable
  | .nonZeroExit => some .metadataCommandNonZero
  | .processFailed => some .metadataProcessFailure
  | .timedOut => some .metadataTimeout
  | .outputLimitExceeded => some .metadataOutputLimitExceeded

/-- `CargoImpactAcquirer`, asked once for each workspace manifest. -/
abbrev Acquirer := String → Except CargoMetadataAcquisitionError CargoMetadataAcquisition

/-- The moments at which the code asks whether it is cancelled. -/
inductive CancellationPoint where
  | tooManyRoots
  | beforeAcquisition (root : String)
  | afterAcquisition (root : String)

/-! ## Attached impacts -/

def maxCargoDiscoveryRootsV1 : Nat := 32

/-- An impact, and the paths that `select_cargo_impact_v1` was given for it. -/
structure Attached where
  impact : CargoImpactV1
  selectedFrom : Option (List String)

def unavailable (component : RustComponent) (reason : CargoImpactReasonV1)
    (context : CargoImpactContextV1) : Attached where
  impact := CargoImpactV1.unavailable component.id component.workspaceManifest context reason
  selectedFrom := none

def pathsOf (assignment : ExtTreeMap ComponentId (List String)) (id : ComponentId) :
    List String :=
  assignment[id]?.getD []

def acquiredImpact (assignments : PathAssignments) (acquisition : CargoMetadataAcquisition)
    (root : String) (rootAmbiguity : Option String) (component : RustComponent) : Attached :=
  if acquisition.graph.workspaceRoot ≠ root then
    unavailable component .unsupportedWorkspaceRoot {}
  else
    match rootAmbiguity with
    | some path => unavailable component (.ambiguousOwnership path) acquisition.context
    | none =>
        match (pathsOf assignments.shadowed component.id).head? with
        | some path => unavailable component (.unownedPath path) acquisition.context
        | none =>
            let paths := pathsOf assignments.owned component.id
            { impact := selectCargoImpactV1 acquisition.graph component.id
                component.workspaceManifest paths acquisition.context
              selectedFrom := some paths }

def discoveryCancelled : Failure := .bail "Cargo metadata discovery was cancelled"

/-- One round of the loop over the roots. -/
def attachRoot (assignments : PathAssignments) (acquire : Acquirer)
    (cancelled : CancellationPoint → Bool) (impacts : List Attached)
    (group : String × List RustComponent) : Result (List Attached) := do
  let (root, rootComponents) := group
  (if cancelled (.beforeAcquisition root) then .error discoveryCancelled else pure ())
  let first ← expect rootComponents.head? "Cargo root groups must not be empty"
  let acquisition := acquire first.workspaceManifest
  (if cancelled (.afterAcquisition root) then .error discoveryCancelled else pure ())
  let rootAmbiguity := rootComponents.findSome? fun component =>
    (pathsOf assignments.ambiguous component.id).head?
  match acquisition with
  | .ok acquisition =>
      return impacts ++ rootComponents.map (acquiredImpact assignments acquisition root rootAmbiguity)
  | .error error =>
      match error.publicReason with
      | none => .error discoveryCancelled
      | some reason => return impacts ++ rootComponents.map (unavailable · reason {})

def canonicalImpacts (impacts : List Attached) : List Attached :=
  (impacts.map fun attached => { attached with impact := attached.impact.sortCanonical }).insertionSort
    fun left right => (compare left.impact.component right.impact.component).isLE = true

/-- The changed paths with the observed inputs of the selected targets. -/
def impactPaths (changedPaths observedInputPaths : List String) :
    Result (ExtTreeSet String) := do
  let observed ← selectedObservedInputPaths libs catalog plan (selectedRustComponents catalog plan)
    observedInputPaths
  return ExtTreeSet.ofList (changedPaths ++ observed)

def attachImpacts (components : RustComponents) (paths : ExtTreeSet String)
    (cancelled : CancellationPoint → Bool) (acquire : Acquirer) : Result (List Attached) := do
  let assignments := assignChangedPaths components paths
  let roots : ExtTreeMap String (List RustComponent) :=
    groupPairs (components.values.map fun component => (component.root, component))
  if maxCargoDiscoveryRootsV1 < roots.size then do
    (if cancelled .tooManyRoots then .error discoveryCancelled else pure ())
    return canonicalImpacts (components.values.map
      (unavailable · .metadataResourceLimitExceeded {}))
  else do
    let impacts ← roots.toList.foldlM (attachRoot assignments acquire cancelled) []
    return canonicalImpacts impacts

/-- `attach_cargo_impacts_with_acquirer`: the impacts that the plan gets. -/
def attachCargoImpactsWithAcquirer (changedPaths observedInputPaths : List String)
    (cancelled : CancellationPoint → Bool) (acquire : Acquirer) : Result (List CargoImpactV1) := do
  let components := selectedRustComponents catalog plan
  if components.byId.isEmpty then
    return []
  else do
    let paths ← impactPaths libs catalog plan changedPaths observedInputPaths
    let impacts ← attachImpacts components paths cancelled acquire
    return impacts.map Attached.impact

end Jig.Repository

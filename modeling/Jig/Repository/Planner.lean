import Jig.Repository.Affected

/-!
# The planner

`plan_run_with_source_and_paths` of `jig-repository`, `planner.rs`: resolve a request against the
catalog into an immutable plan. The request selects candidates, by a profile or by selectors;
changed paths narrow them; the dependencies of what is left are added; the policy and the arguments
are checked; and the targets are put into execution layers.

The `comparison` of a request is read by later stages only and is left out.
-/

namespace Jig.Repository

open Jig.Contract Jig.Lib Std

structure PlanRunRequest where
  selectors : List String := []
  profile : Option String := none
  affectedBase : Option String := none
deriving DecidableEq

/-- How planning stops. The cycle report of `execution_layers` is kept apart from the other errors,
because `validate_read_only_check_closure` reports cycles in the same words. -/
inductive PlanError where
  | failure (failure : Failure)
  | executionCycle (remaining : List TargetId)
deriving DecidableEq

def PlanError.message : PlanError → String
  | failure f => f.message
  | executionCycle remaining =>
      "action dependency cycle among: " ++ Text.join ", " (remaining.map toString)

inductive PlanningPolicy where
  | checksOnly
  | declaredActions
deriving DecidableEq

/-! ## Requests -/

def normalizeAffectedBase (base : Option String) : Result (Option String) :=
  match base with
  | none => .ok none
  | some value => do
      bailIf (Text.trim value).isEmpty "--affected requires a non-empty Git base"
      return some (Text.trim value)

def normalizeSelectors (selectors : List String) : Result (List String) := do
  let trimmed ← selectors.mapM fun selector => do
    bailIf (Text.trim selector).isEmpty "repository selectors must not be empty"
    return Text.trim selector
  return (trimmed.insertionSort (· ≤ ·)).destutter (· ≠ ·)

/-- The checks of a request before anything is selected. -/
def normalizeRequest (catalog : RepositoryCatalog) (request : PlanRunRequest)
    (changedPaths : Option (List String)) : Result PlanRunRequest := do
  let affectedBase ← normalizeAffectedBase request.affectedBase
  let selectors ← normalizeSelectors request.selectors
  bailIf (request.profile.isSome && !selectors.isEmpty)
    "choose either explicit selectors or --profile, not both"
  match affectedBase, changedPaths with
  | some base, none =>
      .error (.bail s!"affected selection against '{base}' requires repository Git context")
  | some _, some _ =>
      bailIf (catalog.contractVersion < 6)
        "affected selection requires repository contract version 6 or later"
  | none, some _ => .error (.bail "affected paths require an explicit Git base")
  | none, none => .ok ()
  return { request with selectors, affectedBase }

section Libraries

variable (libs : Libraries)

def selectedProfile (catalog : RepositoryCatalog) (request : PlanRunRequest) :
    Result (Option ProfileId) :=
  match request.profile with
  | some profile => some <$> parseIdentifier libs .profile profile
  | none => .ok (if request.selectors.isEmpty then catalog.defaultCheckProfile else none)

section Selection

variable {B : Type} (build : List SelectionReason → B)

/-- `entry(target).or_default().insert(reason)`. -/
def addReason (selected : TargetSelection B) (target : TargetId) (reason : SelectionReason) :
    TargetSelection B :=
  updateEntry selected target {} (·.insert reason)

variable (catalog : RepositoryCatalog)

/-- The candidates of a profile. A request without one needs selectors. -/
def selectProfile (request : PlanRunRequest) :
    Option ProfileId → Result (TargetSelection B)
  | some id =>
      match catalog.profiles[id]? with
      | none => .error (.bail s!"unknown check profile '{id}'")
      | some profile =>
          .ok (profile.targets.foldl
            (fun selected target => addReason selected target (.profile id)) ∅)
  | none =>
      if request.selectors.isEmpty then
        .error (.bail "this workspace has no default check profile")
      else
        .ok ∅

variable (selected : TargetSelection B)

def selectLegacyAlias (name : String) (target : TargetId) : TargetSelection B :=
  addReason selected target (.legacyAlias name)

def selectExplicit (selector : String) : Result (TargetSelection B) :=
  let legacyAlias := catalog.aliases[selector]?
  match RepositorySelector.parse libs selector, legacyAlias with
  | .error _, some target => .ok (selectLegacyAlias selected selector target)
  | .error e, none => .error e
  | .ok canonical, legacyAlias =>
      let matching := ((valuesOf catalog.actions).map ActionSpec.target).filter canonical.matches
      match matching, legacyAlias with
      | [], some target => .ok (selectLegacyAlias selected selector target)
      | [], none => .error (.bail s!"check selector '{selector}' matched no targets")
      | matching, _ =>
          .ok (matching.foldl (fun selected target =>
            addReason selected target (.explicit selector)) selected)

/-- The candidates of a request: its profile or its selectors, narrowed by the changed paths. -/
def selectCandidates (request : PlanRunRequest) (profile : Option ProfileId)
    (changedPaths : Option (List String)) (observedInputPaths : List String) :
    Result (TargetSelection B) := do
  let selected ← selectProfile catalog request profile
  let selected ← request.selectors.foldlM (selectExplicit libs catalog) selected
  match changedPaths with
  | some changedPaths =>
      selectAffectedTargets libs build catalog selected changedPaths observedInputPaths
  | none => return selected

/-! ## Dependencies -/

/-- One dependency of a selected target: record the reason, and push it when it is new. -/
def addDependency (target : TargetId) (state : TargetSelection B × List TargetId)
    (dependency : TargetId) : TargetSelection B × List TargetId :=
  (addReason state.1 dependency (.actionDependency target),
    if state.1.contains dependency then state.2 else state.2 ++ [dependency])

def expandStep (target : TargetId) : Result (TargetSelection B × List TargetId) :=
  match catalog.actions[target]? with
  | none => .error (.bail s!"selected target '{target}' is not defined")
  | some action => .ok (action.dependsOn.foldl (addDependency target) (selected, []))

/-- `expand_action_dependencies`. What is pushed is a dependency of an action and is pushed once, so
that a round for each candidate and for each dependency entry is enough. -/
def expandActionDependencies : Result (TargetSelection B) :=
  worklist (expandStep catalog)
    (selected.keys.length + ((valuesOf catalog.actions).flatMap ActionSpec.dependsOn).length)
    selected selected.keys.reverse

end Selection

/-! ## Policies -/

variable (catalog : RepositoryCatalog) (request : PlanRunRequest)

/-- `{:?}` of an intent. -/
def debugIntent : ActionIntent → String
  | .check => "Check"
  | .generate => "Generate"
  | .serve => "Serve"
  | .operate => "Operate"

/-- `{:?}` of an effect. -/
def debugEffect : ActionEffect → String
  | .readOnly => "ReadOnly"
  | .worktree => "Worktree"
  | .process => "Process"
  | .external => "External"

/-- A check that may change neither the worktree nor anything outside. -/
def isReadOnlyCheck (action : ActionSpec) : Bool :=
  action.intent == .check && action.effects.contains .readOnly &&
    !action.effects.contains .worktree && !action.effects.contains .external

/-- One pending target of `validate_read_only_check_closure`. -/
def readOnlyStep (actionsByTarget : ExtTreeMap TargetId ActionSpec)
    (seen : ExtTreeSet TargetId) (target : TargetId) :
    Result (ExtTreeSet TargetId × List TargetId) :=
  if seen.contains target then
    .ok (seen, [])
  else
    match actionsByTarget[target]? with
    | none => .error (.bail s!"selected target '{target}' is not defined")
    | some action => do
        bailIf (!isReadOnlyCheck action)
          (s!"target '{target}' is not a read-only check; use the action-specific command or " ++
            s!"`jig run` with `--approve-effect` for {debugIntent action.intent} actions with [" ++
            Text.join ", " (action.effects.map debugEffect) ++ "] effects")
        return (seen.insert target, action.dependsOn)

/-- One action of the map `validate_read_only_check_closure` starts from. -/
def collectByTarget (actions : ExtTreeMap TargetId ActionSpec) (action : ActionSpec) :
    Result (ExtTreeMap TargetId ActionSpec) := do
  bailIf (actions.contains action.target) s!"duplicate target '{action.target}'"
  return actions.insert action.target action

/-- `validate_read_only_check_closure`. A target's dependencies are pushed once, when it is seen
first. -/
def validateReadOnlyCheckClosure (actions : List ActionSpec) (targets : List TargetId) :
    Result Unit := do
  let actionsByTarget ← actions.foldlM collectByTarget ∅
  let seen ← worklist (readOnlyStep actionsByTarget)
    (targets.length + ((valuesOf actionsByTarget).flatMap ActionSpec.dependsOn).length) ∅
    targets.reverse
  match peel (dependenciesOf actionsByTarget ActionSpec.dependsOn) seen.toList with
  | .ok _ => .ok ()
  | .error remaining =>
      .error (.bail ("action dependency cycle among: " ++
        Text.join ", " (remaining.map toString)))

variable (targets : List TargetId)

def validateCheckActions : Result Unit :=
  validateReadOnlyCheckClosure (valuesOf catalog.actions) targets

def selectedAction (target : TargetId) : Result ActionSpec :=
  expect catalog.actions[target]? "selected targets must exist in the repository catalog"

def validateDeclaredActionSelection :
    Result Unit := do
  let hasEffectfulAction ← targets.anyM fun target => do
    let action ← selectedAction catalog target
    return action.intent != .check || action.effects.contains .worktree ||
      action.effects.contains .external
  bailIf (hasEffectfulAction && request.selectors.isEmpty)
    "effectful repository actions require explicit selectors"

def validatePolicy :
    PlanningPolicy → Result Unit
  | .checksOnly => validateCheckActions catalog targets
  | .declaredActions => validateDeclaredActionSelection catalog request targets

def bindActionArguments (arguments : ExtTreeMap TargetId ActionArguments) :
    Result (ExtTreeMap TargetId ActionArguments) := do
  match arguments.keys.find? (· ∉ targets) with
  | some target => .error (.bail s!"arguments were provided for unselected target '{target}'")
  | none => .ok ()
  let bound ← targets.foldlM (fun (arguments : ExtTreeMap TargetId ActionArguments) target => do
    let action ← selectedAction catalog target
    let supplied := arguments[target]?.getD ∅
    let normalized ← Arguments.bind libs catalog.contractVersion action supplied
    return arguments.insert target normalized) arguments
  return bound.filter fun _ value => !value.isEmpty

/-! ## Layers -/

def selectedDependencies (target : TargetId) : List TargetId :=
  (dependenciesOf catalog.actions ActionSpec.dependsOn target).filter (· ∈ targets)

def executionLayers : Except PlanError (List (List TargetId)) :=
  if targets.all (catalog.actions.contains ·) then
    (peel (selectedDependencies catalog targets) targets).mapError PlanError.executionCycle
  else
    .error (.failure (.panic "selected targets must exist"))

/-! ## Plans -/

def conservativeActionInputDigest (contractVersion : Nat) (action : ActionSpec)
    (worktreeFingerprint : String) : String :=
  let sized (encoded : Bytes) := 0 :: (BigEndian.ofNat 8 encoded.length ++ encoded)
  let domain := if contractVersion < fileBudgetContractVersion then "jig-target-input-v1\x00"
    else "jig-target-input-v2\x00"
  let runner := if contractVersion ≥ fileBudgetContractVersion then
    sized (libs.runnerJson action.runner) else []
  let declarations := if contractVersion ≥ actionExecutionContractVersion then
    sized (libs.argumentsJson action.arguments) else []
  let encoded := libs.resourcesJson action.resources
  let resources := if action.resources.isEmpty then []
    else Text.bytes "\x00jig-execution-resources-v1\x00" ++
      BigEndian.ofNat 8 encoded.length ++ encoded
  "sha256:" ++ Text.lowerHex (libs.sha256 (Text.bytes domain ++
    Text.bytes (toString action.target) ++ 0 :: Text.bytes worktreeFingerprint ++
    (action.inputs.flatMap fun input => 0 :: Text.bytes input) ++ runner ++ declarations ++
    resources)).bytes

variable (source : SourceIdentity)

def plannedTarget (arguments : ExtTreeMap TargetId ActionArguments)
    (entry : TargetId × TargetSelectionReasons SelectionReasonBatch) : Result PlannedTarget := do
  let (target, reasons) := entry
  let action ← selectedAction catalog target
  let bounded ← boundedSelectionReasons libs reasons
  return {
    target
    intent := action.intent
    runner := action.runner
    inputDigest :=
      conservativeActionInputDigest libs catalog.contractVersion action source.worktreeFingerprint
    arguments := arguments[target]?.getD ∅
    effects := action.effects
    resources := action.resources
    inputs := action.inputs
    dependsOn := action.dependsOn
    timeoutSeconds := action.timeoutSeconds
    resultParser := action.resultParser
    reasons := bounded.preview
    selectionReasonCount := bounded.total
    selectionReasonsTruncated := bounded.truncated
    selectionReasonsDigest := bounded.digest }

/-- `plan_digest`: of the plan without its id. -/
def planDigest (plan : RunPlan) : String :=
  "run-plan_sha256:" ++ Text.lowerHex (libs.sha256 (libs.planJson { plan with id := "" })).bytes

/-- The targets of a plan with their reasons: the candidates and everything they depend on. -/
def selectTargets {B : Type} (build : List SelectionReason → B) (catalog : RepositoryCatalog)
    (request : PlanRunRequest) (profile : Option ProfileId) (changedPaths : Option (List String))
    (observedInputPaths : List String) : Result (TargetSelection B) := do
  let candidates ←
    selectCandidates libs build catalog request profile changedPaths observedInputPaths
  expandActionDependencies catalog candidates

/-- What is settled before the targets are put into layers. -/
structure PreparedRun where
  request : PlanRunRequest
  profile : Option ProfileId
  selected : TargetSelection SelectionReasonBatch
  arguments : ExtTreeMap TargetId ActionArguments

/-- The first part of `plan_run_with_source_and_paths`, up to the bound arguments. -/
def prepareRun (changedPaths : Option (List String)) (observedInputPaths : List String)
    (arguments : ExtTreeMap TargetId ActionArguments) (policy : PlanningPolicy) :
    Result PreparedRun := do
  let request ← normalizeRequest catalog request changedPaths
  let profile ← selectedProfile libs catalog request
  let selected ← selectTargets libs (SelectionReasonBatch.fromReasons libs) catalog request profile
    changedPaths observedInputPaths
  validatePolicy catalog request selected.keys policy
  let arguments ← bindActionArguments libs catalog selected.keys arguments
  return { request, profile, selected, arguments }

/-- The last part: the targets with everything the catalog says about them, and the digest. -/
def assemblePlan (prepared : PreparedRun) (executionLayers : List (List TargetId)) :
    Result RunPlan := do
  let targets ← prepared.selected.toList.mapM
    (plannedTarget libs catalog source prepared.arguments)
  let effects : ExtTreeSet ActionEffect := .ofList (targets.flatMap PlannedTarget.effects)
  let plan : RunPlan := {
    id := ""
    configDigest := catalog.configDigest
    source, targets, executionLayers
    selectors := prepared.request.selectors
    profile := prepared.profile
    affectedBase := prepared.request.affectedBase
    effects := effects.toList }
  return { plan with id := planDigest libs plan }

def planRunWithSourceAndPaths (changedPaths : Option (List String))
    (observedInputPaths : List String) (arguments : ExtTreeMap TargetId ActionArguments)
    (policy : PlanningPolicy) :
    Except PlanError RunPlan := do
  let prepared ← (prepareRun libs catalog request changedPaths observedInputPaths arguments
    policy).mapError PlanError.failure
  let layers ← executionLayers catalog prepared.selected.keys
  (assemblePlan libs catalog source prepared layers).mapError PlanError.failure

end Libraries

end Jig.Repository

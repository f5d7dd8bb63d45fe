import Jig.Lib.Peeling
import Jig.Lib.TreeMap
import Jig.Lib.Worklist
import Jig.Repository.ActionPolicy
import Jig.Repository.Selector

/-!
# The catalog

`RepositoryCatalog::from_native_with_ignore` of `jig-repository`, `lib.rs`: the one view of the
checked-in components, actions and profiles that planning consumes, and everything it refuses.

The dependency rules for components and for actions are one definition, `validateDependencies`; so
is the loop that peels an acyclic graph, which the source writes out three times (`Lib.peel`).
-/

namespace Jig.Repository

open Jig.Contract Jig.Lib Std

/-! ## Dependencies -/

section Dependencies

variable {K V : Type} [DecidableEq K] [Ord K] [TransOrd K] [LawfulEqOrd K] [ToString K]

/-- The dependencies of a key. Every key the loops below ask for has a record. -/
def dependenciesOf (records : ExtTreeMap K V) (dependencies : V → List K) (id : K) : List K :=
  match records[id]? with
  | some record => dependencies record
  | none => []

/-- The cycle report of `validate_acyclic_dependencies`: follow the first unresolved dependency
until a key comes up again. Each round adds a new key to the path, so that one round more than
there are keys is enough. -/
def cycleFrom (next : K → Option K) : Nat → List K → K → Result (List K)
  | 0, path, _ => .ok path
  | rounds + 1, path, current =>
      match path.idxOf? current with
      | some start => .ok (path.drop start ++ [current])
      | none => do
          let following ← expect (next current)
            "unresolved dependency records must point within the remaining graph"
          cycleFrom next rounds (path ++ [current]) following

def validateAcyclicDependencies (kind : String) (records : ExtTreeMap K V)
    (dependencies : V → List K) : Result Unit :=
  match peel (dependenciesOf records dependencies) records.keys with
  | .ok _ => .ok ()
  | .error remaining => do
      let first ← expect remaining.head? "non-empty dependency graph must have a first record"
      let next (id : K) := (dependenciesOf records dependencies id).find? (· ∈ remaining)
      let cycle ← cycleFrom next (remaining.length + 1) [] first
      .error (.bail (s!"{kind} dependency cycle: " ++ Text.join " -> " (cycle.map toString)))

structure DependencyTexts (K : Type) where
  itself : K → String
  unknown : K → K → String
  repeated : K → K → String

/-- One record's dependencies: none on itself, none unknown, none twice. -/
def validateRecordDependencies (texts : DependencyTexts K) (records : ExtTreeMap K V) (id : K)
    (dependencies : List K) : Result Unit :=
  discard <| dependencies.foldlM (fun (seen : List K) dependency => do
    bailIf (dependency == id) (texts.itself id)
    bailIf (!records.contains dependency) (texts.unknown id dependency)
    bailIf (seen.contains dependency) (texts.repeated id dependency)
    return dependency :: seen) []

/-- The rules for every record, and no cycle. -/
def validateDependencies (kind : String) (texts : DependencyTexts K)
    (records : ExtTreeMap K V) (id : V → K) (dependencies : V → List K) : Result Unit := do
  (valuesOf records).forM fun record =>
    validateRecordDependencies texts records (id record) (dependencies record)
  validateAcyclicDependencies kind records dependencies

end Dependencies

def validateComponentDependencies (components : ExtTreeMap ComponentId ComponentSpec) :
    Result Unit :=
  validateDependencies "component"
    { itself := fun id => s!"component '{id}' cannot depend on itself"
      unknown := fun id dependency => s!"component '{id}' depends on unknown component '{dependency}'"
      repeated := fun id dependency => s!"component '{id}' repeats dependency '{dependency}'" }
    components ComponentSpec.id ComponentSpec.dependsOn

variable (actions : ExtTreeMap TargetId ActionSpec)

def validateActionDependencies : Result Unit :=
  validateDependencies "action"
    { itself := fun id => s!"target '{id}' cannot depend on itself"
      unknown := fun id dependency => s!"target '{id}' depends on unknown target '{dependency}'"
      repeated := fun id dependency => s!"target '{id}' repeats dependency '{dependency}'" }
    actions ActionSpec.target ActionSpec.dependsOn

/-! ## Records of the catalog -/

structure RepositoryCatalog where
  contractVersion : Nat
  configDigest : String
  components : ExtTreeMap ComponentId ComponentSpec
  actions : ExtTreeMap TargetId ActionSpec
  profiles : ExtTreeMap ProfileId ProfileSpec
  defaultCheckProfile : Option ProfileId
  affectedIgnore : List String
  aliases : ExtTreeMap String TargetId
  targetAliases : ExtTreeMap TargetId (List String)

def affectedIgnoreProtectedInputs : List String := [".jig.toml", "scripts/jig"]

def validateProfileTargets (profile : ProfileSpec) : Result Unit :=
  discard <| profile.targets.foldlM (fun (seen : List TargetId) target => do
    bailIf (!actions.contains target)
      s!"profile '{profile.id}' references unknown target '{target}'"
    bailIf (seen.contains target) s!"profile '{profile.id}' repeats target '{target}'"
    return target :: seen) []

/-- One round of `collect_profiles`. -/
def collectProfile (profiles : ExtTreeMap ProfileId ProfileSpec) (profile : ProfileSpec) :
    Result (ExtTreeMap ProfileId ProfileSpec) := do
  bailIf profile.targets.isEmpty s!"profile '{profile.id}' must select at least one target"
  validateProfileTargets actions profile
  bailIf (profiles.contains profile.id) s!"duplicate profile id '{profile.id}'"
  return profiles.insert profile.id profile

def collectProfiles (profileSpecs : List ProfileSpec)
    (actions : ExtTreeMap TargetId ActionSpec) :
    Result (ExtTreeMap ProfileId ProfileSpec) :=
  profileSpecs.foldlM (collectProfile actions) ∅

def validateDefaultProfile (defaultProfile : Option ProfileId)
    (profiles : ExtTreeMap ProfileId ProfileSpec) : Result Unit :=
  match defaultProfile with
  | none =>
      .error (.bail (s!"native repository contract version {nativeRepositoryContractVersion} or " ++
        "later requires default_check_profile"))
  | some id =>
      bailIf (!profiles.contains id) s!"default_check_profile '{id}' does not name a profile"

section Construction

variable (libs : Libraries)

def registerAliases (aliases : ExtTreeMap String TargetId)
    (targetAliases : ExtTreeMap TargetId (List String)) (target : TargetId)
    (newAliases : List String) :
    Result (ExtTreeMap String TargetId × ExtTreeMap TargetId (List String)) := do
  let (_, aliases) ← newAliases.foldlM (fun (seen, aliases) name => do
    bailIf (Text.trim name).isEmpty s!"target '{target}' declares an empty legacy alias"
    bailIf (RepositorySelector.parse libs name).isOk
      (s!"legacy alias '{name}' for target '{target}' is reserved for canonical repository " ++
        "selectors")
    bailIf (seen.contains name) s!"target '{target}' repeats legacy alias '{name}'"
    match aliases[name]? with
    | some existing =>
        .error (.bail s!"legacy alias '{name}' maps to both '{existing}' and '{target}'")
    | none => return (name :: seen, aliases.insert name target)) (([] : List String), aliases)
  return (aliases, if newAliases.isEmpty then targetAliases else targetAliases.insert target newAliases)

def validateNativePathPolicy (components : ExtTreeMap ComponentId ComponentSpec)
    (actions : ExtTreeMap TargetId ActionSpec) (affectedIgnore : List String) :
    Result Unit := do
  (valuesOf components).forM (validateComponentRoot libs)
  (valuesOf actions).forM fun action =>
    action.inputs.forM fun input => discard (compileInput libs action.target input)
  affectedIgnore.forM fun pattern => do
    let matcher ← (compilePathPattern libs "affected_ignore" pattern).mapError Failure.bail
    bailIf (affectedIgnoreProtectedInputs.any (matcher.isMatch libs))
      (s!"affected_ignore pattern {libs.debug pattern} must not match repository execution " ++
        "authority")

/-- One round of the loop over the component records. -/
def collectComponent (components : ExtTreeMap ComponentId ComponentSpec)
    (component : ComponentSpec) : Result (ExtTreeMap ComponentId ComponentSpec) := do
  bailIf (component.id.value == "repo" && component.root != ".")
    "the reserved repo component must use root '.'"
  bailIf (components.contains component.id) s!"duplicate component id '{component.id}'"
  return components.insert component.id component

structure CollectedActions where
  actions : ExtTreeMap TargetId ActionSpec := ∅
  aliases : ExtTreeMap String TargetId := ∅
  targetAliases : ExtTreeMap TargetId (List String) := ∅

/-- The checks of one action, and the action as it enters the catalog. -/
def validateAction (contractVersion : Nat) (components : ExtTreeMap ComponentId ComponentSpec)
    (spec : ActionSpec) : Result ActionSpec := do
  let action ← normalizeNativeConfiguration contractVersion spec
  Arguments.normalizeDeclarations contractVersion action
  validateInputsPolicy contractVersion action
  Runners.validate libs contractVersion action
  Resources.validateDeclarations libs action
  bailIf (!components.contains action.target.component)
    s!"target '{action.target}' references unknown component '{action.target.component}'"
  bailIf action.effects.isEmpty
    (s!"target '{action.target}' must declare at least one effect so execution isolation and " ++
      "approval remain fail-closed")
  bailIf (action.timeoutSeconds.any fun seconds =>
      seconds == 0 || seconds > maxCommandTimeoutSeconds)
    s!"target '{action.target}' timeout_seconds must be between 1 and {maxCommandTimeoutSeconds}"
  let inProcess := match action.runner with
    | .native operation _ => operation != schemaCheckTool
    | _ => false
  bailIf (action.timeoutSeconds.isSome && inProcess)
    (s!"target '{action.target}' sets timeout_seconds for an in-process native runner that " ++
      "cannot be preempted safely; omit the override or use a supervised command/schema runner")
  return action

/-- One round of the loop over the action records. -/
def collectAction (contractVersion : Nat) (components : ExtTreeMap ComponentId ComponentSpec)
    (collected : CollectedActions) (spec : ActionSpec) : Result CollectedActions := do
  let action ← validateAction libs contractVersion components spec
  bailIf (collected.actions.contains action.target) s!"duplicate target '{action.target}'"
  let (aliases, targetAliases) ←
    registerAliases libs collected.aliases collected.targetAliases action.target action.legacyAliases
  return { actions := collected.actions.insert action.target action, aliases, targetAliases }

def fromNativeWithIgnore (contractVersion : Nat) (configDigest : String)
    (componentSpecs : List ComponentSpec) (actionSpecs : List ActionSpec)
    (profileSpecs : List ProfileSpec) (defaultCheckProfile : Option ProfileId)
    (affectedIgnore : List String) : Result RepositoryCatalog := do
  bailIf (contractVersion < nativeRepositoryContractVersion)
    (s!"component-native repository records require contract version " ++
      s!"{nativeRepositoryContractVersion} or later")
  bailIf componentSpecs.isEmpty
    s!"contract version {contractVersion} requires at least one component"
  bailIf actionSpecs.isEmpty s!"contract version {contractVersion} requires at least one action"
  let components ← componentSpecs.foldlM collectComponent ∅
  validateComponentDependencies components
  let collected ← actionSpecs.foldlM (collectAction libs contractVersion components) {}
  validateActionDependencies collected.actions
  let _ ← nativeMigrationBackend componentSpecs actionSpecs
  validateNativePathPolicy libs components collected.actions affectedIgnore
  let profiles ← collectProfiles profileSpecs collected.actions
  validateDefaultProfile defaultCheckProfile profiles
  return {
    contractVersion, configDigest, components
    actions := collected.actions
    profiles, defaultCheckProfile, affectedIgnore
    aliases := collected.aliases
    targetAliases := collected.targetAliases }

end Construction

end Jig.Repository

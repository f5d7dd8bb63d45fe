import Jig.Lib.Lists
import Jig.Repository.PathPolicy
import Mathlib.Data.List.Destutter

/-!
# Declarations of an action

What a catalog checks of one action before it accepts it: native configuration and its limits
(`lib.rs`), argument declarations (`arguments.rs`), input and source policies (`jig-context`,
`inputs_policy.rs`), runners (`runners.rs` and `jig-rust`, `rust_focus.rs`), scheduling resources
(`planner/resources.rs`), and the single owner of migration authoring (`jig-context`,
`migration.rs`). `bind` is the check of the arguments a plan supplies.
-/

namespace Jig.Repository

open Jig.Contract Jig.Lib

/-! ## Constants -/

def nativeRepositoryContractVersion : Nat := 6
def fileBudgetContractVersion : Nat := 7
def actionExecutionContractVersion : Nat := 8
def targetFreshnessContractVersion : Nat := 8
def worktreeFreshnessContractVersion : Nat := targetFreshnessContractVersion

/-- `FILE_BUDGET_MAX_CANDIDATES_HARD_CAP_V1`. -/
def fileBudgetMaxCandidatesHardCap : Nat := 250000
/-- `FILE_BUDGET_MAX_TOTAL_BYTES_HARD_CAP_V1`. -/
def fileBudgetMaxTotalBytesHardCap : Nat := 4 * 1024 * 1024 * 1024
def maxArguments : Nat := 32
def maxStringBytes : Nat := 4096
def maxCommandTimeoutSeconds : Nat := 24 * 60 * 60

/-- `tool::FILE_BUDGET`. -/
def fileBudgetTool : String := "jig.file_budget"
/-- `tool::MIGRATION_ADD`. -/
def migrationAddTool : String := "jig.migration_add"
/-- `tool::SCHEMA_CHECK`. -/
def schemaCheckTool : String := "jig.schema_check"

/-- `matches!(runner, ActionRunner::Native { .. })`. -/
def isNative : ActionRunner → Bool
  | .native _ _ => true
  | _ => false

/-! ## Native configuration -/

/-- `normalize_native_configuration`: the action with its configuration and inputs filled in. -/
def normalizeNativeConfiguration (contractVersion : Nat) (action : ActionSpec) :
    Result ActionSpec :=
  match action.runner with
  | .native operation configuration =>
      if contractVersion < fileBudgetContractVersion then do
        bailIf (operation == fileBudgetTool || configuration.isSome)
          (s!"target '{action.target}' uses file-budget native contract data that requires " ++
            s!"contract version {fileBudgetContractVersion} or later")
        return action
      else if operation != fileBudgetTool then do
        bailIf configuration.isSome
          (s!"target '{action.target}' configures native operation '{operation}', but version 1 " ++
            s!"native configuration is only valid for '{fileBudgetTool}'")
        return action
      else do
        let configuration := configuration.getD (.fileBudget {})
        let inputs := if action.inputs.isEmpty then ["**"] else action.inputs
        bailIf (inputs != ["**"])
          (s!"target '{action.target}' must declare exactly inputs = [\"**\"] so policy and " ++
            "hidden governed paths cannot bypass the built-in file budget")
        let .fileBudget config := configuration
        bailIf (config.maxCandidates == 0 || config.maxCandidates > fileBudgetMaxCandidatesHardCap)
          (s!"target '{action.target}' max_candidates must be between 1 and " ++
            toString fileBudgetMaxCandidatesHardCap)
        bailIf (config.maxTotalBytes == 0 || config.maxTotalBytes > fileBudgetMaxTotalBytesHardCap)
          (s!"target '{action.target}' max_total_bytes must be between 1 and " ++
            toString fileBudgetMaxTotalBytesHardCap)
        return { action with runner := .native operation (some configuration), inputs }
  | _ => .ok action

/-! ## Arguments -/

def Arguments.validName (name : String) : Bool :=
  !name.isEmpty && name.utf8ByteSize ≤ 64 && name.toList.head?.any Char.isLower &&
    name.toList.all fun c => c.isLower || c.isDigit || c == '_' || c == '-'

def Arguments.migrationAction (action : ActionSpec) : Bool :=
  match action.runner with
  | .native operation _ => operation == migrationAddTool
  | _ => false

def isFocusedNextest : ActionRunner → Bool
  | .rustNextestV1 configuration => configuration.focused
  | _ => false

/-- `normalize_declarations`. It checks; there is nothing to rewrite. -/
def Arguments.normalizeDeclarations (version : Nat) (action : ActionSpec) : Result Unit :=
  if version < actionExecutionContractVersion then
    ensure action.arguments.isEmpty
      s!"target '{action.target}' argument declarations require contract version 8 or later"
  else do
    ensure (action.arguments.size ≤ maxArguments)
      s!"target '{action.target}' exceeds {maxArguments} argument declarations"
    action.arguments.toList.forM fun (name, spec) => do
      ensure (Arguments.validName name) s!"target '{action.target}' has invalid argument name '{name}'"
      match spec with
      | .rustFocusV1 =>
          ensure (name == "focus" && isFocusedNextest action.runner)
            "Rust focus arguments require an explicitly focused Rust runner"
      | .string _ _ maxBytes =>
          ensure (1 ≤ maxBytes && maxBytes ≤ maxStringBytes)
            (s!"target '{action.target}' argument '{name}' max_bytes must be between 1 and " ++
              toString maxStringBytes)
    if isNative action.runner then
      let expected : Std.ExtTreeMap String ActionArgumentSpec :=
        if Arguments.migrationAction action then {("name", .migrationName)} else ∅
      ensure (action.arguments == expected)
        s!"target '{action.target}' argument declarations do not match its native operation"
    else
      .ok ()

/-! ### Typed focus -/

namespace RustFocus

def token (value : String) : Except String Unit :=
  if value.isEmpty || value.utf8ByteSize > 4096 || Text.startsWithChar '-' value ||
      value.toList.any fun c => Text.isControl c || Text.isWhitespace c || c == ',' then
    .error "Rust selector must be a bounded, nonempty literal token, not an option"
  else
    .ok ()

def validateContext (context : CargoImpactContextV1) : Except String Unit :=
  if context.target.any (Text.containsAnyOf ['/', '\\', ':']) then
    .error ("Rust target platform must be a portable target triple, not a target-specification " ++
      "path")
  else if context.metadataFormatVersion != 1 || context.features.length > 256 ||
      (context.features.map String.utf8ByteSize).sum > 65536 ||
      (context.allFeatures && (context.noDefaultFeatures || !context.features.isEmpty)) then
    .error "Rust feature context is unsupported or has incompatible feature flags"
  else
    (context.features ++ context.target.toList).forM token

def validateConfig (config : RustNextestConfigV1) : Except String Unit :=
  let path := config.workspaceManifest
  if path.isEmpty || path.utf8ByteSize > 4096 ||
      Text.startsWithChar '/' path || Text.startsWithChar '-' path ||
      Text.containsAnyOf ['\\', '\x00', ':'] path ||
      ((Text.split '/' path).any fun part => part.isEmpty || part == ".." || part == ".") ||
      !Text.endsWith "Cargo.toml" path then
    .error "Rust workspace_manifest must be a portable repository-relative Cargo.toml path"
  else do
    validateContext config.context
    (config.cargoProfile.toList ++ config.nextestProfile.toList).forM token

def targetName : RustTargetV1 → Option String
  | .lib => none
  | .bin name | .test name | .exampleTarget name | .bench name => some name

/-- The derived order of targets: variants in declaration order, then names. -/
def targetCmp : RustTargetV1 → RustTargetV1 → Ordering :=
  let rank : RustTargetV1 → Nat
    | .lib => 0
    | .bin _ => 1
    | .test _ => 2
    | .exampleTarget _ => 3
    | .bench _ => 4
  compareLex (compareOn rank) (compareOn targetName)

/-- The check of one package of `normalize_focus`. -/
def checkPackage (package : String) : Except String Unit := do
  token package
  match Text.splitOnce '@' package with
  | none => .error "Rust focus packages require exact name@version selectors"
  | some (name, version) =>
      if name.isEmpty || version.isEmpty || Text.containsAnyOf ['/', ':', '#', '*'] package ||
          Text.containsChar '@' version then
        .error "Rust focus packages require portable name@version selectors"
      else
        .ok ()

def normalizeFocus : RustFocusV1 → Except String RustFocusV1
  | .automatic => .ok .automatic
  | .explicit packages targets features filter => do
      if packages.isEmpty || packages.length > 32 || targets.length > 32 then
        .error "Rust focus requires 1..32 packages and at most 32 target selectors"
      packages.forM checkPackage
      (targets.filterMap targetName).forM token
      let features ← features.mapM fun selected => do
        validateContext
          { features := selected.features, allFeatures := selected.allFeatures
            noDefaultFeatures := selected.noDefaultFeatures }
        return { selected with features := sortDedup (· ≤ ·) selected.features }
      if filter.any fun text =>
          text.isEmpty || text.utf8ByteSize > 4096 || Text.containsChar '\x00' text then
        .error "Rust test filter must contain 1..4096 NUL-free bytes"
      return .explicit (sortDedup (· ≤ ·) packages) (sortDedup (targetCmp · · != .gt) targets)
        features filter

end RustFocus

section Bind

variable (libs : Libraries)

/-- One declared argument of `bind`. -/
def Arguments.bindOne (action : ActionSpec) (supplied : ActionArguments) (name : String) :
    ActionArgumentSpec → Result ActionArguments
  | .rustFocusV1 =>
      match supplied[name]? with
      | none => .ok supplied
      | some value => do
          ensure (value.utf8ByteSize ≤ 65536) "Rust focus exceeds 65536 bytes"
          let focus ← (libs.parseFocus value).mapError fun error =>
            Failure.bail ("invalid typed Rust focus: " ++ error)
          let focus ← (RustFocus.normalizeFocus focus).mapError Failure.bail
          return supplied.insert name (libs.focusJson focus)
  | .string required allowEmpty maxBytes =>
      match supplied[name]? with
      | none => do
          bailIf required s!"target '{action.target}' requires string argument '{name}'"
          return supplied
      | some value => do
          ensure (allowEmpty || !value.isEmpty)
            s!"target '{action.target}' argument '{name}' forbids empty strings"
          ensure (value.utf8ByteSize ≤ maxBytes)
            s!"target '{action.target}' argument '{name}' exceeds {maxBytes} bytes"
          ensure (!Text.containsChar '\x00' value)
            s!"target '{action.target}' argument '{name}' contains NUL"
          return supplied

/-- `bind`. Legacy migration authoring keeps its own, unbounded rule. -/
def Arguments.bind (version : Nat) (action : ActionSpec) (supplied : ActionArguments) :
    Result ActionArguments :=
  let unaccepted (name : String) : String :=
    s!"target '{action.target}' does not accept argument '{name}'"
  let missing : Failure := .bail s!"target '{action.target}' requires string argument 'name'"
  let invalid : String := s!"target '{action.target}' has invalid argument 'name'"
  if version < actionExecutionContractVersion && Arguments.migrationAction action then do
    supplied.keys.forM fun name => ensure (name == "name") (unaccepted name)
    let name ← match supplied["name"]? with
      | some name => .ok name
      | none => .error missing
    ensure (!(Text.trim name).isEmpty && !Text.startsWithChar '-' name) invalid
    return supplied
  else do
    supplied.keys.forM fun name => ensure (action.arguments.contains name) (unaccepted name)
    let bound ← action.arguments.toList.foldlM
      (fun supplied (name, spec) => Arguments.bindOne libs action supplied name spec) supplied
    if Arguments.migrationAction action then
      let name ← match bound["name"]? with
        | some name => .ok name
        | none => .error missing
      ensure (!Text.startsWithChar '-' name && name.toList.any Char.isAlphanum) invalid
      return bound
    else
      return bound

end Bind

/-! ## Inputs and source state -/

def validateInputsPolicy (epoch : Nat) (action : ActionSpec) : Result Unit := do
  ensure (epoch ≥ worktreeFreshnessContractVersion || action.sourceState.isNone)
    (s!"target '{action.target}' source_state requires contract version " ++
      s!"{worktreeFreshnessContractVersion} or later")
  ensure (action.sourceState != some .worktree || !isNative action.runner)
    (s!"native target '{action.target}' must retain Git and comparison authority; source_state = " ++
      "worktree is for commands that consume working files")
  ensure (epoch ≥ targetFreshnessContractVersion || action.inputsPolicy.isNone)
    (s!"target '{action.target}' inputs_policy requires contract version " ++
      s!"{targetFreshnessContractVersion} or later, including an explicit whole_repository value")
  ensure (action.inputsPolicy != some .exhaustive || !action.inputs.isEmpty)
    s!"target '{action.target}' exhaustive inputs_policy requires non-empty inputs"
  ensure (action.inputsPolicy != some .exhaustive ||
      !action.inputs.any fun input => (Text.split '/' input).contains ".git")
    s!"target '{action.target}' exhaustive inputs cannot declare excluded Git metadata"

/-! ## Runners -/

section Runners

variable (libs : Libraries)

def Runners.validate (version : Nat) (action : ActionSpec) : Result Unit :=
  match action.runner with
  | .rustNextestV1 configuration => do
      ensure (version ≥ actionExecutionContractVersion)
        "Rust Nextest v1 requires contract v8 or later"
      (RustFocus.validateConfig configuration).mapError Failure.bail
      let expected : Std.ExtTreeMap String ActionArgumentSpec :=
        if configuration.focused then {("focus", .rustFocusV1)} else ∅
      ensure (action.arguments == expected)
        "Rust Nextest arguments must match the fixed full or focused v1 capability"
      ensure action.legacyAliases.isEmpty
        "Rust Nextest v1 uses typed target execution, not legacy tool aliases"
      ensure (action.intent == .check && action.resultParser == .exitCode)
        "Rust Nextest v1 requires a check action with the exit_code result parser"
      ensure (action.inputsPolicy.getD .wholeRepository == .wholeRepository)
        ("Rust Nextest v1 requires whole_repository input authority; narrow input reuse is not " ++
          "supported")
  | .command _ _ _ =>
      ensure (version < actionExecutionContractVersion)
        (s!"target '{action.target}' must explicitly select an argv or shell runner in contract " ++
          "v8")
  | .argv program args _ environment => do
      ensure (version ≥ actionExecutionContractVersion)
        s!"target '{action.target}' argv and shell runners require contract version 8 or later"
      ensure (!program.isEmpty && !Text.containsChar '\x00' program)
        s!"target '{action.target}' requires a nonempty NUL-free literal program"
      (validateRunnerEnvironment libs.debug environment).mapError Failure.bail
      args.forM fun
        | .literal value =>
            ensure (!Text.containsChar '\x00' value)
              s!"target '{action.target}' argv contains NUL"
        | .argument argument =>
            ensure (action.arguments.contains argument)
              s!"target '{action.target}' argv references undeclared argument '{argument}'"
  | .shell _ _ environment => do
      ensure (version ≥ actionExecutionContractVersion)
        s!"target '{action.target}' argv and shell runners require contract version 8 or later"
      ensure action.arguments.isEmpty
        (s!"target '{action.target}' shell runners accept no argument declarations or " ++
          "interpolation")
      (validateRunnerEnvironment libs.debug environment).mapError Failure.bail
  | .native _ _ => .ok ()

/-! ## Scheduling resources -/

variable (action : ActionSpec)

/-- `cargo_identity`: the canonical form under which Cargo declarations are compared. -/
def Resources.cargoIdentity (workspaceManifest : String) (workingDirectory : Option String)
    (context : CargoImpactContextV1) : Result Bytes := do
  ensure (workspaceManifest.utf8ByteSize ≤ 4096) "Cargo resource workspace_manifest is too long"
  let manifest ← (normalizePortableRepoPath libs.debug workspaceManifest
    "Cargo resource workspace_manifest").mapError Failure.bail
  ensure ((Text.split '/' manifest).getLast? == some "Cargo.toml")
    "Cargo resource workspace_manifest must name Cargo.toml"
  let cwd := workingDirectory.getD "."
  ensure (cwd.utf8ByteSize ≤ 4096) "Cargo resource working_directory is too long"
  let cwd ← (normalizePortableRepoPath libs.debug cwd
    "Cargo resource working_directory").mapError Failure.bail
  (RustFocus.validateContext context).mapError Failure.bail
  match action.runner with
  | .rustNextestV1 configuration =>
      ensure (manifest == configuration.workspaceManifest && context == configuration.context &&
          cwd == ".")
        ("Cargo resource must match the typed Rust runner manifest, context and " ++
          "repository-root working directory")
  | _ => .ok ()
  let features := (context.features.insertionSort (· ≤ ·)).destutter (· ≠ ·)
  return libs.cargoIdentityJson manifest cwd { context with features }

/-- One declaration of `validate_declarations`: the Cargo identities seen so far, and whether a
Playwright declaration was. -/
def Resources.validateDeclaration :
    List Bytes × Bool → ExecutionResourceV1 → Result (List Bytes × Bool)
  | (seen, browserSeen), .cargoV1 workspaceManifest workingDirectory context => do
      let identity ← Resources.cargoIdentity libs action workspaceManifest workingDirectory context
      ensure (!seen.contains identity)
        s!"target '{action.target}' has duplicate Cargo resource declarations"
      return (identity :: seen, browserSeen)
  | (seen, browserSeen), .playwrightServersV1 => do
      let nextest := match action.runner with
        | .rustNextestV1 _ => true
        | _ => false
      ensure (!nextest)
        (s!"target '{action.target}' Playwright server resources require a generic process " ++
          "runner")
      ensure (!browserSeen)
        s!"target '{action.target}' has duplicate Playwright server resource declarations"
      return (seen, true)

def Resources.validateDeclarations : Result Unit :=
  if action.resources.isEmpty then
    .ok ()
  else do
    ensure (action.resources.length ≤ 8)
      s!"target '{action.target}' allows at most 8 resource declarations"
    ensure (action.intent == .check && action.effects.contains .readOnly &&
        action.effects.contains .process &&
        action.effects.all fun effect => effect == .readOnly || effect == .process)
      s!"target '{action.target}' resource coordination requires a read-only process check"
    bailIf (isNative action.runner)
      s!"native target '{action.target}' cannot declare execution resources"
    discard (action.resources.foldlM (Resources.validateDeclaration libs action) ([], false))

end Runners

/-! ## Migration authoring -/

inductive MigrationBackend where
  | sqlx
  | goose
deriving DecidableEq

def nativeMigrationBackend (components : List ComponentSpec) (actions : List ActionSpec) :
    Result (Option MigrationBackend) :=
  match actions.filter Arguments.migrationAction with
  | [] => .ok none
  | [action] => do
      bailIf (action.intent != .generate)
        s!"native migration authoring target '{action.target}' must declare intent 'generate'"
      bailIf (!action.effects.contains .worktree)
        (s!"native migration authoring target '{action.target}' must declare the 'worktree' " ++
          "effect")
      match components.find? (·.id = action.target.component) with
      | none =>
          .error (.bail (s!"migration authoring target '{action.target}' references unknown " ++
            s!"component '{action.target.component}'"))
      | some component =>
          match component.adapters.contains "sqlx", component.adapters.contains "go-postgres" with
          | true, false => .ok (some .sqlx)
          | false, true => .ok (some .goose)
          | true, true =>
              .error (.bail (s!"migration authoring target '{action.target}' belongs to component " ++
                s!"'{component.id}' with both sqlx and go-postgres adapters; choose one " ++
                "migration format owner"))
          | false, false =>
              .error (.bail (s!"migration authoring target '{action.target}' belongs to component " ++
                s!"'{component.id}' without a sqlx or go-postgres adapter"))
  | several =>
      .error (.bail ("repository declares multiple migration authoring targets (" ++
        Text.join ", " (several.map (toString ·.target)) ++
        "), but the repository-wide migration_dir requires a single authoring owner; keep one " ++
        "native [[repository.actions]] migration-add entry"))

end Jig.Repository

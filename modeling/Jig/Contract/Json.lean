import Jig.Contract.Run
import Jig.Lib.Json

/-!
# The JSON of the contract

What `serde` derives for the records of `jig-contract` that are hashed or stored: field by field in
declaration order, variants with their tag first, and the fields that are skipped when empty.
-/

namespace Jig.Contract

open Jig.Lib
open Lib.Json hiding optional

/-- A variant of an enumeration that is tagged with its kind. -/
def taggedJson (kind : String) (fields : List (String × Bytes)) : Bytes :=
  object (("kind", string kind) :: fields)

def textsJson (texts : List String) : Bytes :=
  array (texts.map string)

/-! ## Runners, arguments and resources -/

def CargoImpactContextV1.json (context : CargoImpactContextV1) : Bytes :=
  object ([("metadata_format_version", number context.metadataFormatVersion)] ++
    Json.optional "target" (context.target.map string) ++
    nonempty "features" (context.features.map string) ++
    flag "no_default_features" context.noDefaultFeatures ++
    flag "all_features" context.allFeatures ++
    [("locked", bool context.locked), ("offline", bool context.offline)])

def RustNextestConfigV1.json (config : RustNextestConfigV1) : Bytes :=
  object ([("workspace_manifest", string config.workspaceManifest),
      ("focused", bool config.focused), ("context", config.context.json)] ++
    Json.optional "cargo_profile" (config.cargoProfile.map string) ++
    Json.optional "nextest_profile" (config.nextestProfile.map string))

/-- Without a tag: a literal is its text. -/
def ArgvValue.json : ArgvValue → Bytes
  | literal value => string value
  | .argument name => object [("argument", string name)]

/-- The limits stand beside the tag. -/
def NativeActionConfigurationV1.json : NativeActionConfigurationV1 → Bytes
  | fileBudget config =>
      let missing := match config.missingComparison with
        | .block => "block"
        | .strictInventory => "strict_inventory"
      taggedJson "file_budget" [("max_candidates", number config.maxCandidates),
        ("max_total_bytes", number config.maxTotalBytes),
        ("missing_comparison", string missing)]

/-- Where and with which environment a process runs. -/
def processFields (workingDirectory : Option String) (environment : Environment) :
    List (String × Bytes) :=
  Json.optional "working_directory" (workingDirectory.map string) ++
    if environment.isEmpty then []
    else [("environment", object (environment.toList.map fun (k, v) => (k, string v)))]

def ActionRunner.json : ActionRunner → Bytes
  | rustNextestV1 configuration =>
      taggedJson "rust_nextest_v1" [("configuration", configuration.json)]
  | .command text workingDirectory environment =>
      taggedJson "command"
        (("command", string text) :: processFields workingDirectory environment)
  | .shell text workingDirectory environment =>
      taggedJson "shell"
        (("command", string text) :: processFields workingDirectory environment)
  | argv program args workingDirectory environment =>
      taggedJson "argv" (("program", string program) ::
        ("args", array (args.map ArgvValue.json)) ::
          processFields workingDirectory environment)
  | native operation configuration =>
      taggedJson "native" (("operation", string operation) ::
        Json.optional "configuration" (configuration.map NativeActionConfigurationV1.json))

def ActionArgumentSpec.json : ActionArgumentSpec → Bytes
  | rustFocusV1 => object [("type", Json.string "rust_focus_v1")]
  | string required allowEmpty maxBytes =>
      object [("type", Json.string "string"), ("required", bool required),
        ("allow_empty", bool allowEmpty), ("max_bytes", number maxBytes)]

def ExecutionResourceV1.json : ExecutionResourceV1 → Bytes
  | cargoV1 workspaceManifest workingDirectory context =>
      taggedJson "cargo_v1" ([("workspace_manifest", string workspaceManifest)] ++
        Json.optional "working_directory" (workingDirectory.map string) ++
        [("context", context.json)])
  | playwrightServersV1 => taggedJson "playwright_servers_v1" []

def RustTargetV1.json : RustTargetV1 → Bytes
  | lib => taggedJson "lib" []
  | bin name => taggedJson "bin" [("name", string name)]
  | test name => taggedJson "test" [("name", string name)]
  | exampleTarget name => taggedJson "example" [("name", string name)]
  | bench name => taggedJson "bench" [("name", string name)]

def RustFocusV1.json : RustFocusV1 → Bytes
  | automatic => taggedJson "automatic" []
  | explicit packages targets features filter =>
      taggedJson "explicit" ([("packages", textsJson packages),
          ("targets", array (targets.map RustTargetV1.json))] ++
        Json.optional "features" (features.map fun features =>
          object [("features", textsJson features.features),
            ("no_default_features", bool features.noDefaultFeatures),
            ("all_features", bool features.allFeatures)]) ++
        Json.optional "filter" (filter.map string))

/-! ## Plans -/

def SelectionReason.json : SelectionReason → Bytes
  | explicit selector => taggedJson "explicit" [("selector", string selector)]
  | profile id => taggedJson "profile" [("profile", string id.value)]
  | directInput path => taggedJson "direct_input" [("path", string path)]
  | unclaimedInput path => taggedJson "unclaimed_input" [("path", string path)]
  | componentDependency component path =>
      taggedJson "component_dependency" (("component", string component.value) ::
        Json.optional "path" (path.map string))
  | actionDependency target =>
      taggedJson "action_dependency" [("target", string (toString target))]
  | legacyAlias name => taggedJson "legacy_alias" [("alias", string name)]

def ActionIntent.json : ActionIntent → Bytes
  | check => string "check"
  | generate => string "generate"
  | serve => string "serve"
  | operate => string "operate"

def ActionEffect.json : ActionEffect → Bytes
  | readOnly => string "read_only"
  | worktree => string "worktree"
  | process => string "process"
  | external => string "external"

def targetsJson (targets : List TargetId) : List Bytes :=
  targets.map fun target => string (toString target)

def PlannedTarget.json (planned : PlannedTarget) : Bytes :=
  let arguments := planned.arguments.toList.map fun (name, value) => (name, string value)
  let parser := match planned.resultParser with
    | .exitCode => none
    | .jsonLines => some (string "json_lines")
  object ([("target", string (toString planned.target)), ("intent", planned.intent.json),
      ("effects", array (planned.effects.map ActionEffect.json)),
      ("runner", planned.runner.json)] ++
    nonempty "resources" (planned.resources.map ExecutionResourceV1.json) ++
    (if arguments.isEmpty then [] else [("arguments", object arguments)]) ++
    nonempty "inputs" (planned.inputs.map string) ++
    nonempty "depends_on" (targetsJson planned.dependsOn) ++
    Json.optional "timeout_seconds" (planned.timeoutSeconds.map number) ++
    Json.optional "result_parser" parser ++
    [("input_digest", string planned.inputDigest),
      ("reasons", array (planned.reasons.map SelectionReason.json))] ++
    Json.optional "selection_reason_count" (planned.selectionReasonCount.map number) ++
    flag "selection_reasons_truncated" planned.selectionReasonsTruncated ++
    Json.optional "selection_reasons_digest" (planned.selectionReasonsDigest.map string))

def RunPlan.json (plan : RunPlan) : Bytes :=
  let source := object (Json.optional "commit" (plan.source.commit.map string) ++
    [("worktree_fingerprint", string plan.source.worktreeFingerprint)])
  object ([("schema_version", number plan.schemaVersion), ("id", string plan.id),
      ("config_digest", string plan.configDigest), ("source", source)] ++
    nonempty "selectors" (plan.selectors.map string) ++
    Json.optional "profile" (plan.profile.map fun id => string id.value) ++
    Json.optional "affected_base" (plan.affectedBase.map string) ++
    [("targets", array (plan.targets.map PlannedTarget.json)),
      ("execution_layers", array
        (plan.executionLayers.map fun layer => array (targetsJson layer))),
      ("effects", array (plan.effects.map ActionEffect.json))])

end Jig.Contract

import Jig.FileBudget.Policy

/-!
# The evaluation of the file budget

`evaluate_v1` (`evaluation.rs`) with its treatment of waivers (`evaluation/waiver.rs`). The source
pushes diagnostics on one vector; here every part returns its own, in the order in which they are
pushed, and the evaluation is their concatenation, sorted.
-/

namespace Jig.FileBudget

open Lib Std

def policyPath : String := ".jig/file-budget.toml"

def maxWaiverTargetFactsV1 : Nat := maxWaiversV1 * 2

inductive UnsupportedFileKindV1 where
  | symlink | gitlink | special | changedDuringRead
deriving DecidableEq, Repr

/-- `unsupported_name`. -/
def UnsupportedFileKindV1.name : UnsupportedFileKindV1 → String
  | symlink => "symlink"
  | gitlink => "gitlink"
  | special => "special file"
  | changedDuringRead => "changed during read"

inductive ExactCurrentPathStateV1 where
  | regular | missing | unsupported (kind : UnsupportedFileKindV1)
deriving DecidableEq, Repr

structure ExactCurrentPathFactV1 where
  path : String
  state : ExactCurrentPathStateV1
deriving DecidableEq, Repr

inductive CurrentFileStateV1 where
  | regular (measurement : MeasurementV1)
  | unsupported (kind : UnsupportedFileKindV1)
deriving DecidableEq, Repr

structure EvaluateFileV1 where
  currentPath : String
  baselinePath : Option String
  current : CurrentFileStateV1
  comparison : Option MeasurementV1
deriving DecidableEq, Repr

inductive ComparisonPolicyV1 where
  | absent | present (policy : PolicyV1) | unavailable

structure EvaluationInputV1 where
  policy : PolicyV1
  comparisonPolicy : ComparisonPolicyV1
  currentDate : PolicyDateV1
  waiverTargets : List ExactCurrentPathFactV1
  files : List EvaluateFileV1

structure BudgetEvaluationV1 where
  diagnostics : List BudgetDiagnosticV1
  evaluatedFiles : Nat
  excludedFiles : Nat
  waivedFiles : Nat
deriving DecidableEq, Repr

def noErrors (diagnostics : List BudgetDiagnosticV1) : Bool :=
  !diagnostics.any fun diagnostic => diagnostic.severity = .error

def BudgetEvaluationV1.passed (evaluation : BudgetEvaluationV1) : Bool :=
  noErrors evaluation.diagnostics

/-! ### Indexes -/

structure FileIndexesV1 where
  duplicatePaths : ExtTreeSet String
  duplicateBaselinePaths : ExtTreeSet String
  byCurrent : ExtTreeMap String EvaluateFileV1
  byBaseline : ExtTreeMap String (List EvaluateFileV1)

/-- The texts that a list has more than once, as the counts of `index_files` give them. -/
def repeated (texts : List String) : ExtTreeSet String :=
  .ofList (texts.filter fun text => 1 < texts.count text)

variable (file : EvaluateFileV1)

/-- Whether a file is one of the duplicates, which nothing else looks at. -/
def EvaluateFileV1.isDuplicate (duplicatePaths duplicateBaselinePaths : ExtTreeSet String) :
    Bool :=
  duplicatePaths.contains file.currentPath ||
    file.baselinePath.any (duplicateBaselinePaths.contains ·)

def indexFiles (files : List EvaluateFileV1) : FileIndexesV1 :=
  let duplicatePaths := repeated (files.map (·.currentPath))
  let duplicateBaselinePaths := repeated
    ((files.filter fun file => !duplicatePaths.contains file.currentPath).filterMap
      (·.baselinePath))
  let kept := files.filter fun file => !file.isDuplicate duplicatePaths duplicateBaselinePaths
  { duplicatePaths := duplicatePaths
    duplicateBaselinePaths := duplicateBaselinePaths
    byCurrent := insertAll (·.currentPath) id ∅ kept
    byBaseline := groupPairs (kept.filterMap fun file => file.baselinePath.map (·, file)) }

def indexWaiverFacts (facts : List ExactCurrentPathFactV1) :
    ExtTreeMap String (List ExactCurrentPathFactV1) :=
  groupPairs (facts.map fun fact => (fact.path, fact))

/-! ### Waivers -/

section Waivers

variable (libs : BudgetLibraries) (input : EvaluationInputV1)

def WaiverV1.diagnostic (waiver : WaiverV1) (code : BudgetDiagnosticCodeV1) (message : String) :
    BudgetDiagnosticV1 where
  severity := .error
  code := code
  message := message
  path := some waiver.path
  ruleId := some waiver.rule
  waiverId := some waiver.id

/-- The error of a waiver in `validate_current_waivers`, if it has one. -/
def waiverError (facts : ExtTreeMap String (List ExactCurrentPathFactV1)) (waiver : WaiverV1) :
    Option String :=
  let named := "waiver `" ++ waiver.id ++ "`"
  if waiver.expires.before input.currentDate then
    some (named ++ " expired after " ++ waiver.expires.display ++ " and is not active on " ++
      input.currentDate.display)
  else
    match facts[waiver.path]? with
    | none | some [] => some (named ++ " has no supplied exact current-view target fact")
    | some [fact] =>
        match fact.state with
        | .regular =>
            match input.policy.classifyPath libs waiver.path with
            | .ok (.governed rule) =>
                if rule.id = waiver.rule then none
                else some (named ++ " target matches rule `" ++ rule.id ++ "`, not `" ++
                  waiver.rule ++ "`")
            | .ok _ => some (named ++ " target is no longer governed by rule `" ++ waiver.rule ++
                "`")
            | .error _ => some (named ++ " target does not match exactly one effective rule")
        | .missing => some (named ++ " exact current-view target is missing")
        | .unsupported kind => some (named ++ " exact current-view target is unsupported (" ++
            kind.name ++ ")")
    | some _ => some (named ++ " has duplicate supplied exact current-view target facts")

def waiverFactLimitExceeded : Bool :=
  input.waiverTargets.length > maxWaiverTargetFactsV1

def waiverPaths : ExtTreeSet String :=
  .ofList (input.policy.waivers.map (·.path) ++
    match input.comparisonPolicy with
    | .present comparisonPolicy => comparisonPolicy.waivers.map (·.path)
    | .absent | .unavailable => [])

/-- `validate_current_waivers`: the ids of the invalid waivers, and the diagnostics. -/
def validateCurrentWaivers (facts : ExtTreeMap String (List ExactCurrentPathFactV1)) :
    ExtTreeSet String × List BudgetDiagnosticV1 :=
  if waiverFactLimitExceeded input then
    (.ofList (input.policy.waivers.map (·.id)),
      [{ severity := .error
         code := .resourceLimit
         message := "supplied " ++ toString input.waiverTargets.length ++
           " waiver-target facts; version 1 permits at most " ++ toString maxWaiverTargetFactsV1 }])
  else
    let invalid := input.policy.waivers.filter fun waiver =>
      (waiverError libs input facts waiver).isSome
    let errors := input.policy.waivers.filterMap fun waiver =>
      (waiverError libs input facts waiver).map fun message =>
        waiver.diagnostic
          (if waiver.expires.before input.currentDate then .waiverExpired else .waiverInvalid)
          message
    let stray := (input.waiverTargets.filter fun fact =>
        !(waiverPaths input).contains fact.path).map fun fact =>
      ({ severity := .error
         code := .scopeIncomplete
         message := "supplied waiver-target fact does not correspond to a current waiver"
         path := some fact.path } : BudgetDiagnosticV1)
    (.ofList (invalid.map (·.id)), errors ++ stray)

/-- What `record_policy_changes` says about the two waivers of one id. -/
def waiverChange (id : String) : Option WaiverV1 → Option WaiverV1 → List BudgetDiagnosticV1
  | none, none => []
  | none, some current => [notice current
      ("waiver `" ++ id ++ "` was added as current authorization")]
  | some comparison, none => [notice comparison
      ("waiver `" ++ id ++ "` was removed from current authorization")]
  | some comparison, some current =>
      if current = comparison then []
      else
        let kind :=
          if comparison.path ≠ current.path || comparison.rule ≠ current.rule then
            "target transferred"
          else if comparison.expires ≠ current.expires then "expiry changed"
          else if comparison.ceilingLines ≠ current.ceilingLines ||
              comparison.ceilingBytes ≠ current.ceilingBytes then "ceiling changed"
          else "reason changed"
        [notice current ("waiver `" ++ id ++ "` " ++ kind)]
where
  /-- A notice about a waiver. -/
  notice (waiver : WaiverV1) (message : String) : BudgetDiagnosticV1 :=
    { severity := .notice
      code := .policyChanged
      message := message
      path := some waiver.path
      ruleId := some waiver.rule
      waiverId := some id }

def recordPolicyChanges : List BudgetDiagnosticV1 :=
  match input.comparisonPolicy with
  | .absent =>
      if input.files.any fun file => file.comparison.isSome then
        [{ severity := .notice
           code := .policyChanged
           message := "current policy is absent from the comparison side"
           path := some policyPath }]
      else []
  | .unavailable => []
  | .present comparisonPolicy =>
      if libs.semanticSha256 input.policy = libs.semanticSha256 comparisonPolicy then []
      else
        let ids : ExtTreeSet String := .ofList
          (input.policy.waivers.map (·.id) ++ comparisonPolicy.waivers.map (·.id))
        { severity := .notice
          code := .policyChanged
          message := "current semantic policy differs from comparison-side policy"
          path := some policyPath } ::
        ids.toList.flatMap fun id =>
          waiverChange id (comparisonPolicy.waiver id) (input.policy.waiver id)

def waiverTransferFollowsAncestry (current historical : WaiverV1) (files : FileIndexesV1) : Bool :=
  current.path = historical.path ||
    (files.byBaseline[historical.path]?).any fun renamed =>
      renamed.any fun file => file.currentPath = current.path

def historicalWaiverDiagnostic (code : BudgetDiagnosticCodeV1) (waiver : WaiverV1)
    (message : String) : BudgetDiagnosticV1 :=
  waiver.diagnostic code message

variable (historical : WaiverV1)

def validateHistoricalWaiverFact (affected : ExtTreeMap String EvaluateFileV1)
    (facts : ExtTreeMap String (List ExactCurrentPathFactV1)) : List BudgetDiagnosticV1 :=
  match facts[historical.path]? with
  | none | some [] => [historicalWaiverDiagnostic .waiverInvalid historical
      "removed historical waiver has no supplied exact current-view target fact"]
  | some [fact] =>
      match fact.state, affected[historical.path]? with
      | .regular, some file =>
          match file.current with
          | .regular _ => []
          | .unsupported _ => [historicalWaiverDiagnostic .scopeIncomplete historical
              "historical waiver target is reported regular but its file fact is unsupported"]
      | .regular, none => [historicalWaiverDiagnostic .scopeIncomplete historical
          "historical waiver target is regular but has no supplied measurement fact"]
      | .missing, some _ => [historicalWaiverDiagnostic .scopeIncomplete historical
          "historical waiver target is reported missing but also has a current file fact"]
      | .missing, none => []
      | .unsupported kind, _ => [historicalWaiverDiagnostic .waiverInvalid historical
          ("removed historical waiver target is unsupported (" ++ kind.name ++ ")")]
  | some _ => [historicalWaiverDiagnostic .waiverInvalid historical
      "removed historical waiver has duplicate exact current-view target facts"]

variable (files : FileIndexesV1)

/-- The files of a historical waiver: the one at its path, and the ones that come from there. -/
def affectedFiles (historical : WaiverV1) : ExtTreeMap String EvaluateFileV1 :=
  insertAll (·.currentPath) id ∅ (files.byCurrent[historical.path]?.toList ++
    files.byBaseline[historical.path]?.getD [])

/-- Whether the historical waiver covered a metric that no waiver covers any more. -/
def removedMetric (current : Option WaiverV1) (targetContinues : Bool) (metric : BudgetMetricV1) :
    Bool :=
  (historical.ceiling metric).isSome &&
    (!targetContinues || current.all fun waiver => (waiver.ceiling metric).isNone)

/-- The debt of a file in one metric that a historical waiver no longer authorizes. -/
def removedDebt (removed : Bool) (file : EvaluateFileV1) (rule : RuleV1)
    (measurement : MeasurementV1) (metric : BudgetMetricV1) : List BudgetDiagnosticV1 :=
  match rule.maximum metric with
  | none => []
  | some maximum =>
      if removed && maximum < measurement.get metric then
        [{ severity := .error
           code := .waiverRemovedWithDebt
           message := "historical waiver `" ++ historical.id ++ "` no longer authorizes " ++
             metric.name ++ " debt"
           path := some file.currentPath
           ruleId := some rule.id
           waiverId := some historical.id
           metric := some metric
           current := some (measurement.get metric)
           comparison := file.comparison.map (·.get metric)
           limit := some maximum
           debt := some (measurement.get metric - maximum) }]
      else []

def PolicyV1.isGoverned (policy : PolicyV1) (path : String) : Bool :=
  match policy.classifyPath libs path with
  | .ok (.governed _) => true
  | _ => false

def PolicyV1.isNotGoverned (policy : PolicyV1) (path : String) : Bool :=
  match policy.classifyPath libs path with
  | .ok (.governed _) => false
  | .ok _ => true
  | .error _ => false

/-- The part of `record_removed_waiver_debt` about one waiver. -/
def removedWaiverDebt (facts : ExtTreeMap String (List ExactCurrentPathFactV1))
    (historical : WaiverV1) : List BudgetDiagnosticV1 :=
  let current := input.policy.waiver historical.id
  let targetContinues := current.any fun current =>
    waiverTransferFollowsAncestry current historical files
  let removed := removedMetric historical current targetContinues
  if !removed .lines && !removed .bytes then []
  else
    let affected := affectedFiles files historical
    if !targetContinues &&
        !((valuesOf affected).any fun file => input.policy.isGoverned libs file.currentPath) &&
        input.policy.isNotGoverned libs historical.path then []
    else
      (if targetContinues then
        if affected.isEmpty then
          [historicalWaiverDiagnostic .scopeIncomplete historical
            "removed waiver metric target has no supplied measurement fact"]
        else []
      else validateHistoricalWaiverFact historical affected facts) ++
      (valuesOf affected).flatMap fun file =>
        match file.current, input.policy.classifyPath libs file.currentPath with
        | .regular measurement, .ok (.governed rule) =>
            removedDebt historical (removed .lines) file rule measurement .lines ++
              removedDebt historical (removed .bytes) file rule measurement .bytes
        | _, _ => []

def recordRemovedWaiverDebt (facts : ExtTreeMap String (List ExactCurrentPathFactV1)) :
    List BudgetDiagnosticV1 :=
  match input.comparisonPolicy with
  | .present comparisonPolicy =>
      comparisonPolicy.waivers.flatMap (removedWaiverDebt libs input files facts)
  | .absent | .unavailable => []

end Waivers

/-! ### Metrics -/

def maximumCode : BudgetMetricV1 → BudgetDiagnosticCodeV1
  | .lines => .maxLines
  | .bytes => .maxBytes

def debtGrowthCode : BudgetMetricV1 → BudgetDiagnosticCodeV1
  | .lines => .debtGrowthLines
  | .bytes => .debtGrowthBytes

def noticeCode : BudgetMetricV1 → BudgetDiagnosticCodeV1
  | .lines => .noticeLines
  | .bytes => .noticeBytes

def warningCode : BudgetMetricV1 → BudgetDiagnosticCodeV1
  | .lines => .warningLines
  | .bytes => .warningBytes

def metricDiagnostic (severity : BudgetSeverityV1) (code : BudgetDiagnosticCodeV1)
    (message : String) (file : EvaluateFileV1) (rule : RuleV1) (metric : BudgetMetricV1)
    (current : Nat) (comparison : Option Nat) (limit : Nat) : BudgetDiagnosticV1 where
  severity := severity
  code := code
  message := message
  path := some file.currentPath
  ruleId := some rule.id
  metric := some metric
  current := some current
  comparison := comparison
  limit := some limit

/-- A threshold of `evaluate_metric` that is not the maximum. -/
def thresholdDiagnostics (severity : BudgetSeverityV1) (code : BudgetDiagnosticCodeV1)
    (thresholdName : String) (file : EvaluateFileV1) (rule : RuleV1) (metric : BudgetMetricV1)
    (current : Nat) (comparison : Option Nat) : Option Nat → List BudgetDiagnosticV1
  | none => []
  | some threshold =>
      if current > threshold then
        [metricDiagnostic severity code (metric.name ++ " measurement " ++ toString current ++
          " exceeds " ++ thresholdName ++ " threshold " ++ toString threshold) file rule metric
          current comparison threshold]
      else []

/-- The maximum in `evaluate_metric`: its diagnostics, and whether the waiver is exercised. -/
def evaluateMaximum (rule : RuleV1) (waiver : Option WaiverV1) (metric : BudgetMetricV1)
    (current : Nat) (comparison : Option Nat) (maximum : Nat) (waiverCeiling : Option Nat) :
    List BudgetDiagnosticV1 × Bool :=
  let debt := current - maximum
  match waiverCeiling.filter (current > ·) with
  | some ceiling =>
      ([{ metricDiagnostic .error (maximumCode metric) (metric.name ++ " measurement " ++
            toString current ++ " exceeds waiver ceiling " ++ toString ceiling) file rule metric
            current comparison ceiling with
          debt := some debt
          waiverId := waiver.map (·.id) }], false)
  | none =>
    if debt = 0 then
      match comparison with
      | none => ([], false)
      | some comparison =>
          let retired := comparison - maximum
          if retired > 0 then
            ([{ metricDiagnostic .notice .debtImproved (metric.name ++ " debt improved by " ++
                  toString retired ++ " and is now retired") file rule metric current
                  (some comparison) maximum with
                debt := some 0 }], false)
          else ([], false)
    else if waiverCeiling.isSome then ([], true)
    else
      match comparison with
      | none =>
          ([{ metricDiagnostic .error (maximumCode metric) ("new file " ++ metric.name ++
                " measurement " ++ toString current ++ " exceeds maximum " ++ toString maximum)
                file rule metric current none maximum with
              debt := some debt }], false)
      | some comparison =>
          let comparisonDebt := comparison - maximum
          if debt > comparisonDebt then
            let growth := debt - comparisonDebt
            ([{ metricDiagnostic .error (debtGrowthCode metric) (metric.name ++ " debt grew by " ++
                  toString growth ++ ", from " ++ toString comparisonDebt ++ " to " ++
                  toString debt) file rule metric current (some comparison) maximum with
                debt := some debt
                debtGrowth := some growth }], false)
          else if debt = comparisonDebt then
            ([{ metricDiagnostic .warning .legacyDebt (metric.name ++
                  " legacy debt remains unchanged at " ++ toString debt) file rule metric current
                  (some comparison) maximum with
                debt := some debt }], false)
          else
            let improvement := comparisonDebt - debt
            ([{ metricDiagnostic .notice .debtImproved (metric.name ++ " debt improved by " ++
                  toString improvement ++ ", from " ++ toString comparisonDebt ++ " to " ++
                  toString debt) file rule metric current (some comparison) maximum with
                debt := some debt }], false)

def evaluateMetric (rule : RuleV1) (waiver : Option WaiverV1) (metric : BudgetMetricV1)
    (measurement : MeasurementV1) : List BudgetDiagnosticV1 × Bool :=
  let current := measurement.get metric
  let comparison := file.comparison.map (·.get metric)
  let thresholds :=
    thresholdDiagnostics .notice (noticeCode metric) "notice" file rule metric current comparison
      (rule.notice metric) ++
    thresholdDiagnostics .warning (warningCode metric) "warning" file rule metric current
      comparison (rule.warning metric)
  match rule.maximum metric with
  | none => (thresholds, false)
  | some maximum =>
      let (diagnostics, exercised) := evaluateMaximum file rule waiver metric current comparison
        maximum (waiver.bind (·.ceiling metric))
      (thresholds ++ diagnostics, exercised)

/-! ### Files -/

def unsupportedDiagnostic (path ruleId : String) (kind : UnsupportedFileKindV1) :
    BudgetDiagnosticV1 where
  severity := .error
  code := if kind = .changedDuringRead then .changedDuringRead else .unsupportedFile
  message := "governed path is unsupported (" ++ kind.name ++ ")"
  path := some path
  ruleId := some ruleId

/-- What the loop of `evaluate_v1` does with one file. -/
structure FileOutcome where
  diagnostics : List BudgetDiagnosticV1
  evaluated : Bool
  excluded : Bool
  waived : Bool
deriving DecidableEq, Repr

/-- The regular governed files of the loop. -/
def evaluateRegular (policy : PolicyV1) (invalidWaivers : ExtTreeSet String)
    (file : EvaluateFileV1) (rule : RuleV1) (current : MeasurementV1) : FileOutcome :=
  if file.baselinePath.isSome ≠ file.comparison.isSome then
    { diagnostics :=
        [{ severity := .error
           code := .baselineUnavailable
           message := "baseline path and comparison measurement must either both be supplied or " ++
             "both be absent"
           path := some file.currentPath
           ruleId := some rule.id }]
      evaluated := true
      excluded := false
      waived := false }
  else
    let waiver := (policy.waiverFor rule.id file.currentPath).filter fun waiver =>
      !invalidWaivers.contains waiver.id
    let lines := evaluateMetric file rule waiver .lines current
    let bytes := evaluateMetric file rule waiver .bytes current
    let exercised := if lines.2 || bytes.2 then waiver else none
    { diagnostics := lines.1 ++ bytes.1 ++ exercised.toList.map fun waiver =>
        { severity := .warning
          code := .waiverActive
          message := "waiver `" ++ waiver.id ++ "` authorizes bounded debt through " ++
            waiver.expires.display
          path := some file.currentPath
          ruleId := some rule.id
          waiverId := some waiver.id }
      evaluated := true
      excluded := false
      waived := exercised.isSome }

variable (libs : BudgetLibraries)

/-- One round of the loop. -/
def evaluateFile (policy : PolicyV1) (indexes : FileIndexesV1)
    (invalidWaivers : ExtTreeSet String) (file : EvaluateFileV1) : FileOutcome :=
  if file.isDuplicate indexes.duplicatePaths indexes.duplicateBaselinePaths then
    ⟨[], false, false, false⟩
  else
    match policy.classifyPath libs file.currentPath with
    | .error diagnostic => ⟨[diagnostic], false, false, false⟩
    | .ok .outside => ⟨[], false, false, false⟩
    | .ok (.excluded _) | .ok .locallyExcluded => ⟨[], false, true, false⟩
    | .ok (.governed rule) =>
        match file.current with
        | .unsupported kind =>
            ⟨[unsupportedDiagnostic file.currentPath rule.id kind], true, false, false⟩
        | .regular current => evaluateRegular policy invalidWaivers file rule current

/-- `u64::saturating_add(1)` where a condition holds. -/
def countIf (condition : Bool) (n : Nat) : Nat :=
  if condition then min (n + 1) (2 ^ 64 - 1) else n

def duplicateDiagnostics (indexes : FileIndexesV1) : List BudgetDiagnosticV1 :=
  (indexes.duplicatePaths.toList.map fun path =>
    { severity := .error
      code := .scopeIncomplete
      message := "current evaluation facts contain duplicate path `" ++ path ++ "`"
      path := some path }) ++
  indexes.duplicateBaselinePaths.toList.map fun path =>
    { severity := .error
      code := .scopeIncomplete
      message := "comparison path `" ++ path ++ "` is claimed by multiple current files"
      path := some path }

variable (input : EvaluationInputV1)

def waiverFacts : ExtTreeMap String (List ExactCurrentPathFactV1) :=
  if waiverFactLimitExceeded input then ∅ else indexWaiverFacts input.waiverTargets

def invalidWaivers : ExtTreeSet String :=
  (validateCurrentWaivers libs input (waiverFacts input)).1

def scopeDiagnostics : List BudgetDiagnosticV1 :=
  (match input.comparisonPolicy with
  | .unavailable =>
      [{ severity := .error
         code := .baselineUnavailable
         message := "comparison-side policy authority is unavailable"
         path := some policyPath }]
  | .absent | .present _ => []) ++
  (validateCurrentWaivers libs input (waiverFacts input)).2 ++
  recordPolicyChanges libs input ++
  (if waiverFactLimitExceeded input then []
  else recordRemovedWaiverDebt libs input (indexFiles input.files) (waiverFacts input)) ++
  duplicateDiagnostics (indexFiles input.files)

def evaluateV1 : BudgetEvaluationV1 :=
  let evaluation := input.files.foldl
    (fun (evaluation : BudgetEvaluationV1) file =>
      let outcome := evaluateFile libs input.policy (indexFiles input.files)
        (invalidWaivers libs input) file
      { diagnostics := evaluation.diagnostics ++ outcome.diagnostics
        evaluatedFiles := countIf outcome.evaluated evaluation.evaluatedFiles
        excludedFiles := countIf outcome.excluded evaluation.excludedFiles
        waivedFiles := countIf outcome.waived evaluation.waivedFiles })
    ⟨scopeDiagnostics libs input, 0, 0, 0⟩
  { evaluation with diagnostics := sortDiagnostics evaluation.diagnostics }

end Jig.FileBudget

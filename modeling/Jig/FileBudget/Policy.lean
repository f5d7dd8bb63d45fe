import Jig.Lib.Text
import Jig.Lib.TreeMap

/-!
# Policies of the file budget

The data of `jig-file-budget`: diagnostics (`diagnostic.rs`), measurements, and a policy with its
rules, exclusions and waivers (`policy.rs`). A value of `PolicyV1` is what `build_policy` accepts,
as far as the evaluation depends on it: waivers have distinct ids and distinct targets, so the two
maps that the source builds to find a waiver are searches of the list here. Glob patterns are
matched by a library, and so is the hash of the canonical policy text.
-/

namespace Jig.FileBudget

open Lib

/-! ### Diagnostics -/

inductive BudgetSeverityV1 where
  | error | warning | notice
deriving DecidableEq, Repr, Ord

inductive BudgetMetricV1 where
  | lines | bytes
deriving DecidableEq, Repr, Ord

inductive BudgetDiagnosticCodeV1 where
  | maxLines | maxBytes | debtGrowthLines | debtGrowthBytes | legacyDebt | debtImproved
  | noticeLines | noticeBytes | warningLines | warningBytes | waiverActive | waiverExpired
  | waiverInvalid | waiverRemovedWithDebt | policyChanged | policyInvalid | ruleAmbiguous
  | scopeIncomplete | baselineUnavailable | unsupportedFile | changedDuringRead | resourceLimit
deriving DecidableEq, Repr, Ord

structure BudgetDiagnosticV1 where
  severity : BudgetSeverityV1
  code : BudgetDiagnosticCodeV1
  message : String
  path : Option String := none
  ruleId : Option String := none
  waiverId : Option String := none
  metric : Option BudgetMetricV1 := none
  current : Option Nat := none
  comparison : Option Nat := none
  limit : Option Nat := none
  debt : Option Nat := none
  debtGrowth : Option Nat := none
deriving DecidableEq, Repr

def compareDiagnostic (left right : BudgetDiagnosticV1) : Ordering :=
  (compare left.severity right.severity).then <|
  (compare left.path right.path).then <|
  (compare left.code right.code).then <|
  (compare left.ruleId right.ruleId).then <|
  (compare left.waiverId right.waiverId).then <|
  (compare left.metric right.metric).then <|
  compare left.message right.message

def sortDiagnostics (diagnostics : List BudgetDiagnosticV1) : List BudgetDiagnosticV1 :=
  diagnostics.insertionSort fun left right => (compareDiagnostic left right).isLE = true

/-- `metric_name`. -/
def BudgetMetricV1.name : BudgetMetricV1 → String
  | lines => "line"
  | bytes => "byte"

/-! ### Measurements and dates -/

structure MeasurementV1 where
  lines : Nat
  bytes : Nat
deriving DecidableEq, Repr

def MeasurementV1.get (measurement : MeasurementV1) : BudgetMetricV1 → Nat
  | .lines => measurement.lines
  | .bytes => measurement.bytes

def isValidDate (year month day : Nat) : Bool :=
  if year = 0 || year > 9999 || !(1 ≤ month && month ≤ 12) || day = 0 then false
  else
    let leap := year % 4 = 0 && (year % 100 ≠ 0 || year % 400 = 0)
    let days :=
      if month = 2 then if leap then 29 else 28
      else if month = 4 || month = 6 || month = 9 || month = 11 then 30 else 31
    day ≤ days

structure PolicyDateV1 where
  year : Nat
  month : Nat
  day : Nat
  valid : isValidDate year month day = true
deriving DecidableEq, Repr

namespace PolicyDateV1

def before (left right : PolicyDateV1) : Bool :=
  left.year < right.year || (left.year = right.year &&
    (left.month < right.month || (left.month = right.month && left.day < right.day)))

def padded (width n : Nat) : String :=
  String.ofList (List.replicate (width - (toString n).toList.length) '0') ++ toString n

/-- `Display for PolicyDateV1`. -/
def display (date : PolicyDateV1) : String :=
  padded 4 date.year ++ "-" ++ padded 2 date.month ++ "-" ++ padded 2 date.day

end PolicyDateV1

/-! ### Policies -/

inductive ExclusionKindV1 where
  | generated | vendored | policy
deriving DecidableEq, Repr, Ord

structure ExclusionV1 where
  pattern : String
  kind : ExclusionKindV1
  reason : String
deriving DecidableEq, Repr

/-- `RuleV1`, without its category, which the evaluation does not read. -/
structure RuleV1 where
  id : String
  includes : List String
  excludes : List String
  noticeLines : Option Nat
  warnLines : Option Nat
  maxLines : Option Nat
  noticeBytes : Option Nat
  warnBytes : Option Nat
  maxBytes : Option Nat
deriving DecidableEq, Repr

namespace RuleV1

def notice (rule : RuleV1) : BudgetMetricV1 → Option Nat
  | .lines => rule.noticeLines
  | .bytes => rule.noticeBytes

def warning (rule : RuleV1) : BudgetMetricV1 → Option Nat
  | .lines => rule.warnLines
  | .bytes => rule.warnBytes

def maximum (rule : RuleV1) : BudgetMetricV1 → Option Nat
  | .lines => rule.maxLines
  | .bytes => rule.maxBytes

end RuleV1

structure WaiverV1 where
  id : String
  rule : String
  path : String
  ceilingLines : Option Nat
  ceilingBytes : Option Nat
  reason : String
  expires : PolicyDateV1
deriving DecidableEq, Repr

def WaiverV1.ceiling (waiver : WaiverV1) : BudgetMetricV1 → Option Nat
  | .lines => waiver.ceilingLines
  | .bytes => waiver.ceilingBytes

structure PolicyV1 where
  rules : List RuleV1
  exclusions : List ExclusionV1
  waivers : List WaiverV1
  waiver_ids : (waivers.map (·.id)).Nodup
  waiver_targets : (waivers.map fun waiver => (waiver.rule, waiver.path)).Nodup

/-- The libraries of an evaluation: whether a glob pattern matches a path, and the hash of a
policy's canonical text. -/
structure BudgetLibraries where
  globMatches : String → String → Bool
  semanticSha256 : PolicyV1 → String

def maxWaiversV1 : Nat := 4096

def maxCandidatePathBytesV1 : Nat := 4096

/-- `has_windows_drive_prefix`. -/
def hasWindowsDriveStart (value : String) : Bool :=
  match value.toList with
  | first :: second :: _ => first.isAlpha && second = ':'
  | _ => false

def validateCandidatePathShape (path : String) : Except String Unit :=
  if path.isEmpty then .error "path must be non-empty"
  else if (Text.bytes path).length > maxCandidatePathBytesV1 then
    .error ("path exceeds the version 1 " ++ toString maxCandidatePathBytesV1 ++ "-byte limit")
  else if Text.containsChar '\x00' path then .error "path must not contain NUL bytes"
  else if Text.startsWithChar '/' path || (Text.split '/' path).any hasWindowsDriveStart then
    .error "path must be repository-relative"
  else if (Text.split '/' path).any fun part => part.isEmpty || part = "." || part = ".." then
    .error "path contains an empty, dot, or traversal component"
  else .ok ⟨⟩

def isOutsideCandidateUniverse (path : String) : Bool :=
  (Text.split '/' path).head? = some ".agent" || (Text.split '/' path).head? = some ".git"

inductive PathDispositionV1 where
  | outside
  | excluded (exclusion : ExclusionV1)
  | locallyExcluded
  | governed (rule : RuleV1)
deriving DecidableEq, Repr

/-- The order in which an exclusion is picked among those that match. -/
def compareExclusion (left right : ExclusionV1) : Ordering :=
  (compare left.pattern right.pattern).then <|
  (compare left.kind right.kind).then <|
  compare left.reason right.reason

/-- The first of the least elements of a list, as `Iterator::min_by` picks it. -/
def firstLeast {α : Type} (order : α → α → Ordering) : List α → Option α
  | [] => none
  | a :: rest =>
      match firstLeast order rest with
      | none => some a
      | some b => some (if order a b = .gt then b else a)

namespace PolicyV1

def classifyPath (libs : BudgetLibraries) (policy : PolicyV1) (path : String) :
    Except BudgetDiagnosticV1 PathDispositionV1 :=
  match validateCandidatePathShape path with
  | .error message => .error
      { severity := .error, code := .scopeIncomplete, message := message, path := some path }
  | .ok _ =>
    if isOutsideCandidateUniverse path then .ok .outside
    else
      match firstLeast compareExclusion
          (policy.exclusions.filter fun exclusion => libs.globMatches exclusion.pattern path) with
      | some exclusion => .ok (.excluded exclusion)
      | none =>
        let included := policy.rules.filter fun rule => rule.includes.any (libs.globMatches · path)
        let matching := included.filter fun rule => !rule.excludes.any (libs.globMatches · path)
        match matching with
        | [] => if included.isEmpty then .ok .outside else .ok .locallyExcluded
        | [rule] => .ok (.governed rule)
        | _ => .error
            { severity := .error
              code := .ruleAmbiguous
              message := "path `" ++ path ++ "` matches multiple effective rules: " ++
                Text.join ", " ((matching.map (·.id)).insertionSort fun a b => (compare a b).isLE)
              path := some path }

def waiver (policy : PolicyV1) (id : String) : Option WaiverV1 :=
  policy.waivers.find? fun waiver => waiver.id = id

def waiverFor (policy : PolicyV1) (rule path : String) : Option WaiverV1 :=
  policy.waivers.find? fun waiver => (waiver.rule, waiver.path) = (rule, path)

end PolicyV1

end Jig.FileBudget

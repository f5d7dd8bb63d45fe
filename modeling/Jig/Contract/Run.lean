import Jig.Contract.Repository

/-!
# Plans and results of a run

The immutable run plan and the result records of `jig-contract`, `run.rs`. A plan lists its targets
with their resolved `depends_on` entries and groups them into execution layers; a result pairs a
lifecycle status with a terminal conclusion.

Fields that are attached after planning (`prepared_native_input`, `prepared_rust_input`,
`cargo_impacts`) and the parts of a target result that only presentation reads (exit code, output
tail, evidence references, native evidence) are left out.
-/

namespace Jig.Contract

open Std

/-- Named literal strings, ordered canonically before plan hashing. -/
abbrev ActionArguments := ExtTreeMap String String

structure SourceIdentity where
  commit : Option String
  worktreeFingerprint : String
deriving DecidableEq

/-! ## Selection reasons -/

inductive SelectionReason where
  | explicit (selector : String)
  | profile (id : ProfileId)
  | directInput (path : String)
  | unclaimedInput (path : String)
  | componentDependency (component : ComponentId) (path : Option String)
  | actionDependency (target : TargetId)
  | legacyAlias (name : String)
deriving DecidableEq

namespace SelectionReason

/-- Position of the variant in the declaration. -/
def tag : SelectionReason → Nat
  | explicit _ => 0
  | profile _ => 1
  | directInput _ => 2
  | unclaimedInput _ => 3
  | componentDependency _ _ => 4
  | actionDependency _ => 5
  | legacyAlias _ => 6

def firstField : SelectionReason → String
  | explicit selector => selector
  | profile id => id.value
  | directInput path => path
  | unclaimedInput path => path
  | componentDependency component _ => component.value
  | actionDependency target => target.component.value
  | legacyAlias name => name

/-- The second field where the variant has one: a dependency path, or the action of a target. -/
def secondField : SelectionReason → Option String
  | componentDependency _ path => path
  | actionDependency target => some target.action.value
  | _ => none

/-- The three keys determine the reason, so comparing them in turn is the derived Rust order. -/
theorem eq_of_keys_eq {a b : SelectionReason} (htag : a.tag = b.tag)
    (hfirst : a.firstField = b.firstField) (hsecond : a.secondField = b.secondField) : a = b := by
  cases a <;> cases b <;> try cases htag
  case explicit.explicit => exact congrArg explicit hfirst
  case profile.profile => exact congrArg profile (Identifier.ext hfirst)
  case directInput.directInput => exact congrArg directInput hfirst
  case unclaimedInput.unclaimedInput => exact congrArg unclaimedInput hfirst
  case componentDependency.componentDependency =>
    exact congrArg₂ componentDependency (Identifier.ext hfirst) hsecond
  case actionDependency.actionDependency s t =>
    cases s
    cases t
    exact congrArg actionDependency
      (congrArg₂ TargetId.mk (Identifier.ext hfirst) (Identifier.ext (Option.some.inj hsecond)))
  case legacyAlias.legacyAlias => exact congrArg legacyAlias hfirst

/-- The derived Rust order: variants in declaration order, then fields from left to right. -/
def cmp : SelectionReason → SelectionReason → Ordering :=
  compareLex (compareOn tag) (compareLex (compareOn firstField) (compareOn secondField))

instance : Ord SelectionReason := ⟨cmp⟩

instance : TransOrd SelectionReason :=
  inferInstanceAs (TransCmp
    (compareLex (compareOn tag) (compareLex (compareOn firstField) (compareOn secondField))))

instance : LawfulEqOrd SelectionReason where
  eq_of_compare {a b} h := by
    have hlex : (compare a.tag b.tag).then ((compare a.firstField b.firstField).then
        (compare a.secondField b.secondField)) = .eq := h
    simp only [Ordering.then_eq_eq, LawfulEqOrd.compare_eq_iff_eq] at hlex
    exact eq_of_keys_eq hlex.1 hlex.2.1 hlex.2.2

end SelectionReason

/-! ## Plans -/

structure PlannedTarget where
  target : TargetId
  intent : ActionIntent
  effects : List ActionEffect := []
  runner : ActionRunner
  resources : List ExecutionResourceV1 := []
  arguments : ActionArguments := ∅
  inputs : List String := []
  dependsOn : List TargetId := []
  timeoutSeconds : Option Nat := none
  resultParser : ResultParser := .exitCode
  inputDigest : String
  reasons : List SelectionReason := []
  selectionReasonCount : Option Nat := none
  selectionReasonsTruncated : Bool := false
  selectionReasonsDigest : Option String := none
deriving DecidableEq

structure RunPlan where
  schemaVersion : Nat := 4
  id : String
  configDigest : String
  source : SourceIdentity
  selectors : List String := []
  profile : Option ProfileId := none
  affectedBase : Option String := none
  targets : List PlannedTarget
  executionLayers : List (List TargetId)
  effects : List ActionEffect := []
deriving DecidableEq

/-! ## Results -/

inductive RunStatus where
  | queued
  | running
  | completed
deriving DecidableEq, Repr

inductive RunConclusion where
  | success
  | failure
  | cancelled
  | timedOut
  | blocked
  | skipped
deriving DecidableEq, Repr

inductive FindingSeverity where
  | notice
  | warning
  | error
deriving DecidableEq, Repr

structure Finding where
  severity : FindingSeverity
  message : String
  source : Option String := none
deriving DecidableEq, Repr

structure TargetRunResult where
  target : TargetId
  status : RunStatus
  conclusion : Option RunConclusion := none
  startedAtMs : Option Nat := none
  endedAtMs : Option Nat := none
  configDigest : String
  inputDigest : String
  findings : List Finding := []
deriving DecidableEq

def TargetRunResult.queued (target : TargetId) (configDigest inputDigest : String) :
    TargetRunResult :=
  { target, status := .queued, configDigest, inputDigest }

structure RunResult where
  runId : String
  planId : String
  status : RunStatus
  conclusion : Option RunConclusion := none
  createdAtMs : Nat
  updatedAtMs : Nat
  targets : List TargetRunResult
deriving DecidableEq

def RunResult.queued (runId planId : String) (createdAtMs : Nat) (targets : List TargetRunResult) :
    RunResult :=
  { runId, planId, status := .queued, createdAtMs, updatedAtMs := createdAtMs, targets }

end Jig.Contract

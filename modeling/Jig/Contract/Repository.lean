import Jig.Contract.Identifier

/-!
# The repository contract

The checked-in records a catalog is built from (`jig-contract`, `repository.rs`, `resources.rs` and
the Cargo and nextest configuration they mention): components, actions with their runners,
arguments and scheduling resources, and profiles.

`BTreeMap` is `Std.ExtTreeMap`, `Vec` is `List`, and the unsigned integers of the source are natural
numbers. Documentation-only fields (descriptions, tags, provenance) that no modelled function reads
are left out.
-/

namespace Jig.Contract

open Std

inductive ActionIntent where
  | check
  | generate
  | serve
  | operate
deriving DecidableEq, Repr

inductive ActionEffect where
  | readOnly
  | worktree
  | process
  | external
deriving DecidableEq, Repr

namespace ActionEffect

/-- Position in the declaration, which is the order Rust derives. -/
def rank : ActionEffect → Nat
  | readOnly => 0
  | worktree => 1
  | process => 2
  | external => 3

theorem rank_injective {a b : ActionEffect} (h : a.rank = b.rank) : a = b := by
  cases a <;> cases b <;> first | rfl | cases h

instance : Ord ActionEffect := ⟨compareOn rank⟩

instance : TransOrd ActionEffect := inferInstanceAs (TransCmp (compareOn rank))

instance : LawfulEqOrd ActionEffect where
  eq_of_compare h := rank_injective (LawfulEqOrd.eq_of_compare (α := Nat) h)

end ActionEffect

/-! ## Components -/

structure ComponentSpec where
  id : ComponentId
  root : String
  dependsOn : List ComponentId := []
  propagateAffectedToDependents : Bool := false
  adapters : List String := []
deriving DecidableEq

/-! ## Runners -/

structure CargoImpactContextV1 where
  metadataFormatVersion : Nat := 1
  target : Option String := none
  features : List String := []
  noDefaultFeatures : Bool := false
  allFeatures : Bool := false
  locked : Bool := true
  offline : Bool := true
deriving DecidableEq

structure RustNextestConfigV1 where
  workspaceManifest : String
  focused : Bool := false
  context : CargoImpactContextV1 := {}
  cargoProfile : Option String := none
  nextestProfile : Option String := none
deriving DecidableEq

structure RustFeaturesV1 where
  features : List String := []
  noDefaultFeatures : Bool := false
  allFeatures : Bool := false
deriving DecidableEq

inductive RustTargetV1 where
  | lib
  | bin (name : String)
  | test (name : String)
  | exampleTarget (name : String)
  | bench (name : String)
deriving DecidableEq

/-- The packages and targets a focused test run asks for. -/
inductive RustFocusV1 where
  | automatic
  | explicit (packages : List String) (targets : List RustTargetV1)
      (features : Option RustFeaturesV1) (filter : Option String)
deriving DecidableEq

inductive ArgvValue where
  | literal (value : String)
  | argument (argument : String)
deriving DecidableEq

inductive MissingComparisonV1 where
  | block
  | strictInventory
deriving DecidableEq

structure NativeFileBudgetConfigV1 where
  maxCandidates : Nat := 10000
  maxTotalBytes : Nat := 256 * 1024 * 1024
  missingComparison : MissingComparisonV1 := .block
deriving DecidableEq

inductive NativeActionConfigurationV1 where
  | fileBudget (config : NativeFileBudgetConfigV1)
deriving DecidableEq

/-- Process environment overrides of a runner. -/
abbrev Environment := ExtTreeMap String String

inductive ActionRunner where
  | rustNextestV1 (configuration : RustNextestConfigV1)
  | command (command : String) (workingDirectory : Option String) (environment : Environment)
  | shell (command : String) (workingDirectory : Option String) (environment : Environment)
  | argv (program : String) (args : List ArgvValue) (workingDirectory : Option String)
      (environment : Environment)
  | native (operation : String) (configuration : Option NativeActionConfigurationV1)
deriving DecidableEq

/-! ## Actions -/

inductive ExecutionResourceV1 where
  | cargoV1 (workspaceManifest : String) (workingDirectory : Option String)
      (context : CargoImpactContextV1)
  | playwrightServersV1
deriving DecidableEq

inductive ResultParser where
  | exitCode
  | jsonLines
deriving DecidableEq

inductive ActionArgumentSpec where
  | rustFocusV1
  | string (required allowEmpty : Bool) (maxBytes : Nat)
deriving DecidableEq

def ActionArgumentSpec.migrationName : ActionArgumentSpec :=
  .string true false 200

inductive ActionInputsPolicy where
  | wholeRepository
  | exhaustive
deriving DecidableEq

inductive ActionSourceState where
  | git
  | worktree
deriving DecidableEq

structure ActionSpec where
  target : TargetId
  intent : ActionIntent
  effects : List ActionEffect := []
  runner : ActionRunner
  resources : List ExecutionResourceV1 := []
  arguments : ExtTreeMap String ActionArgumentSpec := ∅
  inputs : List String := []
  inputsPolicy : Option ActionInputsPolicy := none
  sourceState : Option ActionSourceState := none
  dependsOn : List TargetId := []
  timeoutSeconds : Option Nat := none
  resultParser : ResultParser := .exitCode
  legacyAliases : List String := []
deriving DecidableEq

structure ProfileSpec where
  id : ProfileId
  targets : List TargetId
deriving DecidableEq

end Jig.Contract

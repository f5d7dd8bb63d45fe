import Jig.Contract.Run
import Jig.Lib.Lists

/-!
# Cargo impact facts

The portable impact records of `jig-contract`, `cargo.rs`, that are attached to a run plan: which
packages of a workspace a change may touch, and why. `sortCanonical` brings all repeated fields into
their order before a plan is persisted.
-/

namespace Jig.Contract

open Lib

inductive CargoImpactDispositionV1 where
  | narrowed
  | broadFallback
  | unavailable
deriving DecidableEq

structure CargoPackageImpactV1 where
  selector : String
  manifestPath : String
  workspaceMember : Bool
  activatedFeatures : List String
deriving DecidableEq

structure CargoTargetImpactV1 where
  packageSelector : String
  name : String
  kinds : List String
deriving DecidableEq

inductive CargoImpactReasonV1 where
  | changedSource (path : String)
  | consumerClosure (packageSelector : String)
  | topologyChange (path : String)
  | buildScriptInput (path : String)
  | unownedPath (path : String)
  | ambiguousOwnership (path : String)
  | invalidChangedPath
  | emptyChangedPathSet
  | noWorkspacePackages
  | workspaceManifestMissing
  | unsupportedWorkspaceRoot
  | cargoProgramUnavailable
  | metadataCommandNonZero
  | metadataProcessFailure
  | metadataTimeout
  | metadataOutputLimitExceeded
  | metadataMalformed
  | metadataResourceLimitExceeded
  | incompleteResolve
  | missingLocalDependency
  | duplicateSelector
  | unsupportedContext
deriving DecidableEq

/-- The position of a reason in its enumeration, and its text: the derived order. -/
def CargoImpactReasonV1.orderKey : CargoImpactReasonV1 → Nat × String
  | changedSource path => (0, path)
  | consumerClosure packageSelector => (1, packageSelector)
  | topologyChange path => (2, path)
  | buildScriptInput path => (3, path)
  | unownedPath path => (4, path)
  | ambiguousOwnership path => (5, path)
  | invalidChangedPath => (6, "")
  | emptyChangedPathSet => (7, "")
  | noWorkspacePackages => (8, "")
  | workspaceManifestMissing => (9, "")
  | unsupportedWorkspaceRoot => (10, "")
  | cargoProgramUnavailable => (11, "")
  | metadataCommandNonZero => (12, "")
  | metadataProcessFailure => (13, "")
  | metadataTimeout => (14, "")
  | metadataOutputLimitExceeded => (15, "")
  | metadataMalformed => (16, "")
  | metadataResourceLimitExceeded => (17, "")
  | incompleteResolve => (18, "")
  | missingLocalDependency => (19, "")
  | duplicateSelector => (20, "")
  | unsupportedContext => (21, "")

def CargoImpactReasonV1.le (left right : CargoImpactReasonV1) : Bool :=
  ((compare left.orderKey.1 right.orderKey.1).then
    (compare left.orderKey.2 right.orderKey.2)).isLE

def CargoPackageImpactV1.le (left right : CargoPackageImpactV1) : Bool :=
  ((((compare left.selector right.selector).then
    (compare left.manifestPath right.manifestPath)).then
    (compare left.workspaceMember right.workspaceMember)).then
    (compare left.activatedFeatures right.activatedFeatures)).isLE

def CargoTargetImpactV1.le (left right : CargoTargetImpactV1) : Bool :=
  (((compare left.packageSelector right.packageSelector).then (compare left.name right.name)).then
    (compare left.kinds right.kinds)).isLE

/-- Portable package-impact evidence attached to a run plan. The runtime test filter, which is
always absent, is left out. -/
structure CargoImpactV1 where
  component : ComponentId
  workspaceManifest : String
  context : CargoImpactContextV1
  disposition : CargoImpactDispositionV1
  reasons : List CargoImpactReasonV1 := []
  buildPackages : List CargoPackageImpactV1 := []
  testTargets : List CargoTargetImpactV1 := []
deriving DecidableEq

def CargoPackageImpactV1.canonical (package : CargoPackageImpactV1) : CargoPackageImpactV1 :=
  { package with activatedFeatures := sortDedup (· ≤ ·) package.activatedFeatures }

def CargoImpactV1.sortCanonical (impact : CargoImpactV1) : CargoImpactV1 :=
  { impact with
    context :=
      { impact.context with features := sortDedup (· ≤ ·) impact.context.features }
    reasons := sortDedup (CargoImpactReasonV1.le · · = true) impact.reasons
    buildPackages := sortDedup (CargoPackageImpactV1.le · · = true)
      (impact.buildPackages.map CargoPackageImpactV1.canonical)
    testTargets := sortDedup (CargoTargetImpactV1.le · · = true) (impact.testTargets.map fun target =>
      { target with kinds := sortDedup (· ≤ ·) target.kinds }) }

def CargoImpactV1.unavailable (component : ComponentId) (workspaceManifest : String)
    (context : CargoImpactContextV1) (reason : CargoImpactReasonV1) : CargoImpactV1 where
  component := component
  workspaceManifest := workspaceManifest
  context := context
  disposition := .unavailable
  reasons := [reason]

@[simp]
theorem CargoImpactV1.sortCanonical_disposition (impact : CargoImpactV1) :
    impact.sortCanonical.disposition = impact.disposition := rfl

@[simp]
theorem CargoImpactV1.mem_sortCanonical_buildPackages {impact : CargoImpactV1}
    {package : CargoPackageImpactV1} :
    package ∈ impact.sortCanonical.buildPackages ↔
      ∃ original ∈ impact.buildPackages, original.canonical = package := by
  simp [CargoImpactV1.sortCanonical]

end Jig.Contract

import Jig.Cargo.Normalize
import Jig.Contract.Cargo
import Jig.Lib.TreeMap
import Jig.Lib.Worklist

/-!
# Which packages a change touches

`select_cargo_impact_v1` of `jig-rust`, `cargo/impact.rs`: each changed Rust file is given to the
one package it can belong to, and what has to be built are the workspace members that consume one of
those packages, directly or not. Whatever does not fit that scheme selects the whole workspace.
-/

namespace Jig.Cargo

open Jig.Contract Lib Std

/-! ### Texts -/

def maxMetadataChangedPathsV1 : Nat := 4096

def validString (value : String) : Bool :=
  !value.isEmpty && value.utf8ByteSize ≤ 4096 && !Text.containsChar '\x00' value &&
    !value.toList.any Text.isControl

def validContext (context : CargoImpactContextV1) : Bool :=
  context.locked && context.offline && context.features.length ≤ 8192 &&
    context.target.all validString && context.features.all validString

def validChangedPath (path : String) : Bool :=
  !(path.isEmpty || 4096 < path.utf8ByteSize || Text.startsWithChar '/' path ||
      Text.containsChar '\\' path || Text.containsChar '\x00' path ||
      path.toList.any Text.isControl) &&
    !(Paths.components path).contains .parentDir

def safeManifest (manifest : String) : String :=
  if validChangedPath manifest then manifest else "."

def configurationFiles : List String :=
  ["Cargo.toml", "Cargo.lock", "rust-toolchain", "rust-toolchain.toml", "rustfmt.toml",
    ".rustfmt.toml", "clippy.toml", ".clippy.toml"]

def topologyPath (path : String) : Bool :=
  (Paths.fileName path).any (configurationFiles.contains ·) || path == ".cargo" ||
    Text.endsWith "/.cargo" path || (Text.stripStart ".cargo/" path).isSome ||
    Text.containsText "/.cargo/" path

/-! ### Owners -/

def underRoot (path root : String) : Bool :=
  let stripped := if Text.endsWith "/" root then String.ofList root.toList.dropLast else root
  root == "." || path == root || (Text.stripStart (stripped ++ "/") path).isSome

def packageDepth (package : CargoPackageFactsV1) : Nat :=
  if package.packageRoot = "." then 0 else (Text.split '/' package.packageRoot).length

def sourceDirectory (target : CargoTargetFactsV1) : Option String :=
  (Paths.parent target.srcPath).map fun parent => if parent.isEmpty then "." else parent

def CargoPackageFactsV1.isLocal (package : CargoPackageFactsV1) : Bool :=
  !package.manifestPath.isEmpty

/-- A target of the package has its source in a directory above the path. -/
def ownsSourceOf (path : String) (package : CargoPackageFactsV1) : Bool :=
  package.targets.any fun target =>
    !target.srcPath.isEmpty && (sourceDirectory target).any (underRoot path ·)

inductive Owner where
  | one (index : Nat)
  | none
  | ambiguous
deriving DecidableEq

def Owner.ofCandidates : List Nat → Owner
  | [] => .none
  | [index] => .one index
  | _ => .ambiguous

variable (graph : CargoMetadataGraphV1)

def deepestOwners (path : String) : List Nat :=
  (graph.packages.zipIdx.foldl (fun best (package, index) =>
    if !package.isLocal || !underRoot path package.packageRoot then best
    else keepMax Prod.fst best (packageDepth package, index)) (Option.none, [])).2.map Prod.snd

def uniqueOwner (path : String) : Owner :=
  .ofCandidates (graph.packages.zipIdx.foldl
    (addMissing (fun (package, _) => package.isLocal && ownsSourceOf path package) Prod.snd)
    (deepestOwners graph path))

/-- The state of the loop over the changed paths. -/
structure OwnerState where
  owners : ExtTreeSet Nat := ∅
  broad : Bool := false
  reasons : List CargoImpactReasonV1 := []

def ownChangedPath (state : OwnerState) (path : String) : Except CargoImpactReasonV1 OwnerState :=
  if !validChangedPath path then
    .error .invalidChangedPath
  else if topologyPath path then
    .ok { state with broad := true, reasons := state.reasons ++ [.topologyChange path] }
  else if Paths.fileName path = some "build.rs" then
    .ok { state with broad := true, reasons := state.reasons ++ [.buildScriptInput path] }
  else if !Text.endsWith ".rs" path then
    .ok { state with broad := true, reasons := state.reasons ++ [.unownedPath path] }
  else
    let reasons := state.reasons ++ [.changedSource path]
    match uniqueOwner graph path with
    | .one index => .ok { state with owners := state.owners.insert index, reasons }
    | .none => .ok { state with broad := true, reasons := reasons ++ [.unownedPath path] }
    | .ambiguous =>
        .ok { state with broad := true, reasons := reasons ++ [.ambiguousOwnership path] }

/-! ### Consumers -/

/-- The state of the loop over the consumers of an owner. -/
structure ClosureState where
  visited : ExtTreeSet Nat := ∅
  selected : ExtTreeSet Nat := ∅
  reasons : List CargoImpactReasonV1 := []

/-- One round of the loop over the consumers of an owner. -/
def visitConsumer (owner : Nat) (state : ClosureState) (index : Nat) :
    Except Empty (ClosureState × List Nat) :=
  if state.visited.contains index then
    .ok (state, [])
  else
    let state := { state with visited := state.visited.insert index }
    let consumers := graph.reverseConsumers.getD index []
    match graph.packages[index]? with
    | some package =>
        if package.workspaceMember then
          let reasons :=
            if index ≠ owner then state.reasons ++ [.consumerClosure package.selector]
            else state.reasons
          .ok ({ state with selected := state.selected.insert index, reasons }, consumers)
        else
          .ok (state, consumers)
    | none => .ok (state, consumers)

/-- The pushes that all rounds can make, and the first pop. -/
def closureRounds : Nat :=
  1 + (graph.reverseConsumers.map List.length).sum

/-- The loop for one owner, over the packages that were selected before. -/
def closeOwner (state : ExtTreeSet Nat × List CargoImpactReasonV1) (owner : Nat) :
    ExtTreeSet Nat × List CargoImpactReasonV1 :=
  match worklist (visitConsumer graph owner) (closureRounds graph)
      { selected := state.1, reasons := state.2 } [owner] with
  | .ok closed => (closed.selected, closed.reasons)

/-! ### The impact -/

def CargoPackageFactsV1.impact (package : CargoPackageFactsV1) : CargoPackageImpactV1 where
  selector := package.selector
  manifestPath := package.manifestPath
  workspaceMember := package.workspaceMember
  activatedFeatures := package.activatedFeatures

variable (base : CargoImpactV1)

def addPackageImpact (index : Nat) : CargoImpactV1 :=
  match graph.packages[index]? with
  | none => base
  | some package =>
      if package.manifestPath.isEmpty || package.selector.isEmpty then
        base
      else
        let targets := package.targets.filter fun target =>
          target.test || (target.doctest && target.kinds.any (· == "lib"))
        { base with
          buildPackages := base.buildPackages ++ [package.impact]
          testTargets := base.testTargets ++ targets.map fun target =>
            { packageSelector := package.selector, name := target.name, kinds := target.kinds } }

def fillAllWorkspaceImpact : CargoImpactV1 :=
  graph.workspaceMembers.foldl (addPackageImpact graph) base

def finish (impact : CargoImpactV1) : CargoImpactV1 :=
  if impact.disposition = .narrowed ∧ impact.buildPackages = [] then
    CargoImpactV1.sortCanonical { impact with
      disposition := .unavailable
      reasons := impact.reasons ++ [.missingLocalDependency] }
  else
    impact.sortCanonical

def broadFallback (graph : CargoMetadataGraphV1) (base : CargoImpactV1)
    (reasons : List CargoImpactReasonV1) : CargoImpactV1 :=
  finish (fillAllWorkspaceImpact graph { base with disposition := .broadFallback, reasons })

/-- One selected package: it is listed, with its root as the reason where there is none so far. -/
def addSelected (index : Nat) : CargoImpactV1 :=
  let base := addPackageImpact graph base index
  match graph.packages[index]? with
  | none => base
  | some package =>
      if base.reasons.any (fun reason => reason matches .changedSource _) then base
      else { base with reasons := base.reasons ++ [.changedSource package.packageRoot] }

def selectCargoImpactV1 (component : ComponentId) (workspaceManifest : String)
    (changedPaths : List String) (context : CargoImpactContextV1) : CargoImpactV1 :=
  let workspaceManifest := safeManifest workspaceManifest
  let base : CargoImpactV1 :=
    { component, workspaceManifest, context, disposition := .narrowed }
  let unavailable := CargoImpactV1.unavailable component workspaceManifest context
  if context.metadataFormatVersion ≠ 1 || !validContext context then
    unavailable .unsupportedContext
  else if graph.workspaceMembers = [] then
    unavailable .noWorkspacePackages
  else if maxMetadataChangedPathsV1 < changedPaths.length then
    unavailable .metadataMalformed
  else if context.target.isSome then
    broadFallback graph base [.unsupportedContext]
  else if changedPaths = [] then
    broadFallback graph base [.emptyChangedPathSet]
  else
    match changedPaths.foldlM (ownChangedPath graph) {} with
    | .error reason => unavailable reason
    | .ok state =>
        if state.broad then
          broadFallback graph base state.reasons
        else
          let (selected, reasons) :=
            state.owners.toList.foldl (closeOwner graph) (∅, state.reasons)
          if selected.isEmpty then
            broadFallback graph base (reasons ++ [.missingLocalDependency])
          else
            finish (selected.toList.foldl (addSelected graph) { base with reasons })

end Jig.Cargo

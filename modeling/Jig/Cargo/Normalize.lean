import Jig.Lib.Paths
import Jig.Lib.TreeMap

/-!
# Normalizing Cargo metadata

`normalize_cargo_metadata_v1` of `jig-rust`, `cargo/normalize.rs`: the package graph that Cargo
reports becomes a graph over package indices, with texts and paths checked and everything counted
against limits. The stages of the source's function are `collectPackage`, `collectMember` and
`resolveNode`, each the body of one of its loops.
-/

namespace Jig.Cargo

open Lib Std

/-! ### What Cargo reports -/

structure RawTarget where
  name : String
  kind : List String
  srcPath : String
  test : Bool := false
  doctest : Bool := false
deriving DecidableEq

structure RawPackage where
  name : String
  version : String
  id : String
  manifestPath : String
  targets : List RawTarget
  features : ExtTreeMap String (List String) := ∅

structure RawDependencyKind where
  kind : Option String
  target : Option String

structure RawDependency where
  name : String
  pkg : String
  depKinds : List RawDependencyKind := []

structure RawNode where
  id : String
  dependencies : List String := []
  deps : List RawDependency := []
  features : List String := []

structure RawMetadata where
  version : Nat
  workspaceRoot : String
  packages : List RawPackage
  workspaceMembers : List String
  resolve : Option (List RawNode)

/-! ### Limits and failures -/

structure CargoMetadataLimitsV1 where
  maxMetadataBytes : Nat := 16 * 1024 * 1024
  maxPackages : Nat := 512
  maxNodes : Nat := 512
  maxEdges : Nat := 4096
  maxTargets : Nat := 4096
  maxFeatures : Nat := 8192
  maxRoots : Nat := 512
  maxPaths : Nat := 8192
  maxPathBytes : Nat := 4096
  maxStringBytes : Nat := 4096

inductive CargoMetadataResourceV1 where
  | metadataBytes
  | packages
  | nodes
  | edges
  | targets
  | features
  | roots
  | paths
  | pathBytes
  | stringBytes
  | changedPaths
deriving DecidableEq

inductive CargoMetadataErrorV1 where
  | metadataTooLarge (limit observed : Nat)
  | invalidJson
  | unsupportedFormat (expected observed : Nat)
  | missingField (field : String)
  | limitExceeded (resource : CargoMetadataResourceV1) (limit observed : Nat)
  | invalidString (field : String)
  | invalidPath (field : String)
  | invalidRepositoryRoot
  | duplicatePackageId
  | duplicateResolveNode
  | duplicateWorkspaceMember
  | duplicateSelector
  | unknownPackage
  | unknownWorkspaceMember
  | missingResolveNode
  | incompleteResolve
  | missingDependencyKinds
deriving DecidableEq

abbrev Normalized := Except CargoMetadataErrorV1

structure Counters where
  paths : Nat := 0
  targets : Nat := 0
  features : Nat := 0
  roots : Nat := 0
  edges : Nat := 0

def ensureCount (resource : CargoMetadataResourceV1) (limit observed : Nat) : Normalized Unit :=
  if limit < observed then .error (.limitExceeded resource limit observed) else .ok ()

def checkString (value : String) (limits : CargoMetadataLimitsV1) (field : String) :
    Normalized Unit :=
  if value.isEmpty || Text.containsChar '\x00' value || value.toList.any Text.isControl then
    .error (.invalidString field)
  else if limits.maxStringBytes < value.utf8ByteSize then
    .error (.limitExceeded .stringBytes limits.maxStringBytes value.utf8ByteSize)
  else
    .ok ()

def checkPathBytes (value : String) (limits : CargoMetadataLimitsV1) : Normalized Unit :=
  if limits.maxPathBytes < value.utf8ByteSize then
    .error (.limitExceeded .pathBytes limits.maxPathBytes value.utf8ByteSize)
  else
    .ok ()

/-! ### Paths -/

variable (limits : CargoMetadataLimitsV1)

def countPath (counters : Counters) : Normalized Counters := do
  ensureCount .paths limits.maxPaths (counters.paths + 1)
  return { counters with paths := counters.paths + 1 }

/-- The form that every path has: a bounded text without a scheme and without backslashes. -/
def checkPathText (raw : String) (limits : CargoMetadataLimitsV1) (field : String) :
    Normalized Unit := do
  checkString raw limits field
  checkPathBytes raw limits
  if (Text.stripStart "file:" raw).isSome || Text.containsChar '\\' raw then
    .error (.invalidPath field)
  else
    pure ()

def normalizePath (raw repositoryRoot : String) (limits : CargoMetadataLimitsV1)
    (counters : Counters) (field : String) : Normalized (String × Counters) := do
  checkPathText raw limits field
  let counters ← countPath limits counters
  let relative ←
    (if Paths.isAbsolute raw then
      match Paths.componentsBelow repositoryRoot raw with
      | some relative => .ok relative
      | none => .error (.invalidPath field)
    else
      .ok (Paths.components raw))
  let normalized ← relative.foldlM (fun (normalized : List String) component =>
    match component with
    | .curDir => .ok normalized
    | .normal part => .ok (normalized ++ [part])
    | .parentDir | .rootDir => .error (.invalidPath field)) []
  let value := if normalized = [] then "." else Text.join "/" normalized
  checkPathBytes value limits
  return (value, counters)

/-- `normalize_package_manifest`: a manifest outside the repository is left empty. -/
def normalizePackageManifest (raw repositoryRoot : String) (limits : CargoMetadataLimitsV1)
    (counters : Counters) : Normalized (String × Counters) := do
  checkPathText raw limits "manifest"
  if Paths.isAbsolute raw && (Paths.componentsBelow repositoryRoot raw).isNone then
    if (Paths.components raw).contains .parentDir then
      .error (.invalidPath "manifest")
    else
      return ("", ← countPath limits counters)
  else
    normalizePath raw repositoryRoot limits counters "manifest"

def discardExternalPath (raw : String) (limits : CargoMetadataLimitsV1) (counters : Counters)
    (field : String) : Normalized Counters := do
  checkPathText raw limits field
  if (Paths.components raw).contains .parentDir then
    .error (.invalidPath field)
  else
    countPath limits counters

def packageRoot (manifestPath : String) : String :=
  match Paths.parent manifestPath with
  | some directory => if directory.isEmpty then "." else directory
  | none => "."

/-! ### Packages -/

structure CargoTargetFactsV1 where
  name : String
  kinds : List String
  srcPath : String
  test : Bool
  doctest : Bool
deriving DecidableEq

structure CargoPackageFactsV1 where
  selector : String
  manifestPath : String
  packageRoot : String
  workspaceMember : Bool
  activatedFeatures : List String
  targets : List CargoTargetFactsV1
deriving DecidableEq

structure CargoMetadataGraphV1 where
  workspaceRoot : String
  packages : List CargoPackageFactsV1
  workspaceMembers : List Nat
  reverseConsumers : List (List Nat)
  selectorProof : ExtTreeMap String Nat

def CargoTargetFactsV1.le (left right : CargoTargetFactsV1) : Bool :=
  (((compare left.name right.name).then (compare left.kinds right.kinds)).then
    (compare left.srcPath right.srcPath)).isLE

/-- One round of the loop of `normalize_targets`. -/
def normalizeTarget (repositoryRoot : String) (isLocal : Bool) (limits : CargoMetadataLimitsV1) :
    List CargoTargetFactsV1 × Counters → RawTarget →
      Normalized (List CargoTargetFactsV1 × Counters)
  | (targets, counters), target => do
      ensureCount .targets limits.maxTargets (counters.targets + 1)
      let counters := { counters with targets := counters.targets + 1 }
      checkString target.name limits "target name"
      (if target.kind = [] then .error (.invalidString "target kind") else pure ())
      target.kind.forM fun kind => checkString kind limits "target kind"
      let kinds := sortDedup (· ≤ ·) target.kind
      let (srcPath, counters) ←
        (if isLocal then
          normalizePath target.srcPath repositoryRoot limits counters "target source"
        else
          ("", ·) <$> discardExternalPath target.srcPath limits counters "target source")
      let facts : CargoTargetFactsV1 :=
        { name := target.name
          kinds := kinds
          srcPath := srcPath
          test := target.test
          doctest := target.doctest }
      return (targets ++ [facts], counters)

def normalizeTargets (rawTargets : List RawTarget) (repositoryRoot : String) (isLocal : Bool)
    (limits : CargoMetadataLimitsV1) (counters : Counters) :
    Normalized (List CargoTargetFactsV1 × Counters) := do
  let (targets, counters) ←
    rawTargets.foldlM (normalizeTarget repositoryRoot isLocal limits) ([], counters)
  return (targets.insertionSort (CargoTargetFactsV1.le · · = true), counters)

def countFeature (counters : Counters) : Normalized Counters := do
  ensureCount .features limits.maxFeatures (counters.features + 1)
  return { counters with features := counters.features + 1 }

def normalizeFeatures (features : ExtTreeMap String (List String))
    (limits : CargoMetadataLimitsV1) (counters : Counters) : Normalized Counters :=
  features.toList.foldlM (fun counters (feature, expansions) => do
    checkString feature limits "feature"
    let counters ← countFeature limits counters
    expansions.foldlM (fun counters expansion => do
      checkString expansion limits "feature expansion"
      countFeature limits counters) counters) counters

def isAsciiWhitespace (c : Char) : Bool :=
  c == ' ' || c == '\t' || c == '\n' || c == '\x0c' || c == '\r'

def packageSelector (name version : String) : Normalized String :=
  if name.isEmpty || !name.toList.all (fun c => c.isAlphanum || c == '_' || c == '-') ||
      version.isEmpty ||
      version.toList.any (fun c =>
        isAsciiWhitespace c || c == '\x00' || c == '/' || c == '\\' || c == '@') then
    .error (.invalidString "package selector")
  else
    .ok (name ++ "@" ++ version)

/-- The state of the loop over the packages. -/
structure Collected where
  counters : Counters
  idToIndex : ExtTreeMap String Nat := ∅
  selectors : List String := []
  packages : List CargoPackageFactsV1 := []

/-- One round of the loop over the packages. -/
def collectPackage (repositoryRoot : String) (limits : CargoMetadataLimitsV1)
    (collected : Collected) (package : RawPackage) : Normalized Collected := do
  checkString package.id limits "package id"
  (if collected.idToIndex.contains package.id then .error .duplicatePackageId else pure ())
  checkString package.name limits "package name"
  checkString package.version limits "package version"
  checkString package.manifestPath limits "manifest"
  let selector ← packageSelector package.name package.version
  (if selector ∈ collected.selectors then .error .duplicateSelector else pure ())
  let (manifestPath, counters) ←
    normalizePackageManifest package.manifestPath repositoryRoot limits collected.counters
  let isLocal := !manifestPath.isEmpty
  let counters := { counters with roots := counters.roots + 1 }
  ensureCount .roots limits.maxRoots counters.roots
  let (targets, counters) ← normalizeTargets package.targets repositoryRoot isLocal limits counters
  let counters ← normalizeFeatures package.features limits counters
  return {
    counters
    idToIndex := collected.idToIndex.insert package.id collected.packages.length
    selectors := selector :: collected.selectors
    packages := collected.packages ++ [{
      selector
      manifestPath
      packageRoot := if isLocal then packageRoot manifestPath else ""
      workspaceMember := false
      activatedFeatures := []
      targets }] }

/-! ### Members -/

/-- The state of the loop over the workspace members. -/
structure Members where
  packages : List CargoPackageFactsV1
  workspaceMembers : List Nat := []

variable (idToIndex : ExtTreeMap String Nat)

/-- One round of the loop over the workspace members. -/
def collectMember (members : Members) (memberId : String) :
    Normalized Members := do
  checkString memberId limits "workspace member"
  match idToIndex[memberId]? with
  | none => .error .unknownWorkspaceMember
  | some index =>
      if index ∈ members.workspaceMembers then
        .error .duplicateWorkspaceMember
      else if (members.packages[index]?.map (·.manifestPath.isEmpty)).getD true then
        .error .unknownWorkspaceMember
      else
        return {
          packages := members.packages.modify index fun package =>
            { package with workspaceMember := true }
          workspaceMembers := members.workspaceMembers ++ [index] }

/-! ### Resolved dependencies -/

def listedDependency (listed : List Nat) (dependencyId : String) : Normalized (List Nat) := do
  checkString dependencyId limits "dependency"
  match idToIndex[dependencyId]? with
  | none => .error .unknownPackage
  | some target =>
      if target ∈ listed then .error .incompleteResolve else return listed ++ [target]

def resolvedDependency :
    List Nat × Counters → RawDependency → Normalized (List Nat × Counters)
  | (resolved, counters), dependency => do
      checkString dependency.name limits "dependency name"
      checkString dependency.pkg limits "dependency"
      match idToIndex[dependency.pkg]? with
      | none => .error .unknownPackage
      | some target => do
          (if dependency.depKinds = [] then .error .missingDependencyKinds else pure ())
          dependency.depKinds.forM fun dependencyKind => do
            (match dependencyKind.kind with
            | some kind => checkString kind limits "dependency kind"
            | none => pure ())
            (match dependencyKind.target with
            | some triple => checkString triple limits "dependency target"
            | none => pure ())
          (if target ∈ resolved then .error .incompleteResolve else pure ())
          ensureCount .edges limits.maxEdges (counters.edges + 1)
          return (resolved ++ [target], { counters with edges := counters.edges + 1 })

/-- The state of the loop over the resolve nodes. -/
structure Resolved where
  counters : Counters
  packages : List CargoPackageFactsV1
  nodes : List Nat := []
  nodeDependencies : List (List Nat)

/-- One round of the loop over the resolve nodes. -/
def resolveNode (state : Resolved) (node : RawNode) :
    Normalized Resolved := do
  checkString node.id limits "resolve node"
  match idToIndex[node.id]? with
  | none => .error .unknownPackage
  | some source => do
      (if source ∈ state.nodes then .error .duplicateResolveNode else pure ())
      let listed ← node.dependencies.foldlM (listedDependency limits idToIndex) []
      let (resolved, counters) ←
        node.deps.foldlM (resolvedDependency limits idToIndex) ([], state.counters)
      -- the two lists have no duplicates, so they are equal as sets when they are permutations
      (if listed.isPerm resolved then pure () else .error .incompleteResolve)
      let features := counters.features + node.features.length
      (if node.features = [] then pure ()
      else ensureCount .features limits.maxFeatures features)
      node.features.forM fun feature => checkString feature limits "resolved feature"
      return {
        counters := { counters with features }
        packages := state.packages.modify source fun package =>
          { package with activatedFeatures := sortDedup (· ≤ ·) node.features }
        nodes := source :: state.nodes
        nodeDependencies := state.nodeDependencies.modify source fun dependencies =>
          sortDedup (· ≤ ·) (dependencies ++ resolved) }

/-- Who consumes each package, from what each package depends on. -/
def reverseConsumers (nodeDependencies : List (List Nat)) (count : Nat) : List (List Nat) :=
  let reversed := nodeDependencies.zipIdx.foldl (fun consumers (dependencies, source) =>
    dependencies.foldl (fun consumers target => consumers.modify target (· ++ [source])) consumers)
    (List.replicate count [])
  reversed.map (sortDedup (· ≤ ·))

/-- `normalize_cargo_metadata_v1` behind the decoding of its bytes. -/
def normalizeMetadata (metadata : RawMetadata) (repositoryRoot : String)
    (limits : CargoMetadataLimitsV1) : Normalized CargoMetadataGraphV1 := do
  (if metadata.version ≠ 1 then .error (.unsupportedFormat 1 metadata.version) else pure ())
  (if metadata.packages = [] then .error (.missingField "packages") else pure ())
  ensureCount .packages limits.maxPackages metadata.packages.length
  match metadata.resolve with
  | none => .error (.missingField "resolve")
  | some nodes => do
      ensureCount .nodes limits.maxNodes nodes.length
      let (workspaceRoot, counters) ←
        normalizePath metadata.workspaceRoot repositoryRoot limits {} "workspace_root"
      let collected ← metadata.packages.foldlM (collectPackage repositoryRoot limits)
        { counters := { counters with roots := 1 } }
      ensureCount .roots limits.maxRoots (metadata.workspaceMembers.length + 1)
      let members ← metadata.workspaceMembers.foldlM (collectMember limits collected.idToIndex)
        { packages := collected.packages }
      (if members.workspaceMembers = [] then .error (.missingField "workspace_members")
      else pure ())
      let resolved ← nodes.foldlM (resolveNode limits collected.idToIndex)
        { counters := collected.counters
          packages := members.packages
          nodeDependencies := List.replicate members.packages.length [] }
      (if resolved.nodes.length ≠ resolved.packages.length then .error .missingResolveNode
      else pure ())
      return {
        workspaceRoot
        packages := resolved.packages
        workspaceMembers := members.workspaceMembers.insertionSort (· ≤ ·)
        reverseConsumers := reverseConsumers resolved.nodeDependencies resolved.packages.length
        selectorProof := collected.idToIndex }

/-- `normalize_cargo_metadata_v1`, with the decoder of the JSON text. -/
def normalizeCargoMetadataV1 (fromSlice : Bytes → Option RawMetadata) (bytes : Bytes)
    (repositoryRoot : String) (limits : CargoMetadataLimitsV1) : Normalized CargoMetadataGraphV1 :=
  if !Paths.isAbsolute repositoryRoot then
    .error .invalidRepositoryRoot
  else if limits.maxMetadataBytes < bytes.length then
    .error (.metadataTooLarge limits.maxMetadataBytes bytes.length)
  else
    match fromSlice bytes with
    | none => .error .invalidJson
    | some metadata => normalizeMetadata metadata repositoryRoot limits

end Jig.Cargo

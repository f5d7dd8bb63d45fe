import Jig.Lib.Paths
import Jig.Lib.TreeMap

/-!
# The manifest of managed paths

`write_manifest` lists a set of paths in the order of the set, which compares paths component by
component. `load_manifest` asks that the list is sorted as texts. The two orders differ where a
character below the slash follows a directory's name, and there what was written is not read back.
-/

namespace Jig.Bootstrap

open Lib Lib.Paths Std

/-! ## Paths in the order of a set -/

/-- The position of a component's constructor in `std::path::Component`. -/
def rank : Component → Nat
  | .rootDir => 0
  | .curDir => 1
  | .parentDir => 2
  | .normal _ => 3

def name : Component → String
  | .normal part => part
  | _ => ""

instance : Ord Component := ⟨compareLex (compareOn rank) (compareOn name)⟩

instance : TransOrd Component :=
  inferInstanceAs (TransCmp (compareLex (compareOn rank) (compareOn name)))

instance : LawfulEqOrd Component where
  eq_of_compare {a b} h := by
    change compareLex (compareOn rank) (compareOn name) a b = .eq at h
    simp only [compareLex, compareOn, Ordering.then_eq_eq, LawfulEqCmp.compare_eq_iff_eq] at h
    cases a <;> cases b <;> simp_all [rank, name]

/-- `PathBuf`, up to its `Eq`: the components that some text is read as. -/
@[ext]
structure PathBuf where
  components : List Component
  parsed : ∃ text, Paths.components text = components

instance : DecidableEq PathBuf := fun _ _ => decidable_of_iff _ PathBuf.ext_iff.symm

instance : Ord PathBuf := ⟨compareOn PathBuf.components⟩

instance : TransOrd PathBuf :=
  inferInstanceAs (TransCmp (compareOn PathBuf.components))

instance : LawfulEqOrd PathBuf where
  eq_of_compare h := PathBuf.ext (LawfulEqOrd.eq_of_compare h)

/-- `PathBuf::from`. -/
def PathBuf.ofText (text : String) : PathBuf :=
  ⟨Paths.components text, text, rfl⟩

def PathBuf.text (path : PathBuf) : String :=
  Text.join "/" (path.components.map name)

/-! ## The manifest -/

inductive ManifestError where
  | unlisted
  | notRelative
  | unsupportedVersion (version : Nat)
  | unsafePath (entry : String)
  | reservedComponent (entry component : String)
  | nonCanonical (entry : String)
  | duplicate (entry : String)
  | unsorted
deriving DecidableEq

structure ManagedPathsManifest where
  version : Nat
  paths : List String
deriving DecidableEq

def manifestPath : String := ".agent/jig-managed-paths.json"

def manifestVersion : Nat := 1

def isNormal : Component → Bool
  | .normal _ => true
  | _ => false

-- `jig_context::is_reserved_git_metadata_component`
variable (reserved : String → Bool) {parts : List String}

def validateManifestPath (entry : String) : Except ManifestError Unit :=
  if entry = "" then .error (.unsafePath entry)
  else if isAbsolute entry ∨ (Paths.components entry).any (!isNormal ·) then
    .error (.unsafePath entry)
  else
    match ((Paths.components entry).map name).find? reserved with
    | some component => .error (.reservedComponent entry component)
    | none =>
        if Text.containsChar '\\' entry then .error (.unsafePath entry)
        else if (PathBuf.ofText entry).text ≠ entry then .error (.nonCanonical entry)
        else .ok ⟨⟩

variable (path : PathBuf)

def manifestPathString : Except ManifestError String :=
  if path.components.any (!isNormal ·) then .error .notRelative
  else do
    validateManifestPath reserved path.text
    return path.text

/-- The loop of `validate_manifest`, with the entry before. -/
def validateEntries : Option String → List String → Except ManifestError Unit
  | _, [] => .ok ⟨⟩
  | previous, entry :: entries => do
      validateManifestPath reserved entry
      if previous = some entry then .error (.duplicate entry)
      else if previous.any (entry < ·) then .error .unsorted
      else validateEntries (some entry) entries

/-- The list is sorted where the source searches it by halving. -/
def validateManifest (manifest : ManagedPathsManifest) : Except ManifestError Unit :=
  if manifest.version ≠ manifestVersion then .error (.unsupportedVersion manifest.version)
  else do
    validateEntries reserved none manifest.paths
    if manifestPath ∈ manifest.paths then .ok ⟨⟩ else .error .unlisted

def loadManifest (manifest : ManagedPathsManifest) :
    Except ManifestError (ExtTreeSet PathBuf) := do
  validateManifest reserved manifest
  return .ofList (manifest.paths.map PathBuf.ofText)

def writeManifest (active : ExtTreeSet PathBuf) :
    Except ManifestError ManagedPathsManifest :=
  if PathBuf.ofText manifestPath ∈ active then do
    let paths ← active.toList.mapM (manifestPathString reserved)
    return ⟨manifestVersion, paths⟩
  else .error .unlisted

/-! ## Reading a joined path -/

def Named (part : String) : Prop :=
  '/' ∉ part.toList ∧ part ≠ "" ∧ part ≠ "." ∧ part ≠ ".."

theorem innerComponent_of_named {part : String} (h : Named part) :
    innerComponent part = some (.normal part) := by
  rw [innerComponent, if_neg (not_or.mpr ⟨h.2.1, h.2.2.1⟩), if_neg h.2.2.2]

theorem named_of_innerComponent {text part : String} (hsplit : '/' ∉ text.toList)
    (h : innerComponent text = some (.normal part)) : Named part := by
  unfold innerComponent at h
  split_ifs at h with hsilent hparent
  · cases h
  · obtain rfl : text = part := by simpa using h
    rw [not_or] at hsilent
    exact ⟨hsplit, hsilent.1, hsilent.2, hparent⟩

theorem named_of_mem_components {text part : String}
    (h : Component.normal part ∈ Paths.components text) : Named part := by
  have hsplit : ∀ piece ∈ Text.split '/' text, '/' ∉ piece.toList :=
    fun _ => notMem_of_mem_split
  unfold Paths.components at h
  split at h
  · cases h
  · next first rest heq =>
      rw [heq, List.forall_mem_cons] at hsplit
      rcases List.mem_append.mp h with h | h
      · -- the first part is a name unless it is empty or a dot
        split_ifs at h
        · cases h
        · simp at h
        · simp at h
        · exact named_of_innerComponent hsplit.1 (Option.mem_toList.mp h)
      · obtain ⟨piece, hpiece, hinner⟩ := List.mem_filterMap.mp h
        exact named_of_innerComponent (hsplit.2 piece hpiece) hinner

theorem split_join (hne : parts ≠ []) (h : ∀ part ∈ parts, Named part) :
    Text.split '/' (Text.join "/" parts) = parts := by
  have hchars : ∀ chars ∈ parts.map String.toList, '/' ∉ chars := by
    intro chars hmem
    obtain ⟨part, hpart, rfl⟩ := List.mem_map.mp hmem
    exact (h part hpart).1
  have hslash : "/".toList = ['/'] := rfl
  unfold Text.split Text.join
  rw [String.toList_intercalate, hslash, List.splitOn_intercalate '/' hchars (by simpa using hne),
    List.map_map]
  simp [Function.comp_def]

theorem components_join (hne : parts ≠ []) (h : ∀ part ∈ parts, Named part) :
    Paths.components (Text.join "/" parts) = parts.map .normal := by
  unfold Paths.components
  rw [split_join hne h]
  cases parts with
  | nil => exact absurd rfl hne
  | cons first rest =>
      rw [List.forall_mem_cons] at h
      have hrest : rest.filterMap innerComponent = rest.map .normal := by
        rw [← List.filterMap_eq_map]
        exact List.filterMap_congr fun part hpart => innerComponent_of_named (h.2 part hpart)
      simp only [if_neg h.1.2.1, if_neg h.1.2.2.1, innerComponent_of_named h.1, hrest,
        Option.toList_some, List.singleton_append, List.map_cons]

/-- The entry that a path is written as passes every check. -/
def Writable : Prop :=
  path.components.any (!isNormal ·) = false ∧ validateManifestPath reserved path.text = .ok ⟨⟩

variable {reserved} {active : ExtTreeSet PathBuf} {manifest : ManagedPathsManifest}

theorem validateManifestPath_eq_ok {entry : String}
    (h : validateManifestPath reserved entry = .ok ⟨⟩) :
    entry ≠ "" ∧ (Paths.components entry).any (!isNormal ·) = false ∧
      (PathBuf.ofText entry).text = entry := by
  unfold validateManifestPath at h
  obtain ⟨hempty, h⟩ := ite_error_eq_ok.mp h
  obtain ⟨hnormal, h⟩ := ite_error_eq_ok.mp h
  split at h
  · cases h
  · obtain ⟨-, h⟩ := ite_error_eq_ok.mp h
    obtain ⟨hcanonical, -⟩ := ite_error_eq_ok.mp h
    rw [not_or] at hnormal
    exact ⟨hempty, Bool.eq_false_iff.mpr hnormal.2, not_not.mp hcanonical⟩

/-- A path that can be written is read back from its text. -/
theorem Writable.ofText_text {path : PathBuf} (h : Writable reserved path) :
    PathBuf.ofText path.text = path := by
  obtain ⟨text, htext⟩ := path.parsed
  have hparts : ∀ component ∈ path.components, Component.normal (name component) = component := by
    intro component hmem
    have hnormal := List.any_eq_false.mp h.1 component hmem
    cases component with
    | normal part => rfl
    | _ => simp [isNormal] at hnormal
  have hnamed : ∀ part ∈ path.components.map name, Named part := by
    intro part hpart
    obtain ⟨component, hmem, rfl⟩ := List.mem_map.mp hpart
    have hread : Component.normal (name component) ∈ Paths.components text := by
      rw [hparts component hmem, htext]
      exact hmem
    exact named_of_mem_components hread
  have hne : path.components.map name ≠ [] := by
    intro hnil
    refine (validateManifestPath_eq_ok h.2).1 ?_
    rw [PathBuf.text, hnil]
    rfl
  apply PathBuf.ext
  show Paths.components path.text = path.components
  rw [PathBuf.text, components_join hne hnamed, List.map_map]
  exact (List.map_congr_left hparts).trans (List.map_id _)

theorem writable_ofText {entry : String} (h : validateManifestPath reserved entry = .ok ⟨⟩) :
    Writable reserved (PathBuf.ofText entry) := by
  obtain ⟨-, hnormal, hcanonical⟩ := validateManifestPath_eq_ok h
  refine ⟨hnormal, ?_⟩
  rw [hcanonical]
  exact h

/-! ## What is written and what is accepted -/

theorem manifestPathString_eq_ok (value : String) :
    manifestPathString reserved path = .ok value ↔ Writable reserved path ∧ value = path.text := by
  unfold manifestPathString Writable
  rw [ite_error_eq_ok, then_eq_ok, pure_eq_ok, Bool.not_eq_true, and_assoc, eq_comm (a := value)]

theorem writeManifest_eq_ok :
    writeManifest reserved active = .ok manifest ↔
      PathBuf.ofText manifestPath ∈ active ∧ (∀ path ∈ active, Writable reserved path) ∧
        manifest = ⟨manifestVersion, active.toList.map PathBuf.text⟩ := by
  unfold writeManifest
  rw [ite_else_error_eq_ok, bind_eq_ok]
  simp only [mapM_eq_ok_map manifestPathString_eq_ok, pure_eq_ok, ExtTreeSet.mem_toList]
  constructor
  · rintro ⟨hlisted, paths, ⟨hall, rfl⟩, rfl⟩
    exact ⟨hlisted, hall, rfl⟩
  · rintro ⟨hlisted, hall, rfl⟩
    exact ⟨hlisted, _, ⟨hall, rfl⟩, rfl⟩

theorem validateEntries_eq_ok {previous : Option String} {entries : List String} :
    validateEntries reserved previous entries = .ok ⟨⟩ ↔
      (∀ entry ∈ entries, validateManifestPath reserved entry = .ok ⟨⟩) ∧
        (previous.toList ++ entries).IsChain (· < ·) := by
  -- the entry before is the head of the chain
  induction entries generalizing previous with
  | nil => cases previous <;> simp [validateEntries]
  | cons entry entries ih =>
      rw [validateEntries, then_eq_ok, ite_error_eq_ok, ite_error_eq_ok, ih, List.forall_mem_cons]
      cases previous with
      | none => simp [and_assoc]
      | some before =>
          have hlt : before < entry ↔ before ≠ entry ∧ ¬entry < before := by
            constructor
            · intro h
              exact ⟨fun heq => String.lt_irrefl _ (heq ▸ h), String.lt_asymm h⟩
            · rintro ⟨hne, hle⟩
              by_contra h
              exact hne (String.le_antisymm hle h)
          simp only [Option.some.injEq, Option.any_some, decide_eq_true_eq, Option.toList_some,
            List.singleton_append, List.isChain_cons_cons, hlt]
          tauto

theorem loadManifest_eq_ok :
    loadManifest reserved manifest = .ok active ↔
      manifest.version = manifestVersion ∧ manifestPath ∈ manifest.paths ∧
        (∀ entry ∈ manifest.paths, validateManifestPath reserved entry = .ok ⟨⟩) ∧
        manifest.paths.Pairwise (· < ·) ∧
        active = .ofList (manifest.paths.map PathBuf.ofText) := by
  unfold loadManifest validateManifest
  rw [then_eq_ok, ite_error_eq_ok, then_eq_ok, ite_else_error_eq_ok, validateEntries_eq_ok,
    pure_eq_ok, Option.toList_none, List.nil_append, List.isChain_iff_pairwise, not_not,
    eq_comm (a := active)]
  tauto

/-! ## The two orders -/

/-- Paths that a set holds in some order are in that order as texts. -/
def OrdersAgree (active : ExtTreeSet PathBuf) : Prop :=
  ∀ p ∈ active, ∀ q ∈ active, compare p q = .lt → p.text < q.text

theorem pairwise_text_iff :
    (active.toList.map PathBuf.text).Pairwise (· < ·) ↔ OrdersAgree active := by
  rw [List.pairwise_map]
  constructor
  · intro h p hp q hq hlt
    -- of two listed paths one comes first, and it is the lesser one
    have hboth := h.and ExtTreeSet.ordered_toList
    have hne : p ≠ q := by
      rintro rfl
      exact absurd (hlt.symm.trans Std.ReflCmp.compare_self) (by decide)
    let InOrder (a b : PathBuf) : Prop :=
      (compare a b = .lt → a.text < b.text) ∧ (compare b a = .lt → b.text < a.text)
    have : Std.Symm InOrder := ⟨fun _ _ hab => ⟨hab.2, hab.1⟩⟩
    have hsplit : active.toList.Pairwise InOrder := hboth.imp fun hab =>
      ⟨fun _ => hab.1, fun hba => absurd hba (OrientedCmp.not_lt_of_lt hab.2)⟩
    exact (hsplit.forall (ExtTreeSet.mem_toList.mpr hp) (ExtTreeSet.mem_toList.mpr hq)
      hne).1 hlt
  · intro h
    refine ExtTreeSet.ordered_toList.imp_of_mem ?_
    intro p q hp hq hlt
    exact h p (ExtTreeSet.mem_toList.mp hp) q (ExtTreeSet.mem_toList.mp hq) hlt

/-- What is written is read back, and what is accepted is written again in its order, exactly when
the order of the set is the order of the texts. -/
theorem manifest_round_trip (active : ExtTreeSet PathBuf) (manifest : ManagedPathsManifest) :
    (writeManifest reserved active = .ok manifest →
      (loadManifest reserved manifest = .ok active ↔ OrdersAgree active)) ∧
    (loadManifest reserved manifest = .ok active →
      (writeManifest reserved active = .ok manifest ↔ OrdersAgree active)) := by
  constructor
  · intro hwrite
    obtain ⟨hlisted, hall, rfl⟩ := writeManifest_eq_ok.mp hwrite
    rw [loadManifest_eq_ok, ← pairwise_text_iff]
    refine ⟨fun h => h.2.2.2.1, fun hsorted => ⟨rfl, ?_, ?_, hsorted, ?_⟩⟩
    · refine List.mem_map.mpr ⟨_, ExtTreeSet.mem_toList.mpr hlisted, ?_⟩
      decide +kernel
    · intro entry hentry
      obtain ⟨path, hpath, rfl⟩ := List.mem_map.mp hentry
      exact (hall path (ExtTreeSet.mem_toList.mp hpath)).2
    · have hback : (active.toList.map PathBuf.text).map PathBuf.ofText = active.toList := by
        rw [List.map_map]
        refine (List.map_congr_left fun path hpath => ?_).trans (List.map_id _)
        exact (hall path (ExtTreeSet.mem_toList.mp hpath)).ofText_text
      rw [hback]
      apply ExtTreeSet.ext_mem
      intro path
      rw [mem_treeSet_ofList, ExtTreeSet.mem_toList]
  · intro hload
    obtain ⟨hversion, hlisted, hvalid, hsorted, rfl⟩ := loadManifest_eq_ok.mp hload
    have hmem : ∀ path, path ∈ ExtTreeSet.ofList (manifest.paths.map PathBuf.ofText) ↔
        ∃ entry ∈ manifest.paths, PathBuf.ofText entry = path := by
      intro path
      rw [mem_treeSet_ofList, List.mem_map]
    rw [writeManifest_eq_ok, ← pairwise_text_iff]
    constructor
    · rintro ⟨-, -, hpaths⟩
      have hlist := congrArg ManagedPathsManifest.paths hpaths
      rw [hlist] at hsorted
      exact hsorted
    · intro hordered
      refine ⟨(hmem _).mpr ⟨_, hlisted, rfl⟩, ?_, ?_⟩
      · intro path hpath
        obtain ⟨entry, hentry, rfl⟩ := (hmem path).mp hpath
        exact writable_ofText (hvalid entry hentry)
      · -- two sorted lists of the same entries
        have hsame : manifest.paths =
            (ExtTreeSet.ofList (manifest.paths.map PathBuf.ofText)).toList.map PathBuf.text := by
          refine List.Perm.eq_of_pairwise
            (fun a b _ _ hab hba => absurd hab (String.lt_asymm hba)) hsorted
            hordered ((List.perm_ext_iff_of_nodup (hsorted.imp String.ne_of_lt)
              (hordered.imp String.ne_of_lt)).mpr fun entry => ?_)
          rw [List.mem_map]
          constructor
          · intro hentry
            refine ⟨PathBuf.ofText entry, ExtTreeSet.mem_toList.mpr
              ((hmem _).mpr ⟨entry, hentry, rfl⟩), ?_⟩
            exact (validateManifestPath_eq_ok (hvalid entry hentry)).2.2
          · rintro ⟨path, hpath, rfl⟩
            obtain ⟨entry, hentry, rfl⟩ := (hmem path).mp (ExtTreeSet.mem_toList.mp hpath)
            rw [(validateManifestPath_eq_ok (hvalid entry hentry)).2.2]
            exact hentry
        cases manifest
        exact congrArg₂ _ hversion hsame

namespace SamplePaths

/-- Files in directories of different depths, in the order of both comparisons. -/
def nested : List String := [manifestPath, "a/b", "a/c/d", "a/c/e", "b.md"]

theorem manifest_round_trip_nested :
    writeManifest (fun _ => false) (.ofList (nested.map PathBuf.ofText)) = .ok ⟨1, nested⟩ ∧
      loadManifest (fun _ => false) ⟨1, nested⟩ = .ok (.ofList (nested.map PathBuf.ofText)) ∧
      OrdersAgree (.ofList (nested.map PathBuf.ofText)) := by
  have hwrite : writeManifest (fun _ => false) (.ofList (nested.map PathBuf.ofText)) =
      .ok ⟨1, nested⟩ := by decide +kernel
  have hload : loadManifest (fun _ => false) ⟨1, nested⟩ =
      .ok (.ofList (nested.map PathBuf.ofText)) := by decide +kernel
  exact ⟨hwrite, hload, ((manifest_round_trip _ _).1 hwrite).mp hload⟩

def dashed : ExtTreeSet PathBuf :=
  .ofList ([manifestPath, "a-b", "a/b"].map PathBuf.ofText)

/-- By components `a/b` comes before `a-b`, and as texts after it. -/
theorem written_manifest_rejected :
    writeManifest (fun _ => false) dashed = .ok ⟨1, [manifestPath, "a/b", "a-b"]⟩ ∧
      loadManifest (fun _ => false) ⟨1, [manifestPath, "a/b", "a-b"]⟩ = .error .unsorted := by
  decide +kernel

end SamplePaths

end Jig.Bootstrap

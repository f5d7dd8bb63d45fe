import Jig.Lib.SortedPrefixes
import Jig.Lib.Utf8
import Jig.Repository.Libraries

/-!
# Collisions of planned files

`validate_portable_planned_file_collisions` of `jig-repository`, `path.rs`: the files of a plan must
have different names on a file system that ignores ASCII case, and none may have to be a directory
of another. The code sorts the paths by their folded components and compares neighbours.

A path is what the standard library shows of it, and the order in which the sort leaves paths with
equal components is left open.
-/

namespace Jig.Repository

open Jig.Lib

/-! ## The code -/

/-- `std::path::Component`, with the bytes of a name. -/
inductive PathComponent where
  | drive
  | rootDir
  | curDir
  | parentDir
  | normal (name : Bytes)
deriving DecidableEq

/-- `std::path::Path`. -/
structure PlannedPath where
  display : String
  isAbsolute : Bool
  components : List PathComponent
deriving DecidableEq

def toAsciiLowercase (byte : UInt8) : UInt8 :=
  if 65 ≤ byte ∧ byte ≤ 90 then byte + 32 else byte

example : ∀ n : Fin 256,
    (toAsciiLowercase (.ofNat n)).toNat = (Char.ofNat n).toLower.toNat := by decide +kernel

variable (path : PlannedPath) {paths : List PlannedPath}

def portableComponent : PathComponent → Result Bytes
  | .normal name =>
      match Utf8.decode? name with
      | some _ => .ok (name.map toAsciiLowercase)
      | none => .error (.bail ("Planned repository file path is not portable because every " ++
          "component must be valid Unicode: " ++ path.display))
  | _ => .error (.bail ("Planned repository file path must contain only normal relative " ++
      "components: " ++ path.display))

def portablePlannedFileComponents : Result (List Bytes) := do
  bailIf path.isAbsolute ("Planned repository file path must be relative: " ++ path.display)
  let components ← path.components.mapM (portableComponent path)
  bailIf components.isEmpty "Planned repository file path cannot be empty"
  return components

def componentPrefix (front path : List Bytes) : Bool :=
  front.length ≤ path.length && (front.zip path).all fun (left, right) => left == right

abbrev Planned := PlannedPath × List Bytes

def rejectCollisions : List Planned → Result Unit
  | left :: right :: rest => do
      bailIf (componentPrefix left.2 right.2)
        ("Portable planned repository file collision between " ++ left.1.display ++ " and " ++
          right.1.display ++ ": generated file paths must not be equal ignoring ASCII case, and " ++
          "neither file may be an ancestor of another")
      rejectCollisions (right :: rest)
  | _ => .ok ()

def validatePortablePlannedFileCollisions (sort : UnstableSort (Prod.snd : Planned → _))
    (paths : List PlannedPath) : Result Unit := do
  let planned ← paths.mapM fun path => (path, ·) <$> portablePlannedFileComponents path
  rejectCollisions (sort.run planned)

/-! ## Portable paths -/

def PathComponent.folded : PathComponent → Bytes
  | .normal name => name.map toAsciiLowercase
  | _ => []

def PlannedPath.folded (path : PlannedPath) : List Bytes :=
  path.components.map PathComponent.folded

def PathComponent.Portable (component : PathComponent) : Prop :=
  ∃ name text, component = .normal name ∧ Utf8.decode? name = some text

/-- A relative path that is made of names in Unicode. -/
structure PlannedPath.Portable (path : PlannedPath) : Prop where
  relative : path.isAbsolute = false
  normal : ∀ component ∈ path.components, component.Portable
  nonempty : path.components ≠ []

theorem portableComponent_eq_ok (component : PathComponent) (bytes : Bytes) :
    portableComponent path component = .ok bytes ↔
      component.Portable ∧ bytes = component.folded := by
  cases component with
  | normal name =>
      simp only [portableComponent, PathComponent.Portable, PathComponent.folded,
        PathComponent.normal.injEq, exists_and_left, exists_eq_left']
      cases Utf8.decode? name with
      | none => simp
      | some text => simp [eq_comm]
  | drive | rootDir | curDir | parentDir => simp [portableComponent, PathComponent.Portable]

/-- The components of the portable paths are their folded names. -/
theorem portablePlannedFileComponents_eq_ok {path : PlannedPath} {components : List Bytes} :
    portablePlannedFileComponents path = .ok components ↔
      path.Portable ∧ components = path.folded := by
  unfold portablePlannedFileComponents
  simp only [bind_eq_ok, bailIf_eq_ok, pure_eq_ok, mapM_eq_ok_map (portableComponent_eq_ok path)]
  constructor
  · rintro ⟨_, hrelative, _, ⟨hnormal, rfl⟩, _, hnonempty, rfl⟩
    exact ⟨⟨hrelative, hnormal, by simpa using hnonempty⟩, rfl⟩
  · rintro ⟨⟨hrelative, hnormal, hnonempty⟩, rfl⟩
    exact ⟨(), hrelative, _, ⟨hnormal, rfl⟩, (), by simpa using hnonempty, rfl⟩

/-! ## Collisions -/

theorem componentPrefix_iff {front path : List Bytes} :
    componentPrefix front path = true ↔ front <+: path := by
  unfold componentPrefix
  rw [Bool.and_eq_true, decide_eq_true_eq]
  induction front generalizing path with
  | nil => simp
  | cons first front ih =>
      cases path with
      | nil => simp
      | cons second path =>
          rw [List.cons_prefix_cons, ← ih]
          simp only [List.length_cons, List.zip_cons_cons, List.all_cons, Bool.and_eq_true,
            beq_iff_eq, Nat.add_le_add_iff_right]
          tauto

/-- The loop passes when no path is a prefix of its neighbour. -/
theorem rejectCollisions_eq_ok {planned : List Planned} :
    rejectCollisions planned = .ok () ↔
      (planned.map Prod.snd).IsChain fun left right => ¬left <+: right := by
  induction planned with
  | nil => simp [rejectCollisions]
  | cons left rest ih =>
      cases rest with
      | nil => simp [rejectCollisions]
      | cons right rest =>
          unfold rejectCollisions
          simp only [bind_eq_ok, bailIf_eq_ok, ih, List.map_cons, List.isChain_cons_cons,
            ← componentPrefix_iff, Bool.not_eq_true, exists_const]

section Sorted

variable (sort : UnstableSort (Prod.snd : Planned → _))

theorem sorted_folded (planned : List Planned) :
    ((sort.run planned).map Prod.snd).Pairwise fun left right =>
      (compare left right).isLE = true :=
  List.pairwise_map.mpr (sort.sorted planned)

/-- Sorting does not change which lists occur. -/
theorem pairwise_run_iff :
    ((sort.run (paths.map fun path => (path, path.folded))).map Prod.snd).Pairwise Incomparable ↔
      (paths.map PlannedPath.folded).Pairwise Incomparable := by
  have hperm := (sort.perm (paths.map fun path => (path, path.folded))).map Prod.snd
  rw [List.map_map] at hperm
  exact hperm.pairwise_iff fun h => h.symm

end Sorted

theorem pairwise_incomparable_iff_positions :
    (paths.map PlannedPath.folded).Pairwise Incomparable ↔
      ∀ (i j : Nat) (left right : PlannedPath), i ≠ j → paths[i]? = some left →
        paths[j]? = some right → ¬left.folded <+: right.folded := by
  rw [List.pairwise_map, List.pairwise_iff_getElem]
  constructor
  · intro h i j left right hne hleft hright
    obtain ⟨hi, rfl⟩ := List.getElem?_eq_some_iff.mp hleft
    obtain ⟨hj, rfl⟩ := List.getElem?_eq_some_iff.mp hright
    rcases Nat.lt_or_gt_of_ne hne with hlt | hlt
    · exact (h i j hi hj hlt).1
    · exact (h j i hj hi hlt).2
  · intro h i j hi hj hlt
    exact ⟨h i j _ _ hlt.ne (List.getElem?_eq_getElem hi) (List.getElem?_eq_getElem hj),
      h j i _ _ hlt.ne' (List.getElem?_eq_getElem hj) (List.getElem?_eq_getElem hi)⟩

/-- **Collisions are found.** The paths pass if and only if each of them is relative and made of
names in Unicode, and no path, with its case folded, is the same as or an ancestor of a path at
another position. -/
theorem planned_files_accepted_iff (sort : UnstableSort (Prod.snd : Planned → _))
    (paths : List PlannedPath) :
    validatePortablePlannedFileCollisions sort paths = .ok () ↔
      (∀ path ∈ paths, path.Portable) ∧
        ∀ (i j : Nat) (left right : PlannedPath), i ≠ j → paths[i]? = some left →
          paths[j]? = some right → ¬left.folded <+: right.folded := by
  have hplanned : ∀ (path : PlannedPath) (planned : Planned),
      (path, ·) <$> portablePlannedFileComponents path = .ok planned ↔
        path.Portable ∧ planned = (path, path.folded) := by
    intro path planned
    rw [map_eq_ok]
    constructor
    · rintro ⟨components, h, rfl⟩
      obtain ⟨hportable, rfl⟩ := portablePlannedFileComponents_eq_ok.mp h
      exact ⟨hportable, rfl⟩
    · rintro ⟨hportable, rfl⟩
      exact ⟨_, portablePlannedFileComponents_eq_ok.mpr ⟨hportable, rfl⟩, rfl⟩
  unfold validatePortablePlannedFileCollisions
  rw [bind_eq_ok]
  simp only [mapM_eq_ok_map hplanned, rejectCollisions_eq_ok]
  constructor
  · rintro ⟨_, ⟨hportable, rfl⟩, hchain⟩
    refine ⟨hportable, ?_⟩
    rw [← pairwise_incomparable_iff_isChain (sorted_folded sort _), pairwise_run_iff] at hchain
    exact pairwise_incomparable_iff_positions.mp hchain
  · rintro ⟨hportable, hpairs⟩
    refine ⟨_, ⟨hportable, rfl⟩, ?_⟩
    rw [← pairwise_incomparable_iff_isChain (sorted_folded sort _), pairwise_run_iff]
    exact pairwise_incomparable_iff_positions.mpr hpairs

end Jig.Repository

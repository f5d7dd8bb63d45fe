import Jig.Repository.Attribution
import Jig.Repository.Propagation

/-!
# Affected selection is exact

For a valid catalog of version 7 or later, `select_affected_targets` keeps a candidate if and only
if one of the changed paths concerns it (`affected_selection_exact`). What concerns a target is said
path by path, so that selection distributes over the changed paths.
-/

namespace Jig.Repository

open Jig.Contract Jig.Lib Std

/-! ## What a change selects -/

section Specification

variable (libs : Libraries) (catalog : RepositoryCatalog)

/-- The path is dropped before anything is attributed to it. -/
def Dropped (path : String) : Prop :=
  (∃ pattern ∈ catalog.affectedIgnore, libs.globIsMatch pattern path = true) ∧
    path ≠ ".jig.toml" ∧ ∀ target, ¬ MatchesInput libs catalog target path

/-- A change of the path selects the target. -/
def Concerns (path : String) (target : TargetId) : Prop :=
  path = ".jig.toml" ∨ Unclaimed libs catalog path ∨ Attributed libs catalog path target ∨
    ∃ origin : TargetId, Attributed libs catalog path origin ∧
      Relation.TransGen (PassesOn catalog) origin.component target.component

end Specification

/-! ## Narrowing -/

section Narrowing

variable {B : Type} {build : List SelectionReason → B} (evidence : AffectedEvidence B)

def AffectedEvidence.Affects (target : TargetId) : Prop :=
  evidence.authorityPaths ≠ [] ∨ evidence.unclaimed.isSome = true ∨
    (evidence.direct target).isSome = true ∨
      (evidence.propagated[target.component]?).isSome = true

theorem AffectedEvidence.narrow_isSome (target : TargetId) (reasons : TargetSelectionReasons B) :
    (evidence.narrow target reasons).isSome = true ↔ evidence.Affects target := by
  unfold AffectedEvidence.narrow AffectedEvidence.Affects
  simp only [Option.isSome_ite, Bool.or_eq_true, Bool.not_eq_true', List.isEmpty_eq_false_iff,
    or_assoc]

theorem AffectedEvidence.mem_filterMap_narrow (candidates : TargetSelection B) (target : TargetId) :
    target ∈ candidates.filterMap evidence.narrow ↔
      target ∈ candidates ∧ evidence.Affects target := by
  rw [ExtTreeMap.mem_iff_isSome_getElem?, ExtTreeMap.getElem?_filterMap',
    ExtTreeMap.mem_iff_isSome_getElem?]
  cases hcandidate : candidates[target]? with
  | none => simp
  | some reasons => simp [evidence.narrow_isSome]

theorem unclaimedBatch_isSome {paths : List String} :
    (unclaimedBatch build paths).isSome = true ↔ paths ≠ [] := by
  unfold unclaimedBatch
  split <;> simp_all

end Narrowing

/-! ## Attribution and propagation together -/

section Local

variable {B : Type} {build : List SelectionReason → B} {libs : Libraries}
  {catalog : RepositoryCatalog} {matcher : TargetInputMatcherV1} {path : String}
  {paths : ExtTreeSet String}

/-- The pairs of a target and a path that is attributed to it. -/
theorem mem_attributedPairs (hvalid : catalog.Valid libs) (hmatcher : matcher.Of catalog)
    {paths : List String} {target : TargetId} :
    (target, path) ∈ paths.flatMap (fun path =>
        (attributedTargets libs catalog matcher path).map fun target => (target, path)) ↔
      path ∈ paths ∧ Attributed libs catalog path target := by
  simp only [List.mem_flatMap, List.mem_map, Prod.mk.injEq, mem_attributedTargets hvalid hmatcher]
  grind

theorem receivedBatches_ne_nil (hvalid : catalog.Valid libs) {entries : List Origin}
    {id : ComponentId} :
    receivedBatches build catalog entries id ≠ [] ↔
      ∃ entry ∈ entries, Relation.TransGen (PassesOn catalog) entry.1 id := by
  simp [receivedBatches, originsTo, List.filter_eq_nil_iff, spreads_iff hvalid]

theorem mem_authorityPaths :
    path ∈ paths.filter (repositoryAuthorityInputs.contains ·) ↔
      path ∈ paths ∧ path = ".jig.toml" := by
  rw [mem_treeSet_filter]
  simp [repositoryAuthorityInputs]

/-- The paths that are attributed: all but the authority paths. -/
theorem mem_ordinaryPaths :
    path ∈ (paths.filter fun path =>
        !(paths.filter (repositoryAuthorityInputs.contains ·)).contains path).toList ↔
      path ∈ paths ∧ path ≠ ".jig.toml" := by
  rw [ExtTreeSet.mem_toList, mem_treeSet_filter, Bool.not_eq_true', ← Bool.not_eq_true,
    ExtTreeSet.contains_iff_mem, mem_authorityPaths]
  grind

/-- What is read off the evidence of a list of ordinary paths. -/
structure ExactEvidence (libs : Libraries) (catalog : RepositoryCatalog) (ordinary : List String)
    (evidence : AffectedEvidence B) : Prop where
  unclaimed : evidence.unclaimed.isSome = true ↔
    ∃ path ∈ ordinary, Unclaimed libs catalog path
  direct : ∀ target, (evidence.direct target).isSome = true ↔
    ∃ path ∈ ordinary, Attributed libs catalog path target
  propagated : ∀ id : ComponentId, (evidence.propagated[id]?).isSome = true ↔
    ∃ path ∈ ordinary, ∃ origin : TargetId, Attributed libs catalog path origin ∧
      Relation.TransGen (PassesOn catalog) origin.component id

variable (build) in
/-- **Narrowing is exact.** -/
theorem selectTargetLocalAffected_exact (hvalid : catalog.Valid libs)
    (hmatcher : matcher.Of catalog) (candidates : TargetSelection B)
    (paths authorityPaths : ExtTreeSet String) :
    ∃ evidence : AffectedEvidence B,
      selectTargetLocalAffected libs build catalog candidates matcher paths authorityPaths =
        .ok (candidates.filterMap evidence.narrow) ∧
      evidence.authorityPaths = authorityPaths.toList ∧
      ExactEvidence libs catalog
        (paths.filter fun path => !authorityPaths.contains path).toList evidence := by
  unfold selectTargetLocalAffected
  set ordinary := (paths.filter fun path => !authorityPaths.contains path).toList
  -- the pairs of an attributed target and its path carry all the evidence
  set pairs := ordinary.flatMap fun path =>
    (attributedTargets libs catalog matcher path).map fun target => (target, path)
  have hpairs : ∀ {target path}, (target, path) ∈ pairs ↔
      path ∈ ordinary ∧ Attributed libs catalog path target :=
    mem_attributedPairs hvalid hmatcher
  set directComponents : Multimap ComponentId String :=
    .ofPairs (pairs.map fun pair => (pair.1.component, pair.2))
  have hdirect : ∀ {id}, id ∈ directComponents ↔
      ∃ path ∈ ordinary, ∃ target, Attributed libs catalog path target ∧
        target.component = id := by
    intro id
    rw [Multimap.mem_ofPairs]
    simp only [List.mem_map, Prod.exists, Prod.mk.injEq, hpairs]
    grind
  have hcomponents : ∀ id ∈ directComponents, id ∈ catalog.components := by
    intro id hid
    obtain ⟨path, -, target, hattributed, rfl⟩ := hdirect.mp hid
    exact hvalid.action_component hattributed.defined
  obtain ⟨batches, hbatches⟩ := affectedReasonBatches_exists hvalid hcomponents
  refine ⟨_, bind_eq_ok.mpr ⟨batches, hbatches, rfl⟩, rfl, ⟨?_, ?_, ?_⟩⟩
  · rw [unclaimedBatch_isSome]
    simp [attributedTargets_eq_nil hvalid hmatcher]
  · intro target
    rw [Option.isSome_map, ← ExtTreeMap.mem_iff_isSome_getElem?, Multimap.mem_ofPairs]
    exact exists_congr fun path => hpairs
  · intro id
    rw [(affectedReasonBatches_eq_ok hbatches id).2, entryOf_isSome, Bool.not_eq_true',
      List.isEmpty_eq_false_iff, receivedBatches_ne_nil hvalid]
    constructor
    · rintro ⟨entry, hentry, hchain⟩
      have hid : entry.1 ∈ directComponents :=
        mem_of_getElem?_eq_some (ExtTreeMap.mem_toList_iff_getElem?_eq_some.mp hentry)
      obtain ⟨path, hpath, origin, hattributed, horigin⟩ := hdirect.mp hid
      exact ⟨path, hpath, origin, hattributed, horigin ▸ hchain⟩
    · rintro ⟨path, hpath, origin, hattributed, hchain⟩
      obtain ⟨changed, hchanged⟩ :=
        exists_getElem?_of_mem (hdirect.mpr ⟨path, hpath, origin, hattributed, rfl⟩)
      exact ⟨_, ExtTreeMap.mem_toList_iff_getElem?_eq_some.mpr hchanged, hchain⟩

/-- The ignore patterns of a valid catalog compile to themselves. -/
theorem mapM_compileIgnore (hvalid : catalog.Valid libs) :
    catalog.affectedIgnore.mapM (fun pattern =>
        (compilePathPattern libs "affected_ignore" pattern).mapError Failure.bail) =
      .ok (catalog.affectedIgnore.map CompiledPattern.mk) := by
  rw [mapM_eq_ok, List.forall₂_map_right_iff, List.forall₂_same]
  intro pattern hpattern
  rw [hvalid.ignore_compile pattern hpattern]
  rfl

/-- The filter of the ignored paths. -/
theorem survives_iff (hmatcher : matcher.Of catalog) :
    (repositoryAuthorityInputs.contains path || matcher.matchesAny libs path ||
        !(catalog.affectedIgnore.map CompiledPattern.mk).any (·.isMatch libs path)) = true ↔
      ¬ Dropped libs catalog path := by
  rw [Bool.or_eq_true, Bool.or_eq_true, matchesAny_iff hmatcher, Bool.not_eq_true',
    ← Bool.not_eq_true, any_isMatch]
  simp only [repositoryAuthorityInputs, List.contains_eq_mem, List.mem_singleton,
    decide_eq_true_eq, Dropped]
  grind

variable (build) in
/-- **Selection is exact**, with the observed inputs too: they count when some input matches. -/
theorem selectAffectedTargets_exact (hvalid : catalog.Valid libs)
    (hversion : 7 ≤ catalog.contractVersion) (candidates : TargetSelection B)
    {changedPaths observedInputPaths : List String}
    (hchanged : ∀ path ∈ changedPaths, ValidChangedPath path)
    (hobserved : ∀ path ∈ observedInputPaths, ValidChangedPath path) :
    ∃ selected, selectAffectedTargets libs build catalog candidates changedPaths
        observedInputPaths = .ok selected ∧
      ∀ target, target ∈ selected ↔ target ∈ candidates ∧
        ∃ path, (path ∈ changedPaths ∨ path ∈ observedInputPaths ∧
            ∃ t, MatchesInput libs catalog t path) ∧
          ¬ Dropped libs catalog path ∧ Concerns libs catalog path target := by
  obtain ⟨matcher, hnew, hmatcher⟩ := new_ok hvalid
  set paths := ((((ExtTreeSet.ofList observedInputPaths).filter
    (matcher.matchesAny libs)).toList.foldl (·.insert ·)
      (ExtTreeSet.ofList changedPaths)).filter fun path =>
        repositoryAuthorityInputs.contains path || matcher.matchesAny libs path ||
          !(catalog.affectedIgnore.map CompiledPattern.mk).any (·.isMatch libs path)) with hpaths
  have hmem : ∀ {path}, path ∈ paths ↔ (path ∈ changedPaths ∨ path ∈ observedInputPaths ∧
      ∃ t, MatchesInput libs catalog t path) ∧ ¬ Dropped libs catalog path := by
    intro path
    rw [hpaths, mem_treeSet_filter, survives_iff hmatcher, mem_treeSet_foldl_insert,
      ExtTreeSet.mem_toList, mem_treeSet_filter, matchesAny_iff hmatcher, mem_treeSet_ofList,
      mem_treeSet_ofList]
    grind
  obtain ⟨evidence, hselect, hauthority, hexact⟩ := selectTargetLocalAffected_exact
    build hvalid hmatcher candidates paths (paths.filter (repositoryAuthorityInputs.contains ·))
  refine ⟨_, bind_eq_ok.mpr ⟨_, normalizedChangedPaths_eq_ok.mpr ⟨hchanged, rfl⟩,
    bind_eq_ok.mpr ⟨matcher, hnew, bind_eq_ok.mpr ⟨_,
      normalizedChangedPaths_eq_ok.mpr ⟨hobserved, rfl⟩, bind_eq_ok.mpr ⟨_,
        mapM_compileIgnore hvalid, (if_pos hversion).trans hselect⟩⟩⟩⟩, ?_⟩
  intro target
  rw [AffectedEvidence.mem_filterMap_narrow]
  apply and_congr_right
  intro _
  have hauthorityPaths : evidence.authorityPaths ≠ [] ↔
      ∃ path ∈ paths, path = ".jig.toml" := by
    rw [hauthority]
    simp only [ne_eq, List.eq_nil_iff_forall_not_mem, ExtTreeSet.mem_toList,
      mem_authorityPaths, not_forall, not_not]
  unfold AffectedEvidence.Affects Concerns
  rw [hauthorityPaths, hexact.unclaimed, hexact.direct, hexact.propagated]
  simp only [mem_ordinaryPaths, ← and_assoc, ← hmem]
  constructor
  · rintro (⟨path, hpath, h⟩ | ⟨path, ⟨hpath, -⟩, h⟩ | ⟨path, ⟨hpath, -⟩, h⟩ |
      ⟨path, ⟨hpath, -⟩, h⟩)
    · exact ⟨path, hpath, .inl h⟩
    · exact ⟨path, hpath, .inr (.inl h)⟩
    · exact ⟨path, hpath, .inr (.inr (.inl h))⟩
    · exact ⟨path, hpath, .inr (.inr (.inr h))⟩
  · rintro ⟨path, hpath, h⟩
    by_cases hroot : path = ".jig.toml"
    · -- an authority path selects everything, whatever else holds of it
      exact .inl ⟨path, hpath, hroot⟩
    · rcases h.resolve_left hroot with h | h | h
      · exact .inr (.inl ⟨path, ⟨hpath, hroot⟩, h⟩)
      · exact .inr (.inr (.inl ⟨path, ⟨hpath, hroot⟩, h⟩))
      · exact .inr (.inr (.inr ⟨path, ⟨hpath, hroot⟩, h⟩))

end Local

/-- **Affected selection is exact and distributes over changes.** -/
theorem affected_selection_exact {B : Type} (build : List SelectionReason → B) {libs : Libraries}
    {contractVersion : Nat} {configDigest : String} {componentSpecs : List ComponentSpec}
    {actionSpecs : List ActionSpec} {profileSpecs : List ProfileSpec}
    {defaultCheckProfile : Option ProfileId} {affectedIgnore : List String}
    {catalog : RepositoryCatalog}
    (hcatalog : fromNativeWithIgnore libs contractVersion configDigest componentSpecs actionSpecs
      profileSpecs defaultCheckProfile affectedIgnore = .ok catalog)
    (hversion : 7 ≤ catalog.contractVersion) (candidates : TargetSelection B) {A C : List String}
    (hA : ∀ path ∈ A, ValidChangedPath path) (hB : ∀ path ∈ C, ValidChangedPath path) :
    ∃ selectedA selectedB selectedAB,
      selectAffectedTargets libs build catalog candidates A [] = .ok selectedA ∧
      selectAffectedTargets libs build catalog candidates C [] = .ok selectedB ∧
      selectAffectedTargets libs build catalog candidates (A ++ C) [] = .ok selectedAB ∧
      (∀ target, target ∈ selectedAB ↔ target ∈ selectedA ∨ target ∈ selectedB) ∧
      (A ⊆ C → ∀ target ∈ selectedA, target ∈ selectedB) ∧
      ∀ target, target ∈ selectedA ↔ target ∈ candidates ∧
        ∃ path ∈ A, ¬ Dropped libs catalog path ∧ Concerns libs catalog path target := by
  have hvalid := fromNativeWithIgnore_valid hcatalog
  have hselect : ∀ {changedPaths : List String}, (∀ path ∈ changedPaths, ValidChangedPath path) →
      ∃ selected, selectAffectedTargets libs build catalog candidates changedPaths [] =
          .ok selected ∧
        ∀ target, target ∈ selected ↔ target ∈ candidates ∧ ∃ path ∈ changedPaths,
          ¬ Dropped libs catalog path ∧ Concerns libs catalog path target := by
    intro changedPaths hpaths
    obtain ⟨selected, hselected, hexact⟩ := selectAffectedTargets_exact build hvalid hversion
      candidates hpaths (List.forall_mem_nil ValidChangedPath)
    exact ⟨selected, hselected, by simpa using hexact⟩
  have hAB : ∀ path ∈ A ++ C, ValidChangedPath path := by
    intro path hpath
    exact (List.mem_append.mp hpath).elim (hA path) (hB path)
  obtain ⟨selectedA, hselectedA, hexactA⟩ := hselect hA
  obtain ⟨selectedB, hselectedB, hexactB⟩ := hselect hB
  obtain ⟨selectedAB, hselectedAB, hexactAB⟩ := hselect hAB
  refine ⟨selectedA, selectedB, selectedAB, hselectedA, hselectedB, hselectedAB, ?_, ?_, hexactA⟩
  · intro target
    rw [hexactA, hexactB, hexactAB, ← and_or_left]
    simp only [List.mem_append, or_and_right, exists_or]
  · intro hsub target htarget
    obtain ⟨hcandidate, path, hpath, hconcerns⟩ := (hexactA target).mp htarget
    exact (hexactB target).mpr ⟨hcandidate, path, hsub hpath, hconcerns⟩

namespace Layered

def lib : ComponentId := ⟨"lib", by decide⟩

def app : ComponentId := ⟨"app", by decide⟩

def audit : TargetId := ⟨lib, ⟨"audit", by decide⟩⟩

def smoke : TargetId := ⟨app, ⟨"smoke", by decide⟩⟩

def release : ProfileId := ⟨"release", by decide⟩

/-- An application that depends on a library. Only the smoke test declares inputs. -/
def catalog : Result RepositoryCatalog :=
  fromNativeWithIgnore .literal 7 "sha256:config"
    [{ id := lib, root := "lib", propagateAffectedToDependents := true },
      { id := app, root := "app", dependsOn := [lib] }]
    [{ target := audit, intent := .check, effects := [.readOnly], runner := .command "make" none ∅ },
      { target := smoke, intent := .check, effects := [.readOnly], inputs := ["app/main.rs"],
        runner := .command "make" none ∅ }]
    [⟨release, [smoke]⟩] (some release) ["lib/README.md"]

/-- The smoke test, selected explicitly. -/
def candidates : TargetSelection (List SelectionReason) :=
  updateEntry ∅ smoke {} (·.insert (.explicit "app:smoke"))

/-- The candidates that a change of the paths keeps. -/
def kept (catalog : RepositoryCatalog) (changedPaths : List String) : Result (List TargetId) :=
  (selectAffectedTargets .literal id catalog candidates changedPaths []).map (·.keys)

end Layered

theorem affected_selection_exact_layered :
    ∃ catalog selectedA selectedB, Layered.catalog = .ok catalog ∧
      selectAffectedTargets .literal id catalog Layered.candidates ["lib/a.rs"] [] =
        .ok selectedA ∧
      selectAffectedTargets .literal id catalog Layered.candidates ["lib/README.md"] [] =
        .ok selectedB ∧
      Layered.smoke ∈ selectedA ∧ Layered.smoke ∉ selectedB := by
  have hrun : isOkAnd Layered.catalog (fun catalog => decide (7 ≤ catalog.contractVersion ∧
      Layered.kept catalog ["lib/a.rs"] = .ok [Layered.smoke] ∧
      Layered.kept catalog ["lib/README.md"] = .ok [])) = true := by decide +kernel
  obtain ⟨catalog, hcatalog, hrun⟩ := exists_of_isOkAnd hrun
  obtain ⟨hversion, hkeptA, hkeptB⟩ := of_decide_eq_true hrun
  obtain ⟨selectedA, selectedB, _, hA, hB, -⟩ := affected_selection_exact id hcatalog hversion
    Layered.candidates (A := ["lib/a.rs"]) (C := ["lib/README.md"])
    (by simp only [List.forall_mem_singleton, ValidChangedPath]; decide +kernel)
    (by simp only [List.forall_mem_singleton, ValidChangedPath]; decide +kernel)
  refine ⟨catalog, selectedA, selectedB, hcatalog, hA, hB, ?_, ?_⟩
  · rw [Layered.kept, hA, Except.map, Except.ok.injEq] at hkeptA
    rw [← ExtTreeMap.mem_keys, hkeptA]
    exact List.mem_singleton_self _
  · rw [Layered.kept, hB, Except.map, Except.ok.injEq] at hkeptB
    rw [← ExtTreeMap.mem_keys, hkeptB]
    exact List.not_mem_nil

end Jig.Repository

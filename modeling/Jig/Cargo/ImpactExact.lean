import Jig.Cargo.Impact
import Jig.Cargo.NormalizeExact
import Jig.Lib.Json

/-!
# Narrowing is sound and exact

A narrowed impact lists the workspace members that can be reached from the owners of the changed
files along the edges of Cargo's resolve graph, and nothing else (`narrowing_exact`). The owner of a
file is the one package whose root lies deepest above it; where no root does, it is the one package
with a source in a directory above it. In neither case does another package have such a source.
-/

namespace Jig.Cargo

open Jig.Contract Lib Lib.Paths Std

/-! ### Directories above a path -/

variable {graph : CargoMetadataGraphV1} {impact : CargoImpactV1} {path : String} {i : Nat}
  {state : OwnerState} {package : CargoPackageImpactV1} {base : CargoImpactV1} {j : Nat}

section Directories

theorem underRoot_iff {root : String} (hroot : Unslashed root) :
    underRoot path root = true ↔ Within root path := by
  have hends : Text.endsWith "/" root = false := by
    rw [Bool.eq_false_iff]
    intro hends
    obtain ⟨before, hbefore⟩ := List.isSuffixOf_iff_suffix.mp hends
    exact hroot (by rw [← hbefore]; simp)
  have hstrip : (Text.stripStart (root ++ "/") path).isSome = true ↔
      root.toList ++ ['/'] <+: path.toList := by
    unfold Text.stripStart
    rw [String.toList_append, ← List.isPrefixOf_iff_prefix]
    simp
  rw [within_iff]
  simp only [underRoot, hends, Bool.false_eq_true, if_false, Bool.or_eq_true, beq_iff_eq, hstrip,
    or_assoc]

theorem packageRoot_unslashed (manifestPath : String) : Unslashed (packageRoot manifestPath) := by
  unfold packageRoot
  split
  · rename_i directory hparent
    split
    · exact unslashed_dot
    · exact parent_unslashed hparent
  · exact unslashed_dot

theorem sourceDirectory_unslashed {target : CargoTargetFactsV1} {directory : String}
    (h : sourceDirectory target = some directory) : Unslashed directory := by
  obtain ⟨parent, hparent, rfl⟩ := Option.map_eq_some_iff.mp h
  split
  · exact unslashed_dot
  · exact parent_unslashed hparent

def RootAbove (graph : CargoMetadataGraphV1) (path : String) (i : Nat) : Prop :=
  ∃ package, graph.packages[i]? = some package ∧ package.manifestPath ≠ "" ∧
    Within package.packageRoot path

def SourceAbove (graph : CargoMetadataGraphV1) (path : String) (i : Nat) : Prop :=
  ∃ package, graph.packages[i]? = some package ∧ package.manifestPath ≠ "" ∧
    ∃ target ∈ package.targets, target.srcPath ≠ "" ∧
      ∃ directory, sourceDirectory target = some directory ∧ Within directory path

def rootDepth (graph : CargoMetadataGraphV1) (i : Nat) : Nat :=
  (graph.packages[i]?.map packageDepth).getD 0

theorem ownsSourceOf_iff {package : CargoPackageFactsV1} :
    ownsSourceOf path package = true ↔ ∃ target ∈ package.targets, target.srcPath ≠ "" ∧
      ∃ directory, sourceDirectory target = some directory ∧ Within directory path := by
  simp only [ownsSourceOf, List.any_eq_true, Bool.and_eq_true, Bool.not_eq_true',
    Option.any_eq_true]
  refine exists_congr fun target => and_congr_right fun _ => and_congr (by simp) ?_
  refine exists_congr fun directory => and_congr_right fun hdirectory => ?_
  exact underRoot_iff (sourceDirectory_unslashed hdirectory)

end Directories

/-! ### Owners -/

section Owners

theorem deepestOwners_eq (graph : CargoMetadataGraphV1) (path : String) :
    deepestOwners graph path =
      (((graph.packages.zipIdx.filter fun pair =>
        pair.1.isLocal && underRoot path pair.1.packageRoot).map fun pair =>
          (packageDepth pair.1, pair.2)).foldl (keepMax Prod.fst) (none, [])).2.map Prod.snd := by
  unfold deepestOwners
  rw [List.foldl_map, List.foldl_filter]
  congr 3
  funext best pair
  obtain ⟨package, index⟩ := pair
  cases hlocal : package.isLocal <;> cases hroot : underRoot path package.packageRoot <;>
    simp [hlocal, hroot]

theorem CargoPackageFactsV1.isLocal_iff {package : CargoPackageFactsV1} :
    package.isLocal = true ↔ package.manifestPath ≠ "" := by
  simp [CargoPackageFactsV1.isLocal]

theorem mem_rootCandidates (hfacts : ∀ facts ∈ graph.packages, facts.WellFormed) {depth : Nat} :
    (depth, i) ∈ ((graph.packages.zipIdx.filter fun pair =>
        pair.1.isLocal && underRoot path pair.1.packageRoot).map fun pair =>
          (packageDepth pair.1, pair.2)) ↔
      RootAbove graph path i ∧ rootDepth graph i = depth := by
  have habove {package : CargoPackageFactsV1} (hpackage : graph.packages[i]? = some package) :
      package.isLocal = true ∧ underRoot path package.packageRoot = true ↔
        package.manifestPath ≠ "" ∧ Within package.packageRoot path := by
    rw [CargoPackageFactsV1.isLocal_iff]
    refine and_congr_right fun hmanifest => underRoot_iff ?_
    rw [(hfacts package (List.mem_of_getElem? hpackage)).root hmanifest]
    exact packageRoot_unslashed _
  simp only [List.mem_map, List.mem_filter, Prod.exists, List.mem_zipIdx_iff_getElem?,
    Bool.and_eq_true, Prod.mk.injEq]
  constructor
  · rintro ⟨package, index, ⟨hpackage, hroot⟩, hdepth, rfl⟩
    exact ⟨⟨package, hpackage, (habove hpackage).mp hroot⟩, by simp [rootDepth, hpackage, hdepth]⟩
  · rintro ⟨⟨package, hpackage, hroot⟩, hdepth⟩
    refine ⟨package, i, ⟨hpackage, (habove hpackage).mpr hroot⟩, ?_, rfl⟩
    simpa [rootDepth, hpackage] using hdepth

theorem mem_deepestOwners (hfacts : ∀ facts ∈ graph.packages, facts.WellFormed) :
    i ∈ deepestOwners graph path ↔
      RootAbove graph path i ∧ ∀ j, RootAbove graph path j →
        rootDepth graph j ≤ rootDepth graph i := by
  rw [deepestOwners_eq]
  simp only [List.mem_map, mem_foldl_keepMax, Prod.exists, exists_eq_right, Prod.forall,
    mem_rootCandidates hfacts]
  constructor
  · rintro ⟨depth, ⟨hi, rfl⟩, hmax⟩
    exact ⟨hi, fun j hj => hmax _ j ⟨hj, rfl⟩⟩
  · rintro ⟨hi, hmax⟩
    refine ⟨_, ⟨hi, rfl⟩, ?_⟩
    rintro _ j ⟨hj, rfl⟩
    exact hmax j hj

theorem nodup_deepestOwners : (deepestOwners graph path).Nodup := by
  rw [deepestOwners_eq]
  apply List.Nodup.sublist ((foldl_keepMax_sublist _).map _)
  rw [List.map_map]
  have hindices : (graph.packages.zipIdx.map Prod.snd).Nodup := by
    rw [List.zipIdx_map_snd]
    exact List.nodup_range'
  exact hindices.sublist (List.filter_sublist.map _)

/-- **Attribution.** The one package that a file belongs to. -/
structure Attributed (graph : CargoMetadataGraphV1) (path : String) (i : Nat) : Prop where
  owner : (RootAbove graph path i ∧
      ∀ j, RootAbove graph path j → j ≠ i → rootDepth graph j < rootDepth graph i) ∨
    (∀ j, ¬RootAbove graph path j) ∧ SourceAbove graph path i
  alone : ∀ j, SourceAbove graph path j → j = i

/-- Some root lies deepest where any does. -/
theorem exists_mem_deepestOwners (hfacts : ∀ facts ∈ graph.packages, facts.WellFormed)
    (h : RootAbove graph path i) : ∃ j, j ∈ deepestOwners graph path := by
  have hcandidate := (mem_rootCandidates hfacts).mpr ⟨h, rfl⟩
  obtain ⟨best, hbest⟩ := exists_mem_foldl_keepMax Prod.fst (List.ne_nil_of_mem hcandidate)
  rw [deepestOwners_eq]
  exact ⟨best.2, List.mem_map_of_mem hbest⟩

/-- The candidates of `unique_owner`. -/
theorem mem_candidates :
    i ∈ graph.packages.zipIdx.foldl
        (addMissing (fun (package, _) => package.isLocal && ownsSourceOf path package) Prod.snd)
        (deepestOwners graph path) ↔
      i ∈ deepestOwners graph path ∨ SourceAbove graph path i := by
  rw [mem_foldl_addMissing]
  refine or_congr_right ?_
  simp only [Prod.exists, List.mem_zipIdx_iff_getElem?, Bool.and_eq_true, ownsSourceOf_iff,
    CargoPackageFactsV1.isLocal_iff]
  constructor
  · rintro ⟨package, _, hpackage, hsource, rfl⟩
    exact ⟨package, hpackage, hsource⟩
  · rintro ⟨package, hpackage, hsource⟩
    exact ⟨package, i, hpackage, hsource, rfl⟩

theorem Owner.ofCandidates_eq_one {candidates : List Nat} :
    Owner.ofCandidates candidates = .one i ↔ candidates = [i] := by
  rcases candidates with _ | ⟨a, _ | ⟨b, rest⟩⟩ <;> simp [Owner.ofCandidates]

/-- `unique_owner` finds the package that a file is attributed to. -/
theorem uniqueOwner_eq_one (hfacts : ∀ facts ∈ graph.packages, facts.WellFormed) :
    uniqueOwner graph path = .one i ↔ Attributed graph path i := by
  unfold uniqueOwner
  rw [Owner.ofCandidates_eq_one,
    eq_singleton_iff_of_nodup (nodup_foldl_addMissing nodup_deepestOwners)]
  simp only [mem_candidates]
  constructor
  · intro h
    have hdeepest : i ∈ deepestOwners graph path → Attributed graph path i := by
      intro hi
      obtain ⟨hroot, hmax⟩ := (mem_deepestOwners hfacts).mp hi
      refine ⟨.inl ⟨hroot, fun j hj hne => ?_⟩, fun j hj => (h j).mp (.inr hj)⟩
      -- another root of the same depth would be a candidate too
      refine Nat.lt_of_le_of_ne (hmax j hj) fun heq => hne ((h j).mp (.inl ?_))
      exact (mem_deepestOwners hfacts).mpr ⟨hj, fun k hk => heq ▸ hmax k hk⟩
    by_cases hany : ∃ j, RootAbove graph path j
    · obtain ⟨j, hj⟩ := hany
      obtain ⟨best, hbest⟩ := exists_mem_deepestOwners hfacts hj
      obtain rfl := (h best).mp (.inl hbest)
      exact hdeepest hbest
    · rcases (h i).mpr rfl with hi | hi
      · exact hdeepest hi
      · exact ⟨.inr ⟨not_exists.mp hany, hi⟩, fun j hj => (h j).mp (.inr hj)⟩
  · intro h j
    simp only [mem_deepestOwners hfacts]
    constructor
    · rintro (⟨hroot, hmax⟩ | hsource)
      · rcases h.owner with ⟨hi, hbelow⟩ | ⟨hnone, -⟩
        · by_contra hne
          exact absurd (hmax i hi) (Nat.not_le.mpr (hbelow j hroot hne))
        · exact absurd hroot (hnone j)
      · exact h.alone j hsource
    · rintro rfl
      rcases h.owner with ⟨hi, hbelow⟩ | ⟨-, hsource⟩
      · refine .inl ⟨hi, fun k hk => ?_⟩
        by_cases hk' : k = j
        · exact hk' ▸ le_rfl
        · exact (hbelow k hk hk').le
      · exact .inr hsource

theorem Attributed.unique (hi : Attributed graph path i) (hj : Attributed graph path j) : i = j := by
  rcases hi.owner with ⟨hroot, hbelow⟩ | ⟨hnone, hsource⟩
  · rcases hj.owner with ⟨hroot', hbelow'⟩ | ⟨hnone, -⟩
    · by_contra hne
      have := hbelow j hroot' (Ne.symm hne)
      have := hbelow' i hroot hne
      omega
    · exact absurd hroot (hnone i)
  · exact hj.alone i hsource

end Owners

/-! ### Changed paths -/

section ChangedPaths

structure RustSource (path : String) : Prop where
  valid : validChangedPath path = true
  rust : Text.endsWith ".rs" path = true
  topology : topologyPath path = false
  buildScript : Paths.fileName path ≠ some "build.rs"

theorem ownChangedPath_ok {state' : OwnerState} (h : ownChangedPath graph state path = .ok state')
    (hbroad : state'.broad = false) :
    state.broad = false ∧ RustSource path ∧
      ∃ i, uniqueOwner graph path = .one i ∧ state'.owners = state.owners.insert i := by
  unfold ownChangedPath at h
  rw [ite_error_eq_ok] at h
  obtain ⟨hvalid, h⟩ := h
  split_ifs at h with htopology hbuild hrust
  · obtain rfl := Except.ok.inj h
    cases hbroad
  · obtain rfl := Except.ok.inj h
    cases hbroad
  · obtain rfl := Except.ok.inj h
    cases hbroad
  · cases howner : uniqueOwner graph path with
    | one index =>
        rw [howner] at h
        obtain rfl := Except.ok.inj h
        exact ⟨hbroad, ⟨by simpa using hvalid, by simpa using hrust, by simpa using htopology,
          hbuild⟩,
          index, rfl, rfl⟩
    | none | ambiguous =>
        rw [howner] at h
        obtain rfl := Except.ok.inj h
        cases hbroad

/-- Where no path forces the whole workspace, every path is a source with one owner. -/
theorem ownChangedPaths_ok {paths : List String}
    (h : paths.foldlM (ownChangedPath graph) {} = .ok state) (hbroad : state.broad = false) :
    (∀ path ∈ paths, RustSource path ∧ ∃ i, uniqueOwner graph path = .one i) ∧
      ∀ i, i ∈ state.owners ↔ ∃ path ∈ paths, uniqueOwner graph path = .one i := by
  refine foldlM_ok_induction (fun done (state : OwnerState) => state.broad = false →
    (∀ path ∈ done, RustSource path ∧ ∃ i, uniqueOwner graph path = .one i) ∧
      ∀ i, i ∈ state.owners ↔ ∃ path ∈ done, uniqueOwner graph path = .one i) h ?_ ?_ hbroad
  · intro _
    simp
  · intro done path s s' _ hs hstep hbroad'
    obtain ⟨hbefore, hsource, owner, howner, howners⟩ := ownChangedPath_ok hstep hbroad'
    obtain ⟨hsources, hmem⟩ := hs hbefore
    constructor
    · exact forall_mem_concat hsources ⟨hsource, owner, howner⟩
    · intro i
      rw [howners, mem_treeSet_insert, hmem, exists_mem_concat, howner, Owner.one.injEq, or_comm]

end ChangedPaths

/-! ### Consumers -/

section Consumers

variable {owner : Nat} {state : ExtTreeSet Nat × List CargoImpactReasonV1}

def MemberFlag (graph : CargoMetadataGraphV1) (i : Nat) : Prop :=
  ∃ package, graph.packages[i]? = some package ∧ package.workspaceMember = true

theorem visitConsumer_ok {state state' : ClosureState} {index : Nat} {pushed : List Nat}
    (h : visitConsumer graph owner state index = .ok (state', pushed)) :
    (state.visited.contains index = true ∧ state' = state ∧ pushed = []) ∨
      (state.visited.contains index = false ∧ state'.visited = state.visited.insert index ∧
        pushed = graph.reverseConsumers.getD index [] ∧
        ∀ i, i ∈ state'.selected ↔ i ∈ state.selected ∨ i = index ∧ MemberFlag graph i) := by
  unfold visitConsumer at h
  split at h
  · next hvisited =>
      obtain ⟨rfl, rfl⟩ := Prod.mk.inj (Except.ok.inj h)
      exact .inl ⟨hvisited, rfl, rfl⟩
  · next hnew =>
      right
      rw [Bool.not_eq_true] at hnew
      have hflag (i : Nat) : i = index ∧ MemberFlag graph i ↔ i = index ∧ MemberFlag graph index :=
        and_congr_right fun hi => by rw [hi]
      simp only [hflag]
      cases hpackage : graph.packages[index]? with
      | none =>
          simp only [hpackage] at h
          obtain ⟨rfl, rfl⟩ := Prod.mk.inj (Except.ok.inj h)
          exact ⟨hnew, rfl, rfl, by simp [MemberFlag, hpackage]⟩
      | some package =>
          simp only [hpackage] at h
          split at h
          · next hmember =>
              obtain ⟨rfl, rfl⟩ := Prod.mk.inj (Except.ok.inj h)
              refine ⟨hnew, rfl, rfl, fun i => ?_⟩
              rw [mem_treeSet_insert, and_iff_left ⟨package, hpackage, hmember⟩, or_comm, eq_comm]
          · next hmember =>
              obtain ⟨rfl, rfl⟩ := Prod.mk.inj (Except.ok.inj h)
              exact ⟨hnew, rfl, rfl, by simp [MemberFlag, hpackage, hmember]⟩

theorem sum_range_getD_length (l : List (List Nat)) :
    ((List.range l.length).map fun i => (l.getD i []).length).sum = (l.map List.length).sum := by
  congr 1
  apply List.ext_getElem
  · simp
  · intro i h₁ h₂
    have hi : i < l.length := by simpa using h₂
    simp [hi]

/-- **The loop for an owner** selects the members among its direct and indirect consumers. -/
theorem mem_closeOwner :
    i ∈ (closeOwner graph state owner).1 ↔ i ∈ state.1 ∨ MemberFlag graph i ∧
      Relation.ReflTransGen (fun a b => b ∈ graph.reverseConsumers.getD a []) owner i := by
  unfold closeOwner
  cases hrun : worklist (visitConsumer graph owner) (closureRounds graph)
      { selected := state.1, reasons := state.2 } [owner] with
  | error e => exact e.elim
  | ok final =>
      have hvisited : ∀ a, final.visited.contains a = true ↔
          Reachable (fun a => graph.reverseConsumers.getD a []) (· ∈ [owner]) a := by
        apply worklist_visit_reachable (fun s a => s.visited.contains a)
          (fun a => graph.reverseConsumers.getD a []) (List.range graph.reverseConsumers.length)
          _ _ _ _ hrun
        · intro s a s' pushed hstep
          rcases visitConsumer_ok hstep with ⟨hseen, rfl, rfl⟩ | ⟨hnew, hinsert, rfl, -⟩
          · exact .inl ⟨hseen, fun _ => rfl, rfl⟩
          · refine .inr ⟨hnew, fun b => ?_, rfl⟩
            rw [hinsert, ExtTreeSet.contains_iff_mem, ExtTreeSet.contains_iff_mem,
              mem_treeSet_insert, or_comm, eq_comm]
        · -- what has consumers has an entry
          intro a ha
          rw [List.mem_range]
          by_contra hout
          exact ha (by simp [List.getD_eq_getElem?_getD, List.getElem?_eq_none (Nat.not_lt.mp hout)])
        · intro a
          rfl
        · rw [sum_range_getD_length]
          exact le_rfl
      have hselected : ∀ i, i ∈ final.selected ↔
          i ∈ state.1 ∨ i ∈ final.visited ∧ MemberFlag graph i := by
        apply worklist_invariant (fun s : ClosureState => ∀ i, i ∈ s.selected ↔
          i ∈ state.1 ∨ i ∈ s.visited ∧ MemberFlag graph i) _ _ hrun
        · intro s a s' pushed hs hstep i
          rcases visitConsumer_ok hstep with ⟨-, rfl, -⟩ | ⟨-, hinsert, -, hselected⟩
          · exact hs i
          · rw [hselected, hs, hinsert, mem_treeSet_insert]
            grind
        · simp
      show i ∈ final.selected ↔ _
      simp only [ExtTreeSet.contains_iff_mem] at hvisited
      rw [hselected, hvisited, and_comm]
      simp [Reachable]

/-- The loop over the owners. -/
theorem mem_closeOwners {owners : List Nat} :
    i ∈ (owners.foldl (closeOwner graph) state).1 ↔ i ∈ state.1 ∨ MemberFlag graph i ∧
      ∃ owner ∈ owners,
        Relation.ReflTransGen (fun a b => b ∈ graph.reverseConsumers.getD a []) owner i := by
  rw [foldl_iff_or (P := (i ∈ ·.1)) (f := closeOwner graph) fun _ _ => mem_closeOwner]
  grind

end Consumers

/-! ### Listed packages -/

section Listed

def Lists (graph : CargoMetadataGraphV1) (i : Nat) (package : CargoPackageImpactV1) : Prop :=
  ∃ facts, graph.packages[i]? = some facts ∧ facts.manifestPath ≠ "" ∧ facts.selector ≠ "" ∧
    facts.impact = package

theorem addPackageImpact_disposition (i : Nat) :
    (addPackageImpact graph base i).disposition = base.disposition := by
  unfold addPackageImpact
  split
  · rfl
  · split <;> rfl

theorem mem_addPackageImpact :
    package ∈ (addPackageImpact graph base i).buildPackages ↔
      package ∈ base.buildPackages ∨ Lists graph i package := by
  unfold addPackageImpact Lists
  cases hfacts : graph.packages[i]? with
  | none => simp
  | some facts =>
      by_cases hempty : facts.manifestPath.isEmpty || facts.selector.isEmpty
      · simp only [hempty, if_true, Option.some.injEq, exists_eq_left']
        simp only [Bool.or_eq_true, String.isEmpty_iff] at hempty
        tauto
      · simp only [hempty, Bool.false_eq_true, if_false, Option.some.injEq, exists_eq_left',
          List.mem_append, List.mem_singleton]
        simp only [Bool.or_eq_true, String.isEmpty_iff, not_or] at hempty
        simp [hempty.1, hempty.2, eq_comm]

theorem addSelected_disposition (i : Nat) :
    (addSelected graph base i).disposition = base.disposition := by
  unfold addSelected
  dsimp only
  split
  · exact addPackageImpact_disposition i
  · split <;> exact addPackageImpact_disposition i

theorem addSelected_buildPackages (i : Nat) :
    (addSelected graph base i).buildPackages = (addPackageImpact graph base i).buildPackages := by
  unfold addSelected
  dsimp only
  split
  · rfl
  · split <;> rfl

theorem foldl_addPackageImpact (graph : CargoMetadataGraphV1) (base : CargoImpactV1)
    (indices : List Nat) :
    (indices.foldl (addPackageImpact graph) base).disposition = base.disposition ∧
      ∀ package, package ∈ (indices.foldl (addPackageImpact graph) base).buildPackages ↔
        package ∈ base.buildPackages ∨ ∃ i ∈ indices, Lists graph i package :=
  ⟨foldl_keeps (fun _ i => addPackageImpact_disposition i) indices base, fun package =>
    foldl_iff_or (P := (package ∈ ·.buildPackages)) (f := addPackageImpact graph)
      (fun _ _ => mem_addPackageImpact) indices base⟩

theorem foldl_addSelected (graph : CargoMetadataGraphV1) (base : CargoImpactV1)
    (indices : List Nat) :
    (indices.foldl (addSelected graph) base).disposition = base.disposition ∧
      ∀ package, package ∈ (indices.foldl (addSelected graph) base).buildPackages ↔
        package ∈ base.buildPackages ∨ ∃ i ∈ indices, Lists graph i package := by
  refine ⟨foldl_keeps (fun _ i => addSelected_disposition i) indices base, fun package => ?_⟩
  apply foldl_iff_or (P := (package ∈ ·.buildPackages)) (f := addSelected graph)
  intro base i
  rw [addSelected_buildPackages, mem_addPackageImpact]

theorem finish_eq_of_ne (h : (finish impact).disposition ≠ .unavailable) :
    finish impact = impact.sortCanonical ∧
      ¬(impact.disposition = .narrowed ∧ impact.buildPackages = []) := by
  unfold finish at h ⊢
  split_ifs at h ⊢ with hempty
  · simp at h
  · exact ⟨rfl, hempty⟩

end Listed

/-! ### The impact -/

section Impact

variable {component : ComponentId} {workspaceManifest : String} {changedPaths : List String}
  {context : CargoImpactContextV1}

/-- The three kinds of impact. -/
theorem selectCargoImpactV1_cases
    (h : impact = selectCargoImpactV1 graph component workspaceManifest changedPaths context) :
    impact.disposition = .unavailable ∨
      (∃ base reasons, impact = broadFallback graph base reasons) ∨
      ∃ state base, changedPaths.foldlM (ownChangedPath graph) {} = .ok state ∧
        state.broad = false ∧ base.disposition = .narrowed ∧ base.buildPackages = [] ∧
        impact = finish ((state.owners.toList.foldl (closeOwner graph)
          (∅, state.reasons)).1.toList.foldl (addSelected graph) base) := by
  unfold selectCargoImpactV1 at h
  dsimp only at h
  split_ifs at h
  · exact .inl (h ▸ rfl)
  · exact .inl (h ▸ rfl)
  · exact .inl (h ▸ rfl)
  · exact .inr (.inl ⟨_, _, h⟩)
  · exact .inr (.inl ⟨_, _, h⟩)
  · cases hfold : changedPaths.foldlM (ownChangedPath graph) {} with
    | error reason =>
        rw [hfold] at h
        exact .inl (h ▸ rfl)
    | ok state =>
        rw [hfold] at h
        dsimp only at h
        split_ifs at h with hbroad
        · exact .inr (.inl ⟨_, _, h⟩)
        · exact .inr (.inl ⟨_, _, h⟩)
        · exact .inr (.inr ⟨state, _, rfl, by simpa using hbroad, rfl, rfl, h⟩)

def CargoPackageFactsV1.listed (facts : CargoPackageFactsV1) : CargoPackageImpactV1 :=
  facts.impact.canonical

/-- **What a narrowed impact says.** -/
structure NarrowedExactly (metadata : RawMetadata) (graph : CargoMetadataGraphV1)
    (changedPaths : List String) (impact : CargoImpactV1) : Prop where
  source : ∀ path ∈ changedPaths, RustSource path
  attributed : ∀ path ∈ changedPaths, ∃ i, Attributed graph path i ∧
    ∀ j, Attributed graph path j → j = i
  built : ∀ {i : Nat} {facts : CargoPackageFactsV1}, graph.packages[i]? = some facts →
    (facts.listed ∈ impact.buildPackages ↔ metadata.IsMember i ∧
      ∃ path ∈ changedPaths, ∃ owner, Attributed graph path owner ∧
        Relation.ReflTransGen metadata.Consumes owner i)
  onlyPackages : ∀ package ∈ impact.buildPackages, ∃ (i : Nat) (facts : CargoPackageFactsV1),
    graph.packages[i]? = some facts ∧ facts.listed = package
  nonempty : impact.buildPackages ≠ []

theorem broadFallback_disposition (base : CargoImpactV1) (reasons : List CargoImpactReasonV1) :
    (broadFallback graph base reasons).disposition = .broadFallback := by
  obtain ⟨hdisposition, -⟩ := foldl_addPackageImpact graph
    { base with disposition := .broadFallback, reasons } graph.workspaceMembers
  unfold broadFallback fillAllWorkspaceImpact finish
  rw [hdisposition, if_neg (by simp), CargoImpactV1.sortCanonical_disposition, hdisposition]

theorem mem_broadFallback {reasons : List CargoImpactReasonV1} (hi : i ∈ graph.workspaceMembers)
    (h : Lists graph i package) :
    package.canonical ∈ (broadFallback graph base reasons).buildPackages := by
  obtain ⟨hdisposition, hmem⟩ := foldl_addPackageImpact graph
    { base with disposition := .broadFallback, reasons } graph.workspaceMembers
  unfold broadFallback fillAllWorkspaceImpact finish
  rw [hdisposition, if_neg (by simp), CargoImpactV1.mem_sortCanonical_buildPackages]
  exact ⟨package, (hmem package).mpr (.inr ⟨i, hi, h⟩), rfl⟩

variable {metadata : RawMetadata}

section

variable (hgraph : Represents metadata graph)

include hgraph

/-- The edges of the graph are those of the metadata. -/
theorem Represents.reachable {owner : Nat} :
    Relation.ReflTransGen (fun a b => b ∈ graph.reverseConsumers.getD a []) owner i ↔
      Relation.ReflTransGen metadata.Consumes owner i := by
  have hedges : (fun a b => b ∈ graph.reverseConsumers.getD a []) = metadata.Consumes := by
    funext a b
    exact propext hgraph.consumer
  rw [hedges]

theorem Represents.lists {facts : CargoPackageFactsV1} (hfacts : graph.packages[i]? = some facts)
    (hmember : metadata.IsMember i) : Lists graph i facts.impact :=
  ⟨facts, hfacts, hgraph.manifest hfacts ((hgraph.flag hfacts).mpr hmember),
    (hgraph.facts facts (List.mem_of_getElem? hfacts)).selector, rfl⟩

/-- Packages are told apart by what an impact lists of them. -/
theorem Represents.eq_of_listed {facts facts' : CargoPackageFactsV1}
    (hi : graph.packages[i]? = some facts) (hj : graph.packages[j]? = some facts')
    (h : facts.listed = facts'.listed) : i = j := by
  have hselector : facts.selector = facts'.selector := congrArg CargoPackageImpactV1.selector h
  have hlt := (List.getElem?_eq_some_iff.mp hi).1
  refine (List.getElem?_inj (by rwa [List.length_map]) hgraph.distinct).mp ?_
  rw [List.getElem?_map, List.getElem?_map, hi, hj, Option.map_some, Option.map_some, hselector]

/-- What is selected for the owners of the changed paths. -/
theorem Represents.mem_selected (hstate : changedPaths.foldlM (ownChangedPath graph) {} = .ok state)
    (hbroad : state.broad = false) :
    i ∈ (state.owners.toList.foldl (closeOwner graph) (∅, state.reasons)).1 ↔
      MemberFlag graph i ∧ ∃ path ∈ changedPaths, ∃ owner, Attributed graph path owner ∧
        Relation.ReflTransGen metadata.Consumes owner i := by
  have howners := (ownChangedPaths_ok hstate hbroad).2
  rw [mem_closeOwners]
  simp only [ExtTreeSet.not_mem_empty, false_or, ExtTreeSet.mem_toList, howners,
    hgraph.reachable, uniqueOwner_eq_one hgraph.facts]
  grind

/-- The impact of a graph that represents what Cargo reports. -/
theorem Represents.narrowing
    (h : impact = selectCargoImpactV1 graph component workspaceManifest changedPaths context) :
    (impact.disposition = .narrowed → NarrowedExactly metadata graph changedPaths impact) ∧
      (impact.disposition = .broadFallback → ∀ {i : Nat} {facts : CargoPackageFactsV1},
        graph.packages[i]? = some facts → metadata.IsMember i →
          facts.listed ∈ impact.buildPackages) := by
  rcases selectCargoImpactV1_cases h with hnone | ⟨base, reasons, hbroad⟩ |
    ⟨state, base, hstate, hbroad, hbase, hempty, himpact⟩
  · exact ⟨fun hd => by simp [hd] at hnone, fun hd => by simp [hd] at hnone⟩
  · rw [hbroad, broadFallback_disposition]
    refine ⟨nofun, fun _ i facts hfacts hmember => ?_⟩
    exact mem_broadFallback (hgraph.member.mpr hmember) (hgraph.lists hfacts hmember)
  · obtain ⟨hdisposition, hmem⟩ := foldl_addSelected graph base
      (state.owners.toList.foldl (closeOwner graph) (∅, state.reasons)).1.toList
    simp only [ExtTreeSet.mem_toList, hgraph.mem_selected hstate hbroad, hempty,
      List.not_mem_nil, false_or] at hmem
    generalize List.foldl (addSelected graph) base
      (state.owners.toList.foldl (closeOwner graph) (∅, state.reasons)).1.toList = listed
      at himpact hdisposition hmem
    -- an impact without packages is not available
    have hfinished : impact.disposition ≠ .unavailable →
        impact = listed.sortCanonical ∧ listed.buildPackages ≠ [] := by
      intro hne
      rw [himpact] at hne ⊢
      obtain ⟨heq, hnonempty⟩ := finish_eq_of_ne hne
      exact ⟨heq, fun hnil => hnonempty ⟨hdisposition.trans hbase, hnil⟩⟩
    constructor
    · intro hnarrowed
      obtain ⟨rfl, hnonempty⟩ := hfinished (by simp [hnarrowed])
      have hsources := (ownChangedPaths_ok hstate hbroad).1
      constructor
      · exact fun path hpath => (hsources path hpath).1
      · intro path hpath
        obtain ⟨i, hi⟩ := (hsources path hpath).2
        have hattributed := (uniqueOwner_eq_one hgraph.facts).mp hi
        exact ⟨i, hattributed, fun j hj => hj.unique hattributed⟩
      · intro i facts hfacts
        rw [CargoImpactV1.mem_sortCanonical_buildPackages]
        constructor
        · rintro ⟨original, horiginal, hlisted⟩
          obtain ⟨j, hj, facts', hfacts', -, -, rfl⟩ := (hmem original).mp horiginal
          obtain rfl := hgraph.eq_of_listed hfacts' hfacts hlisted
          obtain ⟨⟨found, hfound, hflag⟩, hreached⟩ := hj
          exact ⟨(hgraph.flag hfound).mp hflag, hreached⟩
        · rintro ⟨hmember, hreached⟩
          refine ⟨facts.impact, (hmem _).mpr ⟨i, ⟨⟨facts, hfacts, ?_⟩, hreached⟩,
            hgraph.lists hfacts hmember⟩, rfl⟩
          exact (hgraph.flag hfacts).mpr hmember
      · intro package hpackage
        obtain ⟨original, horiginal, rfl⟩ :=
          CargoImpactV1.mem_sortCanonical_buildPackages.mp hpackage
        obtain ⟨i, -, facts, hfacts, -, -, rfl⟩ := (hmem original).mp horiginal
        exact ⟨i, facts, hfacts, rfl⟩
      · obtain ⟨package, hpackage⟩ := List.exists_mem_of_ne_nil _ hnonempty
        exact List.ne_nil_of_mem
          (CargoImpactV1.mem_sortCanonical_buildPackages.mpr ⟨package, hpackage, rfl⟩)
    · intro hbroad'
      obtain ⟨rfl, -⟩ := hfinished (by simp [hbroad'])
      rw [CargoImpactV1.sortCanonical_disposition, hdisposition, hbase] at hbroad'
      cases hbroad'

end

/-- **Narrowing is sound and exact.** For every graph that is normalized from what Cargo reports: a
narrowed impact comes from Rust sources that each belong to one package, and it lists exactly the
workspace members that consume one of these packages, directly or not, or are one of them; and a
broad one lists every workspace member. -/
theorem narrowing_exact {fromSlice : Bytes → Option RawMetadata} {bytes : Bytes}
    {repositoryRoot : String} {limits : CargoMetadataLimitsV1}
    (h : normalizeCargoMetadataV1 fromSlice bytes repositoryRoot limits = .ok graph)
    (component : ComponentId) (workspaceManifest : String) (changedPaths : List String)
    (context : CargoImpactContextV1) :
    ∃ metadata, fromSlice bytes = some metadata ∧ ∀ impact,
      impact = selectCargoImpactV1 graph component workspaceManifest changedPaths context →
        (impact.disposition = .narrowed → NarrowedExactly metadata graph changedPaths impact) ∧
          (impact.disposition = .broadFallback → ∀ {i : Nat} {facts : CargoPackageFactsV1},
            graph.packages[i]? = some facts → metadata.IsMember i →
              facts.listed ∈ impact.buildPackages) := by
  unfold normalizeCargoMetadataV1 at h
  rw [ite_error_eq_ok, ite_error_eq_ok] at h
  obtain ⟨-, -, h⟩ := h
  cases hmetadata : fromSlice bytes with
  | none =>
      rw [hmetadata] at h
      cases h
  | some metadata =>
      rw [hmetadata] at h
      exact ⟨metadata, rfl, fun impact himpact => (normalizeMetadata_represents h).narrowing himpact⟩

end Impact

namespace SampleWorkspace

def rust : ComponentId := ⟨"rust", by decide⟩

/-- A package whose only source is outside of its root, and one that depends on it. -/
def metadata : RawMetadata where
  version := 1
  workspaceRoot := "/workspace"
  packages :=
    [{ name := "tool", version := "1.0.0", id := "tool"
       manifestPath := "/workspace/crates/tool/Cargo.toml"
       targets := [{ name := "tool", kind := ["bin"], srcPath := "/workspace/shared/tool.rs"
                     test := true }] },
      { name := "app", version := "1.0.0", id := "app"
        manifestPath := "/workspace/crates/app/Cargo.toml"
        targets := [{ name := "app", kind := ["lib"]
                      srcPath := "/workspace/crates/app/src/lib.rs" }] },
      { name := "other", version := "1.0.0", id := "other"
        manifestPath := "/workspace/crates/other/Cargo.toml", targets := [] }]
  workspaceMembers := ["tool", "app", "other"]
  resolve := some
    [{ id := "tool" },
      { id := "app", dependencies := ["tool"]
        deps := [{ name := "tool", pkg := "tool", depKinds := [{ kind := none, target := none }] }] },
      { id := "other" }]

def texts (items : List String) : Bytes :=
  Json.array (items.map Json.string)

def packageJson (package : RawPackage) : Bytes :=
  Json.object [("name", Json.string package.name), ("version", Json.string package.version),
    ("id", Json.string package.id), ("manifest_path", Json.string package.manifestPath),
    ("targets", Json.array (package.targets.map fun target => Json.object
      [("name", Json.string target.name), ("kind", texts target.kind),
        ("src_path", Json.string target.srcPath), ("test", Json.bool target.test)]))]

def nodeJson (node : RawNode) : Bytes :=
  Json.object [("id", Json.string node.id), ("dependencies", texts node.dependencies),
    ("deps", Json.array (node.deps.map fun dependency => Json.object
      [("name", Json.string dependency.name), ("pkg", Json.string dependency.pkg),
        ("dep_kinds", Json.array (dependency.depKinds.map fun kind => Json.object
          [("kind", Json.stringOrNull kind.kind), ("target", Json.stringOrNull kind.target)]))]))]

def text : Bytes :=
  Json.object [("packages", Json.array (metadata.packages.map packageJson)),
    ("workspace_members", texts metadata.workspaceMembers),
    ("resolve", Json.object [("nodes", Json.array ((metadata.resolve.getD []).map nodeJson))]),
    ("version", Json.number metadata.version),
    ("workspace_root", Json.string metadata.workspaceRoot)]

def fromSlice (bytes : Bytes) : Option RawMetadata :=
  if bytes = text then some metadata else none

def holds (p : CargoMetadataGraphV1 → Bool) : Bool :=
  match normalizeCargoMetadataV1 fromSlice text "/workspace" {} with
  | .ok graph => p graph
  | .error _ => false

theorem exists_of_holds {p : CargoMetadataGraphV1 → Bool} (h : holds p = true) :
    ∃ graph, normalizeCargoMetadataV1 fromSlice text "/workspace" {} = .ok graph ∧
      p graph = true := by
  unfold holds at h
  split at h
  · next graph hgraph => exact ⟨graph, hgraph, h⟩
  · cases h

def impactOf (graph : CargoMetadataGraphV1) : CargoImpactV1 :=
  selectCargoImpactV1 graph rust "Cargo.toml" ["shared/util.rs"] {}

def noRootAbove (graph : CargoMetadataGraphV1) (path : String) : Bool :=
  graph.packages.all fun package =>
    package.manifestPath == "" || !decide (Within package.packageRoot path)

theorem not_rootAbove (h : noRootAbove graph path = true) (i : Nat) : ¬RootAbove graph path i := by
  rintro ⟨package, hpackage, hmanifest, hwithin⟩
  have := List.all_eq_true.mp h package (List.mem_of_getElem? hpackage)
  simp [hmanifest, hwithin] at this

/-- The owner of a changed file need not have its root above the file. -/
theorem owner_outside_every_root : ∃ graph,
    normalizeCargoMetadataV1 fromSlice text "/workspace" {} = .ok graph ∧
      (impactOf graph).disposition = .narrowed ∧
      ∀ i, ¬RootAbove graph "shared/util.rs" i := by
  have h : holds (fun graph => decide ((impactOf graph).disposition = .narrowed) &&
      noRootAbove graph "shared/util.rs") = true := by decide +kernel
  obtain ⟨graph, hgraph, hp⟩ := exists_of_holds h
  rw [Bool.and_eq_true, decide_eq_true_eq] at hp
  exact ⟨graph, hgraph, hp.1, not_rootAbove hp.2⟩

theorem narrowing_exact_of_outside : ∃ graph,
    normalizeCargoMetadataV1 fromSlice text "/workspace" {} = .ok graph ∧
      (impactOf graph).buildPackages.map (·.selector) = ["app@1.0.0", "tool@1.0.0"] ∧
      NarrowedExactly metadata graph ["shared/util.rs"] (impactOf graph) := by
  have h : holds (fun graph => decide ((impactOf graph).disposition = .narrowed) &&
      decide ((impactOf graph).buildPackages.map (·.selector) = ["app@1.0.0", "tool@1.0.0"])) =
      true := by decide +kernel
  obtain ⟨graph, hgraph, hp⟩ := exists_of_holds h
  rw [Bool.and_eq_true, decide_eq_true_eq, decide_eq_true_eq] at hp
  obtain ⟨found, hfound, himpact⟩ := narrowing_exact hgraph rust "Cargo.toml" ["shared/util.rs"] {}
  obtain rfl : metadata = found := Option.some.inj ((if_pos rfl).symm.trans hfound)
  exact ⟨graph, hgraph, hp.2, (himpact _ rfl).1 hp.1⟩

end SampleWorkspace

end Jig.Cargo

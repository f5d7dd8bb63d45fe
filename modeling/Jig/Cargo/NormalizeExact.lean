import Jig.Cargo.Normalize

/-!
# The graph that is normalized is the one Cargo reports

Each loop of the normalizer is followed by the invariant that it builds up over the records it has
processed: the packages and their IDs, the members among them, and the dependencies of each node.
`normalizeMetadata_represents` puts them together.
-/

namespace Jig.Cargo

open Lib Std

/-! ### Packages -/

variable {limits : CargoMetadataLimitsV1} {counters : Counters} {count : Nat}
  {collected : Collected} {idToIndex : ExtTreeMap String Nat} {base : List CargoPackageFactsV1}
  {repositoryRoot : String} {collected' : Collected} {package : RawPackage} {counters' : Counters}
  {memberId : String}

section Packages

structure CargoPackageFactsV1.WellFormed (facts : CargoPackageFactsV1) : Prop where
  selector : facts.selector ≠ ""
  root : facts.manifestPath ≠ "" → facts.packageRoot = Cargo.packageRoot facts.manifestPath

theorem packageSelector_ne_empty {name version selector : String}
    (h : packageSelector name version = .ok selector) : selector ≠ "" := by
  unfold packageSelector at h
  rw [ite_error_eq_ok] at h
  obtain ⟨-, h⟩ := h
  obtain rfl := Except.ok.inj h
  intro hempty
  have := congrArg String.toList hempty
  simp at this

/-- A package is added at the end, under an ID and a selector that are new. -/
theorem collectPackage_ok
    (h : collectPackage repositoryRoot limits collected package = .ok collected') :
    collected.idToIndex[package.id]? = none ∧ ∃ facts : CargoPackageFactsV1,
      collected'.idToIndex = collected.idToIndex.insert package.id collected.packages.length ∧
        collected'.packages = collected.packages ++ [facts] ∧
        collected'.selectors = facts.selector :: collected.selectors ∧
        facts.selector ∉ collected.selectors ∧ facts.workspaceMember = false ∧
        facts.WellFormed := by
  unfold collectPackage at h
  simp only [bind_eq_ok, pure_eq_ok, ite_error_eq_ok] at h
  obtain ⟨_, -, _, ⟨hid, -⟩, _, -, _, -, _, -, selector, hselector, _, ⟨hnew, -⟩,
    ⟨manifestPath, counters⟩, -, _, -, ⟨targets, counters'⟩, -, counters'', -, rfl⟩ := h
  refine ⟨by simpa using hid, _, rfl, rfl, rfl, hnew, rfl, ?_, ?_⟩
  · exact packageSelector_ne_empty hselector
  · intro hlocal
    simp_all

structure Collected.Of (done : List RawPackage) (collected : Collected) : Prop where
  length : collected.packages.length = done.length
  index : ∀ {id : String} {i : Nat}, collected.idToIndex[id]? = some i ↔
    ∃ package : RawPackage, done[i]? = some package ∧ package.id = id
  selectors : collected.selectors.Perm (collected.packages.map (·.selector))
  distinct : (collected.packages.map (·.selector)).Nodup
  facts : ∀ facts ∈ collected.packages, facts.WellFormed ∧ facts.workspaceMember = false

theorem Collected.Of.next {done : List RawPackage} (h : collected.Of done)
    (hstep : collectPackage repositoryRoot limits collected package = .ok collected') :
    collected'.Of (done ++ [package]) := by
  obtain ⟨hnew, facts, hindex, hpackages, hselectors, hselector, hmember, hfacts⟩ :=
    collectPackage_ok hstep
  constructor
  · simp [hpackages, h.length]
  · intro id i
    simp only [hindex, ExtTreeMap.getElem?_insert, Std.compare_eq_iff_eq, getElem?_concat_eq_some,
      or_and_right, exists_or, and_assoc, exists_eq_left', exists_and_left, ← h.index, h.length]
    by_cases hid : package.id = id
    · subst hid
      simp [hnew, eq_comm]
    · simp [hid]
  · rw [hselectors, hpackages, List.map_append]
    exact (h.selectors.cons facts.selector).trans (List.perm_append_singleton _ _).symm
  · rw [hpackages, List.map_append, List.map_singleton, ← List.concat_eq_append, List.nodup_concat,
      ← h.selectors.mem_iff]
    exact ⟨hselector, h.distinct⟩
  · rw [hpackages]
    exact forall_mem_concat h.facts ⟨hfacts, hmember⟩

theorem collectPackages_of {packages : List RawPackage}
    (h : packages.foldlM (collectPackage repositoryRoot limits) { counters } = .ok collected) :
    collected.Of packages := by
  apply foldlM_ok_induction (fun done collected => collected.Of done) h
  · exact ⟨rfl, by simp, .nil, List.nodup_nil, by simp⟩
  · intro done package s s' _ hs hstep
    exact hs.next hstep

end Packages

/-! ### Members -/

section Members

structure Members.Of (idToIndex : ExtTreeMap String Nat) (base : List CargoPackageFactsV1)
    (done : List String) (members : Members) : Prop where
  length : members.packages.length = base.length
  packages : ∀ i, members.packages[i]? = base[i]?.map fun (facts : CargoPackageFactsV1) =>
    { facts with workspaceMember := decide (i ∈ members.workspaceMembers) }
  member : ∀ {i : Nat}, i ∈ members.workspaceMembers ↔ ∃ id ∈ done, idToIndex[id]? = some i
  manifest : ∀ i ∈ members.workspaceMembers,
    ∃ facts : CargoPackageFactsV1, base[i]? = some facts ∧ facts.manifestPath ≠ ""

theorem collectMember_ok {members members' : Members}
    (h : collectMember limits idToIndex members memberId = .ok members') :
    ∃ index facts, idToIndex[memberId]? = some index ∧ members.packages[index]? = some facts ∧
      facts.manifestPath ≠ "" ∧ members'.workspaceMembers = members.workspaceMembers ++ [index] ∧
      members'.packages = members.packages.modify index fun package =>
        { package with workspaceMember := true } := by
  unfold collectMember at h
  rw [bind_eq_ok] at h
  obtain ⟨_, -, h⟩ := h
  split at h
  · cases h
  · rename_i index hindex
    rw [ite_error_eq_ok, ite_error_eq_ok, pure_eq_ok] at h
    obtain ⟨-, hmanifest, rfl⟩ := h
    cases hfacts : members.packages[index]? with
    | none => simp [hfacts] at hmanifest
    | some facts =>
        refine ⟨index, facts, hindex, hfacts, ?_, rfl, rfl⟩
        simpa [hfacts] using hmanifest

theorem Members.Of.next {done : List String} {members members' : Members}
    (h : members.Of idToIndex base done)
    (hstep : collectMember limits idToIndex members memberId = .ok members') :
    members'.Of idToIndex base (done ++ [memberId]) := by
  obtain ⟨index, facts, hindex, hfacts, hmanifest, hmembers, hpackages⟩ := collectMember_ok hstep
  obtain ⟨original, horiginal, rfl⟩ : ∃ original, base[index]? = some original ∧
      { original with workspaceMember := decide (index ∈ members.workspaceMembers) } = facts := by
    rw [h.packages] at hfacts
    exact Option.map_eq_some_iff.mp hfacts
  constructor
  · rw [hpackages, List.length_modify, h.length]
  · intro i
    rw [hpackages, List.getElem?_modify, h.packages]
    by_cases hi : index = i
    · subst hi
      simp [horiginal, hmembers]
    · simp [hi, hmembers, Ne.symm hi]
  · intro i
    rw [hmembers, List.mem_append, List.mem_singleton, h.member, exists_mem_concat, hindex,
      Option.some.injEq, eq_comm]
  · rw [hmembers]
    exact forall_mem_concat h.manifest ⟨original, horiginal, hmanifest⟩

theorem collectMembers_of {ids : List String} {members : Members}
    (hbase : ∀ facts ∈ base, facts.workspaceMember = false)
    (h : ids.foldlM (collectMember limits idToIndex) { packages := base } = .ok members) :
    members.Of idToIndex base ids := by
  apply foldlM_ok_induction (fun done members => members.Of idToIndex base done) h
  · refine ⟨rfl, fun i => ?_, by simp, by simp⟩
    cases hfacts : base[i]? with
    | none => simp
    | some facts =>
        have hmember := hbase facts (List.mem_of_getElem? hfacts)
        obtain ⟨_, _, _, _, _, _⟩ := facts
        simp_all
  · intro done memberId s s' _ hs hstep
    exact hs.next hstep

end Members

/-! ### Resolved dependencies -/

section Resolve

/-- The package without its features, which the nodes set. -/
def CargoPackageFactsV1.plain (facts : CargoPackageFactsV1) : CargoPackageFactsV1 :=
  { facts with activatedFeatures := [] }

open CargoPackageFactsV1 (plain)

theorem resolvedDependency_ok {resolved resolved' : List Nat} {dependency : RawDependency}
    (h : resolvedDependency limits idToIndex (resolved, counters) dependency =
      .ok (resolved', counters')) :
    ∃ target, idToIndex[dependency.pkg]? = some target ∧ resolved' = resolved ++ [target] := by
  unfold resolvedDependency at h
  simp only [bind_eq_ok] at h
  obtain ⟨_, -, _, -, h⟩ := h
  split at h
  · cases h
  · rename_i target htarget
    simp only [bind_eq_ok, pure_eq_ok, Prod.mk.injEq] at h
    obtain ⟨_, -, _, -, _, -, _, -, rfl, -⟩ := h
    exact ⟨target, htarget, rfl⟩

/-- The packages that a node resolves. -/
theorem mem_resolvedDependencies {dependencies : List RawDependency} {resolved : List Nat}
    (h : dependencies.foldlM (resolvedDependency limits idToIndex) ([], counters) =
      .ok (resolved, counters')) {target : Nat} :
    target ∈ resolved ↔ ∃ dependency ∈ dependencies, idToIndex[dependency.pkg]? = some target := by
  apply foldlM_ok_induction (fun done (state : List Nat × Counters) => target ∈ state.1 ↔
    ∃ dependency ∈ done, idToIndex[dependency.pkg]? = some target) h
  · simp
  · intro done dependency s s' _ hs hstep
    obtain ⟨found, hfound, hresolved⟩ := resolvedDependency_ok hstep
    rw [hresolved, List.mem_append, List.mem_singleton, hs, exists_mem_concat, hfound,
      Option.some.injEq, eq_comm]

theorem resolveNode_ok {state state' : Resolved} {node : RawNode}
    (h : resolveNode limits idToIndex state node = .ok state') :
    ∃ source resolved, idToIndex[node.id]? = some source ∧
      (∀ target, target ∈ resolved ↔
        ∃ dependency ∈ node.deps, idToIndex[dependency.pkg]? = some target) ∧
      state'.packages.map plain = state.packages.map plain ∧
      state'.nodeDependencies = state.nodeDependencies.modify source fun dependencies =>
        sortDedup (· ≤ ·) (dependencies ++ resolved) := by
  unfold resolveNode at h
  rw [bind_eq_ok] at h
  obtain ⟨_, -, h⟩ := h
  split at h
  · cases h
  · rename_i source hsource
    simp only [bind_eq_ok, pure_eq_ok] at h
    obtain ⟨_, -, listed, -, ⟨resolved, counters⟩, hresolved, _, -, _, -, _, -, rfl⟩ := h
    refine ⟨source, resolved, hsource, fun target => mem_resolvedDependencies hresolved, ?_, rfl⟩
    apply List.ext_getElem?
    intro i
    simp only [List.getElem?_map, List.getElem?_modify, Option.map_eq_map, Option.map_map]
    congr 1
    funext facts
    by_cases hi : source = i <;> simp [hi, plain]

structure Resolved.Of (idToIndex : ExtTreeMap String Nat) (base : List CargoPackageFactsV1)
    (done : List RawNode) (state : Resolved) : Prop where
  packages : state.packages.map plain = base.map plain
  length : state.nodeDependencies.length = base.length
  dependency : ∀ {source target : Nat}, target ∈ state.nodeDependencies.getD source [] ↔
    ∃ node ∈ done, idToIndex[node.id]? = some source ∧
      ∃ dependency ∈ node.deps, idToIndex[dependency.pkg]? = some target

theorem Resolved.Of.next {done : List RawNode} {state state' : Resolved} {node : RawNode}
    (hrange : ∀ (id : String) (i : Nat), idToIndex[id]? = some i → i < base.length)
    (h : state.Of idToIndex base done)
    (hstep : resolveNode limits idToIndex state node = .ok state') :
    state'.Of idToIndex base (done ++ [node]) := by
  obtain ⟨source, resolved, hsource, hresolved, hpackages, hdependencies⟩ := resolveNode_ok hstep
  have hlt : source < state.nodeDependencies.length := by
    rw [h.length]
    exact hrange _ _ hsource
  constructor
  · rw [hpackages, h.packages]
  · rw [hdependencies, List.length_modify, h.length]
  · intro other target
    rw [exists_mem_concat, ← h.dependency, hsource, Option.some.injEq, ← hresolved, hdependencies,
      getD_modify _ _ hlt]
    by_cases hother : other = source
    · subst hother
      rw [if_pos rfl, mem_sortDedup, List.mem_append, and_iff_right rfl]
    · rw [if_neg hother, or_iff_left fun hnode => hother hnode.1.symm]

theorem resolveNodes_of {nodes : List RawNode} {state : Resolved}
    (hrange : ∀ (id : String) (i : Nat), idToIndex[id]? = some i → i < base.length)
    (h : nodes.foldlM (resolveNode limits idToIndex)
      { counters, packages := base, nodeDependencies := List.replicate base.length [] } =
        .ok state) : state.Of idToIndex base nodes := by
  apply foldlM_ok_induction (fun done state => state.Of idToIndex base done) h
  · refine ⟨rfl, by simp, ?_⟩
    intro source target
    simp only [notMem_getD_replicate_nil, List.not_mem_nil, false_and, exists_false]
  · intro done node s s' _ hs hstep
    exact hs.next hrange hstep

end Resolve

variable {nodeDependencies : List (List Nat)}

theorem reverseConsumers_eq :
    reverseConsumers nodeDependencies count =
      (pushAll (List.replicate count []) (nodeDependencies.zipIdx.flatMap fun pair =>
        pair.1.map fun target => (target, pair.2))).map (sortDedup (· ≤ ·)) := by
  unfold reverseConsumers pushAll
  simp only [List.foldl_flatMap, List.foldl_map]

/-- The consumers of a package are the packages that depend on it. -/
theorem mem_reverseConsumers {i j : Nat}
    (hrange : ∀ source target, target ∈ nodeDependencies.getD source [] → target < count) :
    j ∈ (reverseConsumers nodeDependencies count).getD i [] ↔ i ∈ nodeDependencies.getD j [] := by
  have hgetD : ∀ buckets : List (List Nat), j ∈ (buckets.map (sortDedup (· ≤ ·))).getD i [] ↔
      j ∈ buckets.getD i [] := by
    intro buckets
    simp only [List.getD_eq_getElem?_getD, List.getElem?_map]
    cases buckets[i]? with
    | none => simp
    | some bucket => simp
  rw [reverseConsumers_eq, hgetD, mem_getD_pushAll]
  simp only [notMem_getD_replicate_nil, false_or, List.length_replicate, List.mem_flatMap,
    List.mem_map, Prod.mk.injEq, Prod.exists, List.mem_zipIdx_iff_getElem?]
  constructor
  · rintro ⟨-, dependencies, source, hsource, target, htarget, rfl, rfl⟩
    rw [List.getD_eq_getElem?_getD, hsource]
    exact htarget
  · intro hmem
    refine ⟨hrange j i hmem, ?_⟩
    rw [List.getD_eq_getElem?_getD] at hmem
    cases hsource : nodeDependencies[j]? with
    | none => simp [hsource] at hmem
    | some dependencies =>
        rw [hsource] at hmem
        exact ⟨dependencies, j, hsource, i, hmem, rfl, rfl⟩

theorem length_reverseConsumers : (reverseConsumers nodeDependencies count).length = count := by
  rw [reverseConsumers_eq, List.length_map, length_pushAll, List.length_replicate]

/-! ### The graph -/

/-- The package at a position is a workspace member. -/
def RawMetadata.IsMember (metadata : RawMetadata) (i : Nat) : Prop :=
  ∃ package, metadata.packages[i]? = some package ∧ package.id ∈ metadata.workspaceMembers

/-- The second package consumes the first: its resolve node lists it in `deps`. -/
def RawMetadata.Consumes (metadata : RawMetadata) (i j : Nat) : Prop :=
  ∃ nodes, metadata.resolve = some nodes ∧ ∃ node ∈ nodes, ∃ dependency ∈ node.deps,
    (∃ package, metadata.packages[i]? = some package ∧ package.id = dependency.pkg) ∧
      ∃ package, metadata.packages[j]? = some package ∧ package.id = node.id

/-- The graph has the packages, the members and the edges of the metadata. -/
structure Represents (metadata : RawMetadata) (graph : CargoMetadataGraphV1) : Prop where
  length : graph.packages.length = metadata.packages.length
  member : ∀ {i : Nat}, i ∈ graph.workspaceMembers ↔ metadata.IsMember i
  members : graph.workspaceMembers ≠ []
  flag : ∀ {i : Nat} {facts : CargoPackageFactsV1}, graph.packages[i]? = some facts →
    (facts.workspaceMember = true ↔ metadata.IsMember i)
  manifest : ∀ {i : Nat} {facts : CargoPackageFactsV1}, graph.packages[i]? = some facts →
    facts.workspaceMember = true → facts.manifestPath ≠ ""
  facts : ∀ facts ∈ graph.packages, facts.WellFormed
  distinct : (graph.packages.map (·.selector)).Nodup
  consumer : ∀ {i j : Nat}, j ∈ graph.reverseConsumers.getD i [] ↔ metadata.Consumes i j
  consumers : graph.reverseConsumers.length = graph.packages.length

section Graph

open CargoPackageFactsV1 (plain)

variable {metadata : RawMetadata} {i j : Nat}

/-- The indices of the member IDs are the members. -/
theorem Collected.Of.isMember (h : collected.Of metadata.packages) :
    (∃ id ∈ metadata.workspaceMembers, collected.idToIndex[id]? = some i) ↔ metadata.IsMember i := by
  constructor
  · rintro ⟨id, hid, hi⟩
    obtain ⟨package, hpackage, rfl⟩ := h.index.mp hi
    exact ⟨package, hpackage, hid⟩
  · rintro ⟨package, hpackage, hid⟩
    exact ⟨package.id, hid, h.index.mpr ⟨package, hpackage, rfl⟩⟩

/-- The edges between the indices are those of the nodes. -/
theorem Collected.Of.consumes (h : collected.Of metadata.packages) {nodes : List RawNode}
    (hnodes : metadata.resolve = some nodes) :
    (∃ node ∈ nodes, collected.idToIndex[node.id]? = some j ∧
      ∃ dependency ∈ node.deps, collected.idToIndex[dependency.pkg]? = some i) ↔
        metadata.Consumes i j := by
  constructor
  · rintro ⟨node, hnode, hj, dependency, hdependency, hi⟩
    exact ⟨nodes, hnodes, node, hnode, dependency, hdependency, h.index.mp hi, h.index.mp hj⟩
  · rintro ⟨nodes', hnodes', node, hnode, dependency, hdependency, hi, hj⟩
    obtain rfl : nodes = nodes' := Option.some.inj (hnodes.symm.trans hnodes')
    exact ⟨node, hnode, h.index.mpr hj, dependency, hdependency, h.index.mpr hi⟩

/-- A package of the graph is one that was collected, with the flag of a member. -/
theorem Members.Of.plain_eq {ids : List String} {members : Members} {nodes : List RawNode}
    {resolved : Resolved} (h : members.Of idToIndex base ids)
    (hnode : resolved.Of idToIndex members.packages nodes) (i : Nat) :
    resolved.packages[i]?.map plain =
      base[i]?.map fun (facts : CargoPackageFactsV1) => plain
        { facts with workspaceMember := decide (i ∈ members.workspaceMembers) } := by
  rw [← List.getElem?_map, hnode.packages, List.getElem?_map, h.packages, Option.map_map]
  rfl

/-- **The normalizer represents what Cargo reports.** -/
theorem normalizeMetadata_represents {graph : CargoMetadataGraphV1}
    (h : normalizeMetadata metadata repositoryRoot limits = .ok graph) :
    Represents metadata graph := by
  unfold normalizeMetadata at h
  simp only [bind_eq_ok] at h
  obtain ⟨_, -, _, -, _, -, h⟩ := h
  cases hnodes : metadata.resolve with
  | none =>
      rw [hnodes] at h
      cases h
  | some nodes =>
      simp only [hnodes, bind_eq_ok, pure_eq_ok, ite_error_eq_ok] at h
      obtain ⟨_, -, ⟨workspaceRoot, counters⟩, -, collected, hcollected, _, -, members, hmembers, _,
        ⟨hsome, -⟩, resolved, hresolved, _, -, rfl⟩ := h
      have hpackages := collectPackages_of hcollected
      have hmember := collectMembers_of
        (fun facts hfacts => (hpackages.facts facts hfacts).2) hmembers
      have hrange : ∀ (id : String) (i : Nat), collected.idToIndex[id]? = some i →
          i < members.packages.length := by
        intro id i hi
        obtain ⟨package, hpackage, -⟩ := hpackages.index.mp hi
        rw [hmember.length, hpackages.length]
        exact (List.getElem?_eq_some_iff.mp hpackage).1
      have hnode := resolveNodes_of hrange hresolved
      have hlength : resolved.packages.length = members.packages.length := by
        simpa using congrArg List.length hnode.packages
      have hisMember (i : Nat) : i ∈ members.workspaceMembers ↔ metadata.IsMember i :=
        hmember.member.trans hpackages.isMember
      -- apart from its features, a package is the collected one with its flag
      have horiginal : ∀ {i : Nat} {facts : CargoPackageFactsV1},
          resolved.packages[i]? = some facts → ∃ original, collected.packages[i]? = some original ∧
            plain
              { original with workspaceMember := decide (i ∈ members.workspaceMembers) } =
            facts.plain := by
        intro i facts hfacts
        have hi := hmember.plain_eq hnode i
        rw [hfacts] at hi
        exact Option.map_eq_some_iff.mp hi.symm
      constructor
      case length => rw [hlength, hmember.length, hpackages.length]
      case member =>
        intro i
        rw [List.mem_insertionSort, hisMember]
      case members => simpa [← List.length_eq_zero_iff] using hsome
      case flag =>
        intro i facts hfacts
        obtain ⟨original, -, hplain⟩ := horiginal hfacts
        have hflag := congrArg (·.workspaceMember) hplain
        simp only [plain] at hflag
        rw [← hflag, decide_eq_true_iff, hisMember]
      case manifest =>
        intro i facts hfacts hflag
        obtain ⟨original, horiginal, hplain⟩ := horiginal hfacts
        have hmanifest := congrArg (·.manifestPath) hplain
        have hflag' := congrArg (·.workspaceMember) hplain
        simp only [plain] at hmanifest hflag'
        rw [hflag, decide_eq_true_iff] at hflag'
        obtain ⟨found, hfound, hne⟩ := hmember.manifest i hflag'
        rw [horiginal] at hfound
        obtain rfl := Option.some.inj hfound
        rwa [← hmanifest]
      case facts =>
        intro facts hfacts
        obtain ⟨i, hi⟩ := List.getElem?_of_mem hfacts
        obtain ⟨original, horiginal, hplain⟩ := horiginal hi
        have hselector := congrArg (·.selector) hplain
        have hmanifest := congrArg (·.manifestPath) hplain
        have hroot := congrArg (·.packageRoot) hplain
        simp only [plain] at hselector hmanifest hroot
        have hwell := (hpackages.facts original (List.mem_of_getElem? horiginal)).1
        exact ⟨hselector ▸ hwell.selector, by rw [← hmanifest, ← hroot]; exact hwell.root⟩
      case distinct =>
        have hselectors :
            resolved.packages.map (·.selector) = collected.packages.map (·.selector) := by
          apply List.ext_getElem?
          intro i
          have hselector := congrArg (Option.map CargoPackageFactsV1.selector)
            (hmember.plain_eq hnode i)
          rwa [Option.map_map, Option.map_map, ← List.getElem?_map, ← List.getElem?_map] at hselector
        rw [hselectors]
        exact hpackages.distinct
      case consumer =>
        intro i j
        rw [mem_reverseConsumers, hnode.dependency, hpackages.consumes hnodes]
        intro source target htarget
        obtain ⟨node, -, -, dependency, -, hi⟩ := hnode.dependency.mp htarget
        rw [hlength]
        exact hrange _ _ hi
      case consumers => exact length_reverseConsumers

end Graph

end Jig.Cargo

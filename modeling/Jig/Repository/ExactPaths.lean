import Jig.Lib.TreeMap
import Jig.Lib.Utf8
import Jig.Repository.Libraries

/-!
# Index queries for exact paths

`index_entries_for_paths` (`jig-repository`, `source_identity/exact_path.rs`) asks git for the index
entries of some paths. A literal pathspec also selects what lies below its path, and a query
excludes that. So that no requested path is excluded, `independent_exact_path_chunks` puts a path
and its ancestors into different queries.
-/

namespace Jig.Repository

open Lib

/-! ## The code -/

def maxGitLiteralPathsPerDiff : Nat := 512

def maxGitLiteralPathspecBytesPerDiff : Nat := 64 * 1024

variable (path : String)

def pathBytes : Bytes :=
  Utf8.encode path.toList

def isBelow (bytes : Bytes) : Bool :=
  (pathBytes path ++ [47]).isPrefixOf bytes

def pathIsAncestor (ancestor descendant : String) : Bool :=
  isBelow ancestor (pathBytes descendant)

def pathsOverlapByPrefix (left right : String) : Bool :=
  pathIsAncestor left right || pathIsAncestor right left

/-- The additions saturate in the source, far above the limit that the sums are compared with. -/
def exactPathspecBytes : Nat :=
  (pathBytes ":(top,literal)").length + (pathBytes path).length + 1 +
    (pathBytes ":(exclude,top,literal)").length + (pathBytes path).length + 2

def joins (chunk : List String) : Bool :=
  chunk.length < maxGitLiteralPathsPerDiff &&
    (chunk.map exactPathspecBytes).sum + exactPathspecBytes path ≤
      maxGitLiteralPathspecBytesPerDiff &&
    chunk.all fun existing => !pathsOverlapByPrefix existing path

/-- A path joins the first chunk it may join, or starts a new one. -/
def place : List (List String) → String → List (List String)
  | [], path => [[path]]
  | chunk :: chunks, path =>
      if joins path chunk then (chunk ++ [path]) :: chunks else chunk :: place chunks path

def independentExactPathChunks (paths : List String) : List (List String) :=
  paths.foldl place []

structure IndexStageEntry where
  mode : String
  oid : String
  stage : String
  path : Bytes

/-- The index, and for which arguments git or the reading of its output fails. -/
structure Git where
  index : List IndexStageEntry
  failure : List String → Option Failure

variable (git : Git)

/-- `git ls-files` for paths, without what lies below excluded ones: a literal pathspec selects its
path and what lies below it. -/
def Git.lsFiles (paths excluded : List String) : Result (List IndexStageEntry) :=
  match git.failure (["--no-replace-objects", "ls-files", "--stage", "-z", "--"] ++
      paths.map (":(top,literal)" ++ ·) ++ excluded.map (":(exclude,top,literal)" ++ · ++ "/")) with
  | some failure => .error failure
  | none => .ok (git.index.filter fun entry =>
      paths.any (fun path => entry.path == pathBytes path || isBelow path entry.path) &&
        !excluded.any (isBelow · entry.path))

abbrev EntriesByPath := Std.ExtTreeMap String (List IndexStageEntry)

/-- The body of the loop over the entries of a query. -/
def addEntry (requested : List String) (byPath : EntriesByPath) (entry : IndexStageEntry) :
    Result EntriesByPath :=
  match Utf8.decode? entry.path with
  | none => .error (.bail "exact index path was not UTF-8")
  | some chars =>
      let path := String.ofList chars
      if path ∉ requested then
        .error (.bail s!"git ls-files exact-path query returned unrequested path `{path}`")
      else
        .ok (updateEntry byPath path [] (· ++ [entry]))

/-- The body of the loop over the chunks. -/
def queryChunk (byPath : EntriesByPath) (chunk : List String) :
    Result EntriesByPath := do
  let entries ← git.lsFiles chunk chunk
  entries.foldlM (addEntry chunk) byPath

def indexEntriesForPaths (paths : List String) : Result EntriesByPath :=
  (independentExactPathChunks paths).foldlM (queryChunk git) ∅

/-! ## Chunks -/

/-- A chunk whose paths can be asked for in one query. -/
structure Independent (chunk : List String) : Prop where
  nonempty : chunk ≠ []
  limits : 1 < chunk.length → chunk.length ≤ maxGitLiteralPathsPerDiff ∧
    (chunk.map exactPathspecBytes).sum ≤ maxGitLiteralPathspecBytesPerDiff
  apart : ∀ a ∈ chunk, ∀ b ∈ chunk, pathIsAncestor a b = false

variable {path} {chunk paths : List String}

theorem isBelow_self (path : String) : isBelow path (pathBytes path) = false := by
  rw [isBelow, ← Bool.not_eq_true, List.isPrefixOf_iff_prefix]
  intro h
  simpa using h.length_le

theorem independent_singleton (path : String) : Independent [path] where
  nonempty := by simp
  limits := by simp
  apart := by simp [pathIsAncestor, isBelow_self]

theorem Independent.concat (h : Independent chunk) (hjoins : joins path chunk = true) :
    Independent (chunk ++ [path]) := by
  simp only [joins, pathsOverlapByPrefix, Bool.and_eq_true, decide_eq_true_eq, List.all_eq_true,
    Bool.not_eq_true', Bool.or_eq_false_iff] at hjoins
  obtain ⟨⟨hcount, hbytes⟩, hapart⟩ := hjoins
  refine ⟨by simp, fun _ => ⟨by simpa [Nat.succ_le_iff] using hcount, by simpa using hbytes⟩, ?_⟩
  refine forall_mem_concat (fun a ha => forall_mem_concat (h.apart a ha) (hapart a ha).1) ?_
  exact forall_mem_concat (fun b hb => (hapart b hb).2) (isBelow_self path)

theorem place_spec {chunks : List (List String)} (h : ∀ chunk ∈ chunks, Independent chunk)
    (path : String) : (∀ chunk ∈ place chunks path, Independent chunk) ∧
      (place chunks path).flatten.Perm (chunks.flatten ++ [path]) := by
  induction chunks with
  | nil => exact ⟨List.forall_mem_singleton.mpr (independent_singleton path), .refl _⟩
  | cons chunk chunks ih =>
      rw [List.forall_mem_cons] at h
      unfold place
      split
      · next hjoins =>
          refine ⟨List.forall_mem_cons.mpr ⟨h.1.concat hjoins, h.2⟩, ?_⟩
          simp only [List.flatten_cons, List.append_assoc]
          exact List.perm_append_comm.append_left chunk
      · obtain ⟨hall, hperm⟩ := ih h.2
        refine ⟨List.forall_mem_cons.mpr ⟨h.1, hall⟩, ?_⟩
        simpa using hperm.append_left chunk

theorem independentExactPathChunks_spec (paths : List String) :
    (∀ chunk ∈ independentExactPathChunks paths, Independent chunk) ∧
      (independentExactPathChunks paths).flatten.Perm paths := by
  unfold independentExactPathChunks
  induction paths using List.reverseRecOn with
  | nil => simp
  | append_singleton paths path ih =>
      rw [List.foldl_concat]
      obtain ⟨hall, hperm⟩ := place_spec ih.1 path
      exact ⟨hall, hperm.trans (ih.2.append_right [path])⟩

/-! ## Queries -/

/-- The entry is in the index, for the path, which is one of those. -/
def Requested (paths : List String) (path : String) (entry : IndexStageEntry) : Prop :=
  path ∈ paths ∧ entry ∈ git.index ∧ entry.path = pathBytes path

/-- The entries that one of the paths asks for, as they stand in the index. -/
def Git.entriesOf (paths : List String) (path : String) : List IndexStageEntry :=
  if path ∈ paths then git.index.filter (·.path = pathBytes path) else []

variable {git : Git}

theorem mem_entriesOf {entry : IndexStageEntry} :
    entry ∈ git.entriesOf paths path ↔ Requested git paths path entry := by
  unfold Git.entriesOf Requested
  split_ifs with hpath <;> simp [hpath]

/-- **One query** selects the entries of the paths of its chunk. -/
theorem Independent.lsFiles_eq {entries : List IndexStageEntry} (h : Independent chunk)
    (hfiles : git.lsFiles chunk chunk = .ok entries) :
    entries = git.index.filter fun entry => ∃ path ∈ chunk, entry.path = pathBytes path := by
  unfold Git.lsFiles at hfiles
  split at hfiles
  · cases hfiles
  · obtain rfl := Except.ok.inj hfiles
    refine List.filter_congr fun entry _ => ?_
    rw [Bool.eq_iff_iff]
    simp only [Bool.and_eq_true, List.any_eq_true, Bool.or_eq_true, beq_iff_eq,
      Bool.not_eq_true', List.any_eq_false, Bool.not_eq_true, decide_eq_true_eq]
    constructor
    · rintro ⟨⟨path, hpath, heq | hbelow⟩, hnone⟩
      · exact ⟨path, hpath, heq⟩
      · exact absurd hbelow (by simp [hnone path hpath])
    · rintro ⟨path, hpath, heq⟩
      refine ⟨⟨path, hpath, .inl heq⟩, fun ancestor hancestor => ?_⟩
      rw [heq]
      exact h.apart ancestor hancestor path hpath

/-- An entry is added to those of its own path. -/
theorem addEntry_ensures {entry : IndexStageEntry} {fails : Failure → Prop}
    (hpath : ∃ path ∈ chunk, entry.path = pathBytes path) (byPath : EntriesByPath) :
    Ensures (addEntry chunk byPath entry) (fun byPath' => ∀ path' : String, byPath'[path']?.getD [] =
      byPath[path']?.getD [] ++ [entry].filter (·.path = pathBytes path')) fails := by
  obtain ⟨path, hpath, hentry⟩ := hpath
  have hadd : addEntry chunk byPath entry = .ok (updateEntry byPath path [] (· ++ [entry])) := by
    unfold addEntry
    rw [hentry, pathBytes, Utf8.decode?_encode]
    simp [hpath]
  rw [hadd]
  intro path'
  rw [getElem?_updateEntry]
  by_cases heq : path = path'
  · subst heq
    simp [hentry]
  · have hbytes : pathBytes path ≠ pathBytes path' := fun h => heq (Utf8.encode_toList_injective h)
    simp [heq, hentry, hbytes]

/-- A query adds the entries of its chunk, unless git fails. -/
theorem queryChunk_ensures {fails : Failure → Prop} (h : Independent chunk)
    (hfails : ∀ failure, git.lsFiles chunk chunk = .error failure → fails failure)
    (byPath : EntriesByPath) :
    Ensures (queryChunk git byPath chunk) (fun byPath' => ∀ path : String, byPath'[path]?.getD [] =
      byPath[path]?.getD [] ++ git.entriesOf chunk path) fails := by
  unfold queryChunk
  cases hfiles : git.lsFiles chunk chunk with
  | error failure => exact hfails failure hfiles
  | ok entries =>
      have hentries := h.lsFiles_eq hfiles
      have hpaths : ∀ entry ∈ entries, ∃ path ∈ chunk, entry.path = pathBytes path := by
        simp [hentries]
      refine (Ensures.foldlM_append
        (fun entry hentry => addEntry_ensures (hpaths entry hentry)) byPath).mono
        fun byPath' h' path => ?_
      rw [h', hentries, ← List.filter_flatMap, List.flatMap_singleton', List.filter_filter]
      refine congrArg _ ?_
      -- the path of an entry is one of the chunk only if it is the path asked for
      unfold Git.entriesOf
      split_ifs with hpath
      · refine List.filter_congr fun entry _ => ?_
        by_cases heq : entry.path = pathBytes path
        · simpa [heq] using ⟨path, hpath, rfl⟩
        · simp [heq]
      · rw [List.filter_eq_nil_iff]
        intro entry _
        simp only [Bool.and_eq_true, decide_eq_true_eq]
        rintro ⟨heq, other, hother, hsame⟩
        exact hpath (Utf8.encode_toList_injective (hsame.symm.trans heq) ▸ hother)

/-- No path is asked for in two queries. -/
theorem flatMap_entriesOf {chunks : List (List String)} (h : chunks.flatten.Nodup) (path : String) :
    chunks.flatMap (git.entriesOf · path) = git.entriesOf chunks.flatten path := by
  induction chunks with
  | nil => rfl
  | cons chunk chunks ih =>
      rw [List.flatten_cons, List.nodup_append'] at h
      rw [List.flatMap_cons, ih h.2.1, List.flatten_cons]
      unfold Git.entriesOf
      by_cases hpath : path ∈ chunk
      · have hrest : path ∉ chunks.flatten := h.2.2 hpath
        simp only [hpath, hrest, List.mem_append, true_or, if_true, if_false, List.append_nil]
      · simp [hpath]

/-- **Exact queries.** The chunks partition the paths, respect the limits where they hold several
paths, and hold no path with one of its ancestors. The queries stop only where git fails, and
otherwise what they return are the index entries of the requested paths, in the order of the index
and each once when no path is requested twice. -/
theorem exact_path_queries (git : Git) (paths : List String) :
    (independentExactPathChunks paths).flatten.Perm paths ∧
    (∀ chunk ∈ independentExactPathChunks paths, Independent chunk) ∧
    (∀ failure, indexEntriesForPaths git paths = .error failure →
      ∃ chunk ∈ independentExactPathChunks paths, git.lsFiles chunk chunk = .error failure) ∧
    ∀ byPath, indexEntriesForPaths git paths = .ok byPath → ∀ path,
      (∀ entry, entry ∈ byPath[path]?.getD [] ↔ Requested git paths path entry) ∧
      (paths.Nodup → byPath[path]?.getD [] =
        git.index.filter fun entry => path ∈ paths ∧ entry.path = pathBytes path) := by
  obtain ⟨hall, hperm⟩ := independentExactPathChunks_spec paths
  have hqueries : Ensures (indexEntriesForPaths git paths) _ fun failure =>
      ∃ chunk ∈ independentExactPathChunks paths, git.lsFiles chunk chunk = .error failure :=
    .foldlM_append (fun chunk hchunk =>
      queryChunk_ensures (hall chunk hchunk) fun failure h => ⟨chunk, hchunk, h⟩) ∅
  refine ⟨hperm, hall, fun failure => hqueries.of_eq_error, fun byPath hok path => ?_⟩
  have hlisted := hqueries.of_eq_ok hok path
  rw [Std.ExtTreeMap.getElem?_empty, Option.getD_none, List.nil_append] at hlisted
  rw [hlisted]
  constructor
  · intro entry
    simp only [List.mem_flatMap, mem_entriesOf, Requested, ← hperm.mem_iff, List.mem_flatten,
      ← and_assoc, exists_and_right]
  · intro hnodup
    rw [flatMap_entriesOf (hperm.nodup_iff.mpr hnodup)]
    unfold Git.entriesOf
    split_ifs with hpath
    · simp [← hperm.mem_iff, hpath]
    · simp [← hperm.mem_iff, hpath]

end Jig.Repository

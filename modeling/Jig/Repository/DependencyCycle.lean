import Jig.Repository.CatalogValid

/-!
# The search for a dependency cycle

`validate_acyclic_dependencies` once more, with both of its loops and each of its `expect` calls
written out. A loop that runs out of rounds gives `none`, so that a result is also a proof that the
loop ends.

`validateRounds_eq` says that with one round more than there are records the loops return what
`validateAcyclicDependencies` computes, and `acyclic_validation_exact` what that is: success for an
acyclic graph, and otherwise a report that names a cycle.
-/

namespace Jig.Repository

open Jig.Lib Std

variable {K V : Type} [Ord K] [TransOrd K]

/-! ## The loops -/

section Loops

variable [DecidableEq K] [ToString K] (kind : String) (records : ExtTreeMap K V)
  (dependencies : V → List K)

/-- `records.get(id).expect(..)`. -/
def stableRecord (id : K) : Result V :=
  expect records[id]? "dependency validation records must remain stable"

def readyRecords (completed remaining : List K) : Result (List K) :=
  remaining.foldlM (fun ready id => do
    let record ← stableRecord records id
    return if (dependencies record).all (· ∈ completed) then ready ++ [id] else ready) []

def followingRecord (remaining : List K) (current : K) : Result K := do
  let record ← stableRecord records current
  expect ((dependencies record).find? (· ∈ remaining))
    "unresolved dependency records must point within the remaining graph"

/-- The inner loop, with the position of each key on the path. -/
def cycleRounds (remaining : List K) : Nat → List K → ExtTreeMap K Nat → K →
    Option (Result (List K))
  | 0, _, _, _ => none
  | rounds + 1, path, positions, current =>
      match positions[current]? with
      | some start => some (.ok (path.drop start ++ [current]))
      | none =>
          match followingRecord records dependencies remaining current with
          | .error failure => some (.error failure)
          | .ok following =>
              cycleRounds remaining rounds (path ++ [current])
                (positions.insert current path.length) following

def cycleReport (cycle : List K) : Failure :=
  .bail (s!"{kind} dependency cycle: " ++ Text.join " -> " (cycle.map toString))

/-- What follows when no record is ready. -/
def reportRounds (rounds : Nat) (remaining : List K) : Option (Result Unit) :=
  match expect remaining.head? "non-empty dependency graph must have a first record" with
  | .error failure => some (.error failure)
  | .ok first =>
      (cycleRounds records dependencies remaining rounds [] ∅ first).map fun cycle => do
        .error (cycleReport kind (← cycle))

/-- The outer loop. -/
def validateRounds : Nat → List K → List K → Option (Result Unit)
  | 0, _, _ => none
  | rounds + 1, completed, remaining =>
      if remaining.isEmpty then
        some (.ok ())
      else
        match readyRecords records dependencies completed remaining with
        | .error failure => some (.error failure)
        | .ok ready =>
            if ready.isEmpty then
              reportRounds kind records dependencies (rounds + 1) remaining
            else
              validateRounds rounds (completed ++ ready) (remaining.filter (· ∉ ready))

end Loops

/-! ## Cycles -/

section Cycles

variable (records : ExtTreeMap K V) (dependencies : V → List K)

def DependencyEdge (k d : K) : Prop :=
  ∃ v, records[k]? = some v ∧ d ∈ dependencies v

/-- No key depends on itself, directly or through others. -/
def AcyclicDependencies : Prop :=
  ∀ k, ¬Relation.TransGen (DependencyEdge records dependencies) k k

def DefinedDependencies : Prop :=
  ∀ {k d : K}, DependencyEdge records dependencies k d → d ∈ records

/-- A chain of edges from a key back to it, on which nothing else repeats. -/
structure GenuineCycle (cycle : List K) : Prop where
  edges : cycle.IsChain (DependencyEdge records dependencies)
  closed : ∃ first between, cycle = first :: between ++ [first] ∧ (first :: between).Nodup

variable {records dependencies}

theorem mem_dependenciesOf_iff_edge {k d : K} :
    d ∈ dependenciesOf records dependencies k ↔ DependencyEdge records dependencies k d :=
  mem_dependenciesOf

theorem GenuineCycle.not_acyclic {cycle : List K} (h : GenuineCycle records dependencies cycle) :
    ¬AcyclicDependencies records dependencies := by
  obtain ⟨hedges, first, between, rfl, -⟩ := h
  intro hacyclic
  apply hacyclic first
  -- the first edge, and the rest of the chain back
  cases hrest : between ++ [first] with
  | nil => simp at hrest
  | cons second rest =>
      rw [List.cons_append, hrest, List.isChain_cons_cons] at hedges
      refine .head' hedges.1 (List.relationReflTransGen_of_exists_isChain_cons rest hedges.2 ?_)
      simp [← hrest]

/-- A rank that every dependency decreases leaves no cycle. -/
theorem acyclicDependencies_of_rank {rank : K → Nat}
    (hrank : ∀ {k : K} {v : V}, records[k]? = some v → ∀ d ∈ dependencies v, rank d < rank k) :
    AcyclicDependencies records dependencies := by
  intro k hpath
  have hlt : Relation.TransGen (· > ·) (rank k) (rank k) :=
    Relation.TransGen.lift rank (fun _ d ⟨_, hget, hd⟩ => hrank hget d hd) k k hpath
  rw [Relation.transGen_eq_self] at hlt
  exact Nat.lt_irrefl _ hlt

end Cycles

/-! ## The walk through what remains -/

section Walk

variable {records : ExtTreeMap K V} {dependencies : V → List K} {remaining path : List K}
  {positions : ExtTreeMap K Nat} {current : K}

theorem stableRecord_eq {id : K} {v : V} (h : records[id]? = some v) :
    stableRecord records id = .ok v :=
  expect_eq_ok.mpr h

variable [DecidableEq K]

/-- A record that waits for one that remains is followed by such a record. -/
theorem followingRecord_of_edge
    (hedge : ∃ d ∈ remaining, DependencyEdge records dependencies current d) :
    ∃ following ∈ remaining, DependencyEdge records dependencies current following ∧
      followingRecord records dependencies remaining current = .ok following ∧
      (dependenciesOf records dependencies current).find? (· ∈ remaining) = some following := by
  obtain ⟨d, hd, v, hget, hmem⟩ := hedge
  cases hfind : (dependencies v).find? (· ∈ remaining) with
  | none =>
      rw [List.find?_eq_none] at hfind
      exact absurd (decide_eq_true hd) (hfind d hmem)
  | some following =>
      have hfollowing : following ∈ remaining := by simpa using List.find?_some hfind
      refine ⟨following, hfollowing, ⟨v, hget, List.mem_of_find?_eq_some hfind⟩, ?_, ?_⟩
      · unfold followingRecord
        rw [stableRecord_eq hget]
        exact expect_eq_ok.mpr hfind
      · rw [dependenciesOf_eq hget, hfind]

variable (records dependencies remaining) in
/-- What holds of the path before each round of the inner loop. -/
structure WalkInvariant (path : List K) (positions : ExtTreeMap K Nat) (current : K) : Prop where
  positions : ∀ k : K, positions[k]? = path.idxOf? k
  nodup : path.Nodup
  remains : ∀ k ∈ path ++ [current], k ∈ remaining
  edges : (path ++ [current]).IsChain (DependencyEdge records dependencies)

variable (h : WalkInvariant records dependencies remaining path positions current)

include h

/-- A key that comes up again closes a cycle. -/
theorem WalkInvariant.genuine {start : Nat} (hstart : path.idxOf? current = some start) :
    GenuineCycle records dependencies (path.drop start ++ [current]) := by
  obtain ⟨hlt, hget, -⟩ := List.idxOf?_eq_some_iff.mp hstart
  have hdrop : path.drop start = current :: path.drop (start + 1) := by
    rw [List.drop_eq_getElem_cons hlt, hget]
  constructor
  · rw [← List.drop_append_of_le_length hlt.le]
    exact h.edges.drop start
  · refine ⟨current, path.drop (start + 1), by rw [hdrop], ?_⟩
    rw [← hdrop]
    exact h.nodup.sublist (List.drop_sublist start path)

variable [LawfulEqOrd K]

theorem WalkInvariant.next
    (hnew : current ∉ path) {following : K} (hremains : following ∈ remaining)
    (hedge : DependencyEdge records dependencies current following) :
    WalkInvariant records dependencies remaining (path ++ [current])
      (positions.insert current path.length) following where
  positions k := by
    have hconcat : (path ++ [current]).idxOf? k =
        (path.idxOf? k).or (([current].idxOf? k).map (· + path.length)) :=
      List.findIdx?_append
    rw [getElem?_insert_eq, h.positions k, hconcat, List.idxOf?_singleton]
    by_cases heq : current = k
    · subst heq
      simp [List.idxOf?_eq_none_iff.mpr hnew]
    · simp [heq]
  nodup := by
    rw [List.nodup_append_comm, List.singleton_append, List.nodup_cons]
    exact ⟨hnew, h.nodup⟩
  remains := forall_mem_concat h.remains hremains
  edges := by
    rw [List.append_assoc, List.singleton_append, List.isChain_append_cons_cons]
    exact ⟨h.edges, hedge, List.isChain_singleton _⟩

/-- **The inner loop ends** with a cycle, as soon as there are more rounds than keys that are not on
the path. -/
theorem cycleRounds_genuine
    (hwaits : ∀ k ∈ remaining, ∃ d ∈ remaining, DependencyEdge records dependencies k d)
    (enough : Nat)
    (henough : remaining.length < path.length + enough) :
    ∃ cycle, GenuineCycle records dependencies cycle ∧ ∀ rounds, enough ≤ rounds →
      cycleRounds records dependencies remaining rounds path positions current = some (.ok cycle) ∧
      cycleFrom (fun id => (dependenciesOf records dependencies id).find? (· ∈ remaining)) rounds path
        current = .ok cycle := by
  -- on the keys that are left: a path without repetitions fits into them
  induction enough generalizing path positions current with
  | zero =>
      have := (h.nodup.subperm fun k hk => h.remains k (List.mem_append_left _ hk)).length_le
      omega
  | succ enough ih =>
      cases hstart : path.idxOf? current with
      | some start =>
          refine ⟨_, h.genuine hstart, ?_⟩
          intro rounds hrounds
          obtain ⟨rounds, rfl⟩ := Nat.exists_eq_add_of_le'
            (Nat.lt_of_lt_of_le enough.succ_pos hrounds)
          unfold cycleRounds cycleFrom
          rw [h.positions current, hstart]
          exact ⟨rfl, rfl⟩
      | none =>
          have hnew : current ∉ path := List.idxOf?_eq_none_iff.mp hstart
          have hremains : current ∈ remaining :=
            h.remains current (List.mem_append_right _ List.mem_cons_self)
          obtain ⟨following, hfollowing, hedge, hnext, hfind⟩ :=
            followingRecord_of_edge (hwaits current hremains)
          have hgrows : remaining.length < (path ++ [current]).length + enough := by
            rw [List.length_append, List.length_singleton]
            omega
          obtain ⟨cycle, hcycle, hends⟩ := ih (h.next hnew hfollowing hedge) hgrows
          refine ⟨cycle, hcycle, ?_⟩
          intro rounds hrounds
          obtain ⟨rounds, rfl⟩ := Nat.exists_eq_add_of_le'
            (Nat.lt_of_lt_of_le enough.succ_pos hrounds)
          unfold cycleRounds cycleFrom
          rw [h.positions current, hstart, hnext, hfind]
          exact hends rounds (by omega)

end Walk

/-! ## The whole function -/

section Whole

variable [DecidableEq K] {records : ExtTreeMap K V} {dependencies : V → List K}

/-- While every remaining key has a record, the loop body finds the records that are ready. -/
theorem readyRecords_eq {completed remaining : List K} (hrecorded : ∀ id ∈ remaining, id ∈ records) :
    readyRecords records dependencies completed remaining =
      .ok (ready (dependenciesOf records dependencies) completed remaining) := by
  have hfold (found : List K) : remaining.foldlM (fun ready id => do
      let record ← stableRecord records id
      return if (dependencies record).all (· ∈ completed) then ready ++ [id] else ready) found =
        .ok (found ++ ready (dependenciesOf records dependencies) completed remaining) := by
    induction remaining generalizing found with
    | nil => simp [ready, pure, Except.pure]
    | cons id remaining ih =>
        rw [List.forall_mem_cons] at hrecorded
        obtain ⟨v, hget⟩ := exists_getElem?_of_mem hrecorded.1
        rw [List.foldlM_cons, stableRecord_eq hget]
        refine (ih hrecorded.2 _).trans ?_
        unfold ready
        rw [List.filter_cons, dependenciesOf_eq hget]
        split <;> simp
  simpa [readyRecords] using hfold []

variable [ToString K]

variable (dependencies) in
/-- The outer loop and the loop that peels layers go together. -/
theorem validateRounds_peel (kind : String) {rounds : Nat} (completed : List K) {remaining : List K}
    (hrecorded : ∀ id ∈ remaining, id ∈ records) (hrounds : remaining.length ≤ rounds) :
    match peelWithin (dependenciesOf records dependencies) rounds completed remaining with
    | .ok _ =>
        validateRounds kind records dependencies (rounds + 1) completed remaining = some (.ok ())
    | .error stuck => ∃ n, stuck.length < n ∧
        validateRounds kind records dependencies (rounds + 1) completed remaining =
          reportRounds kind records dependencies n stuck := by
  induction rounds generalizing completed remaining with
  | zero =>
      obtain rfl : remaining = [] := List.eq_nil_of_length_eq_zero (Nat.le_zero.mp hrounds)
      rfl
  | succ rounds ih =>
      unfold peelWithin validateRounds
      rw [readyRecords_eq hrecorded]
      by_cases hempty : remaining.isEmpty
      · simp [hempty]
      · simp only [hempty, Bool.false_eq_true, if_false]
        by_cases hlayer : (ready (dependenciesOf records dependencies) completed remaining).isEmpty
        · simp only [hlayer, if_true]
          exact ⟨rounds + 1 + 1, by omega, rfl⟩
        · simp only [hlayer, Bool.false_eq_true, if_false]
          have hlt := length_rest_lt (fun a ha => (mem_ready.mp ha).1)
            (by simpa [List.isEmpty_iff] using hlayer)
          have hleft : ∀ id ∈ remaining.filter
              (· ∉ ready (dependenciesOf records dependencies) completed remaining), id ∈ records :=
            fun id hid => hrecorded id (List.mem_filter.mp hid).1
          specialize @ih (completed ++ ready (dependenciesOf records dependencies) completed remaining)
            _ hleft (by omega)
          cases hpeel : peelWithin (dependenciesOf records dependencies) rounds
              (completed ++ ready (dependenciesOf records dependencies) completed remaining)
              (remaining.filter (· ∉ ready (dependenciesOf records dependencies) completed remaining)) with
          | ok layers =>
              rw [hpeel] at ih
              exact ih
          | error stuck =>
              rw [hpeel] at ih
              exact ih

variable [LawfulEqOrd K]

omit [ToString K] in
/-- What cannot be peeled waits for what cannot be peeled. -/
theorem stuck_waits (hdefined : DefinedDependencies records dependencies) {stuck : List K}
    (hpeel : peel (dependenciesOf records dependencies) records.keys = .error stuck) :
    stuck ≠ [] ∧ ∀ k ∈ stuck, ∃ d ∈ stuck, DependencyEdge records dependencies k d := by
  obtain ⟨hne, -, taken, -, hcover, hwaits⟩ := peelWithin_eq_error (Nat.le_refl _) hpeel
  refine ⟨hne, ?_⟩
  intro k hk
  obtain ⟨d, hd, htaken⟩ := hwaits k hk
  rw [mem_dependenciesOf_iff_edge] at hd
  have hkey : d ∈ records.keys := ExtTreeMap.mem_keys.mpr (hdefined hd)
  exact ⟨d, (hcover d hkey).resolve_left htaken, hd⟩

/-- **The two models agree.** With one round more than there are records the loops end, with the
result of `validateAcyclicDependencies`: an acyclic graph is accepted, and the report of any other
graph names a cycle. -/
theorem validateRounds_eq (kind : String) (hdefined : DefinedDependencies records dependencies) :
    validateRounds kind records dependencies (records.keys.length + 1) [] records.keys =
        some (validateAcyclicDependencies kind records dependencies) ∧
      ((validateAcyclicDependencies kind records dependencies = .ok () ∧
          AcyclicDependencies records dependencies) ∨
        ∃ cycle, GenuineCycle records dependencies cycle ∧
          validateAcyclicDependencies kind records dependencies =
            .error (cycleReport kind cycle)) := by
  have hrounds := validateRounds_peel dependencies kind []
    (fun id (hid : id ∈ records.keys) => ExtTreeMap.mem_keys.mp hid) (Nat.le_refl _)
  cases hpeel : peel (dependenciesOf records dependencies) records.keys with
  | ok layers =>
      rw [← peel, hpeel] at hrounds
      have haccepts : validateAcyclicDependencies kind records dependencies = .ok () := by
        unfold validateAcyclicDependencies
        rw [hpeel]
      obtain ⟨rank, hrank⟩ := validateAcyclicDependencies_ranked haccepts
      rw [haccepts]
      exact ⟨hrounds, .inl ⟨rfl, acyclicDependencies_of_rank hrank⟩⟩
  | error stuck =>
      rw [← peel, hpeel] at hrounds
      obtain ⟨n, hn, hrounds⟩ := hrounds
      obtain ⟨hne, hwaits⟩ := stuck_waits hdefined hpeel
      obtain ⟨first, rest, rfl⟩ := List.exists_cons_of_ne_nil hne
      have hstart : WalkInvariant records dependencies (first :: rest) [] ∅ first :=
        { positions := by simp
          nodup := List.nodup_nil
          remains := by simp
          edges := List.isChain_singleton first }
      obtain ⟨cycle, hcycle, hends⟩ :=
        cycleRounds_genuine hstart hwaits ((first :: rest).length + 1) (by simp)
      have hreports : validateAcyclicDependencies kind records dependencies =
          .error (cycleReport kind cycle) := by
        unfold validateAcyclicDependencies
        rw [hpeel]
        dsimp only
        rw [List.head?_cons, expect_eq_ok.mpr rfl]
        show (cycleFrom _ _ [] first >>= fun cycle => .error (cycleReport kind cycle)) = _
        rw [(hends _ (Nat.le_refl _)).2]
        rfl
      -- the two models count their rounds differently, and both have enough of them
      rw [hrounds, hreports]
      refine ⟨?_, .inr ⟨cycle, hcycle, rfl⟩⟩
      unfold reportRounds
      rw [List.head?_cons, expect_eq_ok.mpr rfl]
      dsimp only
      rw [(hends n hn).1]
      rfl

/-- **Exactness.** When every listed dependency has a record, the function ends, it accepts the
acyclic graphs and no other, and what it reports for any other graph is a cycle of it. -/
theorem acyclic_validation_exact (kind : String)
    (hdefined : DefinedDependencies records dependencies) :
    ∃ result, validateRounds kind records dependencies (records.keys.length + 1) [] records.keys =
        some result ∧
      (result = .ok () ↔ AcyclicDependencies records dependencies) ∧
      (result ≠ .ok () → ∃ cycle, GenuineCycle records dependencies cycle ∧
        result = .error (cycleReport kind cycle)) := by
  obtain ⟨hends, ⟨haccepts, hacyclic⟩ | ⟨cycle, hcycle, hreports⟩⟩ := validateRounds_eq kind hdefined
  · exact ⟨_, hends, by simp [haccepts, hacyclic], fun hne => absurd haccepts hne⟩
  · refine ⟨_, hends, ?_, fun _ => ⟨cycle, hcycle, hreports⟩⟩
    simp [hreports, hcycle.not_acyclic]

end Whole

namespace SampleDependencies

def records : ExtTreeMap Nat (List Nat) := .ofList [(0, [1]), (1, [3, 2]), (2, [1]), (3, [])]

theorem defined : DefinedDependencies records id := by
  rintro k d ⟨v, hget, hd⟩
  have h : records.toList.all (fun entry => entry.2.all records.contains) = true := by decide +kernel
  have hentry := List.all_eq_true.mp h (k, v)
    (ExtTreeMap.mem_toList_iff_getElem?_eq_some.mpr hget)
  exact ExtTreeMap.contains_iff_mem.mp (List.all_eq_true.mp hentry d hd)

theorem acyclic_validation_exact_of_cycle :
    validateRounds "action" records id (records.keys.length + 1) [] records.keys =
        some (.error (.bail "action dependency cycle: 1 -> 2 -> 1")) ∧
      ¬AcyclicDependencies records id := by
  have hends : validateRounds "action" records id (records.keys.length + 1) [] records.keys =
      some (.error (.bail "action dependency cycle: 1 -> 2 -> 1")) := by decide +kernel
  obtain ⟨result, hresult, hiff, -⟩ := acyclic_validation_exact "action" defined
  obtain rfl := Option.some.inj (hresult.symm.trans hends)
  exact ⟨hends, fun h => by cases hiff.mpr h⟩

end SampleDependencies

end Jig.Repository

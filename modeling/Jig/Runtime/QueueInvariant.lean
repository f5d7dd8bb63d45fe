import Jig.Runtime.ReadyQueue

/-!
# The invariant of the ready queue

What the five tables of a `ReadyQueue` mean while targets are dispatched and published in any order.

* `ReadyQueue.WellFormed` is the static part: dependencies point to earlier indices, and the
  `dependents` table is the transpose of the `depends_on` lists, with multiplicities.
* `Released` says once what publishing does to the tables; every later argument uses it and never
  unfolds the loop.
* `DispatchStep` is one step of a run of the queue, `DispatchInv` the invariant all runs keep.
-/

namespace Jig.Runtime

open Contract Lib State

/-! ## Reading the tables -/

def targetIds (targets : List PositionedTarget) : List TargetId :=
  targets.map (·.1.target)

/-- The indices that the `depends_on` entries of target `i` name, with repetitions. -/
def dependencyIndices (targets : List PositionedTarget) (i : Nat) : List Nat :=
  match targets[i]? with
  | some target => target.1.dependsOn.map (targetIds targets).idxOf
  | none => []

variable {q : ReadyQueue} {i : Nat} {conclusion : RunConclusion} (queue : ReadyQueue)

namespace ReadyQueue

def deps (i : Nat) : List Nat :=
  dependencyIndices queue.targets i

/-- `remaining_dependencies[i]`. -/
def remaining (i : Nat) : Nat :=
  queue.remainingDependencies.getD i 0

/-- `failed_dependency[i]`. -/
def failed (i : Nat) : Bool :=
  queue.failedDependency.getD i false

/-- `dependents[i]`. -/
def children (i : Nat) : List Nat :=
  queue.dependents.getD i []

/-- The static facts about a queue that no operation changes. -/
structure WellFormed (queue : ReadyQueue) : Prop where
  ids_nodup : (targetIds queue.targets).Nodup
  deps_lt : ∀ i, ∀ d ∈ queue.deps i, d < i
  dependents_length : queue.dependents.length = queue.targets.length
  failed_length : queue.failedDependency.length = queue.targets.length
  remaining_length : queue.remainingDependencies.length = queue.targets.length
  children_count : ∀ i j, (queue.children i).count j = (queue.deps j).count i

variable {queue}

theorem deps_eq_nil_of_le (h : queue.targets.length ≤ i) : queue.deps i = [] := by
  simp only [deps, dependencyIndices, List.getElem?_eq_none h]

theorem lt_length_of_mem_deps {d : Nat} (h : d ∈ queue.deps i) : i < queue.targets.length := by
  by_contra hlt
  rw [deps_eq_nil_of_le (Nat.le_of_not_lt hlt)] at h
  cases h

/-- What no operation changes stays well formed. -/
theorem WellFormed.congr {q' : ReadyQueue} (h : q.WellFormed) (htargets : q'.targets = q.targets)
    (hdependents : q'.dependents = q.dependents)
    (hfailed : q'.failedDependency.length = q.failedDependency.length)
    (hremaining : q'.remainingDependencies.length = q.remainingDependencies.length) :
    q'.WellFormed := by
  have hdeps : q'.deps = q.deps := by
    funext i
    rw [deps, htargets]
    rfl
  refine ⟨htargets ▸ h.ids_nodup, hdeps ▸ h.deps_lt, ?_, ?_, ?_, ?_⟩
  · rw [hdependents, htargets, h.dependents_length]
  · rw [hfailed, htargets, h.failed_length]
  · rw [hremaining, htargets, h.remaining_length]
  · intro i j
    rw [hdeps, children, hdependents]
    exact h.children_count i j

/-! ## What publishing does -/

/-- `q'` is `q` after the children in the list have been released for a parent that ended with
`conclusion`. -/
structure Released (conclusion : RunConclusion) (l : List Nat) (q q' : ReadyQueue) : Prop where
  targets : q'.targets = q.targets
  dependents : q'.dependents = q.dependents
  unfinished : q'.unfinished = q.unfinished
  failed_length : q'.failedDependency.length = q.failedDependency.length
  remaining_length : q'.remainingDependencies.length = q.remainingDependencies.length
  remaining : ∀ j, q'.remaining j + l.count j = q.remaining j
  failed : ∀ j, q'.failed j = true ↔ q.failed j = true ∨ (j ∈ l ∧ conclusion ≠ .success)
  ready : ∀ j, j ∈ q'.ready ↔ j ∈ q.ready ∨ (j ∈ l ∧ q'.remaining j = 0)

theorem Released.nil (q : ReadyQueue) : Released conclusion [] q q := by
  constructor <;> simp

/-- Releasing one child and then the others. A child that reaches zero is not released again, since
its count never goes below the releases still to come. -/
theorem Released.cons {a : Nat} {l : List Nat} {q₁ q₂ : ReadyQueue}
    (h₁ : Released conclusion [a] q q₁) (h₂ : Released conclusion l q₁ q₂) :
    Released conclusion (a :: l) q q₂ where
  targets := h₂.targets.trans h₁.targets
  dependents := h₂.dependents.trans h₁.dependents
  unfinished := h₂.unfinished.trans h₁.unfinished
  failed_length := h₂.failed_length.trans h₁.failed_length
  remaining_length := h₂.remaining_length.trans h₁.remaining_length
  remaining j := by
    have hhead := h₁.remaining j
    have htail := h₂.remaining j
    rw [List.count_cons]
    rw [List.count_singleton] at hhead
    omega
  failed j := by
    rw [h₂.failed, h₁.failed, List.mem_singleton, List.mem_cons]
    tauto
  ready j := by
    rw [h₂.ready, h₁.ready, List.mem_singleton, List.mem_cons]
    have htail := h₂.remaining j
    constructor
    · rintro ((h | ⟨rfl, hzero⟩) | ⟨hj, hzero⟩)
      · exact Or.inl h
      · exact Or.inr ⟨Or.inl rfl, by omega⟩
      · exact Or.inr ⟨Or.inr hj, hzero⟩
    · rintro (h | ⟨rfl | hj, hzero⟩)
      · exact Or.inl (Or.inl h)
      · by_cases hj : j ∈ l
        · exact Or.inr ⟨hj, hzero⟩
        · have hcount : l.count j = 0 := List.count_eq_zero.mpr hj
          exact Or.inl (Or.inr ⟨rfl, by omega⟩)
      · exact Or.inr ⟨hj, hzero⟩

theorem releaseChild_released (conclusion : RunConclusion) {j : Nat}
    (hfailed : j < q.failedDependency.length) (hpos : 0 < q.remaining j) :
    ∃ q', q.releaseChild conclusion j = .ok q' ∧ Released conclusion [j] q q' := by
  have hlt : j < q.remainingDependencies.length := by
    by_contra hout
    rw [ReadyQueue.remaining, List.getD_eq_default _ _ (Nat.le_of_not_lt hout)] at hpos
    exact absurd hpos (Nat.lt_irrefl 0)
  -- `j` has an edge left, so the decrement does not overflow
  obtain ⟨r, hself⟩ : ∃ r, q.remaining j = r + 1 := Nat.exists_eq_add_one.mpr hpos
  have hr : q.remainingDependencies[j]? = some (r + 1) := hself ▸ getElem?_eq_some_getD 0 hlt
  have hf : q.failedDependency[j]? = some (q.failed j) := getElem?_eq_some_getD false hfailed
  have hok : q.releaseChild conclusion j = .ok { q with
      failedDependency := q.failedDependency.set j (q.failed j || conclusion ≠ .success)
      remainingDependencies := q.remainingDependencies.set j r
      ready := if r = 0 then q.ready.insert j else q.ready } := by
    simp only [releaseChild, hf, hr]
  refine ⟨_, hok, ?_⟩
  have hremaining : ∀ k, (q.remainingDependencies.set j r).getD k 0 =
      if k = j then r else q.remaining k := by
    intro k
    rw [List.set_eq_modify, getD_modify _ _ hlt]
    rfl
  constructor
  case failed_length => simp only [List.length_set]
  case remaining_length => simp only [List.length_set]
  case remaining =>
    intro k
    show (q.remainingDependencies.set j r).getD k 0 + _ = _
    rw [hremaining, List.count_singleton]
    by_cases hk : k = j
    · simp only [hk, hself, beq_self_eq_true, if_true]
    · simp only [hk, Ne.symm hk, beq_iff_eq, if_false, Nat.add_zero]
  case failed =>
    intro k
    show (q.failedDependency.set j _).getD k false = true ↔ _
    rw [List.set_eq_modify, getD_modify _ _ hfailed, List.mem_singleton]
    by_cases hk : k = j
    · simp [hk]
    · simp [hk, ReadyQueue.failed]
  case ready =>
    intro k
    show k ∈ (if r = 0 then q.ready.insert j else q.ready) ↔
      k ∈ q.ready ∨ k ∈ [j] ∧ (q.remainingDependencies.set j r).getD k 0 = 0
    rw [hremaining, List.mem_singleton]
    by_cases hr0 : r = 0
    · have hzero (hk : k = j) : (if k = j then r else q.remaining k) = 0 := (if_pos hk).trans hr0
      rw [if_pos hr0, mem_treeSet_insert, or_comm, eq_comm, and_iff_left_of_imp hzero]
    · simp only [hr0, if_false]
      constructor
      · exact Or.inl
      · rintro (h | ⟨rfl, hzero⟩)
        · exact h
        · exact absurd (by simpa using hzero) hr0
  all_goals rfl

/-- The child loop succeeds when every count covers its releases. -/
theorem foldlM_releaseChild {l : List Nat} (hlt : ∀ j ∈ l, j < q.failedDependency.length)
    (hcount : ∀ j, l.count j ≤ q.remaining j) :
    ∃ q', l.foldlM (releaseChild conclusion) q = .ok q' ∧ Released conclusion l q q' := by
  induction l generalizing q with
  | nil => exact ⟨q, rfl, Released.nil q⟩
  | cons a l ih =>
      have hpos : 0 < q.remaining a := by
        have := hcount a
        rw [List.count_cons_self] at this
        omega
      obtain ⟨q₁, hq₁, hrel₁⟩ :=
        releaseChild_released conclusion (hlt a List.mem_cons_self) hpos
      have hcount₁ : ∀ j, l.count j ≤ q₁.remaining j := by
        intro j
        have hall := hcount j
        have hone := hrel₁.remaining j
        rw [List.count_cons] at hall
        rw [List.count_singleton] at hone
        omega
      have hlt₁ : ∀ j ∈ l, j < q₁.failedDependency.length := by
        intro j hj
        rw [hrel₁.failed_length]
        exact hlt j (List.mem_cons_of_mem a hj)
      obtain ⟨q₂, hq₂, hrel₂⟩ := ih hlt₁ hcount₁
      refine ⟨q₂, ?_, hrel₁.cons hrel₂⟩
      rw [List.foldlM_cons, hq₁]
      exact hq₂

/-- **Publication.** Publishing a target whose dependents still count it succeeds, and does to the
tables what `Released` says. -/
theorem publish_released (hwf : q.WellFormed) (hi : i < q.targets.length)
    (hunfinished : 0 < q.unfinished) (hcount : ∀ j, (q.deps j).count i ≤ q.remaining j) :
    ∃ q', q.publish i conclusion = .ok q' ∧
      Released conclusion (q.children i)
        { q with ready := q.ready.erase i, unfinished := q.unfinished - 1 } q' := by
  obtain ⟨u, hu⟩ : ∃ u, q.unfinished = u + 1 := ⟨q.unfinished - 1, by omega⟩
  have hchildren : q.dependents[i]? = some (q.children i) := by
    exact getElem?_eq_some_getD [] (hwf.dependents_length ▸ hi)
  have hpublish : q.publish i conclusion = (q.children i).foldlM (releaseChild conclusion)
      { q with ready := q.ready.erase i, unfinished := q.unfinished - 1 } := by
    simp only [publish, hchildren, hu, Nat.add_sub_cancel]
  rw [hpublish]
  apply foldlM_releaseChild
  · intro j hj
    have hdep : i ∈ q.deps j := by
      rw [← List.count_pos_iff, ← hwf.children_count, List.count_pos_iff]
      exact hj
    have hlt := lt_length_of_mem_deps hdep
    rw [← hwf.failed_length] at hlt
    exact hlt
  · intro j
    rw [hwf.children_count]
    exact hcount j

end ReadyQueue

/-! ## Runs of the queue -/

/-- A queue together with what has been taken from it and what has been published, in order. -/
structure DispatchState where
  queue : ReadyQueue
  dispatched : List Nat
  published : List (Nat × RunConclusion)

namespace DispatchState

def done (s : DispatchState) : List Nat :=
  s.published.map Prod.fst

/-- `queue.ready.remove(&index)` for a target that will be executed. -/
def take (s : DispatchState) (index : Nat) : DispatchState :=
  { s with queue := s.queue.dispatch index, dispatched := index :: s.dispatched }

def start (queue : ReadyQueue) : DispatchState :=
  ⟨queue, [], []⟩

end DispatchState

variable {s' s : DispatchState}

/-- The results that may be published. -/
abbrev Publishing := DispatchState → Nat → RunConclusion → Prop

/-- One step of a run of the queue: a ready target is taken, or a target that has become ready is
published for the first time. The two parameters restrict which targets are taken and which
conclusions are published; `AnyStep` restricts nothing. -/
inductive DispatchStep (taking : DispatchState → Nat → Prop) (publishing : Publishing) :
    DispatchState → DispatchState → Prop where
  | take {s : DispatchState} {i : Nat} (hready : i ∈ s.queue.ready) (htaking : taking s i) :
      DispatchStep taking publishing s (s.take i)
  | publish {s : DispatchState} {i : Nat} {conclusion : RunConclusion} {queue : ReadyQueue}
      (hentered : i ∈ s.queue.ready ∨ i ∈ s.dispatched) (hnew : i ∉ s.done)
      (hpublishing : publishing s i conclusion)
      (hpublish : s.queue.publish i conclusion = .ok queue) :
      DispatchStep taking publishing s
        { s with queue, published := s.published ++ [(i, conclusion)] }

abbrev AnyStep : DispatchState → DispatchState → Prop :=
  DispatchStep (fun _ _ => True) (fun _ _ _ => True)

/-- The invariant of every run. -/
structure DispatchInv (s : DispatchState) : Prop where
  wellFormed : s.queue.WellFormed
  done_nodup : s.done.Nodup
  done_lt : ∀ i ∈ s.done, i < s.queue.targets.length
  remaining : ∀ i, s.queue.remaining i = (s.queue.deps i).countP (· ∉ s.done)
  failed : ∀ i, s.queue.failed i = true ↔
    ∃ d ∈ s.queue.deps i, ∃ c, (d, c) ∈ s.published ∧ c ≠ .success
  ready : ∀ i, (i ∈ s.queue.ready ∨ (i ∈ s.dispatched ∧ i ∉ s.done)) ↔
    i < s.queue.targets.length ∧ i ∉ s.done ∧ ∀ d ∈ s.queue.deps i, d ∈ s.done
  ready_not_dispatched : ∀ i ∈ s.queue.ready, i ∉ s.dispatched
  done_closed : ∀ i ∈ s.done, ∀ d ∈ s.queue.deps i, d ∈ s.done
  dispatched_nodup : s.dispatched.Nodup
  dispatched_lt : ∀ i ∈ s.dispatched, i < s.queue.targets.length
  dispatched_closed : ∀ i ∈ s.dispatched, ∀ d ∈ s.queue.deps i, d ∈ s.done
  unfinished : s.queue.unfinished + s.done.length = s.queue.targets.length

/-! ### Every step keeps the invariant -/

namespace DispatchInv

theorem mem_done {d : Nat} : d ∈ s.done ↔ ∃ c, (d, c) ∈ s.published := by
  rw [DispatchState.done, List.mem_map]
  constructor
  · rintro ⟨⟨d', c⟩, h, rfl⟩
    exact ⟨c, h⟩
  · rintro ⟨c, h⟩
    exact ⟨(d, c), h, rfl⟩

variable (h : DispatchInv s)

include h

/-- A target that became ready and is not published is within bounds, with all its dependencies
published. -/
theorem entered (hentered : i ∈ s.queue.ready ∨ i ∈ s.dispatched)
    (hnew : i ∉ s.done) :
    i < s.queue.targets.length ∧ ∀ d ∈ s.queue.deps i, d ∈ s.done := by
  have hready : i ∈ s.queue.ready ∨ (i ∈ s.dispatched ∧ i ∉ s.done) :=
    hentered.imp_right fun hd => ⟨hd, hnew⟩
  obtain ⟨hlt, _, hdeps⟩ := (h.ready i).mp hready
  exact ⟨hlt, hdeps⟩

theorem unfinished_pos (hlt : i < s.queue.targets.length)
    (hnew : i ∉ s.done) : 0 < s.queue.unfinished := by
  have hsub : (i :: s.done).Subperm (List.range s.queue.targets.length) := by
    apply List.subperm_of_subset (List.nodup_cons.mpr ⟨hnew, h.done_nodup⟩)
    intro j hj
    rw [List.mem_range]
    rcases List.mem_cons.mp hj with rfl | hj
    · exact hlt
    · exact h.done_lt j hj
  have hlength := hsub.length_le
  rw [List.length_cons, List.length_range] at hlength
  have := h.unfinished
  omega

/-- **No panic.** A target that became ready can be published once. -/
theorem publish_ok (hentered : i ∈ s.queue.ready ∨ i ∈ s.dispatched)
    (hnew : i ∉ s.done) (conclusion : RunConclusion) :
    ∃ q', s.queue.publish i conclusion = .ok q' ∧
      ReadyQueue.Released conclusion (s.queue.children i)
        { s.queue with ready := s.queue.ready.erase i, unfinished := s.queue.unfinished - 1 }
        q' := by
  obtain ⟨hlt, _⟩ := h.entered hentered hnew
  apply ReadyQueue.publish_released h.wellFormed hlt
  · exact h.unfinished_pos hlt hnew
  · intro j
    rw [h.remaining, ← countP_notMem_concat hnew]
    exact Nat.le_add_left _ _

theorem take (hready : i ∈ s.queue.ready) :
    DispatchInv (s.take i) where
  wellFormed := h.wellFormed.congr rfl rfl rfl rfl
  done_nodup := h.done_nodup
  done_lt := h.done_lt
  remaining := h.remaining
  failed := h.failed
  ready j := by
    have hi := (h.ready i).mp (Or.inl hready)
    show (j ∈ s.queue.ready.erase i ∨ (j ∈ i :: s.dispatched ∧ j ∉ s.done)) ↔
      j < s.queue.targets.length ∧ j ∉ s.done ∧ ∀ d ∈ s.queue.deps j, d ∈ s.done
    rw [← h.ready j, mem_treeSet_erase, List.mem_cons]
    constructor
    · rintro (⟨_, hj⟩ | ⟨rfl | hj, hnew⟩)
      · exact Or.inl hj
      · exact Or.inl hready
      · exact Or.inr ⟨hj, hnew⟩
    · rintro (hj | ⟨hj, hnew⟩)
      · by_cases hij : i = j
        · exact Or.inr ⟨Or.inl hij.symm, hij ▸ hi.2.1⟩
        · exact Or.inl ⟨hij, hj⟩
      · exact Or.inr ⟨Or.inr hj, hnew⟩
  ready_not_dispatched j hj := by
    change j ∈ s.queue.ready.erase i at hj
    show j ∉ i :: s.dispatched
    rw [mem_treeSet_erase] at hj
    rw [List.mem_cons, not_or]
    exact ⟨fun hji => hj.1 hji.symm, h.ready_not_dispatched j hj.2⟩
  done_closed := h.done_closed
  dispatched_nodup :=
    List.nodup_cons.mpr ⟨h.ready_not_dispatched i hready, h.dispatched_nodup⟩
  dispatched_lt := List.forall_mem_cons.mpr ⟨((h.ready i).mp (Or.inl hready)).1, h.dispatched_lt⟩
  dispatched_closed :=
    List.forall_mem_cons.mpr ⟨((h.ready i).mp (Or.inl hready)).2.2, h.dispatched_closed⟩
  unfinished := h.unfinished

/-- Once `i` is published, the targets that have entered are those of before, without `i`, and those
that waited for `i` alone. -/
theorem entered_publish (hnew : i ∉ s.done) (j : Nat) :
    ((i ≠ j ∧ j ∈ s.queue.ready) ∨
        (i ∈ s.queue.deps j ∧ ∀ d ∈ s.queue.deps j, d ∉ s.done → d = i)) ∨
      (j ∈ s.dispatched ∧ j ∉ s.done ∧ j ≠ i) ↔
    j < s.queue.targets.length ∧ (j ∉ s.done ∧ j ≠ i) ∧
      ∀ d ∈ s.queue.deps j, d ∈ s.done ∨ d = i := by
  have hold := h.ready j
  constructor
  · rintro ((⟨hij, hj⟩ | ⟨hdep, hall⟩) | ⟨hj, hnewj⟩)
    · obtain ⟨hjlt, hjnew, hjdeps⟩ := hold.mp (Or.inl hj)
      exact ⟨hjlt, ⟨hjnew, fun hji => hij hji.symm⟩, fun d hd => Or.inl (hjdeps d hd)⟩
    · have hij : i < j := h.wellFormed.deps_lt j i hdep
      refine ⟨ReadyQueue.lt_length_of_mem_deps hdep, ⟨?_, by omega⟩, ?_⟩
      · -- a published child would have had all its dependencies published, `i` among them
        intro hjdone
        exact hnew (h.done_closed j hjdone i hdep)
      · intro d hd
        by_cases hdd : d ∈ s.done
        · exact Or.inl hdd
        · exact Or.inr (hall d hd hdd)
    · obtain ⟨hjlt, hjnew, hjdeps⟩ := hold.mp (Or.inr ⟨hj, hnewj.1⟩)
      exact ⟨hjlt, ⟨hjnew, hnewj.2⟩, fun d hd => Or.inl (hjdeps d hd)⟩
  · rintro ⟨hjlt, ⟨hjnew, hji⟩, hall⟩
    by_cases hdep : i ∈ s.queue.deps j
    · refine Or.inl (Or.inr ⟨hdep, fun d hd hdd => ?_⟩)
      exact (hall d hd).resolve_left hdd
    · have hjdeps : ∀ d ∈ s.queue.deps j, d ∈ s.done := by
        intro d hd
        refine (hall d hd).resolve_right ?_
        rintro rfl
        exact hdep hd
      rcases hold.mpr ⟨hjlt, hjnew, hjdeps⟩ with hj | ⟨hj, _⟩
      · exact Or.inl (Or.inl ⟨fun hij => hji hij.symm, hj⟩)
      · exact Or.inr ⟨hj, hjnew, hji⟩

theorem publish {q' : ReadyQueue} (hentered : i ∈ s.queue.ready ∨ i ∈ s.dispatched)
    (hnew : i ∉ s.done) (hpublish : s.queue.publish i conclusion = .ok q') :
    DispatchInv { s with queue := q', published := s.published ++ [(i, conclusion)] } := by
  obtain ⟨hlt, hdepsDone⟩ := h.entered hentered hnew
  obtain ⟨q'', hq'', hrel⟩ := h.publish_ok hentered hnew conclusion
  obtain rfl : q'' = q' := Except.ok.inj (hq''.symm.trans hpublish)
  have hdeps : ∀ j, q''.deps j = s.queue.deps j := by
    intro j
    simp only [ReadyQueue.deps, hrel.targets]
  have hdone : DispatchState.done
      { s with queue := q'', published := s.published ++ [(i, conclusion)] } = s.done ++ [i] := by
    simp [DispatchState.done]
  have hmemChildren : ∀ j, j ∈ s.queue.children i ↔ i ∈ s.queue.deps j := by
    intro j
    rw [← List.count_pos_iff, h.wellFormed.children_count, List.count_pos_iff]
  -- the counts fall by the edges from `i`, which is published from now on
  have hremaining : ∀ j, q''.remaining j = (s.queue.deps j).countP (· ∉ s.done ++ [i]) := by
    intro j
    have hsum : q''.remaining j + (s.queue.children i).count j = s.queue.remaining j :=
      hrel.remaining j
    rw [h.wellFormed.children_count, h.remaining, ← countP_notMem_concat hnew] at hsum
    exact Nat.add_right_cancel hsum
  constructor
  case wellFormed =>
    exact h.wellFormed.congr hrel.targets hrel.dependents hrel.failed_length hrel.remaining_length
  case done_nodup =>
    rw [hdone, ← List.concat_eq_append, List.nodup_concat]
    exact ⟨hnew, h.done_nodup⟩
  case done_lt =>
    rw [hdone, hrel.targets]
    exact forall_mem_concat h.done_lt hlt
  case remaining =>
    intro j
    rw [hdone]
    exact (hremaining j).trans (by rw [hdeps])
  case failed =>
    intro j
    show q''.failed j = true ↔ ∃ d ∈ q''.deps j, ∃ c, (d, c) ∈ s.published ++ [(i, conclusion)] ∧
      c ≠ .success
    rw [hrel.failed, hmemChildren, hdeps]
    show (s.queue.failed j = true ∨ _) ↔ _
    rw [h.failed j]
    constructor
    · rintro (⟨d, hd, c, hc, hne⟩ | ⟨hi, hne⟩)
      · exact ⟨d, hd, c, List.mem_append_left _ hc, hne⟩
      · exact ⟨i, hi, conclusion, List.mem_append_right _ List.mem_cons_self, hne⟩
    · rintro ⟨d, hd, c, hc, hne⟩
      rcases List.mem_append.mp hc with hc | hc
      · exact Or.inl ⟨d, hd, c, hc, hne⟩
      · obtain ⟨rfl, rfl⟩ := Prod.mk.inj (List.mem_singleton.mp hc)
        exact Or.inr ⟨hd, hne⟩
  case ready =>
    intro j
    show (j ∈ q''.ready ∨ (j ∈ s.dispatched ∧ _)) ↔ j < q''.targets.length ∧ _ ∧ _
    rw [hdone, hrel.ready, hmemChildren, hdeps, hrel.targets, hremaining, List.countP_eq_zero]
    show ((j ∈ s.queue.ready.erase i ∨ _) ∨ _) ↔ j < s.queue.targets.length ∧ _
    simp only [mem_treeSet_erase, List.mem_append,
      List.mem_singleton, not_or, decide_eq_true_eq, not_and, not_not]
    exact h.entered_publish hnew j
  case ready_not_dispatched =>
    intro j hj
    rw [hrel.ready, hmemChildren] at hj
    rcases hj with hj | ⟨hdep, _⟩
    -- a target that waited for `i` has not been taken
    · exact h.ready_not_dispatched j (Std.ExtTreeSet.mem_of_mem_erase hj)
    · intro hdispatched
      exact hnew (h.dispatched_closed j hdispatched i hdep)
  case done_closed =>
    simp only [hdone, hdeps]
    exact forall_mem_concat (fun j hj d hd => List.mem_append_left _ (h.done_closed j hj d hd))
      fun d hd => List.mem_append_left _ (hdepsDone d hd)
  case dispatched_nodup => exact h.dispatched_nodup
  case dispatched_lt =>
    intro j hj
    rw [hrel.targets]
    exact h.dispatched_lt j hj
  case dispatched_closed =>
    intro j hj d hd
    rw [hdone]
    rw [hdeps] at hd
    exact List.mem_append_left _ (h.dispatched_closed j hj d hd)
  case unfinished =>
    rw [hdone, hrel.unfinished, hrel.targets, List.length_append, List.length_singleton]
    have hpos := h.unfinished_pos hlt hnew
    have hsum := h.unfinished
    show s.queue.unfinished - 1 + _ = s.queue.targets.length
    omega

variable {taking : DispatchState → Nat → Prop} {publishing : Publishing}

/-- **Step lemma.** -/
theorem step (hstep : DispatchStep taking publishing s s') : DispatchInv s' := by
  cases hstep with
  | take hready _ => exact h.take hready
  | publish hentered hnew _ hpublish => exact h.publish hentered hnew hpublish

/-- **Run lemma.** -/
theorem run (hrun : Relation.ReflTransGen (DispatchStep taking publishing) s s') :
    DispatchInv s' := by
  induction hrun with
  | refl => exact h
  | tail _ hstep ih => exact ih.step hstep

end DispatchInv

end Jig.Runtime

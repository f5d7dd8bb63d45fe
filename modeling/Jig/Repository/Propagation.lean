import Jig.Repository.Affected
import Jig.Repository.CatalogValid

/-!
# Where changes spread

The loops of `affected_reason_batches`, for any catalog and any kind of batch. `Spreads` says which
components a change of a component reaches, and `affectedReasonBatches_eq_ok` that every component
receives one batch from each origin that spreads to it, in the order of the origins.

For a valid catalog, spreading is a non-empty chain of dependents in which the origin and every
component on the way pass changes on (`spreads_iff`), and the loops always succeed
(`affectedReasonBatches_exists`).
-/

namespace Jig.Repository

open Jig.Contract Jig.Lib Std

variable {B : Type} {build : List SelectionReason → B} {catalog : RepositoryCatalog}

/-! ## One origin -/

/-- The components a component passes its changes on to. -/
def passesTo (catalog : RepositoryCatalog) (id : ComponentId) : List ComponentId :=
  match catalog.components[id]? with
  | some component =>
      if component.propagateAffectedToDependents then ((dependentsOf catalog).lookup id).toList
      else []
  | none => []

/-- A change of the first component reaches the second one. -/
def Spreads (catalog : RepositoryCatalog) (origin id : ComponentId) : Prop :=
  Relation.ReflTransGen (fun a b => b ∈ passesTo catalog a) origin id ∧ id ≠ origin

/-- The entry of a map whose lists are created on the first push. -/
def entryOf {β : Type} (l : List β) : Option (List β) :=
  if l.isEmpty then none else some l

theorem entryOf_append {β : Type} (l : List β) (b : β) : entryOf (l ++ [b]) = some (l ++ [b]) := by
  simp [entryOf]

theorem entryOf_getD {β : Type} (l : List β) : (entryOf l).getD [] = l := by
  unfold entryOf
  split <;> simp_all

theorem entryOf_isSome {β : Type} (l : List β) : (entryOf l).isSome = !l.isEmpty := by
  unfold entryOf
  split <;> simp_all

/-- The state while one origin spreads: every component it has seen, other than itself, has received
the batch once, after what it had before. -/
structure Spreading (origin : ComponentId) (batch : B) (before : ComponentId → List B)
    (state : Propagation B) : Prop where
  seen_origin : origin ∈ state.seen
  entries : ∀ id : ComponentId, state.propagated[id]? =
    entryOf (before id ++ if id ∈ state.seen ∧ id ≠ origin then [batch] else [])

variable {origin : ComponentId} {pushed : List ComponentId} {batch : B}
  {direct : Multimap ComponentId String} {before : ComponentId → List B} {dependent : ComponentId}

theorem Spreading.pass {state : Propagation B × List ComponentId}
    (h : Spreading origin batch before state.1) :
    Spreading origin batch before (Propagation.pass batch state dependent).1 := by
  unfold Propagation.pass
  split
  · exact h
  · next hnew =>
      rw [ExtTreeSet.contains_iff_mem] at hnew
      have hne : dependent ≠ origin := fun heq => hnew (heq ▸ h.seen_origin)
      refine ⟨mem_treeSet_insert.mpr (.inr h.seen_origin), ?_⟩
      intro id
      simp only [getElem?_updateEntry, mem_treeSet_insert]
      by_cases hid : dependent = id
      · subst hid
        have hbefore := h.entries dependent
        rw [if_neg (by simp [hnew]), List.append_nil] at hbefore
        rw [if_pos rfl, hbefore, entryOf_getD, if_pos ⟨.inl rfl, hne⟩, entryOf_append]
      · simp only [hid, if_false, false_or]
        exact h.entries id

variable {id : ComponentId}

theorem Propagation.step_eq_ok {state state' : Propagation B}
    (h : Propagation.step catalog (dependentsOf catalog) batch state id = .ok (state', pushed)) :
    (passesTo catalog id).foldl (Propagation.pass batch) (state, []) = (state', pushed) := by
  unfold Propagation.step at h
  obtain ⟨component, hcomponent, h⟩ := bind_eq_ok.mp h
  rw [expect_eq_ok] at hcomponent
  unfold passesTo
  rw [hcomponent]
  by_cases hflag : component.propagateAffectedToDependents = true
  · simpa [hflag] using h
  · simpa [hflag] using h

theorem Spreading.step {state state' : Propagation B} (h : Spreading origin batch before state)
    (hstep : Propagation.step catalog (dependentsOf catalog) batch state id = .ok (state', pushed)) :
    Spreading origin batch before state' := by
  have hfold : ∀ l : List ComponentId, Spreading origin batch before
      (l.foldl (Propagation.pass batch) (state, [])).1 := by
    intro l
    induction l using List.reverseRecOn with
    | nil => exact h
    | append_singleton l dependent ih =>
        rw [List.foldl_concat]
        exact ih.pass
  have hlast := hfold (passesTo catalog id)
  rw [Propagation.step_eq_ok hstep] at hlast
  exact hlast

theorem Propagation.seen_pass (batch : B) (state : Propagation B × List ComponentId)
    (dependent id : ComponentId) :
    (Propagation.pass batch state dependent).1.seen.contains id =
      (decide (dependent = id) || state.1.seen.contains id) := by
  unfold Propagation.pass
  split
  · next hold =>
      by_cases hid : dependent = id
      · subst hid
        simp [hold]
      · simp [hid]
  · rw [ExtTreeSet.contains_insert]
    congr 1
    rw [Bool.eq_iff_iff, beq_iff_eq, decide_eq_true_eq, LawfulEqCmp.compare_eq_iff_eq]

theorem Propagation.pushed_pass (batch : B) (state : Propagation B × List ComponentId)
    (dependent : ComponentId) :
    (Propagation.pass batch state dependent).2 =
      if state.1.seen.contains dependent then state.2 else state.2 ++ [dependent] := by
  unfold Propagation.pass
  split <;> rfl

theorem Propagation.step_spec {state state' : Propagation B}
    (h : Propagation.step catalog (dependentsOf catalog) batch state id = .ok (state', pushed)) :
    (∀ b, state'.seen.contains b = true ↔
        state.seen.contains b = true ∨ b ∈ passesTo catalog id) ∧
      pushed.Nodup ∧
      ∀ b, b ∈ pushed ↔ b ∈ passesTo catalog id ∧ state.seen.contains b = false := by
  have hpush := foldl_pushNew (fun (state : Propagation B) id => state.seen.contains id)
    (Propagation.pushed_pass batch) (Propagation.seen_pass batch) state (passesTo catalog id)
  rw [Propagation.step_eq_ok h] at hpush
  exact hpush

/-- Everything that is passed on to is a component of the catalog. -/
theorem mem_ids_of_mem_passesTo {a b : ComponentId} (h : b ∈ passesTo catalog a) :
    b ∈ (valuesOf catalog.components).map ComponentSpec.id := by
  unfold passesTo at h
  split at h
  · split at h
    · rw [ExtTreeSet.mem_toList, dependentsOf, Multimap.mem_lookup_ofPairs,
        List.mem_flatMap] at h
      obtain ⟨component, hcomponent, hpair⟩ := h
      obtain ⟨dependency, -, hpair⟩ := List.mem_map.mp hpair
      rw [Prod.mk.injEq] at hpair
      exact List.mem_map.mpr ⟨component, hcomponent, hpair.2⟩
    · cases h
  · cases h

/-- **One origin.** The components that have seen it are those it spreads to. -/
theorem worklist_step_ok {propagated : ExtTreeMap ComponentId (List B)} {final : Propagation B}
    (h : worklist (Propagation.step catalog (dependentsOf catalog) batch)
      ((valuesOf catalog.components).length + 1) { seen := {origin}, propagated } [origin] =
        .ok final) (id : ComponentId) :
    id ∈ final.seen ↔ Relation.ReflTransGen (fun a b => b ∈ passesTo catalog a) origin id := by
  have hpending : ∀ {a : ComponentId}, a ∈ [origin] ↔
      ({origin} : ExtTreeSet ComponentId).contains a = true := by
    intro a
    rw [List.mem_singleton, ExtTreeSet.contains_iff_mem, mem_treeSet_singleton, eq_comm]
  have hrounds : [origin].length + ((valuesOf catalog.components).map ComponentSpec.id).length ≤
      (valuesOf catalog.components).length + 1 := by
    rw [List.length_map, List.length_singleton]
    omega
  have hreach := worklist_reachable (fun (state : Propagation B) id => state.seen.contains id)
    (by exact Propagation.step_spec) mem_ids_of_mem_passesTo hpending (by simp) hrounds h id
  rw [ExtTreeSet.contains_iff_mem] at hreach
  rw [hreach]
  simp [Reachable]

/-! ## All origins -/

/-- An origin and the paths that changed in it. -/
abbrev Origin := ComponentId × ExtTreeSet String

/-- The reasons an origin hands to the components it spreads to. -/
def dependencyReasons (entry : Origin) : List SelectionReason :=
  entry.2.toList.map fun path => .componentDependency entry.1 (some path)

open Classical in
/-- The origins that spread to a component, in order. -/
noncomputable def originsTo (catalog : RepositoryCatalog)
    (entries : List Origin) (id : ComponentId) : List Origin :=
  entries.filter fun entry => decide (Spreads catalog entry.1 id)

noncomputable def receivedBatches (build : List SelectionReason → B) (catalog : RepositoryCatalog)
    (entries : List Origin) (id : ComponentId) : List B :=
  (originsTo catalog entries id).map fun entry => build (dependencyReasons entry)

open Classical in
theorem receivedBatches_concat (entries : List Origin)
    (entry : Origin) (id : ComponentId) :
    receivedBatches build catalog (entries ++ [entry]) id =
      receivedBatches build catalog entries id ++
        if Spreads catalog entry.1 id then [build (dependencyReasons entry)] else [] := by
  unfold receivedBatches originsTo
  rw [List.filter_append, List.map_append]
  congr 1
  by_cases hspread : Spreads catalog entry.1 id
  · simp [hspread]
  · simp [hspread]

theorem propagateOrigin_eq_ok {batches batches' : AffectedReasonBatches B}
    {entry : Origin}
    {entries : List Origin} (hbefore : ∀ id : ComponentId, batches.propagated[id]? =
      entryOf (receivedBatches build catalog entries id))
    (h : propagateOrigin build catalog batches entry = .ok batches') :
    batches'.direct = batches.direct.insert entry.1 (build (entry.2.toList.map .directInput)) ∧
      ∀ id : ComponentId, batches'.propagated[id]? =
        entryOf (receivedBatches build catalog (entries ++ [entry]) id) := by
  classical
  obtain ⟨origin, paths⟩ := entry
  unfold propagateOrigin at h
  obtain ⟨state, hstate, h⟩ := bind_eq_ok.mp h
  rw [pure_eq_ok] at h
  subst h
  refine ⟨rfl, ?_⟩
  intro id
  have hstart : Spreading origin (build (dependencyReasons (origin, paths)))
      (receivedBatches build catalog entries)
      { seen := {origin}, propagated := batches.propagated } := by
    refine ⟨mem_treeSet_singleton.mpr rfl, ?_⟩
    intro id
    rw [hbefore id, if_neg (by grind [mem_treeSet_singleton]), List.append_nil]
  have hspreading := worklist_invariant (Spreading origin _ _)
    (fun hgood hstep => hgood.step hstep) hstart hstate
  rw [hspreading.entries id, receivedBatches_concat]
  simp only [Spreads, worklist_step_ok hstate id]
  congr

/-- **The batches of a change.** Each component that changed keeps its own batch, and each component
receives one batch from each origin that spreads to it. -/
theorem affectedReasonBatches_eq_ok {batches : AffectedReasonBatches B}
    (h : affectedReasonBatches build catalog direct = .ok batches) (id : ComponentId) :
    batches.direct[id]? = direct[id]?.map (fun paths => build (paths.toList.map .directInput)) ∧
      batches.propagated[id]? = entryOf (receivedBatches build catalog direct.toList id) := by
  unfold affectedReasonBatches at h
  have hloop := foldlM_ok_induction (fun done (batches : AffectedReasonBatches B) =>
    batches.direct = insertAll Prod.fst
      (fun entry => build (entry.2.toList.map SelectionReason.directInput)) ∅ done ∧
    ∀ id : ComponentId, batches.propagated[id]? =
      entryOf (receivedBatches build catalog done id)) h
    ⟨rfl, fun id => by simp [receivedBatches, originsTo, entryOf]⟩ ?_
  · obtain ⟨hdirect, hpropagated⟩ := hloop
    refine ⟨?_, hpropagated id⟩
    apply Option.ext
    intro batch
    rw [hdirect, getElem?_insertAll_empty_eq_some nodup_map_fst_toList]
    simp only [Prod.exists, ExtTreeMap.mem_toList_iff_getElem?_eq_some, Option.map_eq_some_iff]
    grind
  · intro done entry state state' _ hmotive hstep
    obtain ⟨hdirect, hpropagated⟩ := propagateOrigin_eq_ok hmotive.2 hstep
    refine ⟨?_, hpropagated⟩
    rw [hdirect, hmotive.1, insertAll_append]
    rfl

/-! ## Valid catalogs -/

/-- A component hands its changes to one that depends on it. -/
def PassesOn (catalog : RepositoryCatalog) (id dependent : ComponentId) : Prop :=
  (∃ component, catalog.components[id]? = some component ∧
      component.propagateAffectedToDependents = true) ∧
    ∃ component, catalog.components[dependent]? = some component ∧ id ∈ component.dependsOn

section Valid

variable {libs : Libraries}

theorem mem_passesTo (hvalid : catalog.Valid libs) :
    dependent ∈ passesTo catalog id ↔ PassesOn catalog id dependent := by
  have hdependents : dependent ∈ (dependentsOf catalog).lookup id ↔
      ∃ component, catalog.components[dependent]? = some component ∧
        id ∈ component.dependsOn := by
    rw [dependentsOf, Multimap.mem_lookup_ofPairs]
    simp only [List.mem_flatMap, List.mem_map, Prod.mk.injEq, mem_valuesOf]
    constructor
    · rintro ⟨component, ⟨key, hkey⟩, _, hmem, rfl, rfl⟩
      rw [hvalid.component_key hkey]
      exact ⟨component, hkey, hmem⟩
    · rintro ⟨component, hcomponent, hmem⟩
      exact ⟨component, ⟨dependent, hcomponent⟩, id, hmem, rfl, hvalid.component_key hcomponent⟩
  unfold passesTo PassesOn
  cases hcomponent : catalog.components[id]? with
  | none => simp
  | some component =>
      by_cases hflag : component.propagateAffectedToDependents = true
      · simp [hflag, hdependents]
      · simp [hflag]

/-- Changes move to components of a higher rank, so that they never come back. -/
theorem not_transGen_passesOn_self (hvalid : catalog.Valid libs) (id : ComponentId) :
    ¬ Relation.TransGen (PassesOn catalog) id id := by
  obtain ⟨rank, hrank⟩ := hvalid.components.ranked
  intro hself
  have hlt : Relation.TransGen (· < ·) (rank id) (rank id) :=
    Relation.TransGen.lift rank (fun a _ ⟨_, _, hcomponent, hmem⟩ => hrank hcomponent a hmem) id id
      hself
  rw [Relation.transGen_eq_self] at hlt
  exact Nat.lt_irrefl _ hlt

/-- **Spreading is a chain of dependents.** -/
theorem spreads_iff (hvalid : catalog.Valid libs) :
    Spreads catalog origin id ↔ Relation.TransGen (PassesOn catalog) origin id := by
  have hrel : (fun a b => b ∈ passesTo catalog a) = PassesOn catalog := by
    funext a b
    exact propext (mem_passesTo hvalid)
  unfold Spreads
  rw [hrel, Relation.reflTransGen_iff_eq_or_transGen]
  constructor
  · rintro ⟨rfl | hchain, hne⟩
    · exact absurd rfl hne
    · exact hchain
  · intro hchain
    refine ⟨.inr hchain, ?_⟩
    rintro rfl
    exact not_transGen_passesOn_self hvalid _ hchain

/-- A round for a component of the catalog succeeds. -/
theorem Propagation.step_exists (batch : B) (state : Propagation B) (h : id ∈ catalog.components) :
    ∃ r, Propagation.step catalog (dependentsOf catalog) batch state id = .ok r := by
  obtain ⟨component, hcomponent⟩ := exists_getElem?_of_mem h
  unfold Propagation.step
  rw [hcomponent]
  by_cases hflag : component.propagateAffectedToDependents = true
  · exact ⟨_, by simp [expect, hflag]; rfl⟩
  · exact ⟨_, by simp [expect, hflag]; rfl⟩

/-- The loop of one origin succeeds: it only ever meets components of the catalog. -/
theorem propagateOrigin_exists (hvalid : catalog.Valid libs) (batches : AffectedReasonBatches B)
    {entry : Origin} (h : entry.1 ∈ catalog.components) :
    ∃ batches', propagateOrigin build catalog batches entry = .ok batches' := by
  obtain ⟨origin, paths⟩ := entry
  have hloop : ∃ state, worklist (Propagation.step catalog (dependentsOf catalog)
      (build (dependencyReasons (origin, paths)))) ((valuesOf catalog.components).length + 1)
      { seen := {origin}, propagated := batches.propagated } [origin] = .ok state := by
    apply worklist_progress (fun _ pending => ∀ id ∈ pending, id ∈ catalog.components)
    · intro s id pending s' pushed hinv hstep b hb
      rw [List.mem_append, List.mem_reverse] at hb
      rcases hb with hpushed | hpending
      · have hpass := ((Propagation.step_spec hstep).2.2 b).mp hpushed
        obtain ⟨-, component, hcomponent, -⟩ := (mem_passesTo hvalid).mp hpass.1
        exact mem_of_getElem?_eq_some hcomponent
      · exact hinv b (List.mem_cons_of_mem _ hpending)
    · intro s id pending hinv
      exact Propagation.step_exists _ _ (hinv id List.mem_cons_self)
    · simpa using h
  obtain ⟨state, hstate⟩ := hloop
  exact ⟨_, bind_eq_ok.mpr ⟨state, hstate, rfl⟩⟩

/-- **Propagation succeeds.** -/
theorem affectedReasonBatches_exists (hvalid : catalog.Valid libs)
    (h : ∀ id ∈ direct, id ∈ catalog.components) :
    ∃ batches, affectedReasonBatches build catalog direct = .ok batches := by
  apply foldlM_ok_exists
  intro state entry hmem
  apply propagateOrigin_exists hvalid
  exact h entry.1
    (mem_of_getElem?_eq_some (ExtTreeMap.mem_toList_iff_getElem?_eq_some.mp hmem))

end Valid

end Jig.Repository

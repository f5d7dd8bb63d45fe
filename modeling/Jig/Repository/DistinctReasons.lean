import Jig.Repository.Evidence

/-!
# No reason is listed twice

The reasons of a selected target come from five producers: the request (selectors, profile,
aliases), the repository authority paths, the unclaimed paths, the paths of the target itself and
those of each component that spreads to it, and at last the targets that depend on it. `Evident` is
what the bounded evidence of a plan relies on, and `selectTargets_evident` proves it of every
selected target: batches are ordered, hold path reasons only, and share no reason with each other or
with the explicit reasons.
-/

namespace Jig.Repository

open Jig.Contract Jig.Lib Std

/-! ## Ordered batches -/

/-- Strictly ordered, as an ordered set lists its elements. -/
abbrev Ascending {α : Type} [Ord α] (l : List α) : Prop :=
  l.Pairwise fun a b => compare a b = .lt

theorem Ascending.nodup {α : Type} [Ord α] [TransOrd α] {l : List α} (h : Ascending l) :
    l.Nodup := by
  apply h.imp
  rintro a b hlt rfl
  rw [ReflOrd.compare_self] at hlt
  cases hlt

theorem Ascending.map {α β : Type} [Ord α] [Ord β] {f : α → β}
    (hf : ∀ a b, compare (f a) (f b) = compare a b) {l : List α} (h : Ascending l) :
    Ascending (l.map f) := by
  rw [Ascending, List.pairwise_map]
  apply h.imp
  intro a b hlt
  rw [hf, hlt]

theorem ascending_toList {α : Type} [Ord α] [TransOrd α] (s : ExtTreeSet α) :
    Ascending s.toList :=
  ExtTreeSet.ordered_toList

/-- Reasons of one variant with one first field or none are ordered by what is left. -/
theorem compare_directInput (a b : String) :
    compare (SelectionReason.directInput a) (.directInput b) = compare a b := by
  show (compare a b).then .eq = compare a b
  rw [Ordering.then_eq]

theorem compare_unclaimedInput (a b : String) :
    compare (SelectionReason.unclaimedInput a) (.unclaimedInput b) = compare a b := by
  show (compare a b).then .eq = compare a b
  rw [Ordering.then_eq]

theorem compare_componentDependency (origin : ComponentId) (a b : String) :
    compare (SelectionReason.componentDependency origin (some a))
      (.componentDependency origin (some b)) = compare a b := by
  show (compare origin.value origin.value).then (compare (some a) (some b)) = compare a b
  rw [ReflOrd.compare_self]
  rfl

/-! ## Evident reasons -/

/-- What the bounded evidence of a plan relies on. -/
structure Evident (reasons : TargetSelectionReasons (List SelectionReason)) : Prop where
  ascending : ∀ batch ∈ reasons.batches, Ascending batch
  paths : ∀ batch ∈ reasons.batches, ∀ reason ∈ batch, selectionReasonPriority reason = 1
  distinct : reasons.batches.flatten.Nodup
  separate : ∀ reason ∈ reasons.explicit, reason ∉ reasons.batches.flatten

variable {reasons : TargetSelectionReasons (List SelectionReason)} {reason : SelectionReason}
  {profile : Option ProfileId} {request : PlanRunRequest} {target : TargetId}
  {selected' : TargetSelection (List SelectionReason)}
  {evidence : AffectedEvidence (List SelectionReason)} {changedPaths : Option (List String)}
  {matchers : TargetInputMatcherV1}

/-- An intent or a dependency is never a path reason. -/
theorem Evident.insert (h : Evident reasons) (hreason : selectionReasonPriority reason = 0) :
    Evident (reasons.insert reason) := by
  refine ⟨h.ascending, h.paths, h.distinct, ?_⟩
  intro other hother hmem
  rcases mem_treeSet_insert.mp hother with rfl | hold
  · obtain ⟨batch, hbatch, hin⟩ := List.mem_flatten.mp hmem
    rw [h.paths batch hbatch _ hin] at hreason
    cases hreason
  · exact h.separate other hold hmem

/-- The reasons of a request: intents, and no batches yet. -/
structure Intended (reasons : TargetSelectionReasons (List SelectionReason)) : Prop where
  batches : reasons.batches = []
  intents : ∀ reason ∈ reasons.explicit, selectionReasonPriority reason = 0

theorem Intended.evident (h : Intended reasons) : Evident reasons := by
  constructor <;> simp [h.batches]

theorem Intended.insert (h : Intended reasons) (hreason : selectionReasonPriority reason = 0) :
    Intended (reasons.insert reason) := by
  refine ⟨h.batches, ?_⟩
  intro other hother
  rcases mem_treeSet_insert.mp hother with rfl | hold
  · exact hreason
  · exact h.intents other hold

abbrev TargetSelection.All (p : TargetSelectionReasons (List SelectionReason) → Prop)
    (selected : TargetSelection (List SelectionReason)) : Prop :=
  ∀ (target : TargetId) (reasons : TargetSelectionReasons (List SelectionReason)),
    selected[target]? = some reasons → p reasons

variable {selected : TargetSelection (List SelectionReason)}

theorem TargetSelection.All.addReason {p : TargetSelectionReasons (List SelectionReason) → Prop}
    (hempty : p {}) (hinsert : ∀ {reasons reason}, p reasons → selectionReasonPriority reason = 0 →
      p (reasons.insert reason)) (h : selected.All p) (target : TargetId)
    (hreason : selectionReasonPriority reason = 0) :
    TargetSelection.All p (addReason selected target reason) := by
  intro t reasons hget
  unfold Repository.addReason at hget
  rw [getElem?_updateEntry] at hget
  split at hget
  · rw [Option.some.injEq] at hget
    subst hget
    apply hinsert _ hreason
    cases hbefore : selected[target]? with
    | none => exact hempty
    | some before => exact h target before hbefore
  · exact h t reasons hget

/-! ## Narrowing -/

/-- The evidence of a change: ordered paths, none of the authority among those of a target, and each
origin once. -/
structure AffectedEvidence.Proper (evidence : AffectedEvidence (List SelectionReason)) : Prop where
  unclaimed : ∀ batch ∈ evidence.unclaimed, ∃ paths, Ascending paths ∧
    batch = paths.map .unclaimedInput
  direct : ∀ target, ∀ batch ∈ evidence.direct target, ∃ paths, Ascending paths ∧
    (∀ path ∈ paths, path ∉ evidence.authorityPaths) ∧ batch = paths.map .directInput
  propagated : ∀ (id : ComponentId), ∃ entries : List Origin, (entries.map Prod.fst).Nodup ∧
    evidence.propagated[id]?.getD [] = entries.map dependencyReasons

def AffectedEvidence.batchesOf {B : Type} (evidence : AffectedEvidence B) (target : TargetId) :
    List B :=
  evidence.unclaimed.toList ++ (evidence.direct target).toList ++
    evidence.propagated[target.component]?.getD []

theorem foldl_attach {B : Type} (batches : List B) (reasons : TargetSelectionReasons B) :
    batches.foldl TargetSelectionReasons.attach reasons =
      { reasons with batches := reasons.batches ++ batches } := by
  induction batches generalizing reasons with
  | nil => simp
  | cons batch batches ih =>
      rw [List.foldl_cons, ih]
      simp [TargetSelectionReasons.attach]

theorem foldl_insert_directInput {B : Type} (paths : List String)
    (reasons : TargetSelectionReasons B) :
    let reasons' := paths.foldl (fun reasons path => reasons.insert (.directInput path)) reasons
    reasons'.batches = reasons.batches ∧
      ∀ reason ∈ reasons'.explicit, reason ∈ reasons.explicit ∨
        ∃ path ∈ paths, reason = .directInput path := by
  refine ⟨foldl_keeps (g := TargetSelectionReasons.batches) (fun _ _ => by rfl) paths reasons,
    fun reason => (foldl_iff_or (P := fun r : TargetSelectionReasons B => reason ∈ r.explicit) ?_
      paths reasons).mp⟩
  intro r path
  rw [eq_comm, or_comm]
  exact mem_treeSet_insert

theorem AffectedEvidence.narrow_eq_some {B : Type} {evidence : AffectedEvidence B}
    {reasons reasons' : TargetSelectionReasons B}
    (h : evidence.narrow target reasons = some reasons') :
    reasons'.batches = reasons.batches ++ evidence.batchesOf target ∧
      ∀ reason ∈ reasons'.explicit, reason ∈ reasons.explicit ∨
        ∃ path ∈ evidence.authorityPaths, reason = .directInput path := by
  unfold AffectedEvidence.narrow at h
  dsimp only at h
  split at h
  · rw [Option.some.injEq, foldl_attach] at h
    subst h
    obtain ⟨hbatches, hexplicit⟩ := foldl_insert_directInput evidence.authorityPaths reasons
    exact ⟨congrArg (· ++ _) hbatches, hexplicit⟩
  · cases h

/-! ## What each producer lists -/

/-- Ordered batches of reasons of one kind, without repetitions. -/
structure Listed (kind : SelectionReason → Prop) (batches : List (List SelectionReason)) :
    Prop where
  ascending : ∀ batch ∈ batches, Ascending batch
  distinct : batches.flatten.Nodup
  kinds : ∀ reason ∈ batches.flatten, kind reason

section Listed

variable {kind kind' : SelectionReason → Prop} {batches batches' : List (List SelectionReason)}

theorem Listed.toList {batch : Option (List SelectionReason)}
    (h : ∀ b ∈ batch, Ascending b ∧ ∀ reason ∈ b, kind reason) : Listed kind batch.toList := by
  cases batch with
  | none => constructor <;> simp
  | some b =>
      obtain ⟨hascending, hkind⟩ := h b rfl
      exact ⟨by simpa using hascending, by simpa using hascending.nodup, by simpa using hkind⟩

theorem Listed.append (h : Listed kind batches) (h' : Listed kind' batches')
    (hdisjoint : ∀ reason, kind reason → ¬ kind' reason) :
    Listed (fun reason => kind reason ∨ kind' reason) (batches ++ batches') := by
  constructor
  · intro batch hbatch
    exact (List.mem_append.mp hbatch).elim (h.ascending batch) (h'.ascending batch)
  · rw [List.flatten_append, List.nodup_append']
    refine ⟨h.distinct, h'.distinct, ?_⟩
    intro reason hreason hreason'
    exact hdisjoint reason (h.kinds reason hreason) (h'.kinds reason hreason')
  · intro reason hreason
    rw [List.flatten_append, List.mem_append] at hreason
    exact hreason.imp (h.kinds reason) (h'.kinds reason)

/-- The batches of the origins share nothing, since each reason names its origin. -/
theorem listed_dependencyReasons {entries : List Origin} (h : (entries.map Prod.fst).Nodup) :
    Listed (fun reason => ∃ origin path, reason = .componentDependency origin path)
      (entries.map dependencyReasons) := by
  have hascending : ∀ entry : Origin, Ascending (dependencyReasons entry) := fun entry =>
    (ascending_toList entry.2).map (compare_componentDependency entry.1)
  refine ⟨?_, ?_, ?_⟩
  · intro batch hbatch
    obtain ⟨entry, -, rfl⟩ := List.mem_map.mp hbatch
    exact hascending entry
  · rw [List.nodup_flatten]
    constructor
    · intro batch hbatch
      obtain ⟨entry, -, rfl⟩ := List.mem_map.mp hbatch
      exact (hascending entry).nodup
    · rw [List.pairwise_map]
      rw [List.Nodup, List.pairwise_map] at h
      apply h.imp
      intro a b hne reason ha hb
      obtain ⟨path, -, rfl⟩ := List.mem_map.mp ha
      obtain ⟨path', -, heq⟩ := List.mem_map.mp hb
      rw [SelectionReason.componentDependency.injEq] at heq
      exact hne heq.1.symm
  · intro reason hreason
    obtain ⟨batch, hbatch, hin⟩ := List.mem_flatten.mp hreason
    obtain ⟨entry, -, rfl⟩ := List.mem_map.mp hbatch
    obtain ⟨path, -, rfl⟩ := List.mem_map.mp hin
    exact ⟨entry.1, some path, rfl⟩

end Listed

/-! ## Narrowing keeps reasons apart -/

theorem AffectedEvidence.Proper.listed (h : evidence.Proper) (target : TargetId) :
    Listed (fun reason => ((∃ path, reason = .unclaimedInput path) ∨
        ∃ path ∉ evidence.authorityPaths, reason = .directInput path) ∨
        ∃ origin path, reason = .componentDependency origin path)
      (evidence.batchesOf target) := by
  have hunclaimed : Listed (fun reason => ∃ path, reason = .unclaimedInput path)
      evidence.unclaimed.toList := by
    apply Listed.toList
    intro batch hbatch
    obtain ⟨paths, hpaths, rfl⟩ := h.unclaimed batch hbatch
    refine ⟨hpaths.map compare_unclaimedInput, ?_⟩
    intro reason hreason
    obtain ⟨path, -, rfl⟩ := List.mem_map.mp hreason
    exact ⟨path, rfl⟩
  have hdirect : Listed (fun reason => ∃ path ∉ evidence.authorityPaths,
      reason = .directInput path) (evidence.direct target).toList := by
    apply Listed.toList
    intro batch hbatch
    obtain ⟨paths, hpaths, hauthority, rfl⟩ := h.direct target batch hbatch
    refine ⟨hpaths.map compare_directInput, ?_⟩
    intro reason hreason
    obtain ⟨path, hpath, rfl⟩ := List.mem_map.mp hreason
    exact ⟨path, hauthority path hpath, rfl⟩
  obtain ⟨entries, hentries, hpropagated⟩ := h.propagated target.component
  unfold AffectedEvidence.batchesOf
  rw [hpropagated]
  refine (hunclaimed.append hdirect ?_).append (listed_dependencyReasons hentries) ?_
  · rintro _ ⟨path, rfl⟩ ⟨path', -, heq⟩
    cases heq
  · rintro _ (⟨path, rfl⟩ | ⟨path, -, rfl⟩) ⟨origin, path', heq⟩
    · cases heq
    · cases heq

/-- **Narrowing keeps reasons apart.** -/
theorem AffectedEvidence.Proper.evident (h : evidence.Proper)
    {reasons' : TargetSelectionReasons (List SelectionReason)} (hreasons : Intended reasons)
    (hnarrow : evidence.narrow target reasons = some reasons') : Evident reasons' := by
  obtain ⟨hbatches, hexplicit⟩ := AffectedEvidence.narrow_eq_some hnarrow
  rw [hreasons.batches, List.nil_append] at hbatches
  have hlisted := h.listed target
  constructor
  · rw [hbatches]
    exact hlisted.ascending
  · rw [hbatches]
    intro batch hbatch reason hreason
    rcases hlisted.kinds reason (List.mem_flatten.mpr ⟨batch, hbatch, hreason⟩) with
      (⟨path, rfl⟩ | ⟨path, -, rfl⟩) | ⟨origin, path, rfl⟩
    · rfl
    · rfl
    · rfl
  · rw [hbatches]
    exact hlisted.distinct
  · rw [hbatches]
    intro reason hreason hmem
    have hkind := hlisted.kinds reason hmem
    rcases hexplicit reason hreason with hintent | ⟨path, hpath, rfl⟩
    · have hpriority := hreasons.intents reason hintent
      rcases hkind with (⟨path, rfl⟩ | ⟨path, -, rfl⟩) | ⟨origin, path, rfl⟩
      · cases hpriority
      · cases hpriority
      · cases hpriority
    · rcases hkind with (⟨other, heq⟩ | ⟨other, hother, heq⟩) | ⟨origin, other, heq⟩
      · cases heq
      · cases heq
        exact hother hpath
      · cases heq

/-! ## The evidence of a change is proper -/

section Selection

variable {libs : Libraries} {catalog : RepositoryCatalog}

theorem unclaimedBatch_proper {paths : List String} (h : Ascending paths) :
    ∀ batch ∈ unclaimedBatch id paths, ∃ paths, Ascending paths ∧
      batch = paths.map SelectionReason.unclaimedInput := by
  intro batch hbatch
  unfold unclaimedBatch at hbatch
  split at hbatch
  · cases hbatch
  · cases hbatch
    exact ⟨paths, h, rfl⟩

theorem affectedReasonBatches_proper {direct : Multimap ComponentId String}
    {batches : AffectedReasonBatches (List SelectionReason)}
    (h : affectedReasonBatches id catalog direct = .ok batches) (component : ComponentId) :
    ∃ entries : List Origin, (entries.map Prod.fst).Nodup ∧
      batches.propagated[component]?.getD [] = entries.map dependencyReasons := by
  refine ⟨originsTo catalog direct.toList component, ?_, ?_⟩
  · exact nodup_map_fst_toList.sublist (List.filter_sublist.map Prod.fst)
  · rw [(affectedReasonBatches_eq_ok h component).2, entryOf_getD]
    rfl

variable {candidates : TargetSelection (List SelectionReason)}
  {paths authorityPaths : ExtTreeSet String} {observedInputPaths : List String}

theorem notMem_of_mem_filter {path : String}
    (h : path ∈ paths.filter fun path => !authorityPaths.contains path) :
    path ∉ authorityPaths.toList := by
  rw [mem_treeSet_filter, Bool.not_eq_true', ← Bool.not_eq_true, ExtTreeSet.contains_iff_mem] at h
  rw [ExtTreeSet.mem_toList]
  exact h.2

section Candidates

variable (hcandidates : candidates.All Intended)

include hcandidates

theorem AffectedEvidence.Proper.filterMap_evident (h : evidence.Proper) :
    TargetSelection.All Evident (candidates.filterMap evidence.narrow) := by
  intro target reasons hget
  rw [ExtTreeMap.getElem?_filterMap', Option.bind_eq_some_iff] at hget
  obtain ⟨before, hbefore, hnarrow⟩ := hget
  exact h.evident (hcandidates target before hbefore) hnarrow

theorem selectTargetLocalAffected_evident
    (h : selectTargetLocalAffected libs id catalog candidates matchers paths authorityPaths =
      .ok selected) : selected.All Evident := by
  unfold selectTargetLocalAffected at h
  obtain ⟨batches, hbatches, h⟩ := bind_eq_ok.mp h
  rw [pure_eq_ok] at h
  subst h
  refine AffectedEvidence.Proper.filterMap_evident hcandidates ⟨?_, ?_, ?_⟩
  · apply unclaimedBatch_proper
    exact (ascending_toList _).sublist List.filter_sublist
  · intro target batch hbatch
    obtain ⟨attributed, hattributed, rfl⟩ := Option.map_eq_some_iff.mp hbatch
    refine ⟨attributed.toList, ascending_toList _, ?_, rfl⟩
    intro path hpath
    -- what is attributed was not an authority path to begin with
    have hpair := Multimap.mem_pairs_of_getElem? hattributed (ExtTreeSet.mem_toList.mp hpath)
    obtain ⟨other, hother, hin⟩ := List.mem_flatMap.mp hpair
    obtain ⟨_, -, heq⟩ := List.mem_map.mp hin
    cases heq
    exact notMem_of_mem_filter (ExtTreeSet.mem_toList.mp hother)
  · exact affectedReasonBatches_proper hbatches

theorem selectComponentAffected_evident
    (h : selectComponentAffected libs id catalog candidates matchers paths authorityPaths =
      .ok selected) : selected.All Evident := by
  unfold selectComponentAffected at h
  obtain ⟨batches, hbatches, h⟩ := bind_eq_ok.mp h
  rw [pure_eq_ok] at h
  subst h
  refine AffectedEvidence.Proper.filterMap_evident hcandidates ⟨?_, ?_, ?_⟩
  · apply unclaimedBatch_proper
    exact (ascending_toList _).sublist List.filter_sublist
  · intro target batch hbatch
    dsimp only at hbatch
    rw [(affectedReasonBatches_eq_ok hbatches target.component).1] at hbatch
    obtain ⟨attributed, hattributed, rfl⟩ := Option.map_eq_some_iff.mp hbatch
    refine ⟨attributed.toList, ascending_toList _, ?_, rfl⟩
    intro path hpath
    -- authority paths are taken out of every entry
    rw [ExtTreeMap.getElem?_filter', Option.filter_eq_some_iff,
      ExtTreeMap.getElem?_map, Option.map_eq_some_iff] at hattributed
    obtain ⟨⟨all, -, rfl⟩, -⟩ := hattributed
    exact notMem_of_mem_filter (ExtTreeSet.mem_toList.mp hpath)
  · exact affectedReasonBatches_proper hbatches

theorem selectAffectedTargets_evident {changedPaths : List String}
    (h : selectAffectedTargets libs id catalog candidates changedPaths observedInputPaths =
      .ok selected) : selected.All Evident := by
  unfold selectAffectedTargets at h
  obtain ⟨_, -, h⟩ := bind_eq_ok.mp h
  obtain ⟨_, -, h⟩ := bind_eq_ok.mp h
  obtain ⟨_, -, h⟩ := bind_eq_ok.mp h
  obtain ⟨_, -, h⟩ := bind_eq_ok.mp h
  split at h
  · exact selectTargetLocalAffected_evident hcandidates h
  · exact selectComponentAffected_evident hcandidates h

end Candidates

/-! ## The whole selection -/

theorem intended_empty : Intended {} := ⟨rfl, by simp⟩

theorem foldl_addReason_intended {targets : List TargetId} (h : selected.All Intended)
    (hreason : selectionReasonPriority reason = 0) :
    TargetSelection.All Intended
      (targets.foldl (fun selected target => addReason selected target reason) selected) := by
  refine List.foldlRecOn targets _ h fun selected hselected target _ => ?_
  exact hselected.addReason intended_empty Intended.insert target hreason

theorem selectProfile_intended (h : selectProfile catalog request profile = .ok selected) :
    selected.All Intended := by
  have hempty : TargetSelection.All Intended ∅ := by
    intro target reasons hget
    simp at hget
  unfold selectProfile at h
  split at h
  · split at h
    · cases h
    · cases h
      exact foldl_addReason_intended hempty rfl
  · split at h
    · cases h
    · cases h
      exact hempty

theorem selectExplicit_intended (hselected : selected.All Intended) {selector : String}
    (h : selectExplicit libs catalog selected selector = .ok selected') :
    selected'.All Intended := by
  have halias : ∀ target, TargetSelection.All Intended (selectLegacyAlias selected selector target) :=
    fun target => TargetSelection.All.addReason intended_empty Intended.insert hselected target rfl
  unfold selectExplicit at h
  dsimp only at h
  split at h
  · cases h
    exact halias _
  · cases h
  · split at h
    · cases h
      exact halias _
    · cases h
    · cases h
      exact foldl_addReason_intended hselected rfl

theorem selectCandidates_evident
    (h : selectCandidates libs id catalog request profile changedPaths observedInputPaths =
      .ok candidates) : candidates.All Evident := by
  unfold selectCandidates at h
  obtain ⟨start, hstart, h⟩ := bind_eq_ok.mp h
  obtain ⟨selected, hselected, h⟩ := bind_eq_ok.mp h
  have hintended : selected.All Intended := by
    refine foldlM_ok_induction (fun _ selected => TargetSelection.All Intended selected) hselected
      (selectProfile_intended hstart) ?_
    intro _ _ _ _ _ hs hstep
    exact selectExplicit_intended hs hstep
  split at h
  · exact selectAffectedTargets_evident hintended h
  · rw [pure_eq_ok] at h
    subst h
    intro target reasons hget
    exact (hintended target reasons hget).evident

theorem expandStep_evident {pushed : List TargetId} (hselected : selected.All Evident)
    (h : expandStep catalog selected target = .ok (selected', pushed)) : selected'.All Evident := by
  unfold expandStep at h
  split at h
  · cases h
  · next action _ =>
      rw [Except.ok.injEq] at h
      have hfold : ∀ (l : List TargetId) (state : TargetSelection (List SelectionReason) × _),
          state.1.All Evident → TargetSelection.All Evident
            (l.foldl (addDependency target) state).1 := by
        intro l
        induction l with
        | nil => exact fun _ hstate => hstate
        | cons dependency l ih =>
            intro state hstate
            exact ih _ (TargetSelection.All.addReason intended_empty.evident Evident.insert hstate
              dependency rfl)
      have hall := hfold action.dependsOn (selected, []) hselected
      rwa [h] at hall

/-- **No reason is listed twice.** -/
theorem selectTargets_evident
    (h : selectTargets libs id catalog request profile changedPaths observedInputPaths =
      .ok selected) : selected.All Evident := by
  unfold selectTargets at h
  obtain ⟨candidates, hcandidates, h⟩ := bind_eq_ok.mp h
  exact worklist_invariant (TargetSelection.All Evident)
    (fun hgood hstep => expandStep_evident hgood hstep) (selectCandidates_evident hcandidates) h

end Selection

end Jig.Repository

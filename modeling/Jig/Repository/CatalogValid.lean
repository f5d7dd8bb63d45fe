import Jig.Repository.Catalog

/-!
# What an accepted catalog guarantees

`fromNativeWithIgnore_valid`: a catalog that `from_native_with_ignore` returns keeps every record
under its own name, resolves every reference, and has component and action graphs without cycles.
A graph without cycles is one with a rank that every dependency decreases (`SoundDependencies`); the
rank is the layer in which the peeling loop took the record.
-/

namespace Jig.Repository

open Jig.Contract Jig.Lib Std

/-! ## Dependency graphs -/

section Dependencies

variable {K V : Type} [DecidableEq K] [Ord K] [TransOrd K] [LawfulEqOrd K]
  {texts : DependencyTexts K}

/-- Every dependency is known, none is listed twice, and there are no cycles. -/
structure SoundDependencies (records : ExtTreeMap K V) (dependencies : V → List K) : Prop where
  nodup : ∀ {k : K} {v : V}, records[k]? = some v → (dependencies v).Nodup
  defined : ∀ {k : K} {v : V}, records[k]? = some v → ∀ d ∈ dependencies v, d ∈ records
  ranked : ∃ rank : K → Nat, ∀ {k : K} {v : V}, records[k]? = some v →
    ∀ d ∈ dependencies v, rank d < rank k

variable {records : ExtTreeMap K V} {dependencies : V → List K}

omit [DecidableEq K] [LawfulEqOrd K] in
theorem dependenciesOf_eq {k : K} {v : V} (h : records[k]? = some v) :
    dependenciesOf records dependencies k = dependencies v := by
  unfold dependenciesOf
  rw [h]

omit [DecidableEq K] [LawfulEqOrd K] in
/-- What is not recorded has no dependencies. -/
theorem mem_dependenciesOf {k d : K} :
    d ∈ dependenciesOf records dependencies k ↔
      ∃ v, records[k]? = some v ∧ d ∈ dependencies v := by
  unfold dependenciesOf
  cases records[k]? <;> simp

variable [ToString K]

/-- A graph that is peeled to the end has its layers as a rank. -/
theorem validateAcyclicDependencies_ranked {kind : String}
    (h : validateAcyclicDependencies kind records dependencies = .ok ()) :
    ∃ rank : K → Nat, ∀ {k : K} {v : V}, records[k]? = some v →
      ∀ d ∈ dependencies v, rank d < rank k := by
  unfold validateAcyclicDependencies at h
  split at h
  · next layers hpeel =>
      obtain ⟨hpeeled, hperm⟩ := peel_eq_ok records.nodup_keys hpeel
      refine ⟨layerIndex layers, ?_⟩
      intro k v hget d hd
      have hmem : k ∈ layers.flatten := by
        rw [hperm.mem_iff, ExtTreeMap.mem_keys]
        exact mem_of_getElem?_eq_some hget
      have hd' : d ∈ dependenciesOf records dependencies k := mem_dependenciesOf.mpr ⟨v, hget, hd⟩
      exact (((hpeeled.layerIndex_spec hmem).1 d hd').resolve_left List.not_mem_nil).2
  · simp only [bind_eq_ok] at h
    obtain ⟨_, _, _, _, h⟩ := h
    cases h

omit [LawfulEqOrd K] [ToString K] in
theorem validateRecordDependencies_eq_ok {id : K} {deps : List K} :
    validateRecordDependencies texts records id deps = .ok () ↔
      (∀ d ∈ deps, d ≠ id ∧ d ∈ records) ∧ deps.Nodup := by
  unfold validateRecordDependencies
  apply discard_foldlM_distinct_eq_ok
  intro seen d seen'
  simp only [then_eq_ok, bailIf_eq_ok, pure_eq_ok, beq_eq_false_iff_ne, Bool.not_eq_false',
    ExtTreeMap.contains_iff_mem, List.contains_eq_mem, decide_eq_false_iff_not, and_assoc,
    eq_comm (a := seen')]

/-- **Accepted graphs.** -/
theorem validateDependencies_sound {kind : String} {id : V → K}
    (h : validateDependencies kind texts records id dependencies = .ok ()) :
    SoundDependencies records dependencies := by
  unfold validateDependencies at h
  rw [then_eq_ok, forM_eq_ok, forall_mem_valuesOf] at h
  simp only [validateRecordDependencies_eq_ok] at h
  obtain ⟨hrecords, hacyclic⟩ := h
  exact
    { nodup := fun hget => (hrecords _ _ hget).2
      defined := fun hget d hd => ((hrecords _ _ hget).1 d hd).2
      ranked := validateAcyclicDependencies_ranked hacyclic }

end Dependencies

/-! ## Valid catalogs -/

/-- What `from_native_with_ignore` establishes. -/
structure RepositoryCatalog.Valid (libs : Libraries) (catalog : RepositoryCatalog) : Prop where
  version : nativeRepositoryContractVersion ≤ catalog.contractVersion
  component_key : ∀ {id : ComponentId} {component : ComponentSpec},
    catalog.components[id]? = some component → component.id = id
  components : SoundDependencies catalog.components ComponentSpec.dependsOn
  action_key : ∀ {target : TargetId} {action : ActionSpec},
    catalog.actions[target]? = some action → action.target = target
  actions : SoundDependencies catalog.actions ActionSpec.dependsOn
  action_component : ∀ {target : TargetId}, target ∈ catalog.actions →
    target.component ∈ catalog.components
  action_effects : ∀ {target : TargetId} {action : ActionSpec},
    catalog.actions[target]? = some action → action.effects ≠ []
  inputs_compile : ∀ {target : TargetId} {action : ActionSpec},
    catalog.actions[target]? = some action →
      ∀ input ∈ action.inputs, compileInput libs target input = .ok ⟨input⟩
  ignore_compile : ∀ pattern ∈ catalog.affectedIgnore,
    compilePathPattern libs "affected_ignore" pattern = .ok ⟨pattern⟩
  profile_targets : ∀ {id : ProfileId} {profile : ProfileSpec},
    catalog.profiles[id]? = some profile → ∀ target ∈ profile.targets, target ∈ catalog.actions
  alias_target : ∀ {name : String} {target : TargetId},
    catalog.aliases[name]? = some target → target ∈ catalog.actions

/-! ### Construction -/

section Construction

variable {libs : Libraries} {contractVersion : Nat}
  {components : ExtTreeMap ComponentId ComponentSpec} {componentSpecs : List ComponentSpec}
  {profileSpecs : List ProfileSpec} {actionSpecs : List ActionSpec} {affectedIgnore : List String}

theorem collectComponent_eq_ok (components : ExtTreeMap ComponentId ComponentSpec)
    (component : ComponentSpec) (components' : ExtTreeMap ComponentId ComponentSpec) :
    collectComponent components component = .ok components' ↔
      (component.id.value == "repo" && component.root != ".") = false ∧
        component.id ∉ components ∧ components' = components.insert component.id component := by
  unfold collectComponent
  simp only [then_eq_ok, bailIf_eq_ok, pure_eq_ok, contains_eq_false_iff, eq_comm (a := components')]

theorem collectComponents_key (h : componentSpecs.foldlM collectComponent ∅ = .ok components)
    {id : ComponentId} {component : ComponentSpec} (hget : components[id]? = some component) :
    component.id = id := by
  obtain ⟨-, hnodup, -, rfl⟩ := (foldlM_insertNew_eq_ok collectComponent_eq_ok).mp h
  obtain ⟨c, -, hkey, rfl⟩ := (getElem?_insertAll_empty_eq_some hnodup).mp hget
  exact hkey

variable {actions : ExtTreeMap TargetId ActionSpec} {profile : ProfileSpec}

theorem validateProfileTargets_eq_ok :
    validateProfileTargets actions profile = .ok () ↔
      (∀ target ∈ profile.targets, target ∈ actions) ∧ profile.targets.Nodup := by
  unfold validateProfileTargets
  apply discard_foldlM_distinct_eq_ok
  intro seen t seen'
  simp only [then_eq_ok, bailIf_eq_ok, pure_eq_ok, Bool.not_eq_false',
    ExtTreeMap.contains_iff_mem, List.contains_eq_mem, decide_eq_false_iff_not,
    eq_comm (a := seen')]

theorem collectProfile_eq_ok (actions : ExtTreeMap TargetId ActionSpec)
    (profiles : ExtTreeMap ProfileId ProfileSpec) (profile : ProfileSpec)
    (profiles' : ExtTreeMap ProfileId ProfileSpec) :
    collectProfile actions profiles profile = .ok profiles' ↔
      (profile.targets ≠ [] ∧ (∀ target ∈ profile.targets, target ∈ actions) ∧
          profile.targets.Nodup) ∧
        profile.id ∉ profiles ∧ profiles' = profiles.insert profile.id profile := by
  unfold collectProfile
  simp only [then_eq_ok, bailIf_eq_ok, pure_eq_ok, contains_eq_false_iff,
    validateProfileTargets_eq_ok, List.isEmpty_eq_false_iff, eq_comm (a := profiles'), and_assoc]

theorem collectProfiles_targets {profiles : ExtTreeMap ProfileId ProfileSpec}
    (h : collectProfiles profileSpecs actions = .ok profiles) {id : ProfileId}
    (hget : profiles[id]? = some profile) : ∀ target ∈ profile.targets, target ∈ actions := by
  obtain ⟨hgood, hnodup, -, rfl⟩ := (foldlM_insertNew_eq_ok (collectProfile_eq_ok actions)).mp h
  obtain ⟨p, hp, -, rfl⟩ := (getElem?_insertAll_empty_eq_some hnodup).mp hget
  exact (hgood p hp).2.1

/-- What the checks of one action leave behind. -/
theorem validateAction_ok {spec action : ActionSpec}
    (h : validateAction libs contractVersion components spec = .ok action) :
    action.target.component ∈ components ∧ action.effects ≠ [] := by
  unfold validateAction at h
  obtain ⟨a, -, h⟩ := bind_eq_ok.mp h
  simp only [then_eq_ok, bailIf_eq_ok, pure_eq_ok, Bool.not_eq_false',
    ExtTreeMap.contains_iff_mem, List.isEmpty_eq_false_iff] at h
  obtain ⟨-, -, -, -, hcomponent, heffects, -, -, rfl⟩ := h
  exact ⟨hcomponent, heffects⟩

/-- Aliases are only added, and only for the target they are registered for. -/
theorem registerAliases_target {aliases aliases' : ExtTreeMap String TargetId}
    {targetAliases targetAliases' : ExtTreeMap TargetId (List String)} {target : TargetId}
    {newAliases : List String}
    (h : registerAliases libs aliases targetAliases target newAliases =
      .ok (aliases', targetAliases')) {name : String} {t : TargetId}
    (hget : aliases'[name]? = some t) : t = target ∨ aliases[name]? = some t := by
  unfold registerAliases at h
  simp only [bind_eq_ok, pure_eq_ok, Prod.mk.injEq] at h
  obtain ⟨⟨seen, final⟩, hloop, rfl, -⟩ := h
  have hfinal := foldlM_ok_induction
    (fun _ (s : List String × ExtTreeMap String TargetId) => ∀ t : TargetId,
      s.2[name]? = some t → t = target ∨ aliases[name]? = some t) hloop (fun _ => Or.inr) ?_
  · exact hfinal t hget
  intro done new s s' _ hs hstep t' hget'
  simp only [then_eq_ok, bailIf_eq_ok] at hstep
  obtain ⟨-, -, -, hstep⟩ := hstep
  split at hstep
  · cases hstep
  · rw [pure_eq_ok] at hstep
    subst hstep
    rcases getElem?_insert_self_or s.2 new name target with ⟨-, hget''⟩ | ⟨-, hget''⟩
    · rw [hget''] at hget'
      exact .inl (Option.some.inj hget').symm
    · rw [hget''] at hget'
      exact hs t' hget'

/-- The maps of the action loop: names are keys, and references resolve. -/
structure CollectedActions.Sound (components : ExtTreeMap ComponentId ComponentSpec)
    (collected : CollectedActions) : Prop where
  key : ∀ {target : TargetId} {action : ActionSpec},
    collected.actions[target]? = some action → action.target = target
  component : ∀ {target : TargetId}, target ∈ collected.actions → target.component ∈ components
  effects : ∀ {target : TargetId} {action : ActionSpec},
    collected.actions[target]? = some action → action.effects ≠ []
  alias_target : ∀ {name : String} {target : TargetId},
    collected.aliases[name]? = some target → target ∈ collected.actions

theorem CollectedActions.Sound.collectAction {collected collected' : CollectedActions}
    {spec : ActionSpec} (hs : collected.Sound components)
    (h : collectAction libs contractVersion components collected spec = .ok collected') :
    collected'.Sound components := by
  unfold Jig.Repository.collectAction at h
  obtain ⟨action, haction, h⟩ := bind_eq_ok.mp h
  obtain ⟨-, h⟩ := then_eq_ok.mp h
  obtain ⟨⟨aliases, targetAliases⟩, haliases, h⟩ := bind_eq_ok.mp h
  rw [pure_eq_ok] at h
  subst h
  obtain ⟨hcomponent, heffects⟩ := validateAction_ok haction
  refine ⟨?_, ?_, ?_, ?_⟩
  · intro target a hget
    rcases getElem?_insert_self_or collected.actions action.target target action with
      ⟨heq, hget'⟩ | ⟨-, hget'⟩
    · rw [hget', Option.some.injEq] at hget
      rw [← hget, heq]
    · exact hs.key (hget'.symm.trans hget)
  · intro target hmem
    rcases mem_insert_iff.mp hmem with heq | hmem
    · rw [← heq]
      exact hcomponent
    · exact hs.component hmem
  · intro target a hget
    rcases getElem?_insert_self_or collected.actions action.target target action with
      ⟨-, hget'⟩ | ⟨-, hget'⟩
    · rw [hget', Option.some.injEq] at hget
      rw [← hget]
      exact heffects
    · exact hs.effects (hget'.symm.trans hget)
  · intro name target hget
    rw [mem_insert_iff]
    rcases registerAliases_target haliases hget with heq | hold
    · exact .inl heq.symm
    · exact .inr (hs.alias_target hold)

theorem collectActions_sound {collected : CollectedActions}
    (h : actionSpecs.foldlM (collectAction libs contractVersion components) {} = .ok collected) :
    collected.Sound components := by
  refine foldlM_ok_induction (fun _ collected => collected.Sound components) h ?_ ?_
  · exact ⟨by simp, by simp, by simp, by simp⟩
  · intro done spec s s' _ hs hstep
    exact hs.collectAction hstep

theorem validateNativePathPolicy_ok
    (h : validateNativePathPolicy libs components actions affectedIgnore = .ok ()) :
    (∀ (target : TargetId) (action : ActionSpec), actions[target]? = some action →
        ∀ input ∈ action.inputs, compileInput libs action.target input = .ok ⟨input⟩) ∧
      ∀ pattern ∈ affectedIgnore,
        compilePathPattern libs "affected_ignore" pattern = .ok ⟨pattern⟩ := by
  unfold validateNativePathPolicy at h
  rw [then_eq_ok, then_eq_ok, forM_eq_ok, forM_eq_ok, forM_eq_ok] at h
  obtain ⟨-, hactions, hignore⟩ := h
  constructor
  · intro target action hget input hinput
    have hok := forM_eq_ok.mp (forall_mem_valuesOf.mp hactions target action hget) input hinput
    cases hcompile : compileInput libs action.target input with
    | error e =>
        rw [hcompile] at hok
        cases hok
    | ok compiled => rw [compileInput_pattern hcompile]
  · intro pattern hpattern
    obtain ⟨compiled, hcompile, -⟩ := bind_eq_ok.mp (hignore pattern hpattern)
    rw [mapError_eq_ok] at hcompile
    rw [hcompile, compilePathPattern_pattern hcompile]

/-- **Accepted catalogs are valid.** -/
theorem fromNativeWithIgnore_valid {configDigest : String} {defaultCheckProfile : Option ProfileId}
    {catalog : RepositoryCatalog}
    (h : fromNativeWithIgnore libs contractVersion configDigest componentSpecs actionSpecs
      profileSpecs defaultCheckProfile affectedIgnore = .ok catalog) : catalog.Valid libs := by
  unfold fromNativeWithIgnore at h
  simp only [then_eq_ok, bailIf_eq_ok] at h
  obtain ⟨hversion, -, -, h⟩ := h
  obtain ⟨components, hcomponents, h⟩ := bind_eq_ok.mp h
  obtain ⟨hcomponentDeps, h⟩ := then_eq_ok.mp h
  obtain ⟨collected, hcollected, h⟩ := bind_eq_ok.mp h
  obtain ⟨hactionDeps, h⟩ := then_eq_ok.mp h
  obtain ⟨-, -, h⟩ := bind_eq_ok.mp h
  obtain ⟨hpaths, h⟩ := then_eq_ok.mp h
  obtain ⟨profiles, hprofiles, h⟩ := bind_eq_ok.mp h
  obtain ⟨-, h⟩ := then_eq_ok.mp h
  rw [pure_eq_ok] at h
  subst h
  have hsound := collectActions_sound hcollected
  obtain ⟨hinputs, hignore⟩ := validateNativePathPolicy_ok hpaths
  exact
    { version := by simpa using hversion
      component_key := collectComponents_key hcomponents
      components := validateDependencies_sound hcomponentDeps
      action_key := hsound.key
      actions := validateDependencies_sound hactionDeps
      action_component := hsound.component
      action_effects := hsound.effects
      inputs_compile := fun hget => hsound.key hget ▸ hinputs _ _ hget
      ignore_compile := hignore
      profile_targets := collectProfiles_targets hprofiles
      alias_target := hsound.alias_target }

end Construction

end Jig.Repository

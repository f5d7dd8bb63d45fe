import Jig.Repository.Affected
import Jig.Repository.CatalogValid

/-!
# What a changed path concerns

A statement of the purpose of affected selection in its own terms, and the proof that the source
computes it. A path matches an input of an action; or it lies inside the root of a component that
has actions without inputs, and the innermost such components answer for it; or nothing claims it.

* `mem_matchingTargets`, `matchesAny_iff`: the compiled matchers decide input matching;
* `mem_mostSpecificInputlessTargets`: the fallback picks the innermost components;
* `mem_attributedTargets`, `attributedTargets_eq_nil`: attribution, and when it comes up empty.
-/

namespace Jig.Repository

open Jig.Contract Jig.Lib Std

/-! ## Attribution -/

section Specification

variable (libs : Libraries) (catalog : RepositoryCatalog)

def MatchesInput (target : TargetId) (path : String) : Prop :=
  ∃ action, catalog.actions[target]? = some action ∧
    ∃ input ∈ action.inputs, libs.globIsMatch input path = true

def Inputless (target : TargetId) : Prop :=
  ∃ action, catalog.actions[target]? = some action ∧ action.inputs = []

/-- The component has an action without inputs, and its root, at the given depth, contains the
path. -/
def InputlessAround (path : String) (id : ComponentId) (depth : Nat) : Prop :=
  (∃ target, Inputless catalog target ∧ target.component = id) ∧
    ∃ component, catalog.components[id]? = some component ∧
      rootContains component.root path = true ∧ rootDepth component.root = depth

def Innermost (path : String) (id : ComponentId) : Prop :=
  ∃ depth, InputlessAround catalog path id depth ∧
    ∀ id' depth', InputlessAround catalog path id' depth' → depth' ≤ depth

def Attributed (path : String) (target : TargetId) : Prop :=
  MatchesInput libs catalog target path ∨
    (∀ t, ¬ MatchesInput libs catalog t path) ∧ Inputless catalog target ∧
      Innermost catalog path target.component

/-- No input matches the path, and no component with an action without inputs is around it. -/
def Unclaimed (path : String) : Prop :=
  (∀ target, ¬ MatchesInput libs catalog target path) ∧
    ∀ id depth, ¬ InputlessAround catalog path id depth

end Specification

/-! ## Matchers -/

variable {target : TargetId} {path : String} {action : ActionSpec} {catalog : RepositoryCatalog}
  {libs : Libraries} {id : ComponentId} {byTarget : ExtTreeMap TargetId (List CompiledPattern)}
  {matcher : TargetInputMatcherV1} {actions : List ActionSpec}

section Matchers

/-- A matcher holds the compiled inputs of every action that has some. -/
structure TargetInputMatcherV1.Of (catalog : RepositoryCatalog) (matcher : TargetInputMatcherV1) :
    Prop where
  byTarget : ∀ (target : TargetId) (inputs : List CompiledPattern),
    matcher.byTarget[target]? = some inputs ↔
      ∃ action, catalog.actions[target]? = some action ∧ action.inputs ≠ [] ∧
        inputs = action.inputs.map CompiledPattern.mk

theorem mapM_compileInput (hvalid : catalog.Valid libs)
    (haction : catalog.actions[target]? = some action) :
    action.inputs.mapM (compileInput libs target) =
      .ok (action.inputs.map CompiledPattern.mk) := by
  rw [mapM_eq_ok, List.forall₂_map_right_iff, List.forall₂_same]
  exact hvalid.inputs_compile haction

/-- The actions of a valid catalog carry distinct targets. -/
theorem nodup_targets (hvalid : catalog.Valid libs) :
    ((valuesOf catalog.actions).map ActionSpec.target).Nodup := by
  have hkeys : (valuesOf catalog.actions).map ActionSpec.target = catalog.actions.keys := by
    rw [valuesOf, List.map_map, ← ExtTreeMap.map_fst_toList_eq_keys]
    apply List.map_congr_left
    intro entry hentry
    exact hvalid.action_key (ExtTreeMap.mem_toList_iff_getElem?_eq_some.mp hentry)
  rw [hkeys]
  exact ExtTreeMap.nodup_keys

/-- The entries a list of actions leaves in the map. -/
def HoldsInputs (actions : List ActionSpec)
    (byTarget : ExtTreeMap TargetId (List CompiledPattern)) : Prop :=
  ∀ (target : TargetId) (inputs : List CompiledPattern), byTarget[target]? = some inputs ↔
    ∃ action ∈ actions, action.target = target ∧ action.inputs ≠ [] ∧
      inputs = action.inputs.map CompiledPattern.mk

theorem HoldsInputs.insert (h : HoldsInputs actions byTarget) (hinputs : action.inputs ≠ [])
    (hnew : action.target ∉ actions.map ActionSpec.target) :
    HoldsInputs (actions ++ [action])
      (byTarget.insert action.target (action.inputs.map CompiledPattern.mk)) := by
  intro target inputs
  simp only [List.mem_append, List.mem_singleton, or_and_right, exists_or, exists_eq_left]
  rcases getElem?_insert_self_or byTarget action.target target
    (action.inputs.map CompiledPattern.mk) with ⟨rfl, hget⟩ | ⟨hne, hget⟩
  · -- no earlier action has this target
    rw [hget, Option.some.injEq]
    constructor
    · rintro rfl
      exact .inr ⟨rfl, hinputs, rfl⟩
    · rintro (⟨a, ha, htarget, -⟩ | ⟨-, -, heq⟩)
      · exact absurd (List.mem_map.mpr ⟨a, ha, htarget⟩) hnew
      · exact heq.symm
  · rw [hget, h target inputs]
    exact ⟨.inl, fun hor => hor.resolve_right fun hself => hne hself.1⟩

theorem HoldsInputs.skip (h : HoldsInputs actions byTarget) (hinputs : action.inputs = []) :
    HoldsInputs (actions ++ [action]) byTarget := by
  intro target inputs
  simp only [List.mem_append, List.mem_singleton, or_and_right, exists_or, exists_eq_left]
  rw [h target inputs]
  exact ⟨.inl, fun hor => hor.resolve_right fun hself => hself.2.1 hinputs⟩

theorem TargetInputMatcherV1.add_ok (matcher : TargetInputMatcherV1) (hvalid : catalog.Valid libs)
    (haction : catalog.actions[action.target]? = some action) (hinputs : action.inputs ≠ []) :
    ∃ matcher', matcher.add libs action = .ok matcher' ∧
      matcher'.byTarget =
        matcher.byTarget.insert action.target (action.inputs.map CompiledPattern.mk) := by
  unfold TargetInputMatcherV1.add
  rw [mapM_compileInput hvalid haction, if_neg (by simpa using hinputs)]
  exact ⟨_, rfl, rfl⟩

/-- **Matchers compile.** -/
theorem new_ok (hvalid : catalog.Valid libs) :
    ∃ matcher, TargetInputMatcherV1.new libs catalog = .ok matcher ∧ matcher.Of catalog := by
  have hloop : ∃ matcher, TargetInputMatcherV1.new libs catalog = .ok matcher ∧
      HoldsInputs (valuesOf catalog.actions) matcher.byTarget := by
    refine foldlM_ok_progress (fun done (matcher : TargetInputMatcherV1) =>
      HoldsInputs done matcher.byTarget) ?_ ?_
    · intro target inputs
      simp
    · intro done action matcher hdone hholds
      have hmem : action ∈ valuesOf catalog.actions := hdone.subset (by simp)
      obtain ⟨target, htarget⟩ := mem_valuesOf.mp hmem
      obtain rfl := hvalid.action_key htarget
      have hnew : action.target ∉ done.map ActionSpec.target := by
        have hnodup := (nodup_targets hvalid).sublist (hdone.sublist.map ActionSpec.target)
        rw [List.map_append, List.nodup_append] at hnodup
        intro hold
        exact hnodup.2.2 _ hold _ (by simp) rfl
      by_cases hinputs : action.inputs = []
      · refine ⟨matcher, ?_, hholds.skip hinputs⟩
        simp [TargetInputMatcherV1.add, hinputs]
      · obtain ⟨matcher', hadd, hbyTarget⟩ := matcher.add_ok hvalid htarget hinputs
        exact ⟨matcher', hadd, hbyTarget ▸ hholds.insert hinputs hnew⟩
  obtain ⟨matcher, hmatcher, hholds⟩ := hloop
  refine ⟨matcher, hmatcher, ⟨?_⟩⟩
  intro target inputs
  rw [hholds target inputs]
  constructor
  · rintro ⟨action, haction, rfl, hrest⟩
    obtain ⟨key, hkey⟩ := mem_valuesOf.mp haction
    rw [hvalid.action_key hkey]
    exact ⟨action, hkey, hrest⟩
  · rintro ⟨action, haction, hrest⟩
    exact ⟨action, mem_valuesOf.mpr ⟨target, haction⟩, hvalid.action_key haction, hrest⟩

theorem any_isMatch {inputs : List String} :
    (inputs.map CompiledPattern.mk).any (·.isMatch libs path) = true ↔
      ∃ input ∈ inputs, libs.globIsMatch input path = true := by
  simp [CompiledPattern.isMatch]

theorem mem_matchingTargets (hmatcher : matcher.Of catalog) :
    target ∈ matcher.matchingTargets libs path ↔ MatchesInput libs catalog target path := by
  simp only [TargetInputMatcherV1.matchingTargets, List.mem_map, List.mem_filter, Prod.exists,
    exists_and_right, exists_eq_right, ExtTreeMap.mem_toList_iff_getElem?_eq_some]
  constructor
  · rintro ⟨inputs, hget, hmatch⟩
    obtain ⟨action, haction, -, rfl⟩ := (hmatcher.byTarget target inputs).mp hget
    exact ⟨action, haction, any_isMatch.mp hmatch⟩
  · rintro ⟨action, haction, hmatch⟩
    have hne : action.inputs ≠ [] := by
      obtain ⟨input, hinput, -⟩ := hmatch
      exact List.ne_nil_of_mem hinput
    exact ⟨_, (hmatcher.byTarget target _).mpr ⟨action, haction, hne, rfl⟩, any_isMatch.mpr hmatch⟩

theorem matchesAny_iff (hmatcher : matcher.Of catalog) :
    matcher.matchesAny libs path = true ↔ ∃ target, MatchesInput libs catalog target path := by
  simp only [← mem_matchingTargets hmatcher, TargetInputMatcherV1.matchesAny,
    TargetInputMatcherV1.matchingTargets, valuesOf, List.any_map, List.any_eq_true, List.mem_map,
    List.mem_filter, Function.comp_apply]
  constructor
  · rintro ⟨entry, hentry, hmatch⟩
    exact ⟨entry.1, entry, ⟨hentry, hmatch⟩, rfl⟩
  · rintro ⟨_, entry, ⟨hentry, hmatch⟩, -⟩
    exact ⟨entry, hentry, hmatch⟩

end Matchers

/-! ## Roots -/

section Roots

/-- The multimap of the fallback: the targets without inputs of each component. -/
def inputlessByComponent (catalog : RepositoryCatalog) : Multimap ComponentId TargetId :=
  .ofPairs (((valuesOf catalog.actions).filter (·.inputs.isEmpty)).map
    fun action => (action.target.component, action.target))

/-- The depths of the components around a path that have actions without inputs. -/
def inputlessDepths (catalog : RepositoryCatalog) (path : String) : List Nat :=
  ((valuesOf catalog.components).filter fun component =>
    (inputlessByComponent catalog).contains component.id && rootContains component.root path).map
      fun component => rootDepth component.root

variable (hvalid : catalog.Valid libs)

include hvalid

theorem mem_lookup_inputlessByComponent :
    target ∈ (inputlessByComponent catalog).lookup id ↔
      Inputless catalog target ∧ target.component = id := by
  rw [inputlessByComponent, Multimap.mem_lookup_ofPairs]
  simp only [List.mem_map, List.mem_filter, List.isEmpty_iff, Prod.mk.injEq]
  constructor
  · rintro ⟨action, ⟨haction, hinputs⟩, rfl, rfl⟩
    obtain ⟨key, hkey⟩ := mem_valuesOf.mp haction
    rw [hvalid.action_key hkey]
    exact ⟨⟨action, hkey, hinputs⟩, rfl⟩
  · rintro ⟨⟨action, haction, hinputs⟩, rfl⟩
    rw [← hvalid.action_key haction]
    exact ⟨action, ⟨mem_valuesOf.mpr ⟨target, haction⟩, hinputs⟩, rfl, rfl⟩

theorem mem_inputlessByComponent :
    id ∈ inputlessByComponent catalog ↔
      ∃ target, Inputless catalog target ∧ target.component = id := by
  simp only [← mem_lookup_inputlessByComponent hvalid]
  rw [inputlessByComponent, Multimap.mem_ofPairs]
  simp only [Multimap.mem_lookup_ofPairs]

theorem mem_inputlessDepths {depth : Nat} :
    depth ∈ inputlessDepths catalog path ↔ ∃ id, InputlessAround catalog path id depth := by
  simp only [inputlessDepths, List.mem_map, List.mem_filter, Bool.and_eq_true, mem_valuesOf,
    ExtTreeMap.contains_iff_mem, mem_inputlessByComponent hvalid]
  constructor
  · rintro ⟨component, ⟨⟨id, hid⟩, htarget, hroot⟩, rfl⟩
    rw [hvalid.component_key hid] at htarget
    exact ⟨id, htarget, component, hid, hroot, rfl⟩
  · rintro ⟨id, htarget, component, hid, hroot, rfl⟩
    refine ⟨component, ⟨⟨id, hid⟩, ?_, hroot⟩, rfl⟩
    rw [hvalid.component_key hid]
    exact htarget

/-- **The fallback picks the innermost components.** -/
theorem mem_mostSpecificInputlessTargets :
    target ∈ mostSpecificInputlessTargets catalog path ↔
      Inputless catalog target ∧ Innermost catalog path target.component := by
  have hunfold : target ∈ mostSpecificInputlessTargets catalog path ↔
      ∃ component ∈ valuesOf catalog.components,
        (some (rootDepth component.root) = (inputlessDepths catalog path).max? ∧
          rootContains component.root path = true) ∧
        Inputless catalog target ∧ target.component = component.id := by
    simp only [mostSpecificInputlessTargets, ExtTreeSet.mem_toList, mem_treeSet_ofList,
      List.mem_flatMap, List.mem_filter, Bool.and_eq_true, beq_iff_eq, and_assoc]
    refine exists_congr fun component => and_congr_right fun _ => and_congr_right fun _ =>
      and_congr_right fun _ => ?_
    exact mem_lookup_inputlessByComponent hvalid
  rw [hunfold]
  constructor
  · rintro ⟨component, hcomponent, ⟨hdepth, hroot⟩, hinputless, hid⟩
    obtain ⟨id, hget⟩ := mem_valuesOf.mp hcomponent
    obtain rfl := hvalid.component_key hget
    obtain ⟨-, hmax⟩ := List.max?_eq_some_iff.mp hdepth.symm
    refine ⟨hinputless, rootDepth component.root, ⟨⟨target, hinputless, rfl⟩, component, ?_, hroot,
      rfl⟩, ?_⟩
    · rw [hid]
      exact hget
    · intro id' depth' haround
      exact hmax depth' ((mem_inputlessDepths hvalid).mpr ⟨id', haround⟩)
  · rintro ⟨hinputless, depth, haround, hmax⟩
    have haround' := haround
    obtain ⟨-, component, hget, hroot, rfl⟩ := haround'
    refine ⟨component, mem_valuesOf.mpr ⟨_, hget⟩, ⟨?_, hroot⟩, hinputless,
      (hvalid.component_key hget).symm⟩
    symm
    rw [List.max?_eq_some_iff]
    refine ⟨(mem_inputlessDepths hvalid).mpr ⟨_, haround⟩, ?_⟩
    intro depth' hdepth'
    obtain ⟨id', haround'⟩ := (mem_inputlessDepths hvalid).mp hdepth'
    exact hmax id' depth' haround'

/-- Around a path, some component with an action without inputs is innermost. -/
theorem exists_innermost {depth : Nat} (h : InputlessAround catalog path id depth) :
    ∃ target, Inputless catalog target ∧ Innermost catalog path target.component := by
  have hmem : depth ∈ inputlessDepths catalog path := (mem_inputlessDepths hvalid).mpr ⟨id, h⟩
  cases hmax : (inputlessDepths catalog path).max? with
  | none =>
      rw [List.max?_eq_none_iff] at hmax
      rw [hmax] at hmem
      cases hmem
  | some deepest =>
      obtain ⟨hdeepest, hle⟩ := List.max?_eq_some_iff.mp hmax
      obtain ⟨id', haround⟩ := (mem_inputlessDepths hvalid).mp hdeepest
      have haround' := haround
      obtain ⟨⟨target, hinputless, rfl⟩, -⟩ := haround'
      refine ⟨target, hinputless, deepest, haround, ?_⟩
      intro id'' depth'' h''
      exact hle depth'' ((mem_inputlessDepths hvalid).mpr ⟨id'', h''⟩)

end Roots

/-! ## Attribution is what the source computes -/

section Attributed

theorem mem_attributedTargets (hvalid : catalog.Valid libs) (hmatcher : matcher.Of catalog) :
    target ∈ attributedTargets libs catalog matcher path ↔ Attributed libs catalog path target := by
  unfold attributedTargets
  by_cases hnone : (matcher.matchingTargets libs path).isEmpty
  · rw [if_pos hnone, mem_mostSpecificInputlessTargets hvalid]
    rw [List.isEmpty_iff] at hnone
    have hno : ∀ t, ¬ MatchesInput libs catalog t path := by
      intro t ht
      rw [← mem_matchingTargets hmatcher, hnone] at ht
      cases ht
    simp [Attributed, hno]
  · rw [if_neg hnone, mem_matchingTargets hmatcher]
    rw [List.isEmpty_iff] at hnone
    obtain ⟨t, ht⟩ := List.exists_mem_of_ne_nil _ hnone
    rw [mem_matchingTargets hmatcher] at ht
    constructor
    · exact .inl
    · intro h
      exact h.resolve_right fun hfallback => hfallback.1 t ht

/-- **Unclaimed paths.** -/
theorem attributedTargets_eq_nil (hvalid : catalog.Valid libs) (hmatcher : matcher.Of catalog) :
    attributedTargets libs catalog matcher path = [] ↔ Unclaimed libs catalog path := by
  rw [List.eq_nil_iff_forall_not_mem]
  simp only [mem_attributedTargets hvalid hmatcher]
  constructor
  · intro hnone
    have hno : ∀ t, ¬ MatchesInput libs catalog t path := fun t ht => hnone t (.inl ht)
    refine ⟨hno, ?_⟩
    intro id depth haround
    obtain ⟨target, hinputless, hinner⟩ := exists_innermost hvalid haround
    exact hnone target (.inr ⟨hno, hinputless, hinner⟩)
  · rintro ⟨hno, hroots⟩ target (hmatch | ⟨-, -, depth, haround, -⟩)
    · exact hno target hmatch
    · exact hroots _ _ haround

/-- What a path is attributed to is an action of the catalog. -/
theorem Attributed.defined (h : Attributed libs catalog path target) :
    target ∈ catalog.actions := by
  rcases h with ⟨action, haction, -⟩ | ⟨-, ⟨action, haction, -⟩, -⟩
  · exact mem_of_getElem?_eq_some haction
  · exact mem_of_getElem?_eq_some haction

end Attributed

end Jig.Repository

import Jig.Repository.CargoImpact

/-!
# Changed paths that narrowing does not see

A path is owned by the component whose root lies deepest above it, and the components with shallower
roots are told that it is shadowed. Where the deepest root is shared by several components the path
is ambiguous for each of them, and the components with shallower roots are not told anything: such a
path is hidden from them. `nothing_ignored_iff` says that a component never misses a path when no
path is hidden, and `hidden_path_is_narrowed_over` is a run in which one is.
-/

namespace Jig.Repository

open Jig.Cargo Jig.Contract Jig.Lib Std

/-! ## Owners of one path -/

variable {component : RustComponent}

section OnePath

variable {components : List RustComponent} {path : String}

structure Deepest (components : List RustComponent) (path : String) (component : RustComponent) :
    Prop where
  mem : component ∈ components
  contains : rootContains component.root path = true
  deepest : ∀ other ∈ components, rootContains other.root path = true →
    rootDepth other.root ≤ rootDepth component.root

structure SoleOwner (components : List RustComponent) (path : String) (component : RustComponent) :
    Prop extends Deepest components path component where
  alone : ∀ other, Deepest components path other → other = component

/-- The path configures the component from outside of its root. -/
def ConfiguredFromAbove (components : List RustComponent) (path : String)
    (component : RustComponent) : Prop :=
  component ∈ components ∧ rootContains component.root path = false ∧
    ∃ directory, rustConfigurationDirectory path = some directory ∧
      rootContains directory component.root = true

/-- The deepest components are found by the greatest depth. -/
theorem mem_deepest {maxDepth : Nat}
    (hmax : ((components.filter fun c => rootContains c.root path).map
      fun c => rootDepth c.root).max? = some maxDepth) :
    component ∈ ((components.filter fun c => rootContains c.root path).filter
        fun c => rootDepth c.root == maxDepth) ↔ Deepest components path component := by
  obtain ⟨hattained, hle⟩ := List.max?_eq_some_iff.mp hmax
  obtain ⟨best, hbest, hdepth⟩ := List.mem_map.mp hattained
  obtain ⟨hmem, hcontains⟩ := List.mem_filter.mp hbest
  have hupper : ∀ other ∈ components, rootContains other.root path = true →
      rootDepth other.root ≤ maxDepth := by
    intro other hother habove
    exact hle _ (List.mem_map_of_mem (List.mem_filter.mpr ⟨hother, habove⟩))
  simp only [List.mem_filter, beq_iff_eq]
  constructor
  · rintro ⟨⟨hcomponent, habove⟩, heq⟩
    exact ⟨hcomponent, habove, fun other hother hother' => heq ▸ hupper other hother hother'⟩
  · rintro ⟨hcomponent, habove, hdeepest⟩
    refine ⟨⟨hcomponent, habove⟩, Nat.le_antisymm (hupper component hcomponent habove) ?_⟩
    rw [← hdepth]
    exact hdeepest best hmem hcontains

/-- A path under some root has a deepest root above it. -/
theorem exists_deepest (hmem : component ∈ components)
    (hcontains : rootContains component.root path = true) :
    ∃ owner, Deepest components path owner := by
  cases hmax : ((components.filter fun c => rootContains c.root path).map
      fun c => rootDepth c.root).max? with
  | none =>
      rw [List.max?_eq_none_iff, List.map_eq_nil_iff, List.filter_eq_nil_iff] at hmax
      exact absurd hcontains (hmax component hmem)
  | some maxDepth =>
      obtain ⟨owner, howner, hdepth⟩ := List.mem_map.mp (List.max?_eq_some_iff.mp hmax).1
      exact ⟨owner, (mem_deepest hmax).mp (List.mem_filter.mpr ⟨howner, by simpa using hdepth⟩)⟩

theorem mem_configuredComponents :
    component ∈ configuredComponents components path ↔
      ConfiguredFromAbove components path component := by
  unfold configuredComponents ConfiguredFromAbove
  cases rustConfigurationDirectory path with
  | none => simp
  | some directory =>
      simp only [List.mem_filter, Bool.and_eq_true, Bool.not_eq_true', Option.some.injEq,
        exists_eq_left']
      tauto

/-- What becomes of a path in the three lists. -/
structure PathOwners.Exact (components : List RustComponent) (path : String)
    (owners : PathOwners) : Prop where
  owned : ∀ {c}, c ∈ owners.owned ↔
    ConfiguredFromAbove components path c ∨ SoleOwner components path c
  ambiguous : ∀ {c}, c ∈ owners.ambiguous ↔
    Deepest components path c ∧ ¬SoleOwner components path c
  shadowed : ∀ {c}, c ∈ owners.shadowed ↔
    c ∈ components ∧ rootContains c.root path = true ∧ ¬Deepest components path c ∧
      ∃ owner, SoleOwner components path owner

theorem assignChangedPath_exact (hnodup : components.Nodup) (path : String) :
    (assignChangedPath components path).Exact components path := by
  unfold assignChangedPath
  dsimp only
  cases hmax : ((components.filter fun c => rootContains c.root path).map
      fun c => rootDepth c.root).max? with
  | none =>
      -- the path is below no root
      have hnone : ∀ c, ¬Deepest components path c := by
        intro c hc
        rw [List.max?_eq_none_iff, List.map_eq_nil_iff, List.filter_eq_nil_iff] at hmax
        exact hmax c hc.mem hc.contains
      have hsole : ∀ c, ¬SoleOwner components path c := fun c hc => hnone c hc.toDeepest
      constructor
      · simp [mem_configuredComponents, hsole]
      · simp [hnone]
      · simp [hsole]
  | some maxDepth =>
      dsimp only
      have hdeepest : ∀ {c}, c ∈ ((components.filter fun c => rootContains c.root path).filter
          fun c => rootDepth c.root == maxDepth) ↔ Deepest components path c := mem_deepest hmax
      have hdistinct := (hnodup.filter fun c => rootContains c.root path).filter
        fun c => rootDepth c.root == maxDepth
      have hdepth : ∀ {c}, Deepest components path c → rootDepth c.root = maxDepth := by
        intro c hc
        simpa using (List.mem_filter.mp (hdeepest.mpr hc)).2
      generalize hlist : ((components.filter fun c => rootContains c.root path).filter
          fun c => rootDepth c.root == maxDepth) = deepest at hdeepest hdistinct
      -- the match on the deepest components asks for a sole owner
      have hsole : ∀ {c}, SoleOwner components path c ↔ deepest = [c] := by
        intro c
        rw [eq_singleton_iff_of_nodup hdistinct]
        constructor
        · intro hc b
          rw [hdeepest]
          exact ⟨hc.alone b, fun hb => hb ▸ hc.toDeepest⟩
        · intro hc
          exact ⟨hdeepest.mp ((hc c).mpr rfl), fun b hb => (hc b).mp (hdeepest.mpr hb)⟩
      split
      · next only =>
          have honly : SoleOwner components path only := hsole.mpr rfl
          constructor
          · intro c
            rw [List.mem_append, mem_configuredComponents, hsole]
            simp [eq_comm]
          · intro c
            simp only [List.not_mem_nil, false_iff, not_and, not_not]
            intro hc
            rwa [honly.alone c hc]
          · intro c
            simp only [List.mem_filter, Bool.and_eq_true, decide_eq_true_eq]
            constructor
            · rintro ⟨hc, habove, hlt⟩
              exact ⟨hc, habove, fun h => hlt.ne (hdepth h), only, honly⟩
            · rintro ⟨hc, habove, hnot, -⟩
              refine ⟨hc, habove, Nat.lt_of_le_of_ne ?_ fun heq => hnot ⟨hc, habove, ?_⟩⟩
              · exact hdepth honly.toDeepest ▸ honly.deepest c hc habove
              · rw [heq, ← hdepth honly.toDeepest]
                exact honly.deepest
      · next hmany =>
          have hnone : ∀ c, ¬SoleOwner components path c := fun c hc => hmany c (hsole.mp hc)
          constructor
          · intro c
            simp [mem_configuredComponents, hnone c]
          · intro c
            simp [hdeepest, hnone c]
          · intro c
            simp [hnone]

end OnePath

/-! ## The lists of a component -/

theorem RustComponents.mem_values {components : RustComponents} :
    component ∈ components.values ↔ components.byId[component.id]? = some component := by
  unfold RustComponents.values
  rw [mem_valuesOf]
  constructor
  · rintro ⟨id, hget⟩
    rwa [components.keyed hget]
  · exact fun hget => ⟨_, hget⟩

theorem RustComponents.eq_of_id {components : RustComponents} {left right : RustComponent}
    (hleft : left ∈ components.values) (hright : right ∈ components.values)
    (hid : left.id = right.id) : left = right := by
  rw [mem_values, hid] at hleft
  rw [mem_values] at hright
  exact Option.some.inj (hleft.symm.trans hright)

theorem RustComponents.nodup_values (components : RustComponents) : components.values.Nodup := by
  unfold RustComponents.values valuesOf
  rw [List.Nodup, List.pairwise_map]
  refine (ExtTreeMap.distinct_keys_toList (t := components.byId)).imp_of_mem ?_
  intro left right hleft hright hkeys heq
  rw [ExtTreeMap.mem_toList_iff_getElem?_eq_some] at hleft hright
  apply hkeys
  rw [← components.keyed hleft, ← components.keyed hright, heq]
  exact Std.ReflCmp.compare_self

section AllPaths

variable {components : RustComponents} {paths : ExtTreeSet String} {path : String}
  {impacts : List Attached} {cancelled : CancellationPoint → Bool} {attached : Attached}
  {acquire : Acquirer}

theorem exact_values (components : RustComponents) (path : String) :
    (assignChangedPath components.values path).Exact components.values path :=
  assignChangedPath_exact components.nodup_values path

section

variable (hcomponent : component ∈ components.values)

include hcomponent

/-- A list of a component holds the paths that the component gets there. -/
theorem mem_pathsOf_assigned {list : PathOwners → List RustComponent}
    (hlist : ∀ other ∈ list (assignChangedPath components.values path), other ∈ components.values) :
    path ∈ pathsOf (assigned components.values paths.toList list) component.id ↔
      path ∈ paths ∧ component ∈ list (assignChangedPath components.values path) := by
  unfold pathsOf assigned
  rw [mem_getD_groupPairs]
  simp only [List.mem_flatMap, List.mem_map, Prod.mk.injEq, ExtTreeSet.mem_toList]
  constructor
  · rintro ⟨found, hfound, other, hother, hid, rfl⟩
    exact ⟨hfound, components.eq_of_id (hlist other hother) hcomponent hid ▸ hother⟩
  · rintro ⟨hpath, hmem⟩
    exact ⟨path, hpath, component, hmem, rfl, rfl⟩

theorem mem_owned :
    path ∈ pathsOf (assignChangedPaths components paths).owned component.id ↔
      path ∈ paths ∧ (ConfiguredFromAbove components.values path component ∨
        SoleOwner components.values path component) := by
  have hexact := exact_values components path
  refine (mem_pathsOf_assigned hcomponent ?_).trans (and_congr_right fun _ => hexact.owned)
  intro other hother
  exact (hexact.owned.mp hother).elim (·.1) (·.mem)

theorem mem_ambiguous :
    path ∈ pathsOf (assignChangedPaths components paths).ambiguous component.id ↔
      path ∈ paths ∧ Deepest components.values path component ∧
        ¬SoleOwner components.values path component := by
  have hexact := exact_values components path
  refine (mem_pathsOf_assigned hcomponent ?_).trans (and_congr_right fun _ => hexact.ambiguous)
  exact fun other hother => (hexact.ambiguous.mp hother).1.mem

theorem mem_shadowed :
    path ∈ pathsOf (assignChangedPaths components paths).shadowed component.id ↔
      path ∈ paths ∧ component ∈ components.values ∧ rootContains component.root path = true ∧
        ¬Deepest components.values path component ∧
          ∃ owner, SoleOwner components.values path owner := by
  have hexact := exact_values components path
  refine (mem_pathsOf_assigned hcomponent ?_).trans (and_congr_right fun _ => hexact.shadowed)
  exact fun other hother => (hexact.shadowed.mp hother).1

end

/-! ## What should not be ignored -/

variable (components paths) in
/-- Every path under the root of a component is in one of its lists. -/
def EveryPathListed : Prop :=
  ∀ component ∈ components.values, ∀ path ∈ paths, rootContains component.root path = true →
    path ∈ pathsOf (assignChangedPaths components paths).owned component.id ∨
      path ∈ pathsOf (assignChangedPaths components paths).ambiguous component.id ∨
        path ∈ pathsOf (assignChangedPaths components paths).shadowed component.id

variable (components paths) in
/-- Every component below the directory that a path configures owns the path. -/
def ConfigurationOwned : Prop :=
  ∀ component ∈ components.values, ∀ path ∈ paths, ∀ directory,
    rustConfigurationDirectory path = some directory → rootContains directory component.root = true →
      path ∈ pathsOf (assignChangedPaths components paths).owned component.id

/-- What is attached is the selector's answer to the paths that it was given. -/
def Attached.SelectedFrom (attached : Attached) (component : RustComponent) (given : List String) :
    Prop :=
  attached.selectedFrom = some given ∧ ∃ graph context,
    attached.impact = (selectCargoImpactV1 graph component.id component.workspaceManifest given
      context).sortCanonical

variable (components paths) in
/-- Every narrowed impact of a component was selected from all the paths under its root. -/
def NarrowedFromAll : Prop :=
  ∀ cancelled acquire impacts, attachImpacts components paths cancelled acquire = .ok impacts →
    ∀ attached ∈ impacts, attached.impact.disposition = .narrowed →
      ∃ component ∈ components.values, ∃ given, attached.SelectedFrom component given ∧
        ∀ path ∈ paths, rootContains component.root path = true → path ∈ given

variable (components paths) in
/-- Whenever two components share the deepest root above a path, no root above it is shallower. -/
def NothingHidden : Prop :=
  ∀ path ∈ paths, ∀ left right, Deepest components.values path left →
    Deepest components.values path right → left ≠ right →
      ∀ component ∈ components.values, rootContains component.root path = true →
        Deepest components.values path component

variable (components paths) in
/-- A component whose root contains the path that configures it is the only owner of that path. -/
def ConfigurationUndivided : Prop :=
  ∀ component ∈ components.values, ∀ path ∈ paths, ∀ directory,
    rustConfigurationDirectory path = some directory → rootContains directory component.root = true →
      rootContains component.root path = true → SoleOwner components.values path component

theorem everyPathListed_iff : EveryPathListed components paths ↔ NothingHidden components paths := by
  constructor
  · intro hlisted path hpath left right hleft hright hne component hcomponent hcontains
    by_contra hnot
    have hsole : ∀ owner, ¬SoleOwner components.values path owner := fun owner howner =>
      hne ((howner.alone left hleft).trans (howner.alone right hright).symm)
    -- none of the three lists is open to it
    rcases hlisted component hcomponent path hpath hcontains with h | h | h
    · obtain ⟨-, hconfigured | howner⟩ := (mem_owned hcomponent).mp h
      · exact Bool.false_ne_true (hconfigured.2.1.symm.trans hcontains)
      · exact hsole component howner
    · exact hnot ((mem_ambiguous hcomponent).mp h).2.1
    · obtain ⟨-, -, -, -, owner, howner⟩ := (mem_shadowed hcomponent).mp h
      exact hsole owner howner
  · intro hhidden component hcomponent path hpath hcontains
    rw [mem_owned hcomponent, mem_ambiguous hcomponent, mem_shadowed hcomponent]
    by_cases hdeepest : Deepest components.values path component
    · by_cases hsole : SoleOwner components.values path component
      · exact .inl ⟨hpath, .inr hsole⟩
      · exact .inr (.inl ⟨hpath, hdeepest, hsole⟩)
    · obtain ⟨owner, howner⟩ := exists_deepest hcomponent hcontains
      refine .inr (.inr ⟨hpath, hcomponent, hcontains, hdeepest, owner, howner, ?_⟩)
      intro other hother
      by_contra hne
      exact hdeepest (hhidden path hpath other owner hother howner hne component hcomponent hcontains)

theorem configurationOwned_iff :
    ConfigurationOwned components paths ↔ ConfigurationUndivided components paths := by
  constructor
  · intro howned component hcomponent path hpath directory hdirectory hbelow hcontains
    have hmem := howned component hcomponent path hpath directory hdirectory hbelow
    obtain ⟨-, hconfigured | hsole⟩ := (mem_owned hcomponent).mp hmem
    · exact absurd (hconfigured.2.1.symm.trans hcontains) Bool.false_ne_true
    · exact hsole
  · intro hundivided component hcomponent path hpath directory hdirectory hbelow
    rw [mem_owned hcomponent]
    refine ⟨hpath, ?_⟩
    cases hcontains : rootContains component.root path with
    | false => exact .inl ⟨hcomponent, hcontains, directory, hdirectory, hbelow⟩
    | true =>
        exact .inr (hundivided component hcomponent path hpath directory hdirectory hbelow hcontains)

/-! ## Narrowed impacts -/

variable (components paths) in
/-- A narrowed impact, before it is sorted, is the selector's answer to the owned paths of a
component that has no other paths. -/
def Justified (attached : Attached) : Prop :=
  attached.impact.disposition = .narrowed → ∃ component ∈ components.values,
    pathsOf (assignChangedPaths components paths).ambiguous component.id = [] ∧
      pathsOf (assignChangedPaths components paths).shadowed component.id = [] ∧
        attached.selectedFrom =
          some (pathsOf (assignChangedPaths components paths).owned component.id) ∧
        ∃ graph context, attached.impact = selectCargoImpactV1 graph component.id
          component.workspaceManifest
          (pathsOf (assignChangedPaths components paths).owned component.id) context

theorem justified_unavailable (component : RustComponent) (reason : CargoImpactReasonV1)
    (context : CargoImpactContextV1) :
    Justified components paths (unavailable component reason context) := by
  intro hnarrowed
  cases hnarrowed

/-- In a group without an ambiguous path. -/
theorem justified_acquiredImpact {rootComponents : List RustComponent}
    {acquisition : CargoMetadataAcquisition} {root : String}
    (hgroup : ∀ other ∈ rootComponents, other ∈ components.values)
    (hcomponent : component ∈ rootComponents) :
    Justified components paths (acquiredImpact (assignChangedPaths components paths) acquisition root
      (rootComponents.findSome? fun other =>
        (pathsOf (assignChangedPaths components paths).ambiguous other.id).head?) component) := by
  unfold acquiredImpact
  split
  · exact justified_unavailable _ _ _
  · split
    · exact justified_unavailable _ _ _
    · next hambiguous =>
        split
        · exact justified_unavailable _ _ _
        · next hshadowed =>
            intro _
            refine ⟨component, hgroup component hcomponent, ?_, List.head?_eq_none_iff.mp hshadowed,
              rfl, _, _, rfl⟩
            exact List.head?_eq_none_iff.mp (List.findSome?_eq_none_iff.mp hambiguous _ hcomponent)

/-- One root adds impacts that are justified. -/
theorem justified_attachRoot {impacts' : List Attached} {group : String × List RustComponent}
    (hgroup : ∀ other ∈ group.2, other ∈ components.values)
    (h : attachRoot (assignChangedPaths components paths) acquire cancelled impacts group =
      .ok impacts') (hbefore : ∀ attached ∈ impacts, Justified components paths attached) :
    ∀ attached ∈ impacts', Justified components paths attached := by
  unfold attachRoot at h
  simp only [bind_eq_ok] at h
  obtain ⟨_, -, first, -, _, -, h⟩ := h
  split at h
  · obtain rfl := pure_eq_ok.mp h
    exact List.forall_mem_append.mpr ⟨hbefore, List.forall_mem_map.mpr fun _ hcomponent =>
      justified_acquiredImpact hgroup hcomponent⟩
  · split at h
    · cases h
    · obtain rfl := pure_eq_ok.mp h
      exact List.forall_mem_append.mpr ⟨hbefore, List.forall_mem_map.mpr fun _ _ =>
        justified_unavailable _ _ _⟩

theorem mem_canonicalImpacts :
    attached ∈ canonicalImpacts impacts ↔ ∃ before ∈ impacts,
      { before with impact := before.impact.sortCanonical } = attached := by
  unfold canonicalImpacts
  rw [List.mem_insertionSort, List.mem_map]

/-- Every attached impact is a justified one in canonical order. -/
theorem justified_of_attachImpacts
    (h : attachImpacts components paths cancelled acquire = .ok impacts)
    (hattached : attached ∈ impacts) :
    ∃ before, Justified components paths before ∧
      { before with impact := before.impact.sortCanonical } = attached := by
  unfold attachImpacts at h
  dsimp only at h
  split at h
  · obtain ⟨_, -, h⟩ := bind_eq_ok.mp h
    obtain rfl := pure_eq_ok.mp h
    obtain ⟨before, hbefore, rfl⟩ := mem_canonicalImpacts.mp hattached
    obtain ⟨component, -, rfl⟩ := List.mem_map.mp hbefore
    exact ⟨_, justified_unavailable _ _ _, rfl⟩
  · obtain ⟨found, hfold, h⟩ := bind_eq_ok.mp h
    obtain rfl := pure_eq_ok.mp h
    obtain ⟨before, hbefore, rfl⟩ := mem_canonicalImpacts.mp hattached
    refine ⟨before, ?_, rfl⟩
    refine foldlM_ok_induction (fun _ found => ∀ before ∈ found, Justified components paths before)
      hfold (by simp) ?_ before hbefore
    intro done group state state' hprefix hstate hstep
    refine justified_attachRoot ?_ hstep hstate
    intro other hother
    have hgroup := hprefix.subset (List.mem_append_right done List.mem_cons_self)
    rw [ExtTreeMap.mem_toList_iff_getElem?_eq_some] at hgroup
    have hpair : other ∈ (groupPairs (components.values.map fun component =>
        (component.root, component)) : ExtTreeMap String (List RustComponent))[group.1]?.getD [] := by
      rw [hgroup]
      exact hother
    rw [mem_getD_groupPairs] at hpair
    obtain ⟨component, hcomponent, heq⟩ := List.mem_map.mp hpair
    exact (Prod.mk.inj heq).2 ▸ hcomponent

theorem narrowedFromAll_of_everyPathListed (hlisted : EveryPathListed components paths) :
    NarrowedFromAll components paths := by
  intro cancelled acquire impacts h attached hattached hnarrowed
  obtain ⟨before, hbefore, rfl⟩ := justified_of_attachImpacts h hattached
  rw [CargoImpactV1.sortCanonical_disposition] at hnarrowed
  obtain ⟨component, hcomponent, hambiguous, hshadowed, hfrom, graph, context, himpact⟩ :=
    hbefore hnarrowed
  refine ⟨component, hcomponent, _, ⟨hfrom, graph, context, by rw [himpact]⟩, ?_⟩
  intro path hpath hcontains
  -- of the three lists only that of the owned paths is not empty
  rcases hlisted component hcomponent path hpath hcontains with hmem | hmem | hmem
  · exact hmem
  · rw [hambiguous] at hmem
    cases hmem
  · rw [hshadowed] at hmem
    cases hmem

variable (components paths) in
/-- **Exactly when nothing is ignored.** All three hold if and only if no path is hidden behind a
shared root and no component shares a path that configures it. -/
theorem nothing_ignored_iff :
    (EveryPathListed components paths ∧ ConfigurationOwned components paths ∧
      NarrowedFromAll components paths) ↔
      NothingHidden components paths ∧ ConfigurationUndivided components paths := by
  rw [← everyPathListed_iff, ← configurationOwned_iff]
  constructor
  · rintro ⟨hlisted, howned, -⟩
    exact ⟨hlisted, howned⟩
  · rintro ⟨hlisted, howned⟩
    exact ⟨hlisted, howned, narrowedFromAll_of_everyPathListed hlisted⟩

end AllPaths

namespace SampleComponents

/-- A component for the whole repository, and two that share a directory of it. -/
def whole : RustComponent where
  id := ⟨"whole", by decide⟩
  root := "."
  workspaceManifest := componentManifest "."

def first : RustComponent where
  id := ⟨"first", by decide⟩
  root := "crates/x"
  workspaceManifest := componentManifest "crates/x"

def second : RustComponent where
  id := ⟨"second", by decide⟩
  root := "crates/x"
  workspaceManifest := componentManifest "crates/x"

def components : RustComponents := .ofList [whole, first, second]

def paths : ExtTreeSet String := .ofList ["crates/tool/src/lib.rs", "crates/x/src/lib.rs"]

def graph : CargoMetadataGraphV1 where
  workspaceRoot := "."
  packages :=
    [{ selector := "tool@1.0.0", manifestPath := "crates/tool/Cargo.toml"
       packageRoot := "crates/tool", workspaceMember := true, activatedFeatures := [],
       targets := [] },
      { selector := "x@1.0.0", manifestPath := "crates/x/Cargo.toml"
        packageRoot := "crates/x", workspaceMember := true, activatedFeatures := [], targets := [] }]
  workspaceMembers := [0, 1]
  reverseConsumers := [[], []]
  selectorProof := .ofList [("tool@1.0.0", 0), ("x@1.0.0", 1)]

def acquire : Acquirer := fun _ => .ok { graph, context := {} }

/-- The component for the whole repository is narrowed to one package, from one path. -/
def narrowedToTool (attached : Attached) : Bool :=
  decide (attached.impact.component = whole.id) &&
    decide (attached.impact.disposition = .narrowed) &&
      decide (attached.impact.buildPackages.map (·.selector) = ["tool@1.0.0"]) &&
        decide (attached.selectedFrom = some ["crates/tool/src/lib.rs"])

/-- A changed file below the root of a component is missing from what the component is narrowed by.
-/
theorem hidden_path_is_narrowed_over : ∃ impacts,
    attachImpacts components paths (fun _ => false) acquire = .ok impacts ∧
      (∃ attached ∈ impacts, attached.impact.component = whole.id ∧
        attached.impact.disposition = .narrowed ∧
        attached.impact.buildPackages.map (·.selector) = ["tool@1.0.0"] ∧
        attached.selectedFrom = some ["crates/tool/src/lib.rs"]) ∧
      whole ∈ components.values ∧ "crates/x/src/lib.rs" ∈ paths ∧
      rootContains whole.root "crates/x/src/lib.rs" = true := by
  have h : isOkAnd (attachImpacts components paths (fun _ => false) acquire)
      (List.any · narrowedToTool) = true := by decide +kernel
  obtain ⟨impacts, himpacts, h⟩ := exists_of_isOkAnd h
  obtain ⟨attached, hattached, hnarrowed⟩ := List.any_eq_true.mp h
  simp only [narrowedToTool, Bool.and_eq_true, decide_eq_true_eq] at hnarrowed
  obtain ⟨⟨⟨hcomponent, hdisposition⟩, hpackages⟩, hfrom⟩ := hnarrowed
  exact ⟨impacts, himpacts, ⟨attached, hattached, hcomponent, hdisposition, hpackages, hfrom⟩,
    by decide +kernel, by decide +kernel, by decide +kernel⟩

end SampleComponents

end Jig.Repository

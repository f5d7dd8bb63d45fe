import Jig.Lib.FileLock
import Jig.Repository.PlannerExact

/-!
# The repository execution lease

A run holds the lease of the repository while it executes: alone when `requires_exclusive_execution`
holds of the effects of its plan, and shared otherwise (`jig-state`, `execution_leases.rs`). The
planner gives a plan the union of the effects of its targets.

The last clause of `requires_exclusive_execution` is the absence of `read_only`, which a union does
not keep. `Masked` describes the plans where that matters, and `lease_sufficient_iff` says that
these are exactly the plans whose lease is weaker than one of their targets needs.
-/

namespace Jig.Runtime

open Contract Lib Repository

def requiresExclusiveExecution (effects : List ActionEffect) : Bool :=
  effects.contains .worktree || effects.contains .external ||
    (!effects.isEmpty && !effects.contains .readOnly)

/-- A run: the number of its lease, and its plan. -/
abbrev LeaseHolder := Nat × RunPlan

/-- `try_acquire_repository_execution_lease`, as a run acquires it for its plan. -/
def tryAcquireRepositoryExecutionLease (lock : FileLock LeaseHolder) (lease : Nat)
    (plan : RunPlan) : Option (FileLock LeaseHolder) :=
  lock.tryLock (lease, plan) (requiresExclusiveExecution plan.effects)

inductive LeaseStep (allowed : RunPlan → Prop) :
    FileLock LeaseHolder → FileLock LeaseHolder → Prop where
  | acquire {lock lock' : FileLock LeaseHolder} (lease : Nat) (plan : RunPlan)
      (hplan : allowed plan)
      (hlock : tryAcquireRepositoryExecutionLease lock lease plan = some lock') :
      LeaseStep allowed lock lock'
  | release {lock : FileLock LeaseHolder} (lease : Nat) :
      LeaseStep allowed lock (lock.release (·.1 != lease))

/-- The locks that runs of the allowed plans lead to. -/
def LeaseReachable (allowed : RunPlan → Prop) (lock : FileLock LeaseHolder) : Prop :=
  Relation.ReflTransGen (LeaseStep allowed) FileLock.free lock

/-! ## Unions of effects -/

/-- The effects of a plan hide what a target needs: a target has no effect but `process`, another
one has `read_only`, and no target has `worktree` or `external`. -/
def Masked (targets : List PlannedTarget) : Prop :=
  (∃ planned ∈ targets, planned.effects ≠ [] ∧ ∀ effect ∈ planned.effects, effect = .process) ∧
    (∃ planned ∈ targets, ActionEffect.readOnly ∈ planned.effects) ∧
    ∀ planned ∈ targets,
      ActionEffect.worktree ∉ planned.effects ∧ ActionEffect.external ∉ planned.effects

variable {effects : List ActionEffect} {allowed : RunPlan → Prop} {planned : PlannedTarget}

theorem requiresExclusiveExecution_iff :
    requiresExclusiveExecution effects = true ↔
      ActionEffect.worktree ∈ effects ∨ ActionEffect.external ∈ effects ∨
        effects ≠ [] ∧ ActionEffect.readOnly ∉ effects := by
  unfold requiresExclusiveExecution
  simp only [Bool.or_eq_true, Bool.and_eq_true, Bool.not_eq_true', List.isEmpty_eq_false_iff,
    or_assoc, List.contains_eq_mem, decide_eq_true_eq, decide_eq_false_iff_not, ne_eq]

/-- A target that needs the lease alone and changes nothing only starts processes. -/
theorem only_process (h : requiresExclusiveExecution effects = true)
    (hworktree : ActionEffect.worktree ∉ effects) (hexternal : ActionEffect.external ∉ effects) :
    effects ≠ [] ∧ ∀ effect ∈ effects, effect = .process := by
  rcases requiresExclusiveExecution_iff.mp h with h | h | ⟨hne, hreadOnly⟩
  · exact absurd h hworktree
  · exact absurd h hexternal
  refine ⟨hne, ?_⟩
  intro effect heffect
  cases effect with
  | process => rfl
  | readOnly => exact absurd heffect hreadOnly
  | worktree => exact absurd heffect hworktree
  | external => exact absurd heffect hexternal

section Union

variable {plan : RunPlan}
  (hunion : ∀ effect, effect ∈ plan.effects ↔ ∃ planned ∈ plan.targets, effect ∈ planned.effects)

include hunion

/-- **When the lease of a plan is enough for its targets.** -/
theorem lease_sufficient_iff :
    (∀ planned ∈ plan.targets, requiresExclusiveExecution planned.effects = true →
      requiresExclusiveExecution plan.effects = true) ↔ ¬Masked plan.targets := by
  constructor
  · rintro h ⟨⟨planned, hplanned, hne, hprocess⟩, ⟨other, hother, hreadOnly⟩, hquiet⟩
    have hneeds : requiresExclusiveExecution planned.effects = true := by
      rw [requiresExclusiveExecution_iff]
      exact .inr (.inr ⟨hne, fun hmem => nomatch hprocess _ hmem⟩)
    -- none of the three clauses holds of the union
    rcases requiresExclusiveExecution_iff.mp (h planned hplanned hneeds) with
      hworktree | hexternal | ⟨-, habsent⟩
    · obtain ⟨t, ht, hmem⟩ := (hunion _).mp hworktree
      exact (hquiet t ht).1 hmem
    · obtain ⟨t, ht, hmem⟩ := (hunion _).mp hexternal
      exact (hquiet t ht).2 hmem
    · exact habsent ((hunion _).mpr ⟨other, hother, hreadOnly⟩)
  · intro hclear planned hplanned hneeds
    by_contra hshared
    rw [requiresExclusiveExecution_iff, not_or, not_or, not_and, not_not] at hshared
    obtain ⟨hworktree, hexternal, hreadOnly⟩ := hshared
    have hquiet : ∀ t ∈ plan.targets,
        ActionEffect.worktree ∉ t.effects ∧ ActionEffect.external ∉ t.effects := by
      intro t ht
      exact ⟨fun hmem => hworktree ((hunion _).mpr ⟨t, ht, hmem⟩),
        fun hmem => hexternal ((hunion _).mpr ⟨t, ht, hmem⟩)⟩
    obtain ⟨hne, hprocess⟩ := only_process hneeds (hquiet planned hplanned).1
      (hquiet planned hplanned).2
    obtain ⟨effect, heffect⟩ := List.exists_mem_of_ne_nil _ hne
    have hunionNe : plan.effects ≠ [] :=
      List.ne_nil_of_mem ((hunion effect).mpr ⟨planned, hplanned, heffect⟩)
    exact hclear ⟨⟨planned, hplanned, hne, hprocess⟩, (hunion _).mp (hreadOnly hunionNe), hquiet⟩

/-- A lease is held alone for the sake of some target. -/
theorem exists_exclusive_target (h : requiresExclusiveExecution plan.effects = true) :
    ∃ planned ∈ plan.targets, requiresExclusiveExecution planned.effects = true := by
  simp only [requiresExclusiveExecution_iff]
  rcases requiresExclusiveExecution_iff.mp h with hmem | hmem | ⟨hne, hreadOnly⟩
  · obtain ⟨planned, hplanned, heffect⟩ := (hunion _).mp hmem
    exact ⟨planned, hplanned, .inl heffect⟩
  · obtain ⟨planned, hplanned, heffect⟩ := (hunion _).mp hmem
    exact ⟨planned, hplanned, .inr (.inl heffect)⟩
  · obtain ⟨effect, hmem⟩ := List.exists_mem_of_ne_nil _ hne
    obtain ⟨planned, hplanned, heffect⟩ := (hunion _).mp hmem
    refine ⟨planned, hplanned, .inr (.inr ⟨List.ne_nil_of_mem heffect, ?_⟩)⟩
    exact fun hmem => hreadOnly ((hunion _).mpr ⟨planned, hplanned, hmem⟩)

end Union

/-! ## Runs -/

def PlannedFrom (libs : Libraries) (catalog : RepositoryCatalog) (plan : RunPlan) : Prop :=
  ∃ request source changedPaths observedInputPaths arguments policy,
    planRunWithSourceAndPaths libs catalog request source changedPaths observedInputPaths
      arguments policy = .ok plan

section Planned

variable {libs : Libraries} {catalog : RepositoryCatalog} (hvalid : catalog.Valid libs)
  {plan : RunPlan} (h : PlannedFrom libs catalog plan)

include hvalid h

theorem PlannedFrom.assembled :
    ∃ source prepared layers, assemblePlan libs catalog source prepared layers = .ok plan := by
  obtain ⟨request, source, changedPaths, observedInputPaths, arguments, policy, hplan⟩ := h
  rcases planRunWithSourceAndPaths_cases hvalid request source changedPaths observedInputPaths
    arguments policy with ⟨e, hfail⟩ | ⟨prepared, layers, plan', -, -, hassemble, hok⟩
  · rw [hfail] at hplan
    cases hplan
  · obtain rfl := Except.ok.inj (hok.symm.trans hplan)
    exact ⟨source, prepared, layers, hassemble⟩

theorem PlannedFrom.mem_effects (effect : ActionEffect) :
    effect ∈ plan.effects ↔ ∃ planned ∈ plan.targets, effect ∈ planned.effects := by
  obtain ⟨source, prepared, layers, hassemble⟩ := PlannedFrom.assembled hvalid h
  exact (assemblePlan_eq_ok hassemble).2.2.2 effect

/-- A target has the effects the catalog declares, in whichever plan it is. -/
theorem PlannedFrom.effects_eq (hplanned : planned ∈ plan.targets) {action : ActionSpec}
    (haction : catalog.actions[planned.target]? = some action) :
    planned.effects = action.effects := by
  obtain ⟨source, prepared, layers, hassemble⟩ := PlannedFrom.assembled hvalid h
  obtain ⟨action', haction', -, heffects, -⟩ := (assemblePlan_eq_ok hassemble).2.2.1 planned hplanned
  obtain rfl := Option.some.inj (haction'.symm.trans haction)
  exact heffects

theorem PlannedFrom.defined (hplanned : planned ∈ plan.targets) :
    ∃ action, catalog.actions[planned.target]? = some action := by
  obtain ⟨source, prepared, layers, hassemble⟩ := PlannedFrom.assembled hvalid h
  obtain ⟨action, haction, -⟩ := (assemblePlan_eq_ok hassemble).2.2.1 planned hplanned
  exact ⟨action, haction⟩

end Planned

/-- Every holder has an allowed plan, and holds the lease as its plan asks. -/
def LeaseInvariant (allowed : RunPlan → Prop) (lock : FileLock LeaseHolder) : Prop :=
  ∀ holder ∈ lock.holders, allowed holder.1.2 ∧
    holder.2 = requiresExclusiveExecution holder.1.2.effects

theorem LeaseStep.invariant {lock lock' : FileLock LeaseHolder} (h : LeaseStep allowed lock lock')
    (hinv : LeaseInvariant allowed lock) : LeaseInvariant allowed lock' := by
  intro holder hholder
  cases h with
  | acquire lease plan hplan hlock =>
      rcases (FileLock.mem_tryLock hlock).mp hholder with rfl | hmem
      · exact ⟨hplan, rfl⟩
      · exact hinv holder hmem
  | release lease => exact hinv holder (List.mem_of_mem_filter hholder)

theorem LeaseReachable.invariant {lock : FileLock LeaseHolder} (h : LeaseReachable allowed lock) :
    LeaseInvariant allowed lock := by
  induction h with
  | refl => exact fun _ h => absurd h List.not_mem_nil
  | tail _ hstep ih => exact hstep.invariant ih

/-- **Leases are strong enough where no plan is masked.** For plans of a valid catalog: the lease of
a plan is enough for all its targets if and only if the plan is not masked; then more targets never
weaken a lease; and in every run of such plans, two runs at once have no target that must run
alone. -/
theorem execution_lease_exact {libs : Libraries} {contractVersion : Nat} {configDigest : String}
    {componentSpecs : List ComponentSpec} {actionSpecs : List ActionSpec}
    {profileSpecs : List ProfileSpec} {defaultCheckProfile : Option ProfileId}
    {affectedIgnore : List String} {catalog : RepositoryCatalog}
    (hcatalog : fromNativeWithIgnore libs contractVersion configDigest componentSpecs actionSpecs
      profileSpecs defaultCheckProfile affectedIgnore = .ok catalog) :
    (∀ plan, PlannedFrom libs catalog plan →
      ((∀ planned ∈ plan.targets, requiresExclusiveExecution planned.effects = true →
        requiresExclusiveExecution plan.effects = true) ↔ ¬Masked plan.targets)) ∧
    (∀ plan larger, PlannedFrom libs catalog plan → PlannedFrom libs catalog larger →
      (∀ planned ∈ plan.targets, ∃ planned' ∈ larger.targets, planned'.target = planned.target) →
      ¬Masked larger.targets → requiresExclusiveExecution plan.effects = true →
        requiresExclusiveExecution larger.effects = true) ∧
    ∀ lock, LeaseReachable (fun plan => PlannedFrom libs catalog plan ∧ ¬Masked plan.targets) lock →
      ∀ a ∈ lock.holders, ∀ b ∈ lock.holders, a ≠ b →
        ∀ planned ∈ a.1.2.targets ++ b.1.2.targets,
          requiresExclusiveExecution planned.effects = false := by
  have hvalid := fromNativeWithIgnore_valid hcatalog
  have hiff : ∀ plan, PlannedFrom libs catalog plan →
      ((∀ planned ∈ plan.targets, requiresExclusiveExecution planned.effects = true →
        requiresExclusiveExecution plan.effects = true) ↔ ¬Masked plan.targets) :=
    fun plan hplan => lease_sufficient_iff (PlannedFrom.mem_effects hvalid hplan)
  refine ⟨hiff, ?_, ?_⟩
  · intro plan larger hplan hlarger hsub hclear hexclusive
    obtain ⟨planned, hplanned, hneeds⟩ :=
      exists_exclusive_target (PlannedFrom.mem_effects hvalid hplan) hexclusive
    obtain ⟨planned', hplanned', htarget⟩ := hsub planned hplanned
    obtain ⟨action, haction⟩ := PlannedFrom.defined hvalid hplan hplanned
    -- the effects of a target are those of its action in the catalog
    have hsame : planned'.effects = planned.effects := by
      rw [PlannedFrom.effects_eq hvalid hplan hplanned haction,
        PlannedFrom.effects_eq hvalid hlarger hplanned' (htarget ▸ haction)]
    exact (hiff larger hlarger).mpr hclear planned' hplanned' (hsame ▸ hneeds)
  · intro lock hlock a ha b hb hne
    obtain ⟨haShared, hbShared⟩ := FileLock.shared_of_two ha hb hne
    have hquiet : ∀ holder ∈ lock.holders, holder.2 = false →
        ∀ planned ∈ holder.1.2.targets, requiresExclusiveExecution planned.effects = false := by
      intro holder hholder hshared planned hplanned
      obtain ⟨⟨hplan, hclear⟩, hmode⟩ := hlock.invariant holder hholder
      by_contra hneeds
      have hplanNeeds := (hiff _ hplan).mpr hclear planned hplanned (by simpa using hneeds)
      rw [← hmode, hshared] at hplanNeeds
      cases hplanNeeds
    exact List.forall_mem_append.mpr ⟨hquiet a ha haShared, hquiet b hb hbShared⟩

/-! ## A server and a check -/

namespace Serving

open Repository.Sample (api lint check)

def serve : TargetId := ⟨api, ⟨"serve", by decide⟩⟩

/-- A component with a read-only check, and a server that only starts a process. -/
def catalog : Result RepositoryCatalog :=
  fromNativeWithIgnore .literal 7 "sha256:config" [{ id := api, root := "." }]
    [check lint [], { check serve [] with intent := .operate, effects := [.process] }]
    [⟨Repository.Sample.verify, [lint]⟩] (some Repository.Sample.verify) []

def plan (selectors : List String) (catalog : RepositoryCatalog) : Except PlanError RunPlan :=
  planRunWithSourceAndPaths .literal catalog { selectors } ⟨none, "tree"⟩ none [] ∅
    .declaredActions

/-- The effects of a plan's targets, and those of the plan. -/
def effectsOf (plan : RunPlan) : List (List ActionEffect) × List ActionEffect :=
  (plan.targets.map (·.effects), plan.effects)

theorem exists_plan (selectors : List String)
    (effects : List (List ActionEffect) × List ActionEffect)
    (h : isOkAnd catalog (fun catalog => isOkAnd (plan selectors catalog) (effectsOf · = effects)) =
      true) :
    ∃ catalog' plan', catalog = .ok catalog' ∧ plan selectors catalog' = .ok plan' ∧
      effectsOf plan' = effects := by
  obtain ⟨catalog', hcatalog, h⟩ := exists_of_isOkAnd h
  obtain ⟨plan', hplan, heffects⟩ := exists_of_isOkAnd h
  exact ⟨catalog', plan', hcatalog, hplan, of_decide_eq_true heffects⟩

end Serving

/-- The server alone asks for the lease alone. -/
theorem execution_lease_exact_serve :
    ∃ catalog plan, Serving.catalog = .ok catalog ∧
      Serving.plan ["api:serve"] catalog = .ok plan ∧
      ∀ planned ∈ plan.targets, requiresExclusiveExecution planned.effects = true →
        requiresExclusiveExecution plan.effects = true := by
  obtain ⟨catalog, plan, hcatalog, hplan, heffects⟩ :=
    Serving.exists_plan ["api:serve"] ([[.process]], [.process]) (by decide +kernel)
  refine ⟨catalog, plan, hcatalog, hplan, ?_⟩
  apply ((execution_lease_exact hcatalog).1 plan ⟨_, _, _, _, _, _, hplan⟩).mpr
  rintro ⟨-, ⟨planned, hplanned, hreadOnly⟩, -⟩
  have hmem : planned.effects ∈ plan.targets.map (·.effects) := List.mem_map_of_mem hplanned
  rw [(Prod.mk.inj heffects).1, List.mem_singleton] at hmem
  rw [hmem] at hreadOnly
  revert hreadOnly
  decide

/-- The server and the check together share the lease, and two such runs execute at once. -/
theorem execution_lease_masked :
    ∃ catalog plan, Serving.catalog = .ok catalog ∧
      Serving.plan ["api:serve", "api:lint"] catalog = .ok plan ∧
      (∃ planned ∈ plan.targets, requiresExclusiveExecution planned.effects = true) ∧
      requiresExclusiveExecution plan.effects = false ∧
      ∃ lock, LeaseReachable (PlannedFrom .literal catalog) lock ∧
        lock.holders = [((2, plan), false), ((1, plan), false)] := by
  obtain ⟨catalog, plan, hcatalog, hplan, heffects⟩ :=
    Serving.exists_plan ["api:serve", "api:lint"]
      ([[.readOnly], [.process]], [.readOnly, .process]) (by decide +kernel)
  obtain ⟨htargets, hunion⟩ : plan.targets.map (·.effects) = [[.readOnly], [.process]] ∧
      plan.effects = [.readOnly, .process] := Prod.mk.inj heffects
  have hallowed : PlannedFrom .literal catalog plan := ⟨_, _, _, _, _, _, hplan⟩
  have hshared : requiresExclusiveExecution plan.effects = false := by rw [hunion]; decide
  refine ⟨catalog, plan, hcatalog, hplan, ?_, hshared, ?_⟩
  · have hmem : [ActionEffect.process] ∈ plan.targets.map (·.effects) := by rw [htargets]; simp
    obtain ⟨planned, hplanned, heq⟩ := List.mem_map.mp hmem
    exact ⟨planned, hplanned, by rw [heq]; decide⟩
  · have hfirst : ∃ lock, tryAcquireRepositoryExecutionLease .free 1 plan = some lock ∧
        lock.holders = [((1, plan), false)] := by
      unfold tryAcquireRepositoryExecutionLease
      rw [hshared]
      exact ⟨_, rfl, rfl⟩
    obtain ⟨first, hfirst, hholders⟩ := hfirst
    have hsecond : ∃ lock, tryAcquireRepositoryExecutionLease first 2 plan = some lock ∧
        lock.holders = ((2, plan), false) :: first.holders := by
      unfold tryAcquireRepositoryExecutionLease FileLock.tryLock
      have hshareable : first.shareable = true := by simp [FileLock.shareable, hholders]
      rw [hshared]
      simp only [hshareable, dite_true]
      exact ⟨_, rfl, rfl⟩
    obtain ⟨second, hsecond, hholders'⟩ := hsecond
    refine ⟨second, ?_, hholders'.trans (by rw [hholders])⟩
    exact (Relation.ReflTransGen.single (.acquire 1 plan hallowed hfirst)).tail
      (.acquire 2 plan hallowed hsecond)

end Jig.Runtime

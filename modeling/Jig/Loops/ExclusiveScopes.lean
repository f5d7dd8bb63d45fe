import Jig.Loops.OccurrenceSteps

/-!
# Execution scopes do not overlap

A record that is running or needs attention holds its workflow, and the shared checkout if it uses
it. Claims with a scope are refused where they would overlap, whatever the clocks of the dispatchers
say, so two such records never share a workflow or the checkout. A claim that has run out is not
revived: its record needs attention until it is acknowledged or abandoned.
-/

namespace Jig.Loops

open Lib

def Operation.Scoped (operation : Operation) : Prop :=
  ∀ request, operation.request? = some request → request.constraints.attentionScope ≠ .none

/-- Two records that hold their scopes do not meet. -/
def Exclusive (store : ScheduleFile) : Prop :=
  ∀ (k k' : String) (record record' : ScheduleOccurrence), store.occurrences[k]? = some record →
    store.occurrences[k']? = some record' → k ≠ k' → record.isPrunableHistory = false →
    record'.isPrunableHistory = false →
      record.workflowId ≠ record'.workflowId ∧ record.usesSharedCheckout ≠ some true ∧
        record'.usesSharedCheckout ≠ some true

section Step

variable {store store' : ScheduleFile} {operation : Operation} {event : Event} {k : String}
  {record record' : ScheduleOccurrence} {events : List Event}

/-- A record that holds its scope held it before. -/
theorem Evolves.active (h : Evolves operation record record')
    (hactive : record'.isPrunableHistory = false) : record.isPrunableHistory = false := by
  cases hfinished : record.isPrunableHistory with
  | false => rfl
  | true =>
      rw [h.eq_of_prunable hfinished, hfinished] at hactive
      cases hactive

/-- A new claim does not meet a record that holds its scope. -/
theorem ClaimRequest.Unblocked.separate {request : ClaimRequest} (h : request.Unblocked store)
    (hscope : request.constraints.attentionScope ≠ .none)
    (hget : store.occurrences[k]? = some record) (hne : k ≠ request.occurrenceId)
    (hactive : record.isPrunableHistory = false) :
    record.workflowId ≠ request.record.workflowId ∧ record.usesSharedCheckout ≠ some true ∧
      request.record.usesSharedCheckout ≠ some true := by
  have hfree := h.active k record hget hne hactive
  cases hkind : request.constraints.attentionScope with
  | none => exact absurd hkind hscope
  | workflow =>
      simp only [hkind, occurrenceClaimsOverlap, Bool.or_eq_false_iff, decide_eq_false_iff_not]
        at hfree
      refine ⟨hfree.1, fun hshared => ?_, ?_⟩
      · rw [hshared] at hfree
        cases hfree.2
      · simp [ClaimRequest.record, hkind]
  | sharedRepository =>
      simp only [hkind, occurrenceClaimsOverlap] at hfree
      cases hfree

theorem Exclusive.step (hexclusive : Exclusive store) (hshape : StepShape operation store store')
    (hscoped : operation.Scoped) : Exclusive store' := by
  intro k k' record record' hget hget' hne hactive hactive'
  rcases hshape.origin hget with ⟨r, hr, hevolves⟩ | ⟨request, hrequest, hk, hrecord, hfree⟩
  · rcases hshape.origin hget' with ⟨r', hr', hevolves'⟩ | ⟨request, hrequest, hk', hrecord', hfree⟩
    · have hsame := hevolves.sameOccurrence
      have hsame' := hevolves'.sameOccurrence
      rw [hsame.workflowId, hsame'.workflowId, hsame.usesSharedCheckout, hsame'.usesSharedCheckout]
      exact hexclusive k k' r r' hr hr' hne (hevolves.active hactive) (hevolves'.active hactive')
    · rw [hrecord']
      exact hfree.separate (hscoped request hrequest) hget (hk' ▸ hne) hactive
  · have hne' : k' ≠ request.occurrenceId := hk ▸ hne.symm
    obtain ⟨hworkflow, hshared', hshared⟩ :=
      hfree.separate (hscoped request hrequest) hget' hne' hactive'
    rw [hrecord]
    exact ⟨hworkflow.symm, hshared, hshared'⟩

theorem Exclusive.next (hexclusive : Exclusive store) (hkeyed : store.WellKeyed)
    (hscoped : event.operation.Scoped) : Exclusive (event.next store) := by
  rcases event.next_cases hkeyed with ⟨-, hnext⟩ | ⟨update, -, hshape, hnext⟩
  · rw [hnext]
    exact hexclusive
  · rw [hnext]
    exact fun k k' record record' hget hget' =>
      hexclusive.step hshape hscoped k k' record record' (of_getElem?_commit hget)
        (of_getElem?_commit hget')

theorem exclusive_runEvents (hkeyed : store.WellKeyed) (hexclusive : Exclusive store)
    (hscoped : ∀ event ∈ events, event.operation.Scoped) : Exclusive (runEvents store events) := by
  induction events generalizing store with
  | nil => exact hexclusive
  | cons event events ih =>
      rw [List.forall_mem_cons] at hscoped
      exact ih (event.wellKeyed_next hkeyed) (hexclusive.next hkeyed hscoped.1) hscoped.2

/-- **How a running record changes**: its owner finishes or abandons it, or its claim has run out.
-/
theorem Event.running_cases (event : Event) (hkeyed : store.WellKeyed)
    (hget : store.occurrences[k]? = some record) (hrunning : record.status = .running) :
    (∃ record', (event.next store).occurrences[k]? = some record' ∧ record'.status = .running ∧
        record'.owner = record.owner) ∨
      event.operation.finishes? = some (k, record.owner) ∨
      event.operation = .abandonUnexecuted k record.owner ∨
      ∃ now, event.operation.now? = some now ∧ record.claimExpiresAtMs ≤ now := by
  rcases event.next_cases hkeyed with ⟨-, hnext⟩ | ⟨update, -, hshape, hnext⟩
  · rw [hnext]
    exact .inl ⟨record, hget, hrunning, rfl⟩
  rcases hshape.old k record hget with ⟨record', hget', hevolves⟩ | ⟨-, -, habandon⟩
  · have hstays (hstatus : record'.status = .running) :
        (event.next store).occurrences[k]? = some record' := by
      rw [hnext]
      exact getElem?_commit_of_active (hshape.wellKeyed hkeyed) hget'
        (isPrunableHistory_of_running hstatus)
    cases hevolves with
    | kept heq =>
        rw [heq] at hstays
        exact .inl ⟨record, hstays hrunning, hrunning, rfl⟩
    | edited hsame _ hstatus =>
        rw [hrunning] at hstatus
        exact .inl ⟨record', hstays hstatus, hstatus, hsame.owner⟩
    | finished _ _ hfinish =>
        rw [(hkeyed k record hget).1] at hfinish
        exact .inr (.inl hfinish)
    | expired now _ hnow hexpired _ =>
        exact .inr (.inr (.inr ⟨now, hnow, (isExpired_iff.mp hexpired).2⟩))
    | acknowledged _ hattention _ =>
        rw [hrunning] at hattention
        cases hattention
  · exact .inr (.inr (.inl habandon))

/-- Nobody has claimed with an owner that is in use. -/
def Operation.FreshOwner (operation : Operation) (owner : String) : Prop :=
  ∀ request, operation.request? = some request → request.owner ≠ owner

/-- The record of an owner under a key is not at work any more. -/
def Settled (store : ScheduleFile) (k owner : String) : Prop :=
  ∀ record, store.occurrences[k]? = some record → record.owner = owner →
    record.status = .needsAttention ∨ record.status = .acknowledged

theorem Settled.next {owner : String} (h : Settled store k owner) (hkeyed : store.WellKeyed)
    (hfresh : event.operation.FreshOwner owner) : Settled (event.next store) k owner := by
  rcases event.next_cases hkeyed with ⟨-, hnext⟩ | ⟨update, -, hshape, hnext⟩
  · rw [hnext]
    exact h
  rw [hnext]
  intro record' hget howner
  rcases hshape.origin (of_getElem?_commit hget) with ⟨record, hold, hevolves⟩ | ⟨request, hrequest,
    -, rfl, -⟩
  · have hsettled := h record hold (hevolves.sameOccurrence.owner.symm.trans howner)
    have hnotRunning : record.status ≠ .running := by
      rintro hrunning
      rw [hrunning] at hsettled
      rcases hsettled with h | h <;> cases h
    cases hevolves with
    | kept heq =>
        rw [heq]
        exact hsettled
    | edited _ _ hstatus =>
        rw [hstatus]
        exact hsettled
    | finished _ hrunning _ => exact absurd hrunning hnotRunning
    | expired _ _ _ hexpired _ => exact absurd (isExpired_iff.mp hexpired).1 hnotRunning
    | acknowledged _ _ hstatus => exact .inr hstatus
  · exact absurd howner (hfresh request hrequest)

theorem settled_runEvents {owner : String} (hkeyed : store.WellKeyed) (h : Settled store k owner)
    (hfresh : ∀ event ∈ events, event.operation.FreshOwner owner) :
    Settled (runEvents store events) k owner := by
  induction events generalizing store with
  | nil => exact h
  | cons event events ih =>
      rw [List.forall_mem_cons] at hfresh
      exact ih (event.wellKeyed_next hkeyed) (h.next hkeyed hfresh.1) hfresh.2

end Step

/-- **Execution scopes never overlap.** Behind every run of scoped claims and other operations: two
records that are running or need attention are of different workflows, and neither uses the shared
checkout; a step changes a running record only for its owner or because its claim has run out; and a
record that needs attention is never running, succeeded or failed again while it is its owner's, if
owners are not used twice. -/
theorem scopes_never_overlap {events : List Event}
    (hscoped : ∀ event ∈ events, event.operation.Scoped) :
    Exclusive (runEvents .empty events) ∧
    (∀ (k : String) (record : ScheduleOccurrence) (event : Event),
      (runEvents .empty events).occurrences[k]? = some record → record.status = .running →
        (∃ record', (event.next (runEvents .empty events)).occurrences[k]? = some record' ∧
            record'.status = .running ∧ record'.owner = record.owner) ∨
          event.operation.finishes? = some (k, record.owner) ∨
          event.operation = .abandonUnexecuted k record.owner ∨
          ∃ now, event.operation.now? = some now ∧ record.claimExpiresAtMs ≤ now) ∧
    ∀ (k : String) (record : ScheduleOccurrence) (later : List Event),
      (runEvents .empty events).occurrences[k]? = some record → record.status = .needsAttention →
      (∀ event ∈ later, event.operation.FreshOwner record.owner) →
        Settled (runEvents (runEvents .empty events) later) k record.owner := by
  have hkeyed : (runEvents .empty events).WellKeyed :=
    wellKeyed_runEvents ScheduleFile.wellKeyed_empty
  refine ⟨?_, fun k record event hget hrunning => event.running_cases hkeyed hget hrunning,
    fun k record later hget hattention hfresh => ?_⟩
  · refine exclusive_runEvents ScheduleFile.wellKeyed_empty ?_ hscoped
    intro k k' record record' hget
    simp [ScheduleFile.empty] at hget
  · refine settled_runEvents hkeyed (fun record' hget' _ => ?_) hfresh
    rw [hget, Option.some.injEq] at hget'
    exact .inl (hget' ▸ hattention)

namespace SampleClaims

/-- The second claim comes when the first has run out. -/
def claims : List Event :=
  [⟨.claimScheduled "a" 5 1 0 "first" .workflow false, fun _ => false⟩,
    ⟨.claimScheduled "b" 5 1 2000 "second" .workflow false, fun _ => false⟩]

def lateFinish : Event :=
  ⟨.finish "a@5" "first" ⟨.succeeded, true, none, none⟩ 500, fun _ => false⟩

theorem scopes_never_overlap_late_finish :
    Settled (runEvents (runEvents .empty claims) [lateFinish]) "a@5" "first" := by
  have hscoped : ∀ event ∈ claims, event.operation.Scoped := by
    intro event hevent request hrequest
    rcases List.mem_pair.mp hevent with rfl | rfl
    · cases hrequest
      decide
    · cases hrequest
      decide
  have hrecord : (runEvents .empty claims).occurrences["a@5"]?.map
      (fun record => (record.status, record.owner)) = some (.needsAttention, "first") := by
    decide +kernel
  obtain ⟨record, hget, hfields⟩ := Option.map_eq_some_iff.mp hrecord
  obtain ⟨hattention, howner⟩ := Prod.mk.inj hfields
  obtain ⟨-, -, hsettled⟩ := scopes_never_overlap hscoped
  rw [← howner]
  refine hsettled "a@5" record [lateFinish] hget hattention fun event hevent request hrequest => ?_
  rw [List.mem_singleton.mp hevent] at hrequest
  cases hrequest

end SampleClaims

end Jig.Loops

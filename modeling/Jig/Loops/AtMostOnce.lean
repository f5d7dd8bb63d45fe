import Jig.Loops.OccurrenceSteps

/-!
# Scheduled occurrences are executed once

The file remembers an occurrence that was claimed by its record, or by a finished record of the same
workflow behind it (`Recorded`); either blocks a further claim. Steps keep that, as long as pruning
finds the history of the workflow within its limit or its newest scheduled record finished
(`executed_at_most_once_of_fits`).

That is not so in every run. The worktree of a finished record may be removed at any time, and then
the history that a claim prunes can be one over the limit. The record that the claim adds is the
newest of its workflow and not finished, so the newest finished one is not set apart and may be
pruned; and when the claim is abandoned, nothing is left of it. `executed_twice` is such a run.
-/

namespace Jig.Loops

open Lib

/-! ### Steps and runs -/

def Operation.scheduledSlot? : Operation → Option (String × Nat)
  | .claimScheduled workflowId scheduledAtMs _ _ _ scope _ =>
      if scope = .none then none else some (workflowId, scheduledAtMs)
  | _ => none

def Operation.abandons? : Operation → Option String
  | .abandonUnexecuted id _ => some id
  | _ => none

def Response.isAcquired : Response → Bool
  | .claim (.acquired _) => true
  | _ => false

variable (event : Event)

/-- A scheduled claim for an occurrence returns `Acquired`. -/
def Event.Acquires (store : ScheduleFile) (workflowId : String) (scheduledAtMs : Nat) : Prop :=
  event.operation.scheduledSlot? = some (workflowId, scheduledAtMs) ∧
    (event.update store).any (·.result.isAcquired) = true

def Event.Abandons (store : ScheduleFile) (id : String) : Prop :=
  event.operation.abandons? = some id ∧ (event.update store).isSome = true

/-- Where a step prunes, what it makes of the file has a history of the workflow that is within the
limit, or whose newest scheduled record is finished. -/
def Event.Fits (workflowId : String) (store : ScheduleFile) : Prop :=
  ∀ update, event.update store = some update → update.prunes = true →
    HistoryFits event.retained update.store workflowId

def AllSteps (P : Event → ScheduleFile → Prop) : ScheduleFile → List Event → Prop
  | _, [] => True
  | store, event :: events => P event store ∧ AllSteps P (event.next store) events

instance AllSteps.decidable (P : Event → ScheduleFile → Prop)
    [∀ event store, Decidable (P event store)]
    (store : ScheduleFile) : (events : List Event) → Decidable (AllSteps P store events)
  | [] => isTrue trivial
  | event :: events =>
      have := AllSteps.decidable P (event.next store) events
      inferInstanceAs (Decidable (P event store ∧ AllSteps P (event.next store) events))

variable {events : List Event} {store : ScheduleFile}

theorem AllSteps.mono {P Q : Event → ScheduleFile → Prop}
    (hPQ : ∀ event store, P event store → Q event store) (h : AllSteps P store events) :
    AllSteps Q store events := by
  induction events generalizing store with
  | nil => trivial
  | cons event events ih => exact ⟨hPQ event store h.1, ih h.2⟩

theorem AllSteps.of_forall {P : Event → ScheduleFile → Prop}
    (h : ∀ event ∈ events, ∀ store, P event store) (store : ScheduleFile) :
    AllSteps P store events := by
  induction events generalizing store with
  | nil => trivial
  | cons event events ih =>
      rw [List.forall_mem_cons] at h
      exact ⟨h.1 store, ih h.2 _⟩

/-! ### What the file remembers -/

section Recorded

variable {workflowId : String} {scheduledAtMs : Nat} {event}

/-- The record of an occurrence, or a finished one behind it. -/
def Recorded (store : ScheduleFile) (workflowId : String) (scheduledAtMs : Nat) : Prop :=
  (∃ record, store.occurrences[occurrenceId workflowId scheduledAtMs]? = some record ∧
    record.workflowId = workflowId ∧ record.scheduledAtMs = scheduledAtMs) ∨
  CoveredBy store workflowId scheduledAtMs

theorem CoveredBy.of_lt {time time' : Nat} (h : CoveredBy store workflowId time')
    (hlt : time < time') :
    CoveredBy store workflowId time := by
  obtain ⟨k, record, hget, hworkflow, hlt', hfinished⟩ := h
  exact ⟨k, record, hget, hworkflow, hlt.trans hlt', hfinished⟩

/-- Writing what an operation leaves keeps a scheduled record, or covers it. -/
theorem commit_recorded {update : Update Response} (hkeyed : update.store.WellKeyed)
    {retained : String → Bool}
    {k : String} {record : ScheduleOccurrence}
    (hfits : update.prunes = true → HistoryFits retained update.store record.workflowId)
    (hget : update.store.occurrences[k]? = some record)
    (hne : record.scheduledAtMs ≠ manualOccurrenceScheduledAtMs) :
    (update.commit retained).occurrences[k]? = some record ∨
      CoveredBy (update.commit retained) record.workflowId record.scheduledAtMs := by
  unfold Update.commit
  by_cases hprunes : update.prunes = true
  · rw [if_pos hprunes]
    cases hafter : (pruneHistory retained update.store).occurrences[k]? with
    | none => exact .inr (pruneHistory_covers hkeyed (hfits hprunes) hget hne hafter)
    | some record' =>
        have := of_getElem?_pruneHistory hafter
        rw [hget] at this
        exact .inl this.symm
  · rw [if_neg hprunes]
    exact .inl hget

/-- **A step keeps what is remembered**, unless the record is abandoned. -/
theorem Recorded.next (h : Recorded store workflowId scheduledAtMs) (hkeyed : store.WellKeyed)
    (hpos : scheduledAtMs ≠ manualOccurrenceScheduledAtMs) (hfits : event.Fits workflowId store)
    (hkept : ¬event.Abandons store (occurrenceId workflowId scheduledAtMs)) :
    Recorded (event.next store) workflowId scheduledAtMs := by
  rcases event.next_cases hkeyed with ⟨-, hnext⟩ | ⟨update, hupdate, hshape, hnext⟩
  · rw [hnext]
    exact h
  rw [hnext]
  have hkeyed' := hshape.wellKeyed hkeyed
  rcases h with ⟨record, hget, rfl, rfl⟩ | ⟨k, record, hget, rfl, hlt, hfinished⟩
  · rcases hshape.old _ record hget with ⟨record', hget', hevolves⟩ | ⟨-, -, habandon⟩
    · have hsame := hevolves.sameOccurrence
      have hne : record'.scheduledAtMs ≠ manualOccurrenceScheduledAtMs :=
        hsame.scheduledAtMs ▸ hpos
      have hfits' := hsame.workflowId.symm ▸ hfits update hupdate
      rcases commit_recorded hkeyed' hfits' hget' hne with hstays | hcovered
      · exact .inl ⟨record', hstays, hsame.workflowId, hsame.scheduledAtMs⟩
      · rw [hsame.workflowId, hsame.scheduledAtMs] at hcovered
        exact .inr hcovered
    · refine absurd ⟨?_, Option.isSome_of_eq_some hupdate⟩ hkept
      rw [habandon]
      rfl
  · have hget' := hshape.of_prunable hget hfinished
    have hne : record.scheduledAtMs ≠ manualOccurrenceScheduledAtMs := Nat.ne_zero_of_lt hlt
    rcases commit_recorded hkeyed' (hfits update hupdate) hget' hne with hstays | hcovered
    · exact .inr ⟨k, record, hstays, rfl, hlt, hfinished⟩
    · exact .inr (hcovered.of_lt hlt)

theorem Recorded.runEvents (h : Recorded store workflowId scheduledAtMs) (hkeyed : store.WellKeyed)
    (hpos : scheduledAtMs ≠ manualOccurrenceScheduledAtMs)
    (hfits : AllSteps (·.Fits workflowId) store events)
    (hkept : AllSteps
      (fun event store => ¬event.Abandons store (occurrenceId workflowId scheduledAtMs))
      store events) : Recorded (runEvents store events) workflowId scheduledAtMs := by
  induction events generalizing store with
  | nil => exact h
  | cons event events ih =>
      exact ih (h.next hkeyed hpos hfits.1 hkept.1) (event.wellKeyed_next hkeyed) hfits.2 hkept.2

/-- What a claim that acquires finds and leaves. -/
theorem Event.Acquires.spec (h : event.Acquires store workflowId scheduledAtMs)
    (hkeyed : store.WellKeyed) :
    ∃ (update : Update Response) (request : ClaimRequest), event.update store = some update ∧
      request.workflowId = workflowId ∧
      request.scheduledAtMs = scheduledAtMs ∧
      request.occurrenceId = occurrenceId workflowId scheduledAtMs ∧
      StepShape event.operation store update.store ∧
      event.next store = update.commit event.retained ∧
      store.occurrences[request.occurrenceId]? = none ∧
      update.store.occurrences[request.occurrenceId]? = some request.record ∧
      request.constraints.blockNewerOccurrences = true ∧ request.Unblocked update.store := by
  obtain ⟨hslot, hacquired⟩ := h
  rcases event.next_cases hkeyed with ⟨hnone, -⟩ | ⟨update, hupdate, hshape, hnext⟩
  · rw [hnone] at hacquired
    cases hacquired
  rw [hupdate, Option.any_some] at hacquired
  cases hoperation : event.operation with
  | claimScheduled w t ttl now owner scope block =>
      simp only [hoperation, Operation.scheduledSlot?] at hslot
      split at hslot
      · cases hslot
      next hscope =>
      cases hslot
      have hrun := hupdate
      unfold Event.update at hrun
      rw [hoperation] at hrun
      cases hclaim : claimIdWithExecutionAt event.retained
          (.scheduled workflowId scheduledAtMs ttl now owner scope block) store with
      | error e =>
          simp only [Operation.run, hclaim] at hrun
          cases hrun
      | ok u =>
          simp only [Operation.run, hclaim] at hrun
          cases hrun
          rcases claimIdWithExecutionAt_cases hclaim with ⟨-, -, hnot⟩ | ⟨rfl, hnew, hfree⟩
          · cases hresult : u.result <;> simp only [Update.map, hresult, Response.isAcquired,
              Bool.false_eq_true] at hacquired
            exact absurd hresult (hnot _)
          · refine ⟨_, _, hupdate, rfl, rfl, rfl, hoperation ▸ hshape, hnext, hnew, ?_, ?_, hfree⟩
            · exact (ScheduleFile.getElem?_set _ _ _ _).trans (if_pos rfl)
            · exact decide_eq_true hscope
  | _ =>
      -- only scheduled claims have a slot
      simp only [hoperation, Operation.scheduledSlot?] at hslot
      cases hslot

theorem Event.Acquires.recorded (h : event.Acquires store workflowId scheduledAtMs)
    (hkeyed : store.WellKeyed) : Recorded (event.next store) workflowId scheduledAtMs := by
  obtain ⟨update, request, -, rfl, rfl, hid, hshape, hnext, -, hget, -⟩ := h.spec hkeyed
  rw [hnext]
  refine .inl ⟨request.record, ?_, rfl, rfl⟩
  rw [← hid]
  exact getElem?_commit_of_active (hshape.wellKeyed hkeyed) hget rfl

/-- What is remembered blocks a claim. -/
theorem Recorded.not_acquires (h : Recorded store workflowId scheduledAtMs)
    (hkeyed : store.WellKeyed) : ¬event.Acquires store workflowId scheduledAtMs := by
  intro hacquires
  obtain ⟨update, request, -, rfl, rfl, hid, hshape, -, hnew, -, hblock, hfree⟩ :=
    hacquires.spec hkeyed
  rcases h with ⟨record, hget, -, -⟩ | ⟨k, record, hget, hworkflow, hlt, hfinished⟩
  · rw [← hid, hnew] at hget
    cases hget
  · have hget' := hshape.of_prunable hget hfinished
    exact absurd (hfree.newest hblock k record hget' hworkflow) (by omega)

end Recorded

/-- **At most once, where the history fits.** In a run whose steps all prune a history of the
workflow that is within the limit or has a finished newest record, an occurrence that was acquired
and not abandoned is not acquired again. -/
theorem executed_at_most_once_of_fits {start : ScheduleFile} (hkeyed : start.WellKeyed)
    {workflowId : String} {scheduledAtMs : Nat} (hpos : 0 < scheduledAtMs) {first second : Event}
    {between : List Event} (hfits : AllSteps (·.Fits workflowId) start (first :: between))
    (hfirst : first.Acquires start workflowId scheduledAtMs)
    (hkept : AllSteps
      (fun event store => ¬event.Abandons store (occurrenceId workflowId scheduledAtMs))
      (first.next start) between) :
    ¬second.Acquires (runEvents start (first :: between)) workflowId scheduledAtMs := by
  have hkeyed' := first.wellKeyed_next hkeyed
  have hrecorded := (hfirst.recorded hkeyed).runEvents hkeyed' (Nat.ne_of_gt hpos) hfits.2 hkept
  exact hrecorded.not_acquires (wellKeyed_runEvents hkeyed')

/-! ### A run in which it is not so -/

namespace SampleRun

def gone : String → Bool := fun _ => false

def there : String → Bool := fun _ => true

def succeeded (worktree : Option String) : OccurrenceFinish := ⟨.succeeded, true, worktree, none⟩

def manualRun (i : Nat) (worktree : Option String) : List Event :=
  [⟨.claimManual "w" (toString i) 60 (1000 * i) "m" .workflow true, gone⟩,
    ⟨.finishManual ("w@manual:" ++ toString i) "m" (succeeded worktree) (1000 * i + 1), there⟩]

def claim : Event := ⟨.claimScheduled "w" 100 60 100 "a" .workflow true, gone⟩

def finish : Event := ⟨.finish "w@100" "a" (succeeded none) 101, gone⟩

def retreat : List Event :=
  [⟨.claimScheduled "w" 200 60 30000 "b" .workflow true, gone⟩,
    ⟨.abandonUnexecuted "w@200" "b", gone⟩]

/-- Twenty manual runs, the last of which leaves a worktree; it is gone when the next occurrence is
claimed. -/
def after : List Event :=
  ((List.range 19).flatMap fun i => manualRun (i + 1) none) ++ manualRun 20 (some "tree") ++ retreat

/-- The record of the occurrence is not abandoned. -/
theorem allSteps_not_abandons
    (h : ∀ event ∈ events, event.operation.abandons? ≠ some (occurrenceId "w" 100))
    (store : ScheduleFile) :
    AllSteps (fun event store => ¬event.Abandons store (occurrenceId "w" 100)) store events := by
  refine AllSteps.of_forall (fun event hevent store habandons => ?_) store
  exact h event hevent habandons.1

/-- **An occurrence that is executed twice.** It succeeds, its record is never abandoned, and it is
acquired again. -/
theorem executed_twice :
    claim.Acquires .empty "w" 100 ∧
    (runEvents .empty [claim, finish]).occurrences["w@100"]?.map (·.status) = some .succeeded ∧
    AllSteps (fun event store => ¬event.Abandons store (occurrenceId "w" 100)) (claim.next .empty)
      (finish :: after) ∧
    claim.Acquires (runEvents .empty (claim :: finish :: after)) "w" 100 :=
  ⟨⟨by decide +kernel, by decide +kernel⟩, by decide +kernel,
    allSteps_not_abandons (by decide +kernel) _, by decide +kernel, by decide +kernel⟩

def Small (store : ScheduleFile) : Prop :=
  (event.update store).all (fun update =>
    update.store.values.length ≤ occurrenceHistoryPerWorkflow) = true

instance (event : Event) (store : ScheduleFile) : Decidable (Small event store) :=
  inferInstanceAs (Decidable (_ = true))

theorem Small.fits {event : Event} (h : Small event store) (workflowId : String) :
    event.Fits workflowId store := by
  intro update hupdate _
  unfold Small at h
  rw [hupdate, Option.all_some, decide_eq_true_eq] at h
  exact .inr ((List.length_filter_le _ _).trans h)

/-- Without the manual runs the occurrence is not acquired again. -/
theorem executed_at_most_once_of_fits_retreat :
    claim.Acquires .empty "w" 100 ∧
      ¬claim.Acquires (runEvents .empty (claim :: finish :: retreat)) "w" 100 := by
  have hacquires : claim.Acquires .empty "w" 100 := ⟨by decide +kernel, by decide +kernel⟩
  have hsmall : AllSteps Small .empty (claim :: finish :: retreat) := by decide +kernel
  exact ⟨hacquires, executed_at_most_once_of_fits ScheduleFile.wellKeyed_empty (by decide)
    (hsmall.mono fun _ _ h => h.fits "w") hacquires (allSteps_not_abandons (by decide +kernel) _)⟩

end SampleRun

end Jig.Loops

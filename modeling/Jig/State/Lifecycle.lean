import Jig.State.PlanStructure
import Jig.State.RunEvent

/-!
# The lifecycle validator

`RunLifecycleValidator` and `RunStreamValidator` (`runs/lifecycle.rs`): the structural check that
archiving, restoring and diagnosis run over a journal. It keeps the sets of planned and of completed
targets of a run, and clears both when the run completes.
-/

namespace Jig.State

open Contract Lib Std

/-- `usize::saturating_add(1)`. -/
def saturatingSucc (n : Nat) : Nat :=
  min (n + 1) (2 ^ 64 - 1)

structure RunLifecycleValidator where
  eventCount : Nat := 0
  knownEventCount : Nat := 0
  queued : Bool := false
  plannedTargets : ExtTreeSet TargetId := ∅
  completedTargets : ExtTreeSet TargetId := ∅
  completedAtMs : Option Nat := none

namespace RunLifecycleValidator

variable (v : RunLifecycleValidator)

def completed : Bool :=
  v.completedAtMs.isSome

variable (event : RunEventRecord)

/-- The first part of `observe`: the queued event comes first and carries a valid plan. -/
def observeQueued : Except String RunLifecycleValidator :=
  let runId := event.runId
  let name := event.event
  match event.kind with
  | some .queued =>
      if v.queued || v.knownEventCount > 0 then
        .error s!"run '{runId}' has more than one or a late queued event"
      else
        match event.plan with
        | none => .error s!"run '{runId}' queued event has no plan"
        | some plan =>
            match validateRunPlanStructure plan with
            | .error error => .error s!"run '{runId}' queued event has an invalid plan: {error}"
            | .ok () =>
                .ok { v with
                  plannedTargets := .ofList (plan.targets.map (·.target))
                  queued := true }
  | some _ =>
      if !v.queued then
        .error s!"run '{runId}' has a {name} event before queued"
      else
        .ok v
  | none => .ok v

/-- `EVENT_TARGET_STARTED`. -/
def observeTargetStarted : Except String RunLifecycleValidator :=
  let runId := event.runId
  match event.target with
  | none => .error s!"run '{runId}' target_started event has no target"
  | some target =>
      if target ∉ v.plannedTargets then
        .error s!"run '{runId}' references unplanned target '{target}'"
      else if target ∈ v.completedTargets then
        .error s!"run '{runId}' target '{target}' started after completion"
      else
        .ok v

/-- `EVENT_TARGET_COMPLETED`. -/
def observeTargetCompleted : Except String RunLifecycleValidator :=
  let runId := event.runId
  match event.result with
  | none => .error s!"run '{runId}' target_completed event has no result"
  | some result =>
      let target := result.target
      if event.target ≠ some target then
        .error s!"run '{runId}' target_completed identity does not match its result"
      else if target ∉ v.plannedTargets then
        .error s!"run '{runId}' references unplanned target '{target}'"
      else if result.status ≠ .completed ∨ result.conclusion = none then
        .error s!"run '{runId}' target '{target}' has a nonterminal result"
      else if target ∈ v.completedTargets then
        .error s!"run '{runId}' target '{target}' completed more than once"
      else
        .ok { v with completedTargets := v.completedTargets.insert target }

/-- `EVENT_COMPLETED`. -/
def observeCompleted : Except String RunLifecycleValidator :=
  let runId := event.runId
  if v.completedTargets ≠ v.plannedTargets then
    .error s!"run '{runId}' completed before every target reached a conclusion"
  else if event.conclusion = none then
    .error s!"run '{runId}' completed event has no conclusion"
  else if v.completedAtMs.isSome then
    .error s!"run '{runId}' has more than one completed event"
  else
    .ok { v with
      completedAtMs := some event.timestampMs
      plannedTargets := ∅
      completedTargets := ∅ }

/-- The second part of `observe`: what the event says about targets or the run. -/
def observePayload : Except String RunLifecycleValidator :=
  match event.kind with
  | some .targetStarted => v.observeTargetStarted event
  | some .targetCompleted => v.observeTargetCompleted event
  | some .completed => v.observeCompleted event
  | _ => .ok v

/-- The last part of `observe`: nothing but a cancellation follows the completion. -/
def observeOrder : Except String Unit :=
  let runId := event.runId
  let name := event.event
  match event.kind with
  | some .completed | some .cancelRequested | none => .ok ()
  | some _ =>
      if v.completedAtMs.isSome then
        .error s!"run '{runId}' has a {name} event after completion"
      else
        .ok ()

def observe :
    Except String RunLifecycleValidator := do
  let known := isRecognizedRunEvent event.event
  if known then
    validateRunIdForLease event.runId
  let v ← v.observeQueued event
  let v ← v.observePayload event
  v.observeOrder event
  .ok { v with
    knownEventCount := if known then saturatingSucc v.knownEventCount else v.knownEventCount
    eventCount := saturatingSucc v.eventCount }

def observeAll (events : List RunEventRecord) : Except String RunLifecycleValidator :=
  events.foldlM observe {}

end RunLifecycleValidator

/-! ## Streams of several runs -/

/-- `RunStreamValidator`: one validator for every run id. -/
structure RunStreamValidator where
  lifecycles : ExtTreeMap String RunLifecycleValidator := ∅

namespace RunStreamValidator

def observe (v : RunStreamValidator) (event : RunEventRecord) :
    Except String RunStreamValidator := do
  let lifecycle ← ((v.lifecycles[event.runId]?).getD {}).observe event
  .ok ⟨v.lifecycles.insert event.runId lifecycle⟩

def finish (v : RunStreamValidator) :
    Except String (ExtTreeMap String RunLifecycleValidator) := do
  v.lifecycles.toList.forM fun (runId, lifecycle) =>
    if lifecycle.knownEventCount > 0 ∧ !lifecycle.queued then
      .error s!"run '{runId}' has no queued event"
    else
      .ok ()
  .ok v.lifecycles

end RunStreamValidator

end Jig.State

import Jig.Lib.Fallible
import Jig.State.RunEvent

/-!
# Folding the journal

`fold_events` (`runs.rs`) reconstructs a durable run from its events. Unlike the lifecycle validator
it keeps the results of the targets in a vector and overwrites them.
-/

namespace Jig.State

open Contract Lib

structure DurableRun where
  plan : RunPlan
  result : RunResult
  cancelRequested : Bool
deriving DecidableEq

/-- Update the first element that satisfies `p`. -/
def modifyFirst {α : Type} (p : α → Bool) (f : α → α) : List α → List α
  | [] => []
  | a :: l => if p a then f a :: l else a :: modifyFirst p f l

def requireRun (run : Option DurableRun) (runId event : String) : Except String DurableRun :=
  match run with
  | some run => .ok run
  | none => .error s!"run '{runId}' has a {event} event before queued"

variable (run : DurableRun) (runId : String)

def ensureNonterminal (event : String) : Except String Unit :=
  if run.result.status = .completed then
    .error s!"run '{runId}' has a {event} event after completion"
  else
    .ok ()

/-- `target_result_mut`: the result that is then read and overwritten. -/
def targetResult (target : TargetId) : Except String TargetRunResult :=
  match run.result.targets.find? (fun result => result.target = target) with
  | some result => .ok result
  | none => .error s!"run '{runId}' references unplanned target '{target}'"

/-- Write through the reference `target_result_mut` returns. -/
def DurableRun.setTarget (target : TargetId) (f : TargetRunResult → TargetRunResult) : DurableRun :=
  { run with result :=
    { run.result with
      targets := modifyFirst (fun result => result.target = target) f run.result.targets } }

/-- Advance the run and its time stamp. -/
def DurableRun.touch (status : RunStatus) (timestampMs : Nat) : DurableRun :=
  { run with result := { run.result with status, updatedAtMs := timestampMs } }

def DurableRun.queued (runId : String) (plan : RunPlan) (timestampMs : Nat) : DurableRun :=
  { plan
    result := .queued runId plan.id timestampMs
      (plan.targets.map fun target =>
        .queued target.target plan.configDigest target.inputDigest)
    cancelRequested := false }

/-- `EVENT_QUEUED`. -/
def foldQueued (run : Option DurableRun) (event : RunEventRecord) : Except String DurableRun :=
  if run.isSome then
    .error s!"run '{runId}' has more than one queued event"
  else
    match event.plan with
    | none => .error s!"run '{runId}' queued event has no plan"
    | some plan => .ok (.queued runId plan event.timestampMs)

variable (current : DurableRun) (event : RunEventRecord)

/-- `EVENT_TARGET_STARTED`. -/
def foldTargetStarted : Except String DurableRun :=
  match event.target with
  | none => .error s!"run '{runId}' target_started event has no target"
  | some target => do
      let result ← targetResult current runId target
      if result.status = .completed then
        .error s!"run '{runId}' target '{target}' started after completion"
      else
        let started := current.setTarget target fun result =>
          { result with status := .running, startedAtMs := some event.timestampMs }
        .ok (started.touch .running event.timestampMs)

/-- `EVENT_TARGET_COMPLETED`. -/
def foldTargetCompleted : Except String DurableRun :=
  match event.result with
  | none => .error s!"run '{runId}' target_completed event has no result"
  | some result =>
      let target := result.target
      if event.target ≠ some target then
        .error s!"run '{runId}' target_completed identity does not match its result"
      else if result.status ≠ .completed ∨ result.conclusion = none then
        .error s!"run '{runId}' target '{target}' has a nonterminal result"
      else do
        let stored ← targetResult current runId target
        if stored.status = .completed then
          .error s!"run '{runId}' target '{target}' completed more than once"
        else
          .ok ((current.setTarget target fun _ => result).touch .running event.timestampMs)

/-- `EVENT_COMPLETED`. -/
def foldCompleted : Except String DurableRun :=
  if current.result.targets.any (fun target => target.status ≠ .completed) then
    .error s!"run '{runId}' completed before every target reached a conclusion"
  else
    match event.conclusion with
    | none => .error s!"run '{runId}' completed event has no conclusion"
    | some conclusion =>
        let completed := current.touch .completed event.timestampMs
        .ok { completed with result := { completed.result with conclusion := some conclusion } }

/-- `EVENT_CANCEL_REQUESTED`. A cancellation after the completion is an idempotent observation. -/
def foldCancelRequested : DurableRun :=
  if current.result.status = .completed then
    current
  else
    { current with
      cancelRequested := true
      result := { current.result with updatedAtMs := event.timestampMs } }

/-- One iteration of the loop of `fold_events`. -/
def foldEvent (run : Option DurableRun) (event : RunEventRecord) :
    Except String (Option DurableRun) := do
  match event.kind with
  | some .queued =>
      let queued ← foldQueued runId run event
      .ok (some queued)
  | some .running =>
      let current ← requireRun run runId event.event
      ensureNonterminal current runId event.event
      .ok (some (current.touch .running event.timestampMs))
  | some .targetStarted =>
      let current ← requireRun run runId event.event
      ensureNonterminal current runId event.event
      let started ← foldTargetStarted runId current event
      .ok (some started)
  | some .targetCompleted =>
      let current ← requireRun run runId event.event
      ensureNonterminal current runId event.event
      let completed ← foldTargetCompleted runId current event
      .ok (some completed)
  | some .completed =>
      let current ← requireRun run runId event.event
      ensureNonterminal current runId event.event
      let completed ← foldCompleted runId current event
      .ok (some completed)
  | some .cancelRequested =>
      let current ← requireRun run runId event.event
      .ok (some (foldCancelRequested current event))
  | none => .ok run

def foldEvents (events : List RunEventRecord) : Except String DurableRun := do
  match ← events.foldlM (foldEvent runId) none with
  | some run => .ok run
  | none => .error s!"run '{runId}' was not found"

end Jig.State

import Jig.Contract.Run

/-!
# Run events

The records of the append-only run journal (`jig-state`, `records.rs` and `runs.rs`) and the names
of the events that have a meaning. A journal may hold events with other names; both readers of a
journal skip them.
-/

namespace Jig.State

open Contract

inductive RunEventKind where
  | queued
  | running
  | targetStarted
  | targetCompleted
  | completed
  | cancelRequested
deriving DecidableEq, Repr

/-- The `EVENT_*` constants. -/
def RunEventKind.name : RunEventKind → String
  | .queued => "queued"
  | .running => "running"
  | .targetStarted => "target_started"
  | .targetCompleted => "target_completed"
  | .completed => "completed"
  | .cancelRequested => "cancel_requested"

def RunEventKind.ofName (name : String) : Option RunEventKind :=
  [queued, running, targetStarted, targetCompleted, completed, cancelRequested].find?
    (fun kind => kind.name = name)

@[simp]
theorem RunEventKind.ofName_name (kind : RunEventKind) : ofName kind.name = some kind := by
  cases kind <;> decide

theorem RunEventKind.ofName_eq_some {name : String} {kind : RunEventKind} :
    ofName name = some kind ↔ name = kind.name := by
  constructor
  · intro h
    have hname : kind.name = name := by simpa using List.find?_some h
    exact hname.symm
  · intro h
    rw [h, ofName_name]

structure RunEventRecord where
  id : String
  runId : String
  event : String
  timestampMs : Nat
  plan : Option RunPlan := none
  target : Option TargetId := none
  result : Option TargetRunResult := none
  conclusion : Option RunConclusion := none
deriving DecidableEq

def RunEventRecord.kind (event : RunEventRecord) : Option RunEventKind :=
  RunEventKind.ofName event.event

def isRecognizedRunEvent (event : String) : Bool :=
  (RunEventKind.ofName event).isSome

/-- `validate_run_id_for_lease`. The check on bytes and the check on characters agree, since no byte
of a multi-byte character is alphanumeric. -/
def validateRunIdForLease (runId : String) : Except String Unit :=
  if runId.isEmpty || runId.utf8ByteSize > 128 ||
      !runId.toList.all (fun c => c.isAlphanum || c == '_' || c == '-') then
    .error "run id cannot be used as a safe worker lease filename"
  else
    .ok ()

end Jig.State

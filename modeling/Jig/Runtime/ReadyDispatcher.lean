import Jig.Runtime.QueueConstruction

/-!
# The ready dispatcher

The coordinator loop of `execute_ready_read_only_targets` (`run_execution/parallel/ready.rs`). One
`tick` is one iteration of the loop: a pass over the ready targets, the launch of what the pass
admitted, the check for a stuck schedule, and one receive of worker outcomes.

Everything the loop asks of its surroundings is an input of the tick (`TickInput`): the answers of
the cancellation probe, of the slot pool and of the source checks, whether a durable record could be
written, and the outcomes that worker threads sent. Slots and the resource reservation have their
own model in `Slots`; here a slot is simply granted or refused.

`Outcome.Admissible` says which outcomes the workers can send: an ordinary worker sends one outcome,
and the resource worker sends one result for every target handed to it and returns successfully only
after its arrivals are closed and all of them are published (`execute_resource_layer`).
-/

namespace Jig.Runtime

open Contract Lib State

/-! ## Inputs -/

/-- `ReadyOutcome`. A resource result carries the source failure its wave check may have found and
whether the worker still waits for the acknowledgment. -/
inductive Outcome where
  | ordinary (index : Nat) (execution : Except String RunConclusion)
  | resource (index : Nat) (conclusion : RunConclusion) (source : Option String)
      (acknowledged : Bool)
  | resourcesFinished (result : Except String Unit)

/-- The answers one iteration of the loop gets. -/
structure TickInput where
  /-- `control.cancelled()`, when the pass examines the target. -/
  cancelled : Nat → Except String Bool
  /-- Whether `try_acquire_ordinary` grants a slot. -/
  slot : Nat → Bool
  /-- Whether the resource worker still receives arrivals. -/
  send : Nat → Bool
  /-- Repository authority and source check before ordinary targets start. -/
  precondition : Except String Unit
  flush : Except String Unit
  /-- The outcomes received; none when the receive times out. -/
  outcomes : List Outcome
  /-- A source failure found after ordinary targets completed. -/
  postcondition : Option String
  /-- The effect policy applied to the conclusion of a completed ordinary target. -/
  enforce : Nat → RunConclusion → RunConclusion
  /-- Recording a result durably. -/
  record : Nat → Except String Unit

/-! ## State -/

/-- The state of the loop. `run` holds the queue and, as a record the code does not keep, every
index taken from `ready` and everything published so far. -/
structure Coordinator where
  run : DispatchState
  unsentResources : Nat
  sourceFailure : Option String
  workers : Std.ExtTreeSet Nat
  /-- The targets the resource worker holds, when there is one. -/
  resourceWorker : Option (List Nat)
  /-- Whether the arrivals channel is open. -/
  resourceSender : Bool

def needsResources (queue : ReadyQueue) (index : Nat) : Bool :=
  (queue.targets[index]?).any fun target => !target.1.resources.isEmpty

def Coordinator.start (queue : ReadyQueue) : Coordinator :=
  { run := .start queue
    unsentResources := queue.targets.countP fun target => !target.1.resources.isEmpty
    sourceFailure := none
    workers := ∅
    resourceWorker := none
    resourceSender := false }

/-- Record a result and publish it to the queue. -/
def publishTarget (record : Nat → Except String Unit) (run : DispatchState) (index : Nat)
    (conclusion : RunConclusion) : Except RunFailure DispatchState :=
  match record index with
  | .error message => .error (.propagated message)
  | .ok () => do
      let queue ← run.queue.publish index conclusion
      .ok { run with queue, published := run.published ++ [(index, conclusion)] }

/-! ## The pass over the ready targets -/

def unstartedReason (cancelled : Except String Bool) (dependencyFailed : Bool)
    (sourceFailure : Option String) : Option (RunConclusion × String) :=
  match cancelled with
  | .ok true => some (.cancelled, "run cancellation was requested before the target started")
  | .error error =>
      some (.blocked, s!"run cancellation state could not be inspected: {error}")
  | .ok false =>
      if dependencyFailed then
        some (.skipped, "a declared target dependency did not succeed")
      else
        sourceFailure.map fun reason => (.blocked, reason)

structure Pass where
  coordinator : Coordinator
  ordinary : List Nat
  resourceTargets : List Nat

variable (input : TickInput)

/-- `dispatch_resource_candidate`: hand the target to the running worker, or keep it for a new one.
-/
def Pass.dispatchResourceCandidate (pass : Pass) (index : Nat) : Except RunFailure Pass :=
  let c := pass.coordinator
  match c.unsentResources with
  | 0 => .error (.panic "attempt to subtract with overflow")
  | unsent + 1 =>
      if c.resourceSender then
        if input.send index then
          .ok { pass with coordinator :=
            { c with
              unsentResources := unsent
              resourceWorker := c.resourceWorker.map (· ++ [index])
              run := c.run.take index } }
        else
          .error (.bail "resource worker stopped before accepting a ready target")
      else
        .ok { pass with
          coordinator := { c with unsentResources := unsent, run := c.run.take index }
          resourceTargets := pass.resourceTargets ++ [index] }

/-- A target that will not start: it leaves the resource accounting and is published. -/
def Pass.finishUnstarted (pass : Pass) (index : Nat) (conclusion : RunConclusion) :
    Except RunFailure Pass := do
  let c := pass.coordinator
  let counted := if needsResources c.run.queue index then 1 else 0
  if c.unsentResources < counted then
    .error (.panic "attempt to subtract with overflow")
  else
    let run ← publishTarget input.record c.run index conclusion
    .ok { pass with coordinator := { c with run, unsentResources := c.unsentResources - counted } }

/-- The body of the pass for one ready index. -/
def Pass.visit (pass : Pass) (index : Nat) : Except RunFailure Pass :=
  let c := pass.coordinator
  match unstartedReason (input.cancelled index) (c.run.queue.failed index) c.sourceFailure with
  | some (conclusion, _) => pass.finishUnstarted input index conclusion
  | none =>
      if needsResources c.run.queue index then
        pass.dispatchResourceCandidate input index
      else if input.slot index then
        .ok { pass with
          coordinator := { c with run := c.run.take index }
          ordinary := pass.ordinary ++ [index] }
      else
        .ok pass

variable (c : Coordinator)

/-- The pass over a snapshot of the ready set, in ascending order. -/
def Coordinator.pass : Except RunFailure Pass :=
  c.run.queue.ready.toList.foldlM (Pass.visit input) ⟨c, [], []⟩

/-! ## Launching what the pass admitted -/

/-- A failed precondition blocks every admitted target, ordinary ones first. -/
def Pass.blockAdmitted (pass : Pass) (message : String) :
    Except RunFailure Coordinator := do
  let run ← (pass.ordinary ++ pass.resourceTargets).foldlM
    (fun run index => publishTarget input.record run index .blocked) pass.coordinator.run
  .ok { pass.coordinator with run, sourceFailure := some message }

/-- Spawn the ordinary workers and, for held resource targets, the resource worker; close the
arrivals once every resource target is accounted for. -/
def Pass.launch (pass : Pass) : Coordinator :=
  let c := pass.coordinator
  { c with
    workers := c.workers.insertMany pass.ordinary
    resourceWorker :=
      if pass.resourceTargets.isEmpty then c.resourceWorker else some pass.resourceTargets
    resourceSender :=
      (c.resourceSender || !pass.resourceTargets.isEmpty) && c.unsentResources != 0 }

def stuckMessage : String :=
  "ready scheduler has unfinished targets without a runnable dependency path"

/-- How the admission half of an iteration ends. -/
inductive Admitted where
  | retry (c : Coordinator)
  | finished (c : Coordinator)
  | wait (c : Coordinator)

/-- The admission half of an iteration: pass, launch, and the check for a stuck schedule. -/
def Coordinator.admission : Except RunFailure Admitted := do
  let pass ← c.pass input
  match pass.ordinary, input.precondition with
  | _ :: _, .error message =>
      let c ← pass.blockAdmitted input message
      .ok (.retry c)
  | _, _ =>
      let c := pass.launch
      if c.workers.isEmpty && c.resourceWorker.isNone then
        if c.run.queue.unfinished = 0 then
          .ok (.finished c)
        else if !c.run.queue.ready.isEmpty then
          .ok (.retry c)
        else
          .error (.bail stuckMessage)
      else
        .ok (.wait c)

/-! ## Receiving outcomes -/

/-- The loop state while a batch of outcomes is taken apart, with the ordinary completions whose
publication waits for the source check. -/
structure Batch where
  coordinator : Coordinator
  ordinary : List (Nat × RunConclusion)

def Batch.accept (batch : Batch) : Outcome → Except RunFailure Batch
  | .ordinary index execution =>
      let c := batch.coordinator
      if index ∉ c.workers then
        .error (.panic "ordinary worker exists")
      else
        match execution with
        | .error message => .error (.propagated message)
        | .ok conclusion =>
            .ok { coordinator := { c with workers := c.workers.erase index }
                  ordinary := batch.ordinary ++ [(index, conclusion)] }
  | .resource index conclusion source acknowledged => do
      let c := batch.coordinator
      let run ← publishTarget input.record c.run index conclusion
      if acknowledged then
        .ok { batch with coordinator :=
          { c with
            run
            sourceFailure := c.sourceFailure <|> source
            resourceWorker := c.resourceWorker.map (·.filter (· ≠ index)) } }
      else
        .error (.bail "resource worker stopped during publication")
  | .resourcesFinished result =>
      let c := batch.coordinator
      match c.resourceWorker, result with
      | none, _ => .error (.panic "resource worker exists")
      | some _, .error message => .error (.propagated message)
      | some _, .ok () =>
          .ok { batch with coordinator := { c with resourceWorker := none, resourceSender := false } }

def publishOrdinary (run : DispatchState) (completions : List (Nat × RunConclusion)) :
    Except RunFailure DispatchState :=
  completions.foldlM
    (fun run completion =>
      publishTarget input.record run completion.1 (input.enforce completion.1 completion.2)) run

def Coordinator.receive : Except RunFailure Coordinator :=
  match input.flush with
  | .error message => .error (.propagated message)
  | .ok () => do
      let batch ← input.outcomes.foldlM (Batch.accept input) ⟨c, []⟩
      let c := batch.coordinator
      let run ← publishOrdinary input c.run batch.ordinary
      .ok { c with
        run
        sourceFailure :=
          if batch.ordinary.isEmpty then c.sourceFailure else c.sourceFailure <|> input.postcondition }

/-! ## The loop -/

/-- How one iteration ends. -/
inductive Tick where
  | next (c : Coordinator)
  | finished (c : Coordinator)

/-- One iteration of the coordinator loop, its condition included. -/
def Coordinator.tick : Except RunFailure Tick :=
  if c.run.queue.unfinished = 0 && c.resourceWorker.isNone then
    .ok (.finished c)
  else do
    match ← c.admission input with
    | .retry c => .ok (.next c)
    | .finished c => .ok (.finished c)
    | .wait c =>
        let c ← c.receive input
        .ok (.next c)

/-! ## What the workers can send -/

/-- An outcome the live workers can send next. -/
def Outcome.Admissible : Outcome → Prop
  | .ordinary index _ => index ∈ c.workers
  | .resource index _ _ _ => ∃ held, c.resourceWorker = some held ∧ index ∈ held
  | .resourcesFinished result =>
      ∃ held, c.resourceWorker = some held ∧
        (result = .ok () → held = [] ∧ c.resourceSender = false)

/-- Each outcome of the list is admissible when its turn comes. -/
def AdmissibleBatch (batch : Batch) (outcomes : List Outcome) : Prop :=
  ∀ done o rest batch', outcomes = done ++ o :: rest →
    done.foldlM (Batch.accept input) batch = .ok batch' → o.Admissible batch'.coordinator

def TickInput.Admissible : Prop :=
  ∀ c', c.admission input = .ok (.wait c') → AdmissibleBatch input ⟨c', []⟩ input.outcomes

variable (allowed : TickInput → Prop)

/-- One iteration that goes on, with an allowed input and the outcomes of real workers. -/
def Coordinator.Next (c c' : Coordinator) : Prop :=
  ∃ input, allowed input ∧ input.Admissible c ∧ c.tick input = .ok (.next c')

def Coordinator.Exit (c c' : Coordinator) : Prop :=
  ∃ input, allowed input ∧ input.Admissible c ∧ c.tick input = .ok (.finished c')

abbrev Coordinator.Reaches : Coordinator → Coordinator → Prop :=
  Relation.ReflTransGen (Coordinator.Next allowed)

end Jig.Runtime

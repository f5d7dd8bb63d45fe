import Jig.State.FoldEvents
import Jig.State.Lifecycle

/-!
# The processes around one durable run

A run is written by one worker (`start_run_with_event_cursor_and_execution_lease`,
`terminalize_started_run`), and observed by any number of inspectors
(`reconcile_run_for_inspection`), cancel requesters (`request_run_cancel`) and archivers
(`runs_archive`, which inspects every nonterminal run first and is then an inspector). They share
the run journal and the lease file.

`RunSystem` holds the part of that state that belongs to one run: its events in the journal, those
an archiver has moved out of it, the lease file and the place each process has reached. An append
and a read happen under the journal lock and are one step each; an archiver keeps that lock over
several steps. A lease file is named by a number that stands for its inode: an inspector may still
have a file open that an archiver has removed. A process may crash between any two steps, and a lock
is held exactly as long as its process is at a place where the source holds it. An I/O error is a
crash.
-/

namespace Jig.State

open Contract

/-! ## Records -/

/-- What `new_id` and `now_ms` return for a new record. -/
structure Stamp where
  id : String
  nowMs : Nat
deriving DecidableEq, Repr

/-- The record `start_run_with_event_cursor_and_execution_lease` appends. -/
def queuedEvent (runId : String) (plan : RunPlan) (stamp : Stamp) : RunEventRecord :=
  { id := stamp.id, runId, event := RunEventKind.queued.name, timestampMs := stamp.nowMs,
    plan := some plan }

/-- `append_simple_event`. -/
def simpleEvent (runId : String) (kind : RunEventKind) (target : Option TargetId)
    (conclusion : Option RunConclusion) (stamp : Stamp) : RunEventRecord :=
  { id := stamp.id, runId, event := kind.name, timestampMs := stamp.nowMs, target, conclusion }

/-- `record_target_result`. -/
def resultEvent (runId : String) (result : TargetRunResult) (stamp : Stamp) : RunEventRecord :=
  { id := stamp.id, runId, event := RunEventKind.targetCompleted.name,
    timestampMs := result.endedAtMs.getD stamp.nowMs, target := some result.target,
    result := some result }

/-! ## `block_nonterminal_run` -/

/-- The loop of `block_nonterminal_run`: the targets still to be recorded and the conclusions
collected so far. -/
structure BlockLoop where
  pending : List TargetRunResult
  conclusions : List RunConclusion
deriving DecidableEq

/-- The loop as the read of the run sets it up. -/
def BlockLoop.start (run : DurableRun) : BlockLoop where
  pending := run.result.targets.filter (·.status ≠ .completed)
  conclusions := run.result.targets.filterMap (·.conclusion)

/-- The result recorded for a target that has none. -/
def blockedResult (message : String) (nowMs : Nat) (target : TargetRunResult) : TargetRunResult :=
  { target with
    status := .completed
    conclusion := some .blocked
    endedAtMs := some nowMs
    findings := target.findings ++ [{ severity := .error, message, source := some "jig" }] }

def runConclusionPriority : RunConclusion → Nat
  | .failure => 5
  | .timedOut => 4
  | .blocked => 3
  | .cancelled => 2
  | .skipped => 1
  | .success => 0

/-- `max_by_key(run_conclusion_priority)`, which prefers later elements, or `Blocked`. -/
def BlockLoop.conclusion (loop : BlockLoop) : RunConclusion :=
  let later (best : Option RunConclusion) (next : RunConclusion) :=
    match best with
    | none => some next
    | some best =>
        if runConclusionPriority best ≤ runConclusionPriority next then some next else some best
  (loop.conclusions.foldl later none).getD .blocked

/-! ## Places -/

/-- What the worker does while it holds the lease. -/
inductive WorkerTask where
  | starting
  | queued
  /-- In `execute_started_check_run_inner`; `recorded` are the keys of `conclusions`. -/
  | running (recorded : List TargetId)
  /-- The completed event has been appended. -/
  | terminal
  /-- About to call `block_nonterminal_run`. -/
  | failing (message : String)
  | blocking (message : String) (loop : BlockLoop)
  | leaving
deriving DecidableEq

inductive RunWorker where
  | idle
  | opened (lease : Nat)
  | holding (lease : Nat) (task : WorkerTask)
  | finished
  | crashed
deriving DecidableEq

/-- What an inspector does while it holds the lease. -/
inductive InspectorTask where
  | recheck
  /-- About to call `block_nonterminal_run`. -/
  | confirmed
  | blocking (loop : BlockLoop)
  | reread
deriving DecidableEq

/-- Where an inspector is. `returned` and `failed` remember whether it held the lease. -/
inductive Inspector where
  | idle
  | observed (run : DurableRun)
  | opened (run : DurableRun) (lease : Nat)
  | holding (lease : Nat) (task : InspectorTask)
  | returned (run : DurableRun) (held : Bool)
  | failed (held : Bool)
  | crashed
deriving DecidableEq

inductive CancelRequester where
  | idle
  /-- The run was neither completed nor cancelled when it was read. -/
  | requested
  | appended
  | returned (run : DurableRun)
  | failed
  | crashed
deriving DecidableEq

inductive Archiver where
  | idle
  | scanning
  /-- The run completed before the cutoff. -/
  | selected
  /-- `run_lease_is_idle` has locked the lease file. -/
  | probing (lease : Nat)
  | unleased
  /-- The lease file has been removed. -/
  | pruned
  | finished
  | crashed
deriving DecidableEq

def RunWorker.lease : RunWorker → Option Nat
  | .holding lease _ => some lease
  | _ => none

def Inspector.lease : Inspector → Option Nat
  | .holding lease _ => some lease
  | _ => none

def Inspector.handle : Inspector → Option Nat
  | .opened _ lease | .holding lease _ => some lease
  | _ => none

def Archiver.lease : Archiver → Option Nat
  | .probing lease => some lease
  | _ => none

/-- An archiver that is going to remove the run. -/
def Archiver.chosen : Archiver → Bool
  | .selected | .probing _ | .unleased | .pruned => true
  | _ => false

/-- An archiver inside `with_jsonl_write_lock`. -/
def Archiver.locksJournal (archiver : Archiver) : Bool :=
  archiver = .scanning || archiver.chosen

/-! ## The shared state -/

structure RunSystem where
  /-- The events of the run in `runs.jsonl`. -/
  journal : List RunEventRecord := []
  /-- The events of the run that archivers have taken out of the journal. -/
  archive : List RunEventRecord := []
  /-- The file at `run_lease_path`. -/
  leasePath : Option Nat := none
  nextLease : Nat := 0
  worker : RunWorker := .idle
  inspectors : Nat → Inspector := fun _ => .idle
  requesters : Nat → CancelRequester := fun _ => .idle
  archivers : Nat → Archiver := fun _ => .idle

namespace RunSystem

variable (s : RunSystem)

def JournalFree : Prop :=
  ∀ n, (s.archivers n).locksJournal = false

def LeaseFree (lease : Nat) : Prop :=
  s.worker.lease ≠ some lease ∧ (∀ n, (s.inspectors n).lease ≠ some lease) ∧
    ∀ n, (s.archivers n).lease ≠ some lease

/-- The file `open_run_lease` returns. -/
def leaseHandle : Nat :=
  s.leasePath.getD s.nextLease

/-- `open_run_lease` creates the file when it is missing. -/
def openRunLease : RunSystem :=
  { s with
    leasePath := some s.leaseHandle
    nextLease := if s.leasePath.isSome then s.nextLease else s.nextLease + 1 }

/-- `append_jsonl`. -/
def append (event : RunEventRecord) : RunSystem :=
  { s with journal := s.journal ++ [event] }

def runById (runId : String) : Except String DurableRun :=
  foldEvents runId s.journal

def setWorker (worker : RunWorker) : RunSystem :=
  { s with worker }

def setInspector (n : Nat) (inspector : Inspector) : RunSystem :=
  { s with inspectors := Function.update s.inspectors n inspector }

def setRequester (n : Nat) (requester : CancelRequester) : RunSystem :=
  { s with requesters := Function.update s.requesters n requester }

def setArchiver (n : Nat) (archiver : Archiver) : RunSystem :=
  { s with archivers := Function.update s.archivers n archiver }

end RunSystem

/-! ## What a read decides -/

/-- The read at the start of `block_nonterminal_run`, called by the worker. -/
def WorkerTask.afterBlockRead (message : String) : Except String DurableRun → WorkerTask
  | .error _ => .leaving
  | .ok run =>
      if run.result.status = .completed then .leaving else .blocking message (.start run)

/-- The first read of `reconcile_run_for_inspection`. -/
def Inspector.afterObserve : Except String DurableRun → Inspector
  | .error _ => .failed false
  | .ok run => if run.result.status = .completed then .returned run false else .observed run

/-- The read under the lease. -/
def Inspector.afterRecheck (lease : Nat) : Except String DurableRun → Inspector
  | .error _ => .failed true
  | .ok current =>
      .holding lease (if current.result.status = .completed then .reread else .confirmed)

/-- The read at the start of `block_nonterminal_run`, called by an inspector. -/
def Inspector.afterBlockRead (lease : Nat) : Except String DurableRun → Inspector
  | .error _ => .failed true
  | .ok run =>
      .holding lease (if run.result.status = .completed then .reread else .blocking (.start run))

/-- The read that gives the result of `reconcile_run_for_inspection`. -/
def Inspector.afterReread : Except String DurableRun → Inspector
  | .error _ => .failed true
  | .ok run => .returned run true

/-- The first read of `request_run_cancel`. -/
def CancelRequester.afterRead : Except String DurableRun → CancelRequester
  | .error _ => .failed
  | .ok run =>
      if run.result.status = .completed ∨ run.cancelRequested then .returned run else .requested

/-- The second read of `request_run_cancel`. -/
def CancelRequester.afterReread : Except String DurableRun → CancelRequester
  | .error _ => .failed
  | .ok run => .returned run

/-! ## Steps -/

section Steps

variable (runId : String) (plan : RunPlan)

/-- The message of `reconcile_run_for_inspection`. -/
def abandonedMessage : String :=
  "repository run worker lease is no longer held; the worker process likely exited"

/-- Steps of the worker. The order in which targets start and finish is left open; the schedulers
start no target after its result and record one result for each target. -/
inductive WorkerStep (s : RunSystem) : RunSystem → Prop
  | openLease (hworker : s.worker = .idle) (hplan : validateRunPlanStructure plan = .ok ())
      (hid : validateRunIdForLease runId = .ok ()) :
      WorkerStep s (s.openRunLease.setWorker (.opened s.leaseHandle))
  | lockLease {lease : Nat} (hworker : s.worker = .opened lease) (hfree : s.LeaseFree lease) :
      WorkerStep s (s.setWorker (.holding lease .starting))
  | queue {lease : Nat} (stamp : Stamp) (hworker : s.worker = .holding lease .starting)
      (hjournal : s.JournalFree) :
      WorkerStep s ((s.append (queuedEvent runId plan stamp)).setWorker (.holding lease .queued))
  | run {lease : Nat} (stamp : Stamp) (hworker : s.worker = .holding lease .queued)
      (hjournal : s.JournalFree) :
      WorkerStep s ((s.append (simpleEvent runId .running none none stamp)).setWorker
        (.holding lease (.running [])))
  | startTarget {lease : Nat} {recorded : List TargetId} {target : TargetId} (stamp : Stamp)
      (hworker : s.worker = .holding lease (.running recorded)) (hjournal : s.JournalFree)
      (hplanned : target ∈ plan.targets.map (·.target)) (hnew : target ∉ recorded) :
      WorkerStep s (s.append (simpleEvent runId .targetStarted (some target) none stamp))
  | recordTarget {lease : Nat} {recorded : List TargetId} {result : TargetRunResult} (stamp : Stamp)
      (hworker : s.worker = .holding lease (.running recorded)) (hjournal : s.JournalFree)
      (hplanned : result.target ∈ plan.targets.map (·.target)) (hnew : result.target ∉ recorded)
      (hstatus : result.status = .completed) (hconclusion : result.conclusion ≠ none) :
      WorkerStep s ((s.append (resultEvent runId result stamp)).setWorker
        (.holding lease (.running (recorded ++ [result.target]))))
  | complete {lease : Nat} {recorded : List TargetId} (conclusion : RunConclusion) (stamp : Stamp)
      (hworker : s.worker = .holding lease (.running recorded)) (hjournal : s.JournalFree)
      (hall : ∀ target ∈ plan.targets.map (·.target), target ∈ recorded) :
      WorkerStep s ((s.append (simpleEvent runId .completed none (some conclusion) stamp)).setWorker
        (.holding lease .terminal))
  /-- `execute_started_check_run_inner` fails. -/
  | fail {lease : Nat} {task : WorkerTask} (message : String)
      (hworker : s.worker = .holding lease task)
      (htask : task = .queued ∨ (∃ recorded, task = .running recorded) ∨ task = .terminal) :
      WorkerStep s (s.setWorker (.holding lease (.failing message)))
  | blockRead {lease : Nat} {message : String}
      (hworker : s.worker = .holding lease (.failing message)) (hjournal : s.JournalFree) :
      WorkerStep s (s.setWorker (.holding lease (.afterBlockRead message (s.runById runId))))
  | blockTarget {lease : Nat} {message : String} {target : TargetRunResult}
      {pending : List TargetRunResult} {conclusions : List RunConclusion} (nowMs : Nat)
      (stamp : Stamp)
      (hworker : s.worker = .holding lease (.blocking message ⟨target :: pending, conclusions⟩))
      (hjournal : s.JournalFree) :
      WorkerStep s ((s.append (resultEvent runId (blockedResult message nowMs target) stamp)).setWorker
        (.holding lease (.blocking message ⟨pending, conclusions ++ [.blocked]⟩)))
  | blockComplete {lease : Nat} {message : String} {conclusions : List RunConclusion}
      (stamp : Stamp) (hworker : s.worker = .holding lease (.blocking message ⟨[], conclusions⟩))
      (hjournal : s.JournalFree) :
      WorkerStep s ((s.append (simpleEvent runId .completed none
        (some (BlockLoop.conclusion ⟨[], conclusions⟩)) stamp)).setWorker (.holding lease .leaving))
  | finish {lease : Nat} {task : WorkerTask} (hworker : s.worker = .holding lease task)
      (htask : task = .terminal ∨ task = .leaving) : WorkerStep s (s.setWorker .finished)
  | crash : WorkerStep s (s.setWorker .crashed)

/-- Steps of the inspector with number `n`. -/
inductive InspectorStep (n : Nat) (s : RunSystem) : RunSystem → Prop
  | observe (hplace : s.inspectors n = .idle) (hjournal : s.JournalFree) :
      InspectorStep n s (s.setInspector n (.afterObserve (s.runById runId)))
  | openLease {run : DurableRun} (hplace : s.inspectors n = .observed run)
      (hid : validateRunIdForLease runId = .ok ()) :
      InspectorStep n s (s.openRunLease.setInspector n (.opened run s.leaseHandle))
  | lockLease {run : DurableRun} {lease : Nat} (hplace : s.inspectors n = .opened run lease)
      (hfree : s.LeaseFree lease) :
      InspectorStep n s (s.setInspector n (.holding lease .recheck))
  /-- Somebody else holds the lease. -/
  | wouldBlock {run : DurableRun} {lease : Nat} (hplace : s.inspectors n = .opened run lease)
      (hheld : ¬s.LeaseFree lease) :
      InspectorStep n s (s.setInspector n (.returned run false))
  | recheck {lease : Nat} (hplace : s.inspectors n = .holding lease .recheck)
      (hjournal : s.JournalFree) :
      InspectorStep n s (s.setInspector n (.afterRecheck lease (s.runById runId)))
  | blockRead {lease : Nat} (hplace : s.inspectors n = .holding lease .confirmed)
      (hjournal : s.JournalFree) :
      InspectorStep n s (s.setInspector n (.afterBlockRead lease (s.runById runId)))
  | blockTarget {lease : Nat} {target : TargetRunResult} {pending : List TargetRunResult}
      {conclusions : List RunConclusion} (nowMs : Nat) (stamp : Stamp)
      (hplace : s.inspectors n = .holding lease (.blocking ⟨target :: pending, conclusions⟩))
      (hjournal : s.JournalFree) :
      InspectorStep n s
        ((s.append (resultEvent runId (blockedResult abandonedMessage nowMs target) stamp)).setInspector
          n (.holding lease (.blocking ⟨pending, conclusions ++ [.blocked]⟩)))
  | blockComplete {lease : Nat} {conclusions : List RunConclusion} (stamp : Stamp)
      (hplace : s.inspectors n = .holding lease (.blocking ⟨[], conclusions⟩))
      (hjournal : s.JournalFree) :
      InspectorStep n s ((s.append (simpleEvent runId .completed none
        (some (BlockLoop.conclusion ⟨[], conclusions⟩)) stamp)).setInspector n
          (.holding lease .reread))
  | reread {lease : Nat} (hplace : s.inspectors n = .holding lease .reread)
      (hjournal : s.JournalFree) :
      InspectorStep n s (s.setInspector n (.afterReread (s.runById runId)))
  | crash : InspectorStep n s (s.setInspector n .crashed)

/-- Steps of the cancel requester with number `n`. -/
inductive RequesterStep (n : Nat) (s : RunSystem) : RunSystem → Prop
  | read (hplace : s.requesters n = .idle) (hjournal : s.JournalFree) :
      RequesterStep n s (s.setRequester n (.afterRead (s.runById runId)))
  | append (stamp : Stamp) (hplace : s.requesters n = .requested) (hjournal : s.JournalFree) :
      RequesterStep n s
        ((s.append (simpleEvent runId .cancelRequested none none stamp)).setRequester n .appended)
  | reread (hplace : s.requesters n = .appended) (hjournal : s.JournalFree) :
      RequesterStep n s (s.setRequester n (.afterReread (s.runById runId)))
  | crash : RequesterStep n s (s.setRequester n .crashed)

/-- Steps of the archiver with number `n`. -/
inductive ArchiverStep (n : Nat) (s : RunSystem) : RunSystem → Prop
  | lockJournal (hplace : s.archivers n = .idle) (hjournal : s.JournalFree) :
      ArchiverStep n s (s.setArchiver n .scanning)
  | select {v : RunLifecycleValidator} {endedMs : Nat} (beforeMs : Nat)
      (hplace : s.archivers n = .scanning)
      (hscan : RunLifecycleValidator.observeAll s.journal = .ok v)
      (hended : v.completedAtMs = some endedMs) (hbefore : endedMs < beforeMs) :
      ArchiverStep n s (s.setArchiver n .selected)
  /-- The lease file does not exist. -/
  | noLease (hplace : s.archivers n = .selected) (hpath : s.leasePath = none) :
      ArchiverStep n s (s.setArchiver n .unleased)
  | probe {lease : Nat} (hplace : s.archivers n = .selected) (hpath : s.leasePath = some lease)
      (hfree : s.LeaseFree lease) : ArchiverStep n s (s.setArchiver n (.probing lease))
  | unlock {lease : Nat} (hplace : s.archivers n = .probing lease) :
      ArchiverStep n s (s.setArchiver n .unleased)
  /-- `remove_run_lease`. -/
  | prune (hplace : s.archivers n = .unleased) :
      ArchiverStep n s ({ s with leasePath := none }.setArchiver n .pruned)
  /-- `rewrite_jsonl_raw_locked` drops every record of the run. -/
  | rewrite (hplace : s.archivers n = .pruned) :
      ArchiverStep n s
        ({ s with journal := [], archive := s.archive ++ s.journal }.setArchiver n .finished)
  /-- The run is retained, or the archiver gives up, and the locks are released. -/
  | leave : ArchiverStep n s (s.setArchiver n .finished)
  | crash : ArchiverStep n s (s.setArchiver n .crashed)

inductive RunStep (s s' : RunSystem) : Prop
  | worker (h : WorkerStep runId plan s s')
  | inspector (n : Nat) (h : InspectorStep runId n s s')
  | requester (n : Nat) (h : RequesterStep runId n s s')
  | archiver (n : Nat) (h : ArchiverStep n s s')

end Steps

end Jig.State

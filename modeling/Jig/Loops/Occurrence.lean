import Jig.Lib.LastMax
import Jig.Lib.TreeMap

/-!
# Occurrences of loop workflows

The schedule file of `jig-loops` and the operations of `OccurrenceStore` on it (`occurrence.rs` with
its submodules `claim`, `manual`, `history`, `transition`, `attention` and `worktree`). An operation
runs under the schedule locks on the file that was read, and the file is written when it returns a
result; so an operation is a function on files, and one that fails changes nothing.

Clocks are arguments, and so is the owner of a claim, which the source takes from the process and a
fresh ULID. Whether the worktree that a record names is still there is asked of the file system: the
argument `retained` answers for the text in the record. Every operation that prunes the history does
so last, so an operation says whether it prunes (`Update.prunes`), and `Update.commit` does it.
-/

namespace Jig.Loops

open Lib

/-! ### Records -/

def scheduleSchemaVersion : Nat := 4

def occurrenceHistoryPerWorkflow : Nat := 20

def maxErrorChars : Nat := 4000

def staleReconciliationError : String := "scheduled task stopped without a terminal result"

/-- `STALE_RECONCILIATION_STAGED_ERROR_PREFIX`. -/
def staleReconciliationStagedErrorStart : String :=
  "scheduled task stopped without a terminal result; staged occurrence evidence: "

def manualOccurrenceScheduledAtMs : Nat := 0

inductive OccurrenceStatus where
  | running | succeeded | failed | needsAttention | acknowledged
deriving DecidableEq, Repr

def OccurrenceStatus.asStr : OccurrenceStatus → String
  | .running => "running"
  | .succeeded => "succeeded"
  | .failed => "failed"
  | .needsAttention => "needs_attention"
  | .acknowledged => "acknowledged"

structure ScheduleOccurrence where
  occurrenceId : String
  workflowId : String
  scheduledAtMs : Nat
  owner : String
  claimExpiresAtMs : Nat
  startedAtMs : Nat
  usesSharedCheckout : Option Bool
  finishedAtMs : Option Nat
  acknowledgedAtMs : Option Nat
  status : OccurrenceStatus
  workerInvoked : Bool
  legacyWorkerReceiptId : Option String
  worktree : Option String
  error : Option String
deriving DecidableEq, Repr

structure ScheduleFile where
  schemaVersion : Nat
  migratedTo : Option String
  occurrences : Std.ExtTreeMap String ScheduleOccurrence

/-- `ScheduleFile::default`. -/
def ScheduleFile.empty : ScheduleFile where
  schemaVersion := scheduleSchemaVersion
  migratedTo := none
  occurrences := ∅

namespace ScheduleOccurrence

variable (record : ScheduleOccurrence)

def workerWasInvoked : Bool :=
  record.workerInvoked || record.legacyWorkerReceiptId.isSome

def isPrunableHistory : Bool :=
  record.status = .succeeded || record.status = .failed || record.status = .acknowledged

/-- `has_retained_worktree`, given whether the worktree of a record is still there. -/
def hasRetainedWorktree (retained : String → Bool) (record : ScheduleOccurrence) : Bool :=
  record.worktree.any retained

def isUnacknowledgedStaleReconciliation : Bool :=
  record.status = .needsAttention &&
    record.finishedAtMs.any (fun finishedAtMs => finishedAtMs ≥ record.claimExpiresAtMs) &&
    record.acknowledgedAtMs.isNone

def isUnexecutedStaleReconciliation : Bool :=
  record.isUnacknowledgedStaleReconciliation && !record.workerWasInvoked &&
    record.error = some staleReconciliationError

def requiresAttentionAt (checkedAtMs : Nat) : Bool :=
  record.status = .needsAttention ||
    (record.status = .running && record.claimExpiresAtMs ≤ checkedAtMs)

end ScheduleOccurrence

def boundedError (error : String) : String :=
  String.ofList (error.toList.take maxErrorChars)

/-- `expiry`, with the saturation of `u64`. -/
def expiry (now ttlSeconds : Nat) : Nat :=
  min (now + min (ttlSeconds * 1000) (2 ^ 64 - 1)) (2 ^ 64 - 1)

def occurrenceId (workflowId : String) (scheduledAtMs : Nat) : String :=
  workflowId ++ "@" ++ toString scheduledAtMs

section File

variable (store : ScheduleFile)

def validateSchema : Except String Unit :=
  if store.schemaVersion ≠ scheduleSchemaVersion then
    .error ("Unsupported loop schedule state schema version " ++ toString store.schemaVersion ++
      "; expected " ++ toString scheduleSchemaVersion)
  else .ok ⟨⟩

def ScheduleFile.values : List ScheduleOccurrence :=
  valuesOf store.occurrences

def ScheduleFile.set (id : String) (record : ScheduleOccurrence) : ScheduleFile :=
  { store with occurrences := store.occurrences.insert id record }

def ScheduleFile.remove (id : String) : ScheduleFile :=
  { store with occurrences := store.occurrences.erase id }

/-! ### Pruning the history -/

def latestScheduled (workflowId : String) : Option ScheduleOccurrence :=
  lastMaxBy (·.scheduledAtMs) (store.values.filter fun record =>
    record.workflowId = workflowId && record.scheduledAtMs ≠ manualOccurrenceScheduledAtMs)

end File

variable (retained : String → Bool) (store : ScheduleFile)

def prunableRecords (workflowId : String) : List ScheduleOccurrence :=
  store.values.filter fun record =>
    record.workflowId = workflowId && record.isPrunableHistory &&
      !record.hasRetainedWorktree retained

/-- What `prune_history` sorts by. -/
structure TerminalKey where
  finishedAtMs : Nat
  startedAtMs : Nat
  scheduledAtMs : Nat
  occurrenceId : String
deriving DecidableEq, Repr

def TerminalKey.cmp (left right : TerminalKey) : Ordering :=
  (compare left.finishedAtMs right.finishedAtMs).then <|
    (compare left.startedAtMs right.startedAtMs).then <|
      (compare left.scheduledAtMs right.scheduledAtMs).then
        (compare left.occurrenceId right.occurrenceId)

def ScheduleOccurrence.terminalKey (record : ScheduleOccurrence) : TerminalKey where
  finishedAtMs := record.finishedAtMs.getD record.startedAtMs
  startedAtMs := record.startedAtMs
  scheduledAtMs := record.scheduledAtMs
  occurrenceId := record.occurrenceId

/-- `terminal`, the newest first. -/
def terminalIds (workflowId : String) : List String :=
  (((prunableRecords retained store workflowId).map ScheduleOccurrence.terminalKey).insertionSort
    fun left right => (right.cmp left).isLE).map TerminalKey.occurrenceId

/-- The loop that fills `retained` up to the limit. -/
def retainIds : List String → List String → List String
  | kept, [] => kept
  | kept, id :: rest =>
      if kept.length = occurrenceHistoryPerWorkflow then kept
      else retainIds (if id ∈ kept then kept else kept ++ [id]) rest

/-- What is kept of the terminal records of a workflow. -/
def keptIds (latestScheduledId : Option String) (terminal : List String) : List String :=
  retainIds (latestScheduledId.toList.filter (· ∈ terminal)) terminal

/-- One round of `prune_history`. -/
def pruneWorkflow (workflowId : String) : ScheduleFile :=
  let latestScheduledId := (latestScheduled store workflowId).map (·.occurrenceId)
  let terminal := terminalIds retained store workflowId
  let kept := keptIds latestScheduledId terminal
  terminal.foldl (fun store id => if id ∈ kept then store else store.remove id) store

def pruneHistory : ScheduleFile :=
  (Std.ExtTreeSet.ofList (store.values.map (·.workflowId))).toList.foldl (pruneWorkflow retained)
    store

/-- What an operation leaves: the file, whether its history is pruned, and the result. -/
structure Update (α : Type) where
  store : ScheduleFile
  prunes : Bool
  result : α

def Update.commit {α : Type} (retained : String → Bool) (update : Update α) : ScheduleFile :=
  if update.prunes then pruneHistory retained update.store else update.store

/-! ### Expiry -/

inductive OccurrenceOutcome where
  | succeeded | failed | needsAttention
deriving DecidableEq, Repr

def OccurrenceOutcome.status : OccurrenceOutcome → OccurrenceStatus
  | .succeeded => .succeeded
  | .failed => .failed
  | .needsAttention => .needsAttention

structure OccurrenceFinish where
  outcome : OccurrenceOutcome
  workerInvoked : Bool
  worktree : Option String
  error : Option String
deriving DecidableEq, Repr

def recordExpiredFinishEvidence (record : ScheduleOccurrence) (finish : OccurrenceFinish) :
    ScheduleOccurrence :=
  { record with
    workerInvoked := finish.workerInvoked
    worktree := finish.worktree
    error := some <| boundedError <|
      match finish.error with
      | some error =>
          "scheduled task claim expired before its terminal result was recorded; worker result " ++
            "is ambiguous: " ++ error
      | none =>
          "scheduled task claim expired before its terminal result was recorded; worker result " ++
            "is ambiguous" }

def markExpiredClaim (record : ScheduleOccurrence) (now : Nat) (finish : Option OccurrenceFinish) :
    ScheduleOccurrence :=
  let record := { record with status := .needsAttention, finishedAtMs := some now }
  match finish with
  | some finish => recordExpiredFinishEvidence record finish
  | none =>
      { record with
        error := some <|
          match record.error with
          | some stagedError => boundedError (staleReconciliationStagedErrorStart ++ stagedError)
          | none => staleReconciliationError }

def ScheduleOccurrence.isExpired (record : ScheduleOccurrence) (now : Nat) : Bool :=
  record.status = .running && record.claimExpiresAtMs ≤ now

/-- `reconcile_stale_file`: the file, and the records that were changed. -/
def reconcileStaleFile (now : Nat) : ScheduleFile × List ScheduleOccurrence :=
  ({ store with
      occurrences := store.occurrences.map fun _ record =>
        if record.isExpired now then markExpiredClaim record now none else record },
    (store.values.filter (·.isExpired now)).map (markExpiredClaim · now none))

/-! ### Claims -/

inductive OccurrenceAttentionScope where
  | none | workflow | sharedRepository
deriving DecidableEq, Repr

structure OccurrenceClaimConstraints where
  attentionScope : OccurrenceAttentionScope
  blockNewerOccurrences : Bool
  blockRetainedWorktree : Bool
deriving DecidableEq, Repr

def OccurrenceClaimConstraints.scheduled (attentionScope : OccurrenceAttentionScope)
    (blockRetainedWorktree : Bool) : OccurrenceClaimConstraints where
  attentionScope := attentionScope
  blockNewerOccurrences := attentionScope ≠ .none
  blockRetainedWorktree := blockRetainedWorktree

def OccurrenceClaimConstraints.manual (attentionScope : OccurrenceAttentionScope)
    (blockRetainedWorktree : Bool) : OccurrenceClaimConstraints where
  attentionScope := attentionScope
  blockNewerOccurrences := false
  blockRetainedWorktree := blockRetainedWorktree

inductive OccurrenceClaim where
  | acquired (record : ScheduleOccurrence)
  | alreadyRecorded (record : ScheduleOccurrence)
  | blockedByAttention (record : ScheduleOccurrence)
  | blockedByRunning (record : ScheduleOccurrence)
  | blockedByRetainedWorktree (record : ScheduleOccurrence)
deriving DecidableEq, Repr

def occurrenceClaimsOverlap (record : ScheduleOccurrence) (workflowId : String) :
    OccurrenceAttentionScope → Bool
  | .none => false
  | .workflow => record.workflowId = workflowId || record.usesSharedCheckout.getD true
  | .sharedRepository => true

def latestStatusForScope (workflowId : String) (scope : OccurrenceAttentionScope)
    (status : OccurrenceStatus) : Option ScheduleOccurrence :=
  lastMaxBy (·.scheduledAtMs) (store.values.filter fun record =>
    record.status = status && occurrenceClaimsOverlap record workflowId scope)

def latestRetainedWorktreeForClaim (workflowId : String) (scope : OccurrenceAttentionScope)
    (blockWorkflowRetainedWorktree : Bool) : Option ScheduleOccurrence :=
  let blockEveryWorktree := decide (scope = .sharedRepository)
  if !blockEveryWorktree && !blockWorkflowRetainedWorktree then
    none
  else
    lastMaxBy (·.scheduledAtMs) (store.values.filter fun record =>
      (blockEveryWorktree || record.workflowId = workflowId) && record.hasRetainedWorktree retained)

/-- `latest_workflow_occurrence`, of all records of the workflow. -/
def latestWorkflowOccurrence (workflowId : String) : Option ScheduleOccurrence :=
  lastMaxBy (·.scheduledAtMs) (store.values.filter fun record => record.workflowId = workflowId)

structure ClaimRequest where
  occurrenceId : String
  workflowId : String
  scheduledAtMs : Nat
  ttlSeconds : Nat
  now : Nat
  owner : String
  constraints : OccurrenceClaimConstraints
deriving DecidableEq, Repr

def ClaimRequest.record (request : ClaimRequest) : ScheduleOccurrence where
  occurrenceId := request.occurrenceId
  workflowId := request.workflowId
  scheduledAtMs := request.scheduledAtMs
  owner := request.owner
  claimExpiresAtMs := expiry request.now request.ttlSeconds
  startedAtMs := request.now
  usesSharedCheckout := some (request.constraints.attentionScope = .sharedRepository)
  finishedAtMs := none
  acknowledgedAtMs := none
  status := .running
  workerInvoked := false
  legacyWorkerReceiptId := none
  worktree := none
  error := none

def claimIdWithExecutionAt (request : ClaimRequest) (store : ScheduleFile) :
    Except String (Update OccurrenceClaim) := do
  validateSchema store
  let store := (reconcileStaleFile store request.now).1
  let scope := request.constraints.attentionScope
  match store.occurrences[request.occurrenceId]? with
  | some existing => .ok ⟨store, false, .alreadyRecorded existing⟩
  | none =>
  match latestStatusForScope store request.workflowId scope .needsAttention with
  | some attention => .ok ⟨store, false, .blockedByAttention attention⟩
  | none =>
  match latestStatusForScope store request.workflowId scope .running with
  | some running => .ok ⟨store, false, .blockedByRunning running⟩
  | none =>
  match latestRetainedWorktreeForClaim retained store request.workflowId scope
      request.constraints.blockRetainedWorktree with
  | some retained => .ok ⟨store, false, .blockedByRetainedWorktree retained⟩
  | none =>
  match (latestWorkflowOccurrence store request.workflowId).filter fun latest =>
      request.constraints.blockNewerOccurrences && latest.scheduledAtMs > request.scheduledAtMs with
  | some latest => .ok ⟨store, false, .alreadyRecorded latest⟩
  | none => .ok ⟨store.set request.occurrenceId request.record, true, .acquired request.record⟩

/-- What `claim_scheduled_with_cancellation` asks for. -/
def ClaimRequest.scheduled (workflowId : String) (scheduledAtMs ttlSeconds now : Nat)
    (owner : String) (attentionScope : OccurrenceAttentionScope) (blockRetainedWorktree : Bool) :
    ClaimRequest where
  occurrenceId := Jig.Loops.occurrenceId workflowId scheduledAtMs
  workflowId := workflowId
  scheduledAtMs := scheduledAtMs
  ttlSeconds := ttlSeconds
  now := now
  owner := owner
  constraints := .scheduled attentionScope blockRetainedWorktree

/-- What `claim_manual_with_cancellation` asks for. -/
def ClaimRequest.manual (workflowId itemKey : String) (ttlSeconds now : Nat) (owner : String)
    (attentionScope : OccurrenceAttentionScope) (blockRetainedWorktree : Bool) : ClaimRequest where
  occurrenceId := workflowId ++ "@manual:" ++ itemKey
  workflowId := workflowId
  scheduledAtMs := manualOccurrenceScheduledAtMs
  ttlSeconds := ttlSeconds
  now := now
  owner := owner
  constraints := .manual attentionScope blockRetainedWorktree

/-! ### What owners do -/

section Owner

variable (record : ScheduleOccurrence) (owner : String)

def requireOwner : Except String Unit :=
  if record.owner ≠ owner then
    .error ("Scheduled occurrence '" ++ record.occurrenceId ++ "' is owned by another dispatcher")
  else .ok ⟨⟩

def alreadyFinished {α : Type} : Except String α :=
  .error ("Scheduled occurrence '" ++ record.occurrenceId ++ "' is already " ++
    record.status.asStr)

def requireRunningOwner : Except String Unit := do
  requireOwner record owner
  if record.status ≠ .running then alreadyFinished record else .ok ⟨⟩

inductive OwnedOccurrenceState where
  | running | staleReconciled
deriving DecidableEq, Repr

def requireOwnedOccurrenceState : Except String OwnedOccurrenceState := do
  requireOwner record owner
  if record.status = .running then .ok .running
  else if record.isUnacknowledgedStaleReconciliation then .ok .staleReconciled
  else alreadyFinished record

def requireUnexecutedOwner : Except String Unit := do
  requireOwner record owner
  if record.status = .running then .ok ⟨⟩
  else if record.isUnexecutedStaleReconciliation then .ok ⟨⟩
  else alreadyFinished record

end Owner

/-- `record` of an operation, or the error that it is not there. -/
def ScheduleFile.find (missing id : String) : Except String ScheduleOccurrence :=
  match store.occurrences[id]? with
  | none => .error (missing ++ id)
  | some record => .ok record

/-- The common course of `finish_with_clock`, `finish_manual` and `stage_manual`. -/
def settleOwned (missing : String) (prunesExpired prunes : Bool)
    (settle : ScheduleOccurrence → ScheduleOccurrence) (id owner : String)
    (finish : OccurrenceFinish) (now : Nat) (store : ScheduleFile) :
    Except String (Update ScheduleOccurrence) := do
  let record ← store.find missing id
  match ← requireOwnedOccurrenceState record owner with
  | .staleReconciled =>
      let record := recordExpiredFinishEvidence record finish
      .ok ⟨store.set id record, prunesExpired, record⟩
  | .running =>
      if record.claimExpiresAtMs ≤ now then
        let record := markExpiredClaim record now (some finish)
        .ok ⟨store.set id record, prunesExpired, record⟩
      else
        let record := settle record
        .ok ⟨store.set id record, prunes, record⟩

/-- The evidence that a finish leaves in a record. -/
def ScheduleOccurrence.withEvidence (record : ScheduleOccurrence) (finish : OccurrenceFinish) :
    ScheduleOccurrence :=
  { record with
    workerInvoked := finish.workerInvoked
    worktree := finish.worktree
    error := finish.error.map boundedError }

/-- The terminal state that a finish leaves in a record. -/
def ScheduleOccurrence.finished (record : ScheduleOccurrence) (finish : OccurrenceFinish)
    (now : Nat) : ScheduleOccurrence :=
  { record.withEvidence finish with
    status := finish.outcome.status
    finishedAtMs := some now }

def finishWithClock (id owner : String) (finish : OccurrenceFinish) (now : Nat) :
    ScheduleFile → Except String (Update ScheduleOccurrence) :=
  settleOwned "Scheduled occurrence not found: " true true (·.finished finish now) id owner finish
    now

def finishManual (id owner : String) (finish : OccurrenceFinish) (now : Nat) :
    ScheduleFile → Except String (Update ScheduleOccurrence) :=
  settleOwned "Loop occurrence not found: " false true (·.finished finish now) id owner finish now

def stageManual (id owner : String) (finish : OccurrenceFinish) (now : Nat) :
    ScheduleFile → Except String (Update ScheduleOccurrence) :=
  settleOwned "Loop occurrence not found: " false false (·.withEvidence finish) id owner finish now

def abandonUnexecuted (id owner : String) (store : ScheduleFile) :
    Except String (Update ScheduleOccurrence) := do
  let record ← store.find "Scheduled occurrence not found: " id
  requireUnexecutedOwner record owner
  .ok ⟨store.remove id, false, record⟩

/-- `renew_with_lock_deadline`. -/
def renew (id owner : String) (ttlSeconds now : Nat) (store : ScheduleFile) :
    Except String (Update ScheduleOccurrence) := do
  let record ← store.find "Loop occurrence is no longer held: " id
  if record.owner ≠ owner then
    .error ("Loop occurrence '" ++ id ++ "' is owned by another dispatcher")
  else if record.status ≠ .running then
    .error ("Loop occurrence '" ++ id ++ "' is already " ++ record.status.asStr)
  else if record.claimExpiresAtMs ≤ now then
    .error ("Loop occurrence claim expired before renewal: " ++ id)
  else
    let record := { record with claimExpiresAtMs := expiry now ttlSeconds }
    .ok ⟨store.set id record, false, record⟩

def setRunningWorktree (id owner : String) (worktree : Option String) (store : ScheduleFile) :
    Except String (Update ScheduleOccurrence) := do
  let record ← store.find "Scheduled occurrence not found: " id
  requireRunningOwner record owner
  let record := { record with worktree }
  .ok ⟨store.set id record, false, record⟩

def clearRunningWorktree (id owner path : String) (store : ScheduleFile) :
    Except String (Update ScheduleOccurrence) := do
  let record ← store.find "Scheduled occurrence not found: " id
  requireRunningOwner record owner
  if record.worktree ≠ some path then
    .error ("Scheduled occurrence worktree reservation changed before cleanup: " ++ path)
  else
    let record := { record with worktree := none }
    .ok ⟨store.set id record, false, record⟩

/-! ### What anyone does -/

/-- `reconcile_stale_at_with_cancellation`. -/
def reconcileStale (now : Nat) (store : ScheduleFile) :
    Except String (Update (List ScheduleOccurrence)) := do
  validateSchema store
  let (store, reconciled) := reconcileStaleFile store now
  .ok ⟨store, true, reconciled⟩

inductive OccurrenceAcknowledgement where
  | acknowledged (record : ScheduleOccurrence)
  | alreadyAcknowledged (record : ScheduleOccurrence)
deriving DecidableEq, Repr

def acknowledgeRecord (id : String) (now : Nat) (store : ScheduleFile) :
    Except String (Update OccurrenceAcknowledgement) := do
  let record ← store.find "Scheduled occurrence not found: " id
  let record :=
    if record.status = .running && record.requiresAttentionAt now then
      markExpiredClaim record now none
    else record
  match record.status with
  | .needsAttention =>
      let record := { record with status := .acknowledged, acknowledgedAtMs := some now }
      .ok ⟨store.set id record, true, .acknowledged record⟩
  | .acknowledged => .ok ⟨store, false, .alreadyAcknowledged record⟩
  | status =>
      .error ("Scheduled occurrence '" ++ id ++ "' is " ++ status.asStr ++
        "; only needs_attention occurrences can be acknowledged")

/-! ### Operations as steps -/

/-- The operations of `OccurrenceStore` that change the file. -/
inductive Operation where
  | claimScheduled (workflowId : String) (scheduledAtMs ttlSeconds now : Nat) (owner : String)
      (scope : OccurrenceAttentionScope) (blockRetainedWorktree : Bool)
  | claimManual (workflowId itemKey : String) (ttlSeconds now : Nat) (owner : String)
      (scope : OccurrenceAttentionScope) (blockRetainedWorktree : Bool)
  | renew (id owner : String) (ttlSeconds now : Nat)
  | stageManual (id owner : String) (finish : OccurrenceFinish) (now : Nat)
  | finish (id owner : String) (finish : OccurrenceFinish) (now : Nat)
  | finishManual (id owner : String) (finish : OccurrenceFinish) (now : Nat)
  | abandonUnexecuted (id owner : String)
  | setRunningWorktree (id owner : String) (worktree : Option String)
  | clearRunningWorktree (id owner path : String)
  | reconcileStale (now : Nat)
  | acknowledge (id : String) (now : Nat)
deriving DecidableEq, Repr

inductive Response where
  | claim (claim : OccurrenceClaim)
  | occurrence (record : ScheduleOccurrence)
  | reconciled (records : List ScheduleOccurrence)
  | acknowledgement (acknowledgement : OccurrenceAcknowledgement)
deriving DecidableEq, Repr

def Update.map {α β : Type} (f : α → β) (update : Update α) : Update β :=
  ⟨update.store, update.prunes, f update.result⟩

def Operation.run :
    Operation → Except String (Update Response)
  | .claimScheduled workflowId scheduledAtMs ttlSeconds now owner scope blockRetainedWorktree =>
      (claimIdWithExecutionAt retained (.scheduled workflowId scheduledAtMs ttlSeconds now owner
        scope blockRetainedWorktree) store).map (·.map .claim)
  | .claimManual workflowId itemKey ttlSeconds now owner scope blockRetainedWorktree =>
      (claimIdWithExecutionAt retained (.manual workflowId itemKey ttlSeconds now owner scope
        blockRetainedWorktree) store).map (·.map .claim)
  | .renew id owner ttlSeconds now =>
      (Loops.renew id owner ttlSeconds now store).map (·.map .occurrence)
  | .stageManual id owner evidence now =>
      (Loops.stageManual id owner evidence now store).map (·.map .occurrence)
  | .finish id owner evidence now =>
      (finishWithClock id owner evidence now store).map (·.map .occurrence)
  | .finishManual id owner evidence now =>
      (Loops.finishManual id owner evidence now store).map (·.map .occurrence)
  | .abandonUnexecuted id owner =>
      (Loops.abandonUnexecuted id owner store).map (·.map .occurrence)
  | .setRunningWorktree id owner worktree =>
      (Loops.setRunningWorktree id owner worktree store).map (·.map .occurrence)
  | .clearRunningWorktree id owner path =>
      (Loops.clearRunningWorktree id owner path store).map (·.map .occurrence)
  | .reconcileStale now => (Loops.reconcileStale now store).map (·.map .reconciled)
  | .acknowledge id now => (acknowledgeRecord id now store).map (·.map .acknowledgement)

/-- A step: an operation, and what the file system answers for worktrees while it runs. -/
structure Event where
  operation : Operation
  retained : String → Bool

def Event.update (event : Event) (store : ScheduleFile) : Option (Update Response) :=
  (event.operation.run event.retained store).toOption

def Event.next (event : Event) (store : ScheduleFile) : ScheduleFile :=
  ((event.update store).map (·.commit event.retained)).getD store

def runEvents (events : List Event) : ScheduleFile :=
  events.foldl (fun store event => event.next store) store

end Jig.Loops

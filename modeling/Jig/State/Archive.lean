import Jig.State.Jsonl
import Jig.State.RunStream

/-!
# Archiving runs

`runs_archive` (`runs/archive.rs`) moves the events of old runs from the run journal to a gzip file.
It validates the journal, selects the runs that completed before a cutoff and whose lease is idle,
writes their records to the archive, reads the archive back, and rewrites the journal without them.

The parsers and the compression are parameters. A lease is held or idle for the whole call; the
lease files that archiving removes and the copy it makes for recovery say nothing about the journal
and are left out, as is the report it prints.
-/

namespace Jig.State

open Contract Lib Std

structure RunEventIdentity where
  runId : String
  event : String
deriving DecidableEq

/-- The libraries the archive rests on: `serde_json`, `flate2` and `sha2`. -/
structure JournalLibraries where
  parseIgnored : Bytes → Except String Unit
  parseRunEvent : Bytes → Except String RunEventRecord
  parseRunEventIdentity : Bytes → Except String RunEventIdentity
  gzip : Bytes → Bytes
  gunzip : Bytes → Except String Bytes
  sha256 : Bytes → String

/-- The value starts with a brace, behind white space. -/
def isObject (record : Bytes) : Bool :=
  (record.dropWhile fun b => b = 32 || b = 9 || b = 10 || b = 13).head? = some 123

/-- What is known of the parsers that are derived for the two structs, and of gzip. A struct is read
from an object by the names of its fields, whatever else the object has, and from an array by their
order: an event has at least four elements then, and an identity exactly two. -/
structure JournalLibraries.Lawful (libs : JournalLibraries) : Prop where
  ignored : ∀ {bytes event}, libs.parseRunEvent bytes = .ok event → libs.parseIgnored bytes = .ok ()
  identity : ∀ {bytes event}, isObject bytes = true → libs.parseRunEvent bytes = .ok event →
    libs.parseRunEventIdentity bytes = .ok ⟨event.runId, event.event⟩
  array : ∀ {bytes event}, isObject bytes = false → libs.parseRunEvent bytes = .ok event →
    ∃ error, libs.parseRunEventIdentity bytes = .error error
  roundTrip : ∀ bytes, libs.gunzip (libs.gzip bytes) = .ok bytes

section Libraries

variable (libs : JournalLibraries)

/-! ## Scanning a journal -/

def parseRunEvent (path : String) (raw : RawJsonlRecord) : Except String RunEventRecord :=
  (libs.parseRunEvent raw.bytes).mapError fun error =>
    s!"Failed to parse run record {raw.lineNumber} in {path}: " ++ error

def parseRunEventIdentity (path : String) (raw : RawJsonlRecord) :
    Except String RunEventIdentity :=
  (libs.parseRunEventIdentity raw.bytes).mapError fun error =>
    s!"Failed to parse run event identity at line {raw.lineNumber} in {path}: " ++ error

variable (path : String)

def scanRunArchiveLifecycles (bytes : Bytes) :
    Except String (ExtTreeMap String RunLifecycleValidator) := do
  let validator ← scanJsonlRaw (fun (validator : RunStreamValidator) raw => do
    let event ← parseRunEvent libs path raw
    validator.observe event) {} bytes
  if unterminatedFinalRecord bytes then
    .error s!"Refusing to archive {path} because its final JSONL record is not newline-terminated"
  validator.finish

def validateRunStream (bytes : Bytes) : Except String Unit := do
  let _ ← scanRunArchiveLifecycles libs path bytes
  return ()

/-- The runs that have started and not completed. -/
def nonterminalRunIds (lifecycles : ExtTreeMap String RunLifecycleValidator) : List String :=
  (lifecycles.toList.filter fun (_, lifecycle) =>
    lifecycle.knownEventCount > 0 && !lifecycle.completed).map Prod.fst

def runIdPreview (runIds : List String) : String × String :=
  let preview := ", ".intercalate (runIds.take 10)
  let omitted := runIds.length - 10
  (preview, if omitted = 0 then "" else s!" (+{omitted} more)")

/-! ## Selecting runs -/

/-- `run_lease_is_idle`. A run without a lease file holds no lease. -/
def runLeaseIsIdle (held : String → Bool) (runId : String) : Except String Bool := do
  validateRunIdForLease runId
  return !held runId

def saturatingAdd (m n : Nat) : Nat :=
  min (m + n) (2 ^ 64 - 1)

/-- The runs to archive, and the number of their events. -/
structure ArchiveSelection where
  archivedRunIds : ExtTreeSet String := ∅
  activeRunLeasesRetained : Nat := 0
  runEventsArchived : Nat := 0

def selectRun (held : String → Bool) (beforeMs : Nat) (selection : ArchiveSelection)
    (entry : String × RunLifecycleValidator) : Except String ArchiveSelection := do
  let (runId, lifecycle) := entry
  if lifecycle.completedAtMs.any (· < beforeMs) then
    if ← runLeaseIsIdle held runId then
      return { selection with
        archivedRunIds := selection.archivedRunIds.insert runId
        runEventsArchived := saturatingAdd selection.runEventsArchived lifecycle.eventCount }
    else
      return { selection with
        activeRunLeasesRetained := saturatingAdd selection.activeRunLeasesRetained 1 }
  else
    return selection

/-! ## Writing the archive -/

/-- The records of the selected runs, as `write_gzip_atomic` receives them. -/
def archivedRecords (archivedRunIds : ExtTreeSet String) (bytes : Bytes) :
    Except String Bytes := do
  let output ← scanJsonlRaw (fun output raw => do
    let identity ← parseRunEventIdentity libs path raw
    return if archivedRunIds.contains identity.runId then output ++ raw.bytes ++ [newline]
      else output) [] bytes
  if unterminatedFinalRecord bytes then
    .error "Run state changed to an unterminated stream during archive"
  return output

def checkedAdd (m n : Nat) : Except String Nat :=
  if m + n < 2 ^ 64 then .ok (m + n) else .error "Run archive event count overflow"

/-- `validate_run_archive_artifact`: read the published file back. -/
def validateRunArchiveArtifact (artifact uncompressed : Bytes) (expectedEventCount : Nat) :
    Except String Unit := do
  let restored ← (libs.gunzip artifact).mapError fun error =>
    s!"Failed to verify published run archive {path}: " ++ error
  let lifecycles ← (scanRunArchiveLifecycles libs path restored).mapError fun error =>
    s!"Failed to validate published run archive {path}: " ++ error
  let restoredEventCount ← lifecycles.toList.foldlM (fun count (_, lifecycle) =>
    checkedAdd count lifecycle.eventCount) 0
  if restored.length ≠ uncompressed.length ∨ libs.sha256 restored ≠ libs.sha256 uncompressed then
    .error (s!"Run archive content verification failed for {path}; refusing to rewrite active " ++
      "state")
  if restoredEventCount ≠ expectedEventCount then
    .error (s!"Run archive event count mismatch for {path}; expected {expectedEventCount}, " ++
      s!"found {restoredEventCount}; refusing to rewrite active state")

/-! ## The command -/

/-- What archiving leaves behind: the runs it took, the published file, and the journal. -/
structure ArchiveOutcome where
  selection : ArchiveSelection
  archive : Option Bytes
  journal : Bytes

/-- `reconcile_abandoned_runs_before_archive`. Reconciling one run reads and appends to the journal,
and says whether the run is completed then. -/
def reconcileAbandonedRunsBeforeArchive
    (reconcile : String → Bytes → Except String (Bytes × Bool)) (path : String)
    (journal : Bytes) : Except String (Bytes × Nat) := do
  let lifecycles ← scanRunArchiveLifecycles libs path journal
  (nonterminalRunIds lifecycles).foldlM (fun (journal, count) runId => do
    let (journal, completed) ← reconcile runId journal
    return (journal, saturatingAdd count completed.toNat)) (journal, 0)

/-- The part of `runs_archive` that holds the lock of the journal. -/
def archiveLocked (archivePath : String) (held : String → Bool) (beforeMs : Nat) (dryRun : Bool)
    (journal : Bytes) : Except String ArchiveOutcome := do
  let lifecycles ← scanRunArchiveLifecycles libs path journal
  let nonterminal := nonterminalRunIds lifecycles
  if nonterminal.length > 0 then
    let (preview, suffix) := runIdPreview nonterminal
    .error (s!"Refusing to archive runs while {nonterminal.length} nonterminal run(s) exist " ++
      s!"({preview}{suffix}); wait for them to complete or cancel them before retrying")
  let selection ← lifecycles.toList.foldlM (selectRun held beforeMs) {}
  if dryRun || selection.archivedRunIds.isEmpty then
    return { selection, archive := none, journal }
  else
    let output ← archivedRecords libs path selection.archivedRunIds journal
    let artifact := libs.gzip output
    validateRunArchiveArtifact libs archivePath artifact output selection.runEventsArchived
    let rewrite ← rewriteJsonlRawLocked libs.parseIgnored (fun raw => do
      let identity ← parseRunEventIdentity libs path raw
      return if selection.archivedRunIds.contains identity.runId then .drop else .keep)
      (validateRunStream libs path) path journal
    if rewrite.droppedRecords ≠ selection.runEventsArchived then
      .error (s!"Run archive selected {selection.runEventsArchived} events but rewrote " ++
        s!"{rewrite.droppedRecords}")
    return { selection, archive := some artifact, journal := rewrite.output }

def runsArchive (reconcile : String → Bytes → Except String (Bytes × Bool))
    (path archivePath : String) (held : String → Bool) (beforeMs : Nat) (dryRun : Bool)
    (journal : Bytes) : Except String ArchiveOutcome := do
  let journal ← if dryRun then .ok journal else
    Prod.fst <$> reconcileAbandonedRunsBeforeArchive libs reconcile path journal
  archiveLocked libs path archivePath held beforeMs dryRun journal

end Libraries

end Jig.State

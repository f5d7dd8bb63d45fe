import Jig.Lib.Crash
import Jig.Vault.Witness

/-!
# In-place transactions

The witnessed commit of a format 3 state change and its recovery (`jig-vault`,
`vault/transaction.rs`). A commit writes the journal of its target, then the pending marker, then
the audit log and the envelope, and then the committed record; recovery runs the last three again.

A home's durable state is the files these functions touch. Replacing a record, a journal or the
envelope is one rename and truncating the log one call; an append may be cut after any byte. The
locks are held throughout, and the syncs make durable what is written here as durable already.
-/

namespace Jig.Vault

open Lib
open Lib.Durable (look mapFailure change)

def vaultTextReadLimit : Nat := 16 * 1024 * 1024

/-- Where a home is, and the limit of its audit log. -/
structure VaultHome where
  target : JournalTarget
  auditTextReadLimit : Nat

structure HomeDirectory where
  device : Nat
  inode : Nat
  audit : Option Bytes
  envelope : Option Bytes
deriving DecidableEq

/-- The files of a home and of the witness. -/
structure VaultState where
  records : Records
  /-- The journal of the home's target. -/
  journal : Option Bytes
  /-- The device and the inode of the home, where it exists. -/
  directory : Option (Nat × Nat)
  audit : Option Bytes
  envelope : Option Bytes
  /-- The stagings of restores beside the home, by name. -/
  stagings : List (String × HomeDirectory)
deriving DecidableEq

/-- A program over those files. -/
abbrev Txn (α : Type) := Durable VaultState VaultError α

structure InPlaceCommit where
  kind : TransactionKind
  vaultId : String
  previousEnvelopeSha256 : Option String
  candidate : List Char
  generation : Nat
  prepared : PreparedAuditAppend

structure Recovered where
  kind : TransactionKind
  credentialIndex : Nat
deriving DecidableEq, Repr

variable {Credential : Type} (libs : VaultLibraries Credential) (home : VaultHome)

def recordError (error : VaultError) : VaultError :=
  if error.kind.isSome then
    error
  else
    classifySource .io "failed to record the vault transaction before changing the vault" error

def failClosed (error : VaultError) : VaultError :=
  if error.kind.isSome then
    error
  else
    classifySource .auditTampered
      ("the vault transaction state for this home could not be established; refusing to guess " ++
        "its outcome")
      error

variable (kind : TransactionKind)

def pendingPublicationError (error : VaultError) : VaultError :=
  let retry :=
    match kind with
    | .passphraseChange =>
        "keep both passphrases and retry the passphrase change with the same current and new " ++
          "passphrases; a pending change requires the new passphrase"
    | .restore =>
        "keep the archive and retry restore to the same target with the same archive and passphrase"
    | _ => "retry the same operation with the same passphrase"
  classifyRecoverySource .io .credential
    ("the vault " ++ kind.label ++
      " may have been recorded, but its durability could not be confirmed; " ++ retry)
    error

def pendingError (error : VaultError) : VaultError :=
  let credential :=
    match kind with
    | .passphraseChange => " with the new passphrase"
    | .restore => " with the backup's passphrase"
    | _ => ""
  classifyRecoverySource .io .credential
    ("the vault " ++ kind.label ++
      " was recorded but did not finish; run an authenticated vault command again" ++ credential ++
      " to finish it")
    error

def pendingCredentialError : VaultError :=
  let credential :=
    match kind with
    | .passphraseChange => "the new passphrase"
    | .restore => "the backup's passphrase"
    | _ => "the passphrase it started with"
  classifiedRecovery .authentication .credential
    ("a vault " ++ kind.label ++ " is pending for this home; unlock with " ++ credential ++
      " to finish it")

/-! ### The audit log -/

/-- `read_audit_bytes_bounded`, with nothing for a log that is missing. -/
def readAuditBytes (audit : Option Bytes) : Except VaultError Bytes :=
  match audit with
  | none => .ok []
  | some bytes =>
      if bytes.length > home.auditTextReadLimit then
        .error (plain s!"vault audit log is {bytes.length} bytes, exceeding the read limit")
      else
        .ok bytes

variable (transition : AuditTransition) (verifyWith : Option Bytes)

/-- The part of `apply_audit_transition` that checks the prefix of the log. -/
def checkAuditPrefix (current : Bytes) : Except VaultError Unit :=
  match verifyWith with
  | none => .ok ⟨⟩
  | some key =>
      match verifyExactPrefix libs.toAuditLibraries (current.take transition.prefixLen) key with
      | .error error =>
          .error (classifySource .auditTampered
            "vault audit prefix of the pending transaction failed verification" (plain error))
      | .ok tip =>
          require (tip == transition.prefixTipMac)
            (classified .auditTampered
              "vault audit prefix no longer matches the pending transaction")

/-- What `apply_audit_transition` finds: the append is there, or it is to be written behind the
prefix, once what else is behind it is cut off. -/
inductive AuditPlan where
  | appended
  | append (truncate : Bool)
deriving DecidableEq, Repr

/-- The part of `apply_audit_transition` that looks at what is behind the prefix. -/
def planSuffix (suffix : Bytes) : Except VaultError AuditPlan :=
  let append := Utf8.encode transition.append
  if suffix = append then
    .ok .appended
  else
    let capturedTornSuffix :=
      0 < transition.tornSuffixLen && suffix.length == transition.tornSuffixLen &&
        transition.tornSuffixSha256 == some (sha256Hex libs.toAuditLibraries suffix)
    if !capturedTornSuffix && !suffix.isPrefixOf append then
      .error (classified .auditTampered
        "vault audit log has unexpected bytes after the pending transaction's prefix")
    else
      .ok (.append (decide (suffix ≠ [])))

/-- The decisions of `apply_audit_transition`. -/
def planAudit (audit : Option Bytes) :
    Except VaultError AuditPlan := do
  let current ← readAuditBytes home audit
  require (transition.prefixLen ≤ current.length)
    (classified .auditTampered
      "vault audit log is shorter than the pending transaction's recorded prefix")
  checkAuditPrefix libs transition verifyWith current
  planSuffix libs transition (current.drop transition.prefixLen)

/-- `truncate_audit_unlocked`. -/
def truncateAuditFile (len : Nat) : Txn Unit :=
  change fun s => { s with audit := truncateAudit s.audit len }

def appendAuditBytes (bytes : Bytes) : Txn Unit :=
  Durable.writing bytes fun p s => { s with audit := some (s.audit.getD [] ++ p) }

def applyAuditTransition :
    Txn Unit := do
  match ← look fun s => planAudit libs home transition verifyWith s.audit with
  | .appended => pure ⟨⟩
  | .append truncate => do
      if truncate then truncateAuditFile transition.prefixLen else pure ⟨⟩
      appendAuditBytes (Utf8.encode transition.append)

/-! ### The envelope -/

def readVaultBytes (envelope : Option Bytes) : Except VaultError (Option Bytes) :=
  match envelope with
  | none => .ok none
  | some bytes =>
      if bytes.length > vaultTextReadLimit then
        .error (plain s!"vault state is {bytes.length} bytes, exceeding the read limit")
      else
        .ok (some bytes)

def validateVaultTextLen (contents : List Char) : Except VaultError Unit :=
  require (Utf8.byteLen contents ≤ vaultTextReadLimit)
    (plain s!"vault state is {Utf8.byteLen contents} bytes, exceeding the persistent vault limit")

/-- The decisions of `install_candidate`: whether the candidate is to be written. -/
def planInstall (journal : Journal) (candidate : List Char) (envelope : Option Bytes) :
    Except VaultError Bool := do
  let bytes ← readVaultBytes envelope
  let current := bytes.map (sha256Hex libs.toAuditLibraries)
  if current = some journal.next.envelopeSha256 then
    .ok false
  else if current ≠ journal.previousEnvelopeSha256 then
    .error (classified .auditTampered
      "vault envelope changed while a transaction was pending; refusing to overwrite it")
  else do
    validateVaultTextLen candidate
    .ok true

def installCandidate (journal : Journal) (candidate : List Char) : Txn Unit := do
  let install ← look fun s => planInstall libs journal candidate s.envelope
  if install then change fun s => { s with envelope := some (Utf8.encode candidate) }
  else pure ⟨⟩

/-! ### The witness -/

/-- `write_record` of the record directory. -/
def publishRecord (record : WitnessRecord) : Txn Unit := do
  let _ ← look fun s => writeRecord libs s.records record
  change fun s =>
    { s with records := setRecord s.records (libs.idKey record.vaultId) record }

def removeJournal : Txn Unit :=
  change fun s => { s with journal := none }

def promote (journal : Journal) (record : WitnessRecord) : Txn Unit := do
  publishRecord libs { record with committed := some journal.next, pending := none }
  removeJournal

def finishInPlace (journal : Journal) (record : WitnessRecord) (verifyWith : Option Bytes) :
    Txn Unit :=
  match journal.payload with
  | .restore _ =>
      Durable.fail (plain "vault transaction journal does not describe an in-place change")
  | .inPlace candidate audit => do
      applyAuditTransition libs home audit verifyWith
      installCandidate libs journal candidate
      promote libs journal record

/-! ### Committing -/

variable (commit : InPlaceCommit)

def InPlaceCommit.next : Checkpoint where
  generation := commit.generation
  envelopeSha256 := sha256Hex libs.toAuditLibraries (Utf8.encode commit.candidate)
  mutationAuditMac := commit.prepared.event.mac

def InPlaceCommit.journal (record : Option WitnessRecord) : Journal where
  schema := 1
  operation := commit.kind
  vaultId := commit.vaultId
  target := home.target
  previous := record.bind (·.committed)
  previousEnvelopeSha256 := commit.previousEnvelopeSha256
  next := commit.next libs
  payload := .inPlace commit.candidate commit.prepared.transition

def InPlaceCommit.pendingRecord (record : Option WitnessRecord) (journalText : Bytes) :
    WitnessRecord :=
  { record.getD (.new commit.vaultId) with
    pending := some
      { operation := commit.kind
        targetKey := home.target.targetKey
        journalSha256 := sha256Hex libs.toAuditLibraries journalText
        next := commit.next libs } }

def commitInPlace : Txn Unit := do
  let record ← mapFailure recordError
    (look fun s => readRecord libs s.records commit.vaultId)
  if (record.bind (·.pending)).isSome then
    Durable.fail (classifiedRecovery .alreadyExists .storageConflict
      ("another vault transaction is pending for this vault; finish it before starting a new " ++
        "one"))
  else do
    let journal := commit.journal libs home record
    let text ← mapFailure recordError (look fun _ => writeJournal libs journal)
    change fun s => { s with journal := some text }
    let pending := commit.pendingRecord libs home record text
    mapFailure (pendingPublicationError commit.kind) (publishRecord libs pending)
    mapFailure (pendingError commit.kind) (finishInPlace libs home journal pending none)

/-! ### Candidates -/

def headerVaultIdForLock (envelope : Option Bytes) : Option String := do
  let bytes ← envelope
  if bytes.length > vaultTextReadLimit then
    none
  else do
    let id ← libs.headerVaultId bytes
    if (validateVaultId id).isOk then some id else none

variable (journal : Journal)

def checkCandidateBindings (vaultId : String) (fields : Option V3StateFields)
    (candidate : List Char) : Except VaultError Unit :=
  match fields with
  | none => .error (plain "pending vault candidate is not a format 3 state")
  | some fields =>
      if vaultId ≠ journal.vaultId ∨ fields.generation ≠ journal.next.generation ∨
          fields.mutationAuditMac ≠ journal.next.mutationAuditMac ∨
          sha256Hex libs.toAuditLibraries (Utf8.encode candidate) ≠ journal.next.envelopeSha256 then
        .error (classified .auditTampered
          "pending vault candidate does not match its recorded transaction")
      else
        .ok ⟨⟩

/-- The first credential that is not refused, behind `index` others. -/
def authenticateText (kind : TransactionKind) (journal : Journal) (candidate : List Char) :
    Nat → List Credential → Except VaultError (Bytes × Nat)
  | _, [] => .error (pendingCredentialError kind)
  | index, credential :: rest =>
      match libs.unlock candidate credential with
      | .ok unlocked => do
          checkCandidateBindings libs journal unlocked.vaultId unlocked.v3 candidate
          .ok (unlocked.auditKey, index)
      | .error error =>
          if error.kind = some .authentication then
            authenticateText kind journal candidate (index + 1) rest
          else
            .error error

def authenticateCandidate (candidate : List Char) (credentials : List Credential) :
    Except VaultError (Bytes × Nat) :=
  authenticateText libs journal.operation journal candidate 0 credentials

def authenticateRestoreCandidateText (candidate : List Char) (credentials : List Credential) :
    Except VaultError (Bytes × Nat) :=
  authenticateText libs .restore journal candidate 0 credentials

/-! ### Restores -/

def withRecovery (recovery : VaultRecovery) (error : VaultError) : VaultError :=
  { error with recovery := error.recovery.or (some recovery) }

def readBoundedOptional (file : Option Bytes) : Except VaultError (Option Bytes) :=
  match file with
  | none => .ok none
  | some bytes =>
      if bytes.length > home.auditTextReadLimit then
        .error (plain "pending restore file is not a bounded regular file")
      else
        .ok (some bytes)

def readBounded (file : Option Bytes) : Except VaultError Bytes := do
  match ← readBoundedOptional home file with
  | none => .error (plain "pending restore file is missing")
  | some bytes => .ok bytes

/-- `staging_path`: the check of the parent directory. -/
def checkStagingParent : Except VaultError Unit :=
  require (home.target.parentDevice == journal.target.parentDevice &&
      home.target.parentInode == journal.target.parentInode)
    (classified .auditTampered
      "the pending restore was recorded for a different directory at this path")

variable (payload : RestorePayload) (s : VaultState)

def readCandidate :
    Except VaultError (List Char) := do
  checkStagingParent home journal
  let bytes ← readBounded home <|
    match s.stagings.lookup payload.stagingLeaf with
    | some staging => staging.envelope
    | none => s.envelope
  match Utf8.decode? bytes with
  | none => .error (plain "pending restore candidate is not valid UTF-8")
  | some text => .ok text

def installedSuccessor (directory : Nat × Nat) (s : VaultState) : Except VaultError Bool :=
  if directory ≠ (payload.stagingDevice, payload.stagingInode) then
    .ok false
  else do
    match ← readBoundedOptional home s.envelope with
    | none => .ok false
    | some vault =>
        match ← readBoundedOptional home s.audit with
        | none => .ok false
        | some audit =>
            .ok (sha256Hex libs.toAuditLibraries vault == journal.next.envelopeSha256 &&
              sha256Hex libs.toAuditLibraries audit == payload.auditSha256)

/-- `StagingRef::adopt`, and the comparison of the staged files with the journal. -/
def adoptStaging :
    Except VaultError HomeDirectory := do
  checkStagingParent home journal
  match s.stagings.lookup payload.stagingLeaf with
  | none => .error (plain "failed to inspect restore staging directory")
  | some staging => do
      require (staging.device == payload.stagingDevice && staging.inode == payload.stagingInode)
        (plain "restore staging directory identity changed; refusing cleanup or install")
      let changed := classified .auditTampered
        "pending restore staging no longer matches its recorded transaction"
      let vault ← readBounded home staging.envelope
      require (sha256Hex libs.toAuditLibraries vault == journal.next.envelopeSha256) changed
      let audit ← readBounded home staging.audit
      require (sha256Hex libs.toAuditLibraries audit == payload.auditSha256) changed
      .ok staging

/-- The decisions of `finish_pending_restore`: the staging to install, if it is not installed yet.
-/
def planRestore : Except VaultError (Option HomeDirectory) :=
  match s.directory with
  | some directory => do
      let installed ← installedSuccessor libs home journal payload directory s
      require installed
        (classifiedRecovery .alreadyExists .storageConflict
          ("the restore target is occupied by different contents; the pending restore stays in " ++
            "its staging directory until the target is free"))
      .ok none
  | none => do
      let staging ← adoptStaging libs home journal payload s
      .ok (some staging)

/-- `atomic_rename_noreplace` of a staging to the home. -/
def installStaging (leaf : String) (staging : HomeDirectory) : Txn Unit :=
  change fun s =>
    { s with
      directory := some (staging.device, staging.inode)
      audit := staging.audit
      envelope := staging.envelope
      stagings := s.stagings.filter (·.1 ≠ leaf) }

def finishPendingRestore (record : WitnessRecord) : Txn Unit :=
  match journal.payload with
  | .inPlace _ _ => Durable.fail (plain "vault transaction journal does not describe a restore")
  | .restore payload => do
      let staging ← look (planRestore libs home journal payload)
      match staging with
      | none => promote libs journal record
      | some staging => do
          installStaging payload.stagingLeaf staging
          promote libs journal record

def recoverRecordedRestore (record : WitnessRecord) (credentials : List Credential) : Txn Nat :=
  mapFailure (withRecovery .integrity) <|
    match journal.payload with
    | .inPlace _ _ => Durable.fail (plain "vault transaction journal does not describe a restore")
    | .restore payload => do
        let candidate ← look (readCandidate home journal payload)
        let (_, index) ← look fun _ =>
          authenticateRestoreCandidateText libs journal candidate credentials
        finishPendingRestore libs home journal record
        pure index

/-! ### Recovering -/

/-- The pending marker of the ID in the live header, which must name this target. -/
def checkHeaderPending : Except VaultError Unit := do
  let pending ←
    match headerVaultIdForLock libs s.envelope with
    | some id => do
        let record ← readRecord libs s.records id
        .ok (record.bind (·.pending))
    | none => .ok none
  match pending with
  | none => .ok ⟨⟩
  | some pending =>
      require (pending.targetKey == home.target.targetKey)
        (classifiedRecovery .alreadyExists .storageConflict
          ("a vault " ++ pending.operation.label ++ " for this vault is pending at another " ++
            "vault home; finish it there before using this copy"))

def checkRecordUnchanged (vaultId : String) (record : WitnessRecord) (s : VaultState) :
    Except VaultError Unit := do
  let current ← readRecord libs s.records vaultId
  require (current == some record)
    (classified .auditTampered
      "the pending vault transaction changed while it was being recovered")

def recoverPendingKind (credentials : List Credential) (requiredKind : Option TransactionKind) :
    Txn (Option Recovered) := do
  look (checkHeaderPending libs home)
  match ← look fun s =>
      (classifyTargetJournal libs s.records home.target.targetKey s.journal).mapError failClosed with
  | .absent => pure none
  | .orphan => do
      if requiredKind.isNone then removeJournal else pure ⟨⟩
      pure none
  | .referenced vaultId record journal =>
      if requiredKind.any (· ≠ journal.operation) then
        pure none
      else do
        look (checkRecordUnchanged libs vaultId record)
        match journal.payload with
        | .inPlace candidate _ => do
            look fun _ => require (home.target == journal.target)
              (classified .auditTampered
                ("the pending vault transaction was recorded for a different directory at this " ++
                  "path"))
            let (key, index) ← look fun _ =>
              authenticateCandidate libs journal candidate credentials
            finishInPlace libs home journal record (some key)
            pure (some { kind := journal.operation, credentialIndex := index })
        | .restore _ => do
            let index ← recoverRecordedRestore libs home journal record credentials
            pure (some { kind := journal.operation, credentialIndex := index })

def recoverPending (credentials : List Credential) : Txn (Option Recovered) :=
  recoverPendingKind libs home credentials none

end Jig.Vault

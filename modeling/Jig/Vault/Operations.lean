import Jig.Vault.Witnessed

/-!
# The operations of a vault

What changes a home and its witness (`jig-vault`, `vault/commit.rs`, `vault/migration.rs`,
`vault/lifecycle.rs`, `vault/restore_txn.rs`, `backup/restore.rs` and
`backup/restore/witnessed.rs`): initialization, edits, migration, the passphrase change and the
restore of a backup, each under the locks of its home. The contents of a vault are left out; an
operation is given what sealing its next state yields, and the identifiers and times its events take
from outside.
-/

namespace Jig.Vault

open Lib
open Lib.Durable (look mapFailure)

variable {Credential : Type} (libs : VaultLibraries Credential) (home : VaultHome)

/-! ### Locks and appends -/

/-- `lock_operation_id`: the ID whose lock is taken can be established. -/
def lockOperationId (s : VaultState) : Except VaultError Unit :=
  match headerVaultIdForLock libs s.envelope with
  | some id => validateVaultId id
  | none => do
      let journal ← (classifyTargetJournal libs s.records home.target.targetKey s.journal).mapError
        failClosed
      match journal with
      | .referenced vaultId _ _ => validateVaultId vaultId
      | .absent | .orphan => .ok ⟨⟩

def withLock {α : Type} (m : Txn α) : Txn α := do
  look (lockOperationId libs home)
  m

/-- `PreparedAuditAppend::commit_unlocked`. -/
def commitAppend (prepared : PreparedAuditAppend) : Txn Unit := do
  look fun s => require ((s.audit.getD []).length == prepared.auditLen)
    (plain "vault audit log changed after its next event was prepared")
  if prepared.validLen < prepared.auditLen then truncateAuditFile prepared.validLen else pure ⟨⟩
  let written ← look fun s => .ok (auditLineWrites s.audit prepared.line).flatten
  appendAuditBytes written

variable (auditKey : Bytes)

/-- `prepare_append_unlocked` on a home. -/
def prepareAppendOf (request : AppendRequest) (s : VaultState) :
    Except VaultError PreparedAuditAppend :=
  (prepareAppend libs.toAuditLibraries (s.auditStore home) auditKey request).mapError plain

def appendUnlocked (request : AppendRequest) : Txn Unit := do
  let prepared ← look (prepareAppendOf libs home auditKey request)
  commitAppend prepared

def verifyAudit (s : VaultState) : Except VaultError Unit :=
  match verifyChain libs.toAuditLibraries (s.auditStore home) auditKey with
  | .error error => .error (plain error)
  | .ok _ => .ok ⟨⟩

/-- `verify_audit_unlocked`, with the message of a caller. -/
def checkAudit (message : String) (s : VaultState) : Except VaultError Unit :=
  (verifyAudit libs home auditKey s).mapError (classifySource .auditTampered message)

def writeVaultText (contents : List Char) : Txn Unit := do
  look fun _ => validateVaultTextLen contents
  Durable.change fun s => { s with envelope := some (Utf8.encode contents) }

def detailsWithGeneration (details : Value) (generation : Nat) : Except VaultError Value :=
  match details with
  | .object entries =>
      if entries.any (·.1 == generationDetail) then
        .error (classified .internal "vault mutation audit details use the reserved generation key")
      else
        .ok (.object (insertEntry generationDetail (.number (toString generation)) entries))
  | _ => .error (classified .internal "vault mutation audit details must be an object")

def prepareV3MutationEvent (request : AppendRequest) (generation : Nat) (s : VaultState) :
    Except VaultError PreparedAuditAppend := do
  let details ← detailsWithGeneration request.details generation
  (prepareAppendOf libs home auditKey { request with details } s).mapError
    (classifySource .auditTampered "vault audit append failed before state save")

/-- `u64::checked_add` of one to a generation. -/
def nextGeneration (generation : Nat) : Except VaultError Nat :=
  if generation + 1 < 2 ^ 64 then
    .ok (generation + 1)
  else
    .error (classified .internal "vault state generation cannot advance further")

/-- `stage_v3_mutation`: the next fields and their event, for a format 3 state. -/
def stageV3Mutation (vault : OpenVault) (request : AppendRequest) (s : VaultState) :
    Except VaultError (Option (V3StateFields × PreparedAuditAppend)) :=
  match vault.v3 with
  | none => .ok none
  | some fields => do
      let generation ← nextGeneration fields.generation
      let prepared ← prepareV3MutationEvent libs home vault.auditKey request generation s
      .ok (some ({ generation, mutationAuditMac := prepared.event.mac }, prepared))

/-- What sealing a state yields, with the fields it has if it is of format 3. -/
abbrev Sealing := Option V3StateFields → Except VaultError (List Char)

/-- The size check before a state is saved. -/
def checkSealedLen (message : String) (text : List Char) : Except VaultError Unit :=
  (validateVaultTextLen text).mapError (classifySource .invalidInput message)

/-! ### Initialization -/

structure NewVaultMaterial where
  vaultId : String
  auditKey : Bytes
  sealing : Sealing

structure InitRequest (Credential : Type) where
  passphrase : Credential
  /-- `validate_new_vault_passphrase_inner`. -/
  policy : Except VaultError Unit
  /-- The directory that is made where there is none. -/
  directory : Nat × Nat
  material : NewVaultMaterial
  eventId : String
  timestampMs : Int

section Init

variable (request : InitRequest Credential)

/-- The checks of `init_unlocked`: whether an interrupted initialization was resumed. -/
def initResumed : Txn Bool := do
  let recovered ← recoverPending libs home [request.passphrase]
  if recovered.any (·.kind = .init) then
    pure true
  else do
    look fun s => do
      match ← readVaultBytes s.envelope with
      | none => .ok ⟨⟩
      | some bytes =>
          match Utf8.decode? bytes with
          | none => .error (plain "stream did not contain valid UTF-8")
          | some _ => .error (classified .alreadyExists "vault already exists")
    look fun s => require s.audit.isNone
      (classified .auditTampered "vault audit log already exists")
    look fun _ => request.policy
    pure false

def initWithMaterial : Txn Unit := do
  let details ← look fun _ =>
    detailsWithGeneration (.object [("vault_id", .string request.material.vaultId)]) 1
  let prepared ← look (prepareAppendOf libs home request.material.auditKey
    { action := .vaultInitialized, details, eventId := request.eventId
      timestampMs := request.timestampMs })
  let candidate ← look fun _ =>
    request.material.sealing (some { generation := 1, mutationAuditMac := prepared.event.mac })
  commitInPlace libs home
    { kind := .init, vaultId := request.material.vaultId, previousEnvelopeSha256 := none, candidate
      generation := 1, prepared }

/-- `init_unlocked`. A home that is not there is made, and the checks are run again under its
lock. -/
def initUnlocked : Txn Unit := do
  let resumed ← initResumed libs home request
  if resumed then
    pure ⟨⟩
  else do
    let directory ← look fun s => .ok s.directory
    match directory with
    | some _ => initWithMaterial libs home request
    | none => do
        Durable.change fun s => { s with directory := some request.directory }
        withLock libs home do
          let resumed ← initResumed libs home request
          if resumed then pure ⟨⟩ else initWithMaterial libs home request

def init : Txn Unit :=
  withLock libs home (initUnlocked libs home request)

end Init

/-! ### Edits -/

/-- What an edit is given, as far as the state transition depends on it. -/
structure EditRequest (Credential : Type) where
  passphrase : Credential
  /-- `VaultEditPrecondition::enforce`. -/
  enforce : OpenVault → Except VaultError Unit
  /-- The edit: whether it is to be committed, and whether it changes the secrets. -/
  edit : OpenVault → Except VaultError (Bool × Bool)
  event : AppendRequest
  sealing : OpenVault → Sealing

def commitState (vault : OpenVault) (event : AppendRequest) (sealing : Sealing) : Txn Unit := do
  let staged ← look (stageV3Mutation libs home vault event)
  let candidate ← look fun _ => sealing (staged.map Prod.fst)
  look fun _ => checkSealedLen "vault state is too large to save safely" candidate
  match staged with
  | some (fields, prepared) =>
      commitInPlace libs home
        { kind := .edit, vaultId := vault.vaultId
          previousEnvelopeSha256 := some vault.envelopeSha256, candidate
          generation := fields.generation, prepared }
  | none => do
      mapFailure
        (classifySource .auditTampered "vault audit append failed before state save")
        (appendUnlocked libs home vault.auditKey event)
      mapFailure
        (classifySource .io "vault audit was appended, but state save failed")
        (writeVaultText candidate)

/-- `edit_with_audit_if_precondition`. -/
def edit (request : EditRequest Credential) : Txn Unit :=
  withLock libs home do
    let vault ← openVault libs home request.passphrase
    look (checkAudit libs home vault.auditKey "vault audit chain verification failed")
    look fun _ => request.enforce vault
    let (commits, changes) ← look fun _ => request.edit vault
    if !commits then
      pure ⟨⟩
    else if vault.v3.isSome && !changes then
      mapFailure (classifySource .auditTampered "vault audit append failed")
        (appendUnlocked libs home vault.auditKey request.event)
    else
      commitState libs home vault request.event (request.sealing vault)

/-! ### Migration -/

structure MigrateRequest (Credential : Type) where
  passphrase : Credential
  targetVersion : Nat
  eventId : String
  timestampMs : Int
  sealing : OpenVault → Sealing

def migrateUnlocked (request : MigrateRequest Credential) : Txn Unit := do
  let vault ← openVault libs home request.passphrase
  look (checkAudit libs home vault.auditKey "vault audit chain verification failed")
  if vault.formatVersion = request.targetVersion then
    pure ⟨⟩
  else if vault.formatVersion > request.targetVersion then
    Durable.fail (classified .invalidInput
      (s!"vault format {vault.formatVersion} cannot be migrated to {request.targetVersion}; " ++
        "downgrades are not supported"))
  else do
    let event : AppendRequest :=
      { action := .vaultFormatMigrate
        details := .object
          [("from_version", .number (toString vault.formatVersion)),
            ("to_version", .number (toString request.targetVersion))]
        eventId := request.eventId
        timestampMs := request.timestampMs }
    let tooLarge := "vault format migration would exceed the persistent vault size limit"
    if request.targetVersion = 3 then do
      let prepared ← look (prepareV3MutationEvent libs home vault.auditKey event 1)
      let candidate ← look fun _ =>
        request.sealing vault (some { generation := 1, mutationAuditMac := prepared.event.mac })
      look fun _ => checkSealedLen tooLarge candidate
      commitInPlace libs home
        { kind := .migrate, vaultId := vault.vaultId
          previousEnvelopeSha256 := some vault.envelopeSha256, candidate, generation := 1, prepared }
    else do
      let candidate ← look fun _ => request.sealing vault none
      look fun _ => checkSealedLen tooLarge candidate
      mapFailure
        (classifySource .auditTampered "vault audit append failed before format migration save")
        (appendUnlocked libs home vault.auditKey event)
      mapFailure
        (classifySource .io "vault format migration audit was appended, but state save failed")
        (writeVaultText candidate)

def migrate (request : MigrateRequest Credential) : Txn Unit :=
  if request.targetVersion = 2 ∨ request.targetVersion = 3 then
    withLock libs home (migrateUnlocked libs home request)
  else
    Durable.fail (classified .invalidInput
      (s!"unsupported vault migration target {request.targetVersion}; supported targets are 2 " ++
        "and 3"))

/-! ### The passphrase change -/

structure PassphraseRequest (Credential : Type) where
  current : Credential
  new : Credential
  /-- `validate_new_vault_passphrase_inner`. -/
  policy : Except VaultError Unit
  eventId : String
  timestampMs : Int
  sealing : OpenVault → Sealing

def supportsFieldKinds (version : Nat) : Bool :=
  version == 2 || version == 3

def changePassphraseUnlocked (request : PassphraseRequest Credential) : Txn Unit := do
  let recovered ← recoverPending libs home [request.new, request.current]
  if recovered.any fun r => r.kind = .passphraseChange ∧ r.credentialIndex = 0 then
    pure ⟨⟩
  else do
    let vault ← openVault libs home request.current
    look (checkAudit libs home vault.auditKey "vault audit chain verification failed")
    if !supportsFieldKinds vault.formatVersion then
      Durable.fail (classified .invalidInput
        (s!"vault format {vault.formatVersion} does not support passphrase change; run `jig vault " ++
          "migrate --to 3` first"))
    else do
      let event : AppendRequest :=
        { action := .passphraseChange
          details := .object [("format_version", .number (toString vault.formatVersion))]
          eventId := request.eventId
          timestampMs := request.timestampMs }
      let staged ← look (stageV3Mutation libs home vault event)
      let candidate ← look fun _ => request.sealing vault (staged.map Prod.fst)
      look fun _ =>
        checkSealedLen "rekeyed vault state is too large to save safely" candidate
      match staged with
      | some (fields, prepared) =>
          commitInPlace libs home
            { kind := .passphraseChange, vaultId := vault.vaultId
              previousEnvelopeSha256 := some vault.envelopeSha256, candidate
              generation := fields.generation, prepared }
      | none => do
          mapFailure
            (classifySource .auditTampered
              "vault audit append failed before passphrase change save")
            (appendUnlocked libs home vault.auditKey event)
          mapFailure
            (classifySource .io "passphrase change audit was appended, but vault save failed")
            (writeVaultText candidate)

/-- `change_passphrase_with_kdf`. A passphrase the policy refuses may only finish the change it was
recorded for. -/
def changePassphrase (request : PassphraseRequest Credential) : Txn Unit :=
  match request.policy with
  | .ok _ => withLock libs home (changePassphraseUnlocked libs home request)
  | .error policyError =>
      withLock libs home do
        let recovered ← mapFailure
          (fun error => if error.kind = some .authentication then policyError else error)
          (recoverPendingKind libs home [request.new] (some .passphraseChange))
        if recovered.isSome then pure ⟨⟩ else Durable.fail policyError

/-! ### Restores -/

/-- `DecodedBackupArchive`, with the identity of the target's parent at the preflight and the names
and directories that are made for the staging. -/
structure RestoreRequest (Credential : Type) where
  passphrase : Credential
  archiveSha256 : String
  sourceVaultId : String
  sourceFormatVersion : Nat
  backupCreatedAtMs : Int
  vaultBytes : Bytes
  auditBytes : Bytes
  parent : Nat × Nat
  stagingLeaf : String
  stagingDirectory : Nat × Nat
  /-- Where the staging is itself a home. -/
  stagingHome : VaultHome
  eventId : String
  timestampMs : Int
  sealing : OpenVault → Sealing

variable (request : RestoreRequest Credential)

def revalidateTarget (s : VaultState) :
    Except VaultError Unit := do
  require ((home.target.parentDevice, home.target.parentInode) == request.parent)
    (plain "restore target parent identity changed after preflight")
  require s.directory.isNone
    (classifiedRecovery .alreadyExists .storageConflict
      "restore target already exists; choose an entirely absent vault home")

/-- A staging as a home of its own. No journal is kept for its new name. -/
def stagingView (leaf : String) (s : VaultState) : VaultState where
  records := s.records
  journal := none
  directory := (s.stagings.lookup leaf).map fun staging => (staging.device, staging.inode)
  audit := (s.stagings.lookup leaf).bind (·.audit)
  envelope := (s.stagings.lookup leaf).bind (·.envelope)
  stagings := []

def stagingPut (leaf : String) (staged s : VaultState) : VaultState :=
  { s with
    records := staged.records
    stagings := s.stagings.map fun entry =>
      if entry.1 = leaf then
        (leaf, { entry.2 with audit := staged.audit, envelope := staged.envelope })
      else
        entry }

def onStaging {α : Type} (leaf : String) (m : Txn α) : Txn α :=
  Durable.zoom (stagingView leaf) (stagingPut leaf) m

/-- `FreshStaging::create_at`. -/
def createStaging : Txn Unit := do
  look (revalidateTarget home request)
  look fun s => require (s.stagings.lookup request.stagingLeaf).isNone
    (plain "failed to create private restore staging directory")
  Durable.change fun s =>
    { s with
      stagings :=
        (request.stagingLeaf,
          { device := request.stagingDirectory.1, inode := request.stagingDirectory.2
            audit := none, envelope := none }) :: s.stagings }

/-- `FreshStaging::write_file` of the archived files. -/
def writeStaged : Txn Unit :=
  onStaging request.stagingLeaf do
    Durable.writing request.vaultBytes fun p s => { s with envelope := some p }
    Durable.writing request.auditBytes fun p s => { s with audit := some p }

/-- `FreshStaging::abandon`. -/
def removeStaging (leaf : String) (s : VaultState) : VaultState :=
  { s with stagings := s.stagings.filter (·.1 ≠ leaf) }

def restoreGeneration (source witnessed : Option Nat) : Except VaultError Nat := do
  let base ←
    match source, witnessed with
    | some archived, witnessed => .ok (max archived (witnessed.getD 0))
    | none, some witnessed => .ok witnessed
    | none, none => .error (plain "an unwitnessed format 2 archive uses the legacy restore")
  nextGeneration base

/-- The checks of `prepare_restore_candidate` and `finalize_backup_restore` on what was restored. -/
def checkRestored (hint : String) (vault : OpenVault) :
    Except VaultError Unit := do
  require (vault.formatVersion ≠ 1)
    (classified .invalidInput
      ("backup contains vault format 1; migrate the source first" ++ hint ++
        " and create a new backup"))
  require (vault.formatVersion = request.sourceFormatVersion ∧ vault.vaultId = request.sourceVaultId)
    (classified .serialization
      "restored vault identity does not match authenticated backup metadata")

/-- The part of `prepare_restore_candidate` that opens the staged envelope. -/
def openRestored (credential : Credential) (s : VaultState) : Except VaultError OpenVault := do
  match ← readVaultBytes s.envelope with
  | none => .error (plain "restored vault state disappeared from staging")
  | some bytes =>
      match Utf8.decode? bytes with
      | none => .error (plain "restored vault is not valid UTF-8")
      | some text => openText libs credential bytes text

/-- `prepare_restore_candidate`, on the staging: the archived state is rewritten as the successor of
itself and of what is witnessed. -/
def prepareRestoreCandidate : Txn (Checkpoint × Option WitnessRecord) :=
  withLock libs request.stagingHome do
    let vault ← look (openRestored libs request.passphrase)
    look fun s =>
      (match vault.v3 with
        | some fields =>
            verifyAnchor libs request.stagingHome vault.auditKey fields.mutationAuditMac
              fields.generation s
        | none => verifyAudit libs request.stagingHome vault.auditKey s).mapError
      (classifySource .auditTampered "restored vault audit chain verification failed")
    look fun _ => checkRestored request "" vault
    let record ← look fun s => readRecord libs s.records request.sourceVaultId
    if (record.bind (·.pending)).isSome then
      Durable.fail (classifiedRecovery .alreadyExists .storageConflict
        ("an unrelated vault transaction is pending for this vault; finish it before restoring"))
    else do
      let generation ← look fun _ =>
        restoreGeneration (vault.v3.map (·.generation))
          ((record.bind (·.committed)).map (·.generation))
      let event : AppendRequest :=
        { action := .backupRestore
          details := .object
            [("backup_created_at_ms", .number (toString request.backupCreatedAtMs)),
              ("backup_version", .number "1"),
              ("source_format_version", .number (toString request.sourceFormatVersion)),
              ("source_generation",
                (vault.v3.map fun fields => Value.number (toString fields.generation)).getD .null),
              ("source_vault_id", .string request.sourceVaultId),
              ("target_format_version", .number "3")]
          eventId := request.eventId
          timestampMs := request.timestampMs }
      let prepared ← look
        (prepareV3MutationEvent libs request.stagingHome vault.auditKey event generation)
      let candidate ← look fun _ =>
        request.sealing vault (some { generation, mutationAuditMac := prepared.event.mac })
      look fun _ =>
        checkSealedLen "restored vault state is too large to save safely" candidate
      commitAppend prepared
      writeVaultText candidate
      pure
        ({ generation, envelopeSha256 := sha256Hex libs.toAuditLibraries (Utf8.encode candidate)
           mutationAuditMac := prepared.event.mac },
          record)

def restoreJournal (next : Checkpoint) (record : Option WitnessRecord) (audit : Bytes) :
    Journal where
  schema := 1
  operation := .restore
  vaultId := request.sourceVaultId
  target :=
    { targetKey := home.target.targetKey, parentDevice := request.parent.1
      parentInode := request.parent.2 }
  previous := record.bind (·.committed)
  previousEnvelopeSha256 := none
  next := next
  payload := .restore
    { archiveSha256 := request.archiveSha256
      stagingLeaf := request.stagingLeaf
      stagingDevice := request.stagingDirectory.1
      stagingInode := request.stagingDirectory.2
      auditSha256 := sha256Hex libs.toAuditLibraries audit }

def restoreRecord (next : Checkpoint) (record : Option WitnessRecord) (journalText : Bytes) :
    WitnessRecord :=
  { record.getD (.new request.sourceVaultId) with
    pending := some
      { operation := .restore
        targetKey := home.target.targetKey
        journalSha256 := sha256Hex libs.toAuditLibraries journalText
        next := next } }

/-- The part of `restore_transactional` behind the creation of the staging, whose failures clean the
staging up. -/
def stageRestore : Txn (Checkpoint × Option WitnessRecord × Bytes) :=
  Durable.onFailure (removeStaging request.stagingLeaf) do
    writeStaged request
    let (next, record) ← onStaging request.stagingLeaf (prepareRestoreCandidate libs request)
    let audit ← look fun s =>
      match (s.stagings.lookup request.stagingLeaf).bind (·.audit) with
      | none => .error (plain "restored audit log disappeared from staging")
      | some audit => readAuditBytes request.stagingHome (some audit)
    pure (next, record, audit)

def restoreTransactional : Txn Unit := do
  createStaging home request
  let (next, record, audit) ← stageRestore libs request
  let journal := restoreJournal libs home request next record audit
  let text ← look fun _ => writeJournal libs journal
  Durable.change fun s => { s with journal := some text }
  let pending := restoreRecord libs home request next record text
  mapFailure (pendingPublicationError .restore) (publishRecord libs pending)
  mapFailure (pendingError .restore) (finishPendingRestore libs home journal pending)

def legacyRestoreRetryError : VaultError :=
  classified .alreadyExists
    ("vault became witnessed during legacy restore; target was not installed; retry the restore " ++
      "to use witnessed recovery")

def finalizeBackupRestore : Txn Unit :=
  withLock libs request.stagingHome do
    let vault ← mapFailure
      (fun error => if error = legacyReplayError then legacyRestoreRetryError else error)
      (openVault libs request.stagingHome request.passphrase)
    look (checkAudit libs request.stagingHome vault.auditKey
      "restored vault audit chain verification failed")
    look fun _ => checkRestored request " with `jig vault migrate --to 3`" vault
    mapFailure
      (classifySource .auditTampered "failed to append backup restore audit event")
      (appendUnlocked libs request.stagingHome vault.auditKey
        { action := .backupRestore
          details := .object
            [("backup_created_at_ms", .number (toString request.backupCreatedAtMs)),
              ("backup_version", .number "1"),
              ("source_format_version", .number (toString request.sourceFormatVersion)),
              ("source_vault_id", .string request.sourceVaultId)]
          eventId := request.eventId
          timestampMs := request.timestampMs })
    look (checkAudit libs request.stagingHome vault.auditKey
      "restored vault audit chain failed verification after restore event")

def restoreLegacy : Txn Unit := do
  look (revalidateTarget home request)
  createStaging home request
  Durable.onFailure (removeStaging request.stagingLeaf) do
    writeStaged request
    onStaging request.stagingLeaf (finalizeBackupRestore libs request)
    look (revalidateTarget home request)
    look fun s => do
      let record ← readRecord libs s.records request.sourceVaultId
      require record.isNone legacyRestoreRetryError
    look (revalidateTarget home request)
    let staging ← look fun s =>
      match s.stagings.lookup request.stagingLeaf with
      | none => .error (plain "failed to inspect restore staging directory")
      | some staging => .ok staging
    installStaging request.stagingLeaf staging

/-- `resume_matching_retry`: whether a pending restore was resumed. -/
def resumeMatchingRetry : Txn Bool := do
  match ← look fun s =>
      (classifyTargetJournal libs s.records home.target.targetKey s.journal).mapError failClosed with
  | .absent => pure false
  | .orphan => do
      removeJournal
      pure false
  | .referenced vaultId record journal => do
      look (checkRecordUnchanged libs vaultId record)
      match journal.payload with
      | .inPlace _ _ =>
          Durable.fail (classifiedRecovery .alreadyExists .storageConflict
            ("a different vault transaction is pending for this restore target; finish it with an " ++
              "authenticated vault command first"))
      | .restore payload =>
          if payload.archiveSha256 ≠ request.archiveSha256 ∨ vaultId ≠ request.sourceVaultId then
            Durable.fail (classifiedRecovery .alreadyExists .storageConflict
              ("a restore of a different archive is pending for this target; retry with the same " ++
                "archive or finish it with an authenticated vault command"))
          else do
            let _ ← recoverRecordedRestore libs home journal record [request.passphrase]
            pure true

def restore : Txn Unit := do
  let resumed ← resumeMatchingRetry libs home request
  if resumed then
    pure ⟨⟩
  else do
    look (revalidateTarget home request)
    let record ← look fun s => readRecord libs s.records request.sourceVaultId
    if request.sourceFormatVersion = 2 ∧ record.isNone then
      restoreLegacy libs home request
    else
      restoreTransactional libs home request

end Jig.Vault

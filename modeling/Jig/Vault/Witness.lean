import Jig.Vault.Audit

/-!
# The rollback witness

Records and journals outside the vault homes (`jig-vault`, `store/witness.rs` and its submodules).
A record holds the committed checkpoint of a vault ID and at most one pending marker; the journal of
a target holds the candidate of the transaction that a marker names by digest.

Records are written and read by `serde_json` without loss, so they are kept as values under the file
names they have; a journal is kept as its bytes, whose digest the marker names. Symbolic links, file
modes and ownership are not modelled, and neither is a witness tree that does not exist yet: it
holds nothing, and the functions below answer for it as for an empty one.
-/

namespace Jig.Vault

open Lib

/-! ### Errors -/

inductive VaultErrorKind where
  | alreadyExists | auditTampered | authentication | invalidInput | io | notFound | process
  | serialization | internal
deriving DecidableEq, Repr

inductive VaultRecovery where
  | storageConflict | credential | integrity
deriving DecidableEq, Repr

structure VaultError where
  kind : Option VaultErrorKind
  recovery : Option VaultRecovery
  message : String
deriving DecidableEq, Repr

def defaultRecovery : VaultErrorKind → Option VaultRecovery
  | .auditTampered => some .integrity
  | _ => none

/-- `anyhow::bail!`. -/
def plain (message : String) : VaultError where
  kind := none
  recovery := none
  message := message

variable (kind : VaultErrorKind)

def classified (message : String) : VaultError where
  kind := some kind
  recovery := defaultRecovery kind
  message := message

def classifiedRecovery (recovery : VaultRecovery) (message : String) :
    VaultError where
  kind := some kind
  recovery := some recovery
  message := message

def classifySource (message : String) (source : VaultError) : VaultError where
  kind := some kind
  recovery := source.recovery.or (defaultRecovery kind)
  message := message

def classifyRecoverySource (recovery : VaultRecovery) (message : String) (source : VaultError) :
    VaultError where
  kind := some kind
  recovery := some (source.recovery.getD recovery)
  message := message

/-- Go on where a check holds. -/
def require (check : Bool) (error : VaultError) : Except VaultError Unit :=
  if check then .ok ⟨⟩ else .error error

/-! ### Records -/

def isHexDigest (value : String) : Bool :=
  value.toList.length == 64 && value.toList.all ("0123456789abcdef".toList.contains ·)

def validateVaultId (vaultId : String) : Except VaultError Unit :=
  require
    (!vaultId.isEmpty && vaultId.utf8ByteSize ≤ 128 &&
      vaultId.toList.all fun c => 33 ≤ c.toNat && c.toNat ≤ 126)
    (plain "vault ID is outside the bounds the witness accepts")

inductive TransactionKind where
  | init | edit | migrate | passphraseChange | restore
deriving DecidableEq, Repr

def TransactionKind.label : TransactionKind → String
  | .init => "initialization"
  | .edit => "edit"
  | .migrate => "format migration"
  | .passphraseChange => "passphrase change"
  | .restore => "backup restore"

structure Checkpoint where
  generation : Nat
  envelopeSha256 : String
  mutationAuditMac : String
deriving DecidableEq, Repr

structure PendingMarker where
  operation : TransactionKind
  targetKey : String
  journalSha256 : String
  next : Checkpoint
deriving DecidableEq, Repr

structure WitnessRecord where
  schema : Nat
  vaultId : String
  minFormat : Nat
  committed : Option Checkpoint
  pending : Option PendingMarker
deriving DecidableEq, Repr

def WitnessRecord.new (vaultId : String) : WitnessRecord where
  schema := 1
  vaultId := vaultId
  minFormat := 3
  committed := none
  pending := none

def Checkpoint.validate (checkpoint : Checkpoint) : Except VaultError Unit := do
  require (checkpoint.generation ≠ 0)
    (plain "vault witness checkpoint generation must be at least 1")
  require (isHexDigest checkpoint.envelopeSha256 && isHexDigest checkpoint.mutationAuditMac)
    (plain "vault witness checkpoint digest is malformed")

def PendingMarker.validate (pending : PendingMarker) : Except VaultError Unit := do
  pending.next.validate
  require (isHexDigest pending.targetKey && isHexDigest pending.journalSha256)
    (plain "vault witness pending marker is malformed")

def WitnessRecord.validate (record : WitnessRecord) (expectedVaultId : String) :
    Except VaultError Unit := do
  require (record.schema == 1) (plain "unsupported vault witness record schema")
  require (record.vaultId == expectedVaultId)
    (plain "vault witness record does not belong to this vault")
  require (record.minFormat == 3)
    (plain "vault witness record has an unsupported minimum format")
  match record.committed, record.pending with
  | none, none =>
      .error (plain
        "vault witness record has neither a checkpoint nor a pending transaction")
  | some committed, some pending => do
      committed.validate
      pending.validate
      require (committed.generation < pending.next.generation)
        (plain "vault witness pending generation does not advance its checkpoint")
  | some committed, none => committed.validate
  | none, some pending => pending.validate

/-! ### Journals -/

structure JournalTarget where
  targetKey : String
  parentDevice : Nat
  parentInode : Nat
deriving DecidableEq, Repr

structure RestorePayload where
  archiveSha256 : String
  stagingLeaf : String
  stagingDevice : Nat
  stagingInode : Nat
  auditSha256 : String
deriving DecidableEq, Repr

inductive JournalPayload where
  | inPlace (candidateEnvelope : List Char) (audit : AuditTransition)
  | restore (payload : RestorePayload)
deriving DecidableEq, Repr

structure Journal where
  schema : Nat
  operation : TransactionKind
  vaultId : String
  target : JournalTarget
  previous : Option Checkpoint
  previousEnvelopeSha256 : Option String
  next : Checkpoint
  payload : JournalPayload
deriving DecidableEq, Repr

def AuditTransition.validate (transition : AuditTransition) : Except VaultError Unit :=
  require
    (transition.prefixTipMac.all isHexDigest && transition.tornSuffixSha256.all isHexDigest &&
      (decide (transition.tornSuffixLen = 0) == transition.tornSuffixSha256.isNone) &&
      transition.append.getLast? == some '\n' &&
      (decide (transition.prefixLen = 0) == transition.prefixTipMac.isNone))
    (plain "vault transaction journal audit transition is malformed")

def isSafeLeaf (leaf : String) : Bool :=
  !leaf.isEmpty && leaf.utf8ByteSize ≤ 255 && leaf != "." && leaf != ".." &&
    leaf.toList.all fun c => c.isAlphanum || c == '.' || c == '-' || c == '_'

def RestorePayload.validate (payload : RestorePayload) : Except VaultError Unit :=
  require
    (isHexDigest payload.archiveSha256 && isHexDigest payload.auditSha256 &&
      isSafeLeaf payload.stagingLeaf)
    (plain "vault restore journal staging reference is malformed")

def Journal.validate (journal : Journal) : Except VaultError Unit := do
  require (journal.schema == 1) (plain "unsupported vault transaction journal schema")
  validateVaultId journal.vaultId
  require (isHexDigest journal.target.targetKey)
    (plain "vault transaction journal target is malformed")
  journal.next.validate
  match journal.previous with
  | none => .ok ⟨⟩
  | some previous => do
      previous.validate
      require (previous.generation < journal.next.generation)
        (plain "vault transaction journal does not advance its predecessor")
  require (journal.previousEnvelopeSha256.all isHexDigest)
    (plain "vault transaction journal predecessor digest is malformed")
  match journal.payload with
  | .inPlace _ audit => do
      require (journal.operation ≠ .restore)
        (plain "vault restore journal must reference durable staging")
      audit.validate
  | .restore payload => do
      require (journal.operation = .restore) (plain "only a restore journal may reference staging")
      payload.validate

/-! ### The envelope -/

structure V3StateFields where
  generation : Nat
  mutationAuditMac : String
deriving DecidableEq, Repr

/-- What an envelope opens to. The secrets in it are left out. -/
structure UnlockedEnvelope where
  vaultId : String
  formatVersion : Nat
  v3 : Option V3StateFields
  auditKey : Bytes
  /-- `deserialize_for_version`. -/
  isSome_v3 : v3.isSome = true ↔ formatVersion = 3
deriving DecidableEq

/-- The third-party functions, and the envelope's cryptography. -/
structure VaultLibraries (Credential : Type) extends AuditLibraries where
  /-- `id_key`: the file name stem of an ID's record. -/
  idKey : String → String
  /-- `serde_json::to_string` of a journal, as bytes. -/
  journalText : Journal → Bytes
  /-- `serde_json::from_slice` of a journal; an error is a place in the text. -/
  parseJournal : Bytes → Except (Nat × Nat) Journal
  /-- The ID in the public header of an envelope. -/
  headerVaultId : Bytes → Option String
  /-- `ParsedVaultEnvelope::parse`, `validate` and `unlock`. -/
  unlock : List Char → Credential → Except VaultError UnlockedEnvelope

variable {Credential : Type} (libs : VaultLibraries Credential)

/-! ### The files of the witness -/

def journalReadLimit : Nat := 48 * 1024 * 1024

/-- The records directory: contents by file name stem. -/
abbrev Records := List (String × WitnessRecord)

/-- `record::read_error`. -/
def recordReadError (key : String) (source : VaultError) : VaultError :=
  classifySource .auditTampered
    ("cannot verify vault witness record at " ++ libs.debug ("ids/" ++ key ++ ".json") ++
      "; this can block other vaults on this user profile. Operator step: preserve the vault and " ++
      "witness data and investigate the reported record; never delete or edit the rollback " ++
      "witness to bypass this refusal. Agents must ask the operator.")
    source

variable (records : Records)

def readRecord (vaultId : String) :
    Except VaultError (Option WitnessRecord) := do
  validateVaultId vaultId
  match records.lookup (libs.idKey vaultId) with
  | none => .ok none
  | some record => do
      (record.validate vaultId).mapError (recordReadError libs (libs.idKey vaultId))
      .ok (some record)

/-- The file of a record is replaced, or made. -/
def setRecord (key : String) (record : WitnessRecord) : Records :=
  (key, record) :: records.filter (·.1 ≠ key)

def writeRecord (record : WitnessRecord) : Except VaultError Records := do
  record.validate record.vaultId
  .ok (setRecord records (libs.idKey record.vaultId) record)

/-- `read_journal` of a target, with the digest of its bytes. -/
def readJournal (targetKey : String) (journal : Option Bytes) :
    Except VaultError (Option (Journal × String)) :=
  match journal with
  | none => .ok none
  | some bytes => do
      require (bytes.length ≤ journalReadLimit)
        (plain "protected vault witness file exceeds its size limit")
      match libs.parseJournal bytes with
      | .error (line, column) =>
          .error
            { kind := none
              recovery := some .integrity
              message := s!"vault transaction journal is malformed at line {line}, column {column}" }
      | .ok journal => do
          journal.validate
          require (journal.target.targetKey == targetKey)
            (plain "vault transaction journal does not belong to this target")
          .ok (some (journal, sha256Hex libs.toAuditLibraries bytes))

/-- `write_journal`: the bytes that are written. -/
def writeJournal (journal : Journal) : Except VaultError Bytes := do
  journal.validate
  let text := libs.journalText journal
  require (text.length ≤ journalReadLimit)
    (plain "vault transaction journal would exceed its size limit")
  .ok text

def readRecordForScan (entry : String × WitnessRecord) : Except VaultError WitnessRecord := do
  (entry.2.validate entry.2.vaultId).mapError (recordReadError libs entry.1)
  (require (libs.idKey entry.2.vaultId == entry.1)
    (plain "a vault witness record is stored under another vault's key")).mapError
      (recordReadError libs entry.1)
  .ok entry.2

def WitnessRecord.namesTarget (record : WitnessRecord) (targetKey : String) : Bool :=
  record.pending.any (·.targetKey == targetKey)

/-- `scan_pending_for`: every record is read, and at most two are kept. -/
def scanPendingFor (targetKey : String) : Except VaultError (List WitnessRecord) :=
  records.foldlM
    (fun naming entry => do
      let record ← readRecordForScan libs entry
      .ok (if record.namesTarget targetKey && naming.length < 2 then naming ++ [record]
        else naming))
    []

inductive TargetJournal where
  | absent
  | orphan
  | referenced (vaultId : String) (record : WitnessRecord) (journal : Journal)

def classifyTargetJournal (targetKey : String) (journal : Option Bytes) :
    Except VaultError TargetJournal := do
  let journal ← readJournal libs targetKey journal
  let naming ← scanPendingFor libs records targetKey
  match journal with
  | none =>
      if naming.isEmpty then
        .ok .absent
      else
        .error (classified .auditTampered
          ("the pending vault transaction's journal is missing; refusing to guess its " ++
            "outcome"))
  | some (journal, digest) =>
      if naming.length > 1 then
        .error (classified .auditTampered
          ("several pending vault transactions name this target; refusing to guess which one " ++
            "owns its journal"))
      else
        match naming.getLast? with
        | none => .ok .orphan
        | some record =>
            match record.pending with
            | none => .error (plain "selected for its pending marker")
            | some pending =>
                if pending.journalSha256 ≠ digest ∨ pending.next ≠ journal.next ∨
                    pending.operation ≠ journal.operation ∨ journal.vaultId ≠ record.vaultId then
                  .error (classified .auditTampered
                    "the pending vault transaction's journal does not match its marker")
                else
                  .ok (.referenced record.vaultId record journal)

end Jig.Vault

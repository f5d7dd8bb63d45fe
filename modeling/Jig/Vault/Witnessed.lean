import Jig.Vault.Transaction

/-!
# Opening a vault against its witness

The authenticated open (`jig-vault`, `vault/witnessed.rs`): what is pending for the home is
finished, the envelope is opened, and what it opens to is compared with the record of its vault ID.
A format 3 state must be anchored to its mutation event in the audit log and be the committed
checkpoint; the first one that is opened is enrolled. An older format is refused once the ID has a
record.
-/

namespace Jig.Vault

open Lib

/-! ### The mutation anchor -/

/-- `Value::get` of a key. -/
def Value.get? (value : Value) (key : String) : Option Value :=
  match value with
  | .object entries => entries.lookup key
  | _ => none

def Value.asU64 : Value → Option Nat
  | .number text =>
      let n := text.toList.foldl (fun n c => 10 * n + (c.toNat - '0'.toNat)) 0
      if !text.isEmpty && text.toList.all Char.isDigit && n < 2 ^ 64 then some n else none
  | _ => none

/-- The loop of `find_verified_event_unlocked`. -/
def findEvent (libs : AuditLibraries) (mac : String) :
    List (List Char × Bool) → Except String (Option AuditEvent)
  | [] => .ok none
  | line :: rest =>
      match libs.fromJson line.1 with
      | .error _ => .error "failed to re-read a verified vault audit event"
      | .ok event => if event.mac = mac then .ok (some event) else findEvent libs mac rest

def findVerifiedEvent (libs : AuditLibraries) (store : AuditStore) (key : Bytes) (mac : String) :
    Except String (Option AuditEvent) := do
  match ← store.readAuditText with
  | none => .error "vault audit log is missing; its mutation anchor cannot be verified"
  | some text => do
      let verified ← verifyChainText libs text key
      findEvent libs mac (splitLines '\n' [] (Utf8.sliceTo verified.validLen text))

def verifyChain (libs : AuditLibraries) (store : AuditStore) (key : Bytes) :
    Except String AuditVerification := do
  match ← store.readAuditText with
  | none => .error "vault audit log is missing"
  | some text => do
      let verified ← verifyChainText libs text key
      .ok verified.verification

variable {Credential : Type} (libs : VaultLibraries Credential) (home : VaultHome)

/-- What the audit functions read of a home. -/
def VaultState.auditStore (s : VaultState) : AuditStore where
  vault := s.envelope
  audit := s.audit
  auditTextReadLimit := home.auditTextReadLimit

def generationDetail : String := "generation"

def verifyAnchor (auditKey : Bytes) (mutationAuditMac : String) (generation : Nat)
    (s : VaultState) : Except VaultError Unit := do
  require s.audit.isSome (classified .auditTampered "vault audit log is missing")
  match findVerifiedEvent libs.toAuditLibraries (s.auditStore home) auditKey mutationAuditMac with
  | .error error =>
      .error (classifySource .auditTampered "vault audit chain verification failed" (plain error))
  | .ok anchor =>
      require (anchor.any fun event =>
          (event.details.get? generationDetail).bind Value.asU64 == some generation)
        (classified .auditTampered "vault state is not anchored to its mutation audit event")

/-! ### The checkpoint -/

structure OpenVault extends UnlockedEnvelope where
  envelopeSha256 : String

def staleCopyRecoveryGuidance : String :=
  "Operator step: use the current vault home, or the restored home if a backup was restored. If " ++
    "the current copy is unavailable, use the documented authenticated backup recovery procedure " ++
    "to restore to an absent target. Agents must ask the operator. Never delete or edit the " ++
    "rollback witness or its journals to bypass this refusal."

def profileRecoveryGuidance : String :=
  "Operator step: if another user profile can still authenticate the intended vault, create an " ++
    "encrypted backup there and restore it to an absent target on this profile using the " ++
    "documented recovery procedure. Agents must ask the operator. Never delete or edit the " ++
    "rollback witness to bypass this refusal."

def legacyReplayError : VaultError :=
  classifySource .auditTampered
    ("this vault ID was already witnessed as format 3; refusing an older-format copy. " ++
      staleCopyRecoveryGuidance)
    (plain "legacy vault ID has a format 3 witness")

def compareWithCheckpoint (current committed : Checkpoint) : Except VaultError Unit :=
  if current.generation < committed.generation then
    .error (classified .auditTampered
      (s!"vault state generation {current.generation} is older than its witnessed generation " ++
        s!"{committed.generation}; refusing a rolled-back copy. " ++ staleCopyRecoveryGuidance))
  else if current.generation > committed.generation then
    .error (classified .auditTampered
      ("vault state is newer than its witnessed checkpoint without a recorded transaction; " ++
        "refusing an unwitnessed fork. " ++ profileRecoveryGuidance))
  else if current ≠ committed then
    .error (classified .auditTampered
      ("vault state forks from its witnessed checkpoint at the same generation. " ++
        profileRecoveryGuidance))
  else
    .ok ⟨⟩

def OpenVault.checkpoint (vault : OpenVault) (fields : V3StateFields) : Checkpoint where
  generation := fields.generation
  envelopeSha256 := vault.envelopeSha256
  mutationAuditMac := fields.mutationAuditMac

/-- The comparison of `verify_witnessed_state_unlocked` with a record. -/
def checkWitnessRecord (record : WitnessRecord) (checkpoint : Checkpoint) : Except VaultError Unit :=
  match record.pending with
  | some pending =>
      .error (classified .alreadyExists
        ("a vault " ++ pending.operation.label ++ " for this vault is pending at another vault " ++
          "home; finish it there before using this copy"))
  | none =>
      match record.committed with
      | none => .error (plain "validated records without pending have a checkpoint")
      | some committed => compareWithCheckpoint checkpoint committed

def verifyWitnessedState (vault : OpenVault) : Txn Unit :=
  match vault.v3 with
  | none => do
      let record ← Durable.look fun s => readRecord libs s.records vault.vaultId
      if record.isSome then Durable.fail legacyReplayError else pure ⟨⟩
  | some fields => do
      Durable.look
        (verifyAnchor libs home vault.auditKey fields.mutationAuditMac fields.generation)
      let record ← Durable.look fun s => readRecord libs s.records vault.vaultId
      match record with
      | none =>
          Durable.mapFailure
            (classifySource .io "failed to enroll the vault in its rollback witness")
            (publishRecord libs
              { WitnessRecord.new vault.vaultId with committed := some (vault.checkpoint fields) })
      | some record => Durable.look fun _ => checkWitnessRecord record (vault.checkpoint fields)

variable (credential : Credential)

/-- `OpenVault::from_unlocked` of what a text opens to. -/
def openText (bytes : Bytes) (text : List Char) :
    Except VaultError OpenVault := do
  let unlocked ← libs.unlock text credential
  .ok
    { toUnlockedEnvelope := unlocked
      envelopeSha256 := sha256Hex libs.toAuditLibraries bytes }

/-- The part of `open_witnessed_unlocked` that opens the live envelope. -/
def openEnvelope (s : VaultState) : Except VaultError OpenVault := do
  match ← readVaultBytes s.envelope with
  | none => .error (classified .notFound "vault does not exist")
  | some bytes =>
      match Utf8.decode? bytes with
      | none =>
          .error (classifySource .serialization "failed to parse vault file"
            (plain "invalid utf-8 sequence"))
      | some text => openText libs credential bytes text

/-- `open_witnessed_unlocked`, with the first of the credentials apart. -/
def openWitnessed (others : List Credential) :
    Txn (OpenVault × Option Recovered) := do
  let recovered ← recoverPending libs home (credential :: others)
  let vault ← Durable.look (openEnvelope libs credential)
  verifyWitnessedState libs home vault
  pure (vault, recovered)

/-- `open_unlocked`. -/
def openVault : Txn OpenVault := do
  let (vault, _) ← openWitnessed libs home credential []
  pure vault

end Jig.Vault

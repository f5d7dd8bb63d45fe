import Jig.Vault.EventJson
import Jig.Vault.Transaction

/-!
# Journals as JSON

The JSON of a transaction journal, and libraries that read the journals and open the envelopes of
tables, each by its text and nothing else. A home with one such envelope is a sample.
-/

namespace Jig.Vault

open Lib

def TransactionKind.json : TransactionKind → Bytes
  | .init => Json.string "init"
  | .edit => Json.string "edit"
  | .migrate => Json.string "migrate"
  | .passphraseChange => Json.string "passphrase_change"
  | .restore => Json.string "restore"

def Checkpoint.json (checkpoint : Checkpoint) : Bytes :=
  Json.object [("generation", Json.number checkpoint.generation),
    ("envelope_sha256", Json.string checkpoint.envelopeSha256),
    ("mutation_audit_mac", Json.string checkpoint.mutationAuditMac)]

def AuditTransition.json (transition : AuditTransition) : Bytes :=
  Json.object [("prefix_len", Json.number transition.prefixLen),
    ("prefix_tip_mac", Json.stringOrNull transition.prefixTipMac),
    ("torn_suffix_len", Json.number transition.tornSuffixLen),
    ("torn_suffix_sha256", Json.stringOrNull transition.tornSuffixSha256),
    ("append", Json.string (String.ofList transition.append))]

def JournalPayload.json : JournalPayload → Bytes
  | .inPlace candidate audit =>
      Json.object [("in_place", Json.object
        [("candidate_envelope", Json.string (String.ofList candidate)), ("audit", audit.json)])]
  | .restore payload =>
      Json.object [("restore", Json.object
        [("archive_sha256", Json.string payload.archiveSha256),
          ("staging_leaf", Json.string payload.stagingLeaf),
          ("staging_device", Json.number payload.stagingDevice),
          ("staging_inode", Json.number payload.stagingInode),
          ("audit_sha256", Json.string payload.auditSha256)])]

def Journal.json (journal : Journal) : Bytes :=
  Json.object [("schema", Json.number journal.schema), ("operation", journal.operation.json),
    ("vault_id", Json.string journal.vaultId),
    ("target", Json.object [("target_key", Json.string journal.target.targetKey),
      ("parent_device", Json.number journal.target.parentDevice),
      ("parent_inode", Json.number journal.target.parentInode)]),
    ("previous", (journal.previous.map Checkpoint.json).getD (Text.bytes "null")),
    ("previous_envelope_sha256", Json.stringOrNull journal.previousEnvelopeSha256),
    ("next", journal.next.json), ("payload", journal.payload.json)]

/-- Libraries that know some events, journals and envelopes. Every envelope has the same
passphrase. -/
def VaultLibraries.ofTables (events : List AuditEvent) (journals : List Journal)
    (envelopes : List (String × UnlockedEnvelope)) : VaultLibraries String where
  toAuditLibraries := .ofEvents events
  idKey := id
  journalText := Journal.json
  parseJournal bytes :=
    match journals.find? fun journal => journal.json = bytes with
    | some journal => .ok journal
    | none => .error (1, 1)
  headerVaultId bytes :=
    (envelopes.find? fun envelope => Text.bytes envelope.1 = bytes).map (·.2.vaultId)
  unlock text passphrase :=
    match envelopes.find? fun envelope => envelope.1.toList = text with
    | some (_, opened) =>
        if passphrase = "passphrase" then .ok opened
        else .error { plain "failed to decrypt vault payload" with kind := some .authentication }
    | none => .error (plain "failed to parse vault envelope")

end Jig.Vault

namespace Jig.Vault.SampleVault

open Lib

def home : VaultHome where
  target :=
    { targetKey := sha256Hex (.ofEvents []) (Text.bytes "home"), parentDevice := 1
      parentInode := 2 }
  auditTextReadLimit := 1000

def envelope : String := "\x7b\"version\":3,\"vault_id\":\"v\",\"payload\":\"one\"\x7d"

/-- The witness of the envelope, whose mutation has the given MAC. -/
def record (mutationAuditMac : String) : WitnessRecord :=
  { WitnessRecord.new "v" with
    committed := some
      { generation := 1
        envelopeSha256 := sha256Hex (.ofEvents []) (Text.bytes envelope)
        mutationAuditMac } }

end Jig.Vault.SampleVault

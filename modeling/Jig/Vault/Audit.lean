import Jig.Lib.Lines
import Jig.Lib.Text
import Jig.Lib.Utf8
import Mathlib.Data.List.Sort

/-!
# The vault audit log

The hash-chained event log of a vault (`jig-vault`, `audit.rs`, `audit/transition.rs` and the audit
half of `store.rs`). An event is one line of JSON that carries the MAC of the event before it and
its own. The file is read as text and checked from its start before every append; a last line that
does not parse and has no newline is a torn write, which the next append cuts off.

A text is its characters. JSON, SHA-256 and HMAC are parameters. The projection of events into
activity records is not modelled.
-/

namespace Jig.Vault

open Lib

/-! ### Actions and details -/

inductive AuditAction where
  | backupFailed | backupFinish | backupRestore | backupStart
  | brokeredRunFailed | brokeredRunFinish | brokeredRunStart
  | execFailed | execFinish | execStart
  | fieldBatchApply | fieldKindChange | fieldRename
  | fieldReadFailed | fieldReadFinish | fieldReadStart
  | itemRemove | itemRename | legacySecretConvert | onePasswordImport | passphraseChange
  | secretRemove | secretSet
  | templateInjectFailed | templateInjectFinish | templateInjectStart
  | vaultFormatMigrate | vaultInitialized
deriving DecidableEq, Repr

def AuditAction.asStr : AuditAction → String
  | .backupFailed => "backup_failed"
  | .backupFinish => "backup_finish"
  | .backupRestore => "backup_restore"
  | .backupStart => "backup_start"
  | .brokeredRunFailed => "brokered_run_failed"
  | .brokeredRunFinish => "brokered_run_finish"
  | .brokeredRunStart => "brokered_run_start"
  | .execFailed => "exec_failed"
  | .execFinish => "exec_finish"
  | .execStart => "exec_start"
  | .fieldBatchApply => "field_batch_apply"
  | .fieldKindChange => "field_kind_change"
  | .fieldRename => "field_rename"
  | .fieldReadFailed => "field_read_failed"
  | .fieldReadFinish => "field_read_finish"
  | .fieldReadStart => "field_read_start"
  | .itemRemove => "item_remove"
  | .itemRename => "item_rename"
  | .legacySecretConvert => "legacy_secret_convert"
  | .onePasswordImport => "onepassword_import"
  | .passphraseChange => "passphrase_change"
  | .secretRemove => "secret_remove"
  | .secretSet => "secret_set"
  | .templateInjectFailed => "template_inject_failed"
  | .templateInjectFinish => "template_inject_finish"
  | .templateInjectStart => "template_inject_start"
  | .vaultFormatMigrate => "vault_format_migrate"
  | .vaultInitialized => "vault_initialized"

/-- `serde_json::Value`. A number is kept as it is written. -/
inductive Value where
  | null
  | bool (value : Bool)
  | number (text : String)
  | string (text : String)
  | array (values : List Value)
  | object (entries : List (String × Value))

/-- `Map::insert` of a key that is not there: maps are ordered by key. -/
def insertEntry (key : String) (value : Value) (entries : List (String × Value)) :
    List (String × Value) :=
  entries.filter (·.1 < key) ++ (key, value) :: entries.filter (key < ·.1)

mutual

def containsRecoveryKey : Value → Bool
  | .object entries => entriesContainRecoveryKey entries
  | .array values => valuesContainRecoveryKey values
  | _ => false

def valuesContainRecoveryKey : List Value → Bool
  | [] => false
  | value :: rest => containsRecoveryKey value || valuesContainRecoveryKey rest

def entriesContainRecoveryKey : List (String × Value) → Bool
  | [] => false
  | (key, value) :: rest =>
      key == "truncated_torn_tail_bytes" || containsRecoveryKey value ||
        entriesContainRecoveryKey rest

end

def detailsWithRecovery (details : Value) (truncatedTornTailBytes : Nat) : Except String Value :=
  if truncatedTornTailBytes = 0 then
    .ok details
  else if containsRecoveryKey details then
    .error "audit details use reserved recovery key"
  else
    let truncated := Value.number (toString truncatedTornTailBytes)
    match details with
    | .object entries =>
        .ok (.object (insertEntry "truncated_torn_tail_bytes" truncated entries))
    | _ =>
        .ok (.object [("details", details), ("truncated_torn_tail_bytes", truncated)])

/-! ### Events -/

structure AuditEvent where
  version : Nat
  eventId : String
  timestampMs : Int
  action : String
  previousMac : Option String
  details : Value
  mac : String

structure AuditEventForMac where
  version : Nat
  eventId : String
  timestampMs : Int
  action : String
  previousMac : Option String
  details : Value

mutual

def canonicalJsonValue : Value → Value
  | .array values => .array (canonicalValues values)
  | .object entries =>
      .object ((canonicalEntries entries).insertionSort fun a b => a.1 ≤ b.1)
  | value => value

def canonicalValues : List Value → List Value
  | [] => []
  | value :: rest => canonicalJsonValue value :: canonicalValues rest

def canonicalEntries : List (String × Value) → List (String × Value)
  | [] => []
  | (key, value) :: rest => (key, canonicalJsonValue value) :: canonicalEntries rest

end

/-- The third-party functions the audit log rests on. -/
structure AuditLibraries where
  /-- `Sha256::digest`. -/
  sha256 : Bytes → Vector UInt8 32
  /-- `HmacSha256` under a key. -/
  hmacSha256 : Bytes → Bytes → Vector UInt8 32
  /-- `serde_json::to_vec` of a `CanonicalAuditEventForMac`. -/
  macInput : AuditEventForMac → Bytes
  /-- `serde_json::to_string` of an event. -/
  toJson : AuditEvent → List Char
  /-- `serde_json::from_str` of an event. -/
  fromJson : List Char → Except String AuditEvent
  /-- `{:?}` of a text. -/
  debug : String → String

variable (libs : AuditLibraries)

def sha256Hex (bytes : Bytes) : String :=
  Text.lowerHex (libs.sha256 bytes).toList

def eventMac (key : Bytes) (event : AuditEventForMac) : String :=
  Text.lowerHex (libs.hmacSha256 key
    (libs.macInput { event with details := canonicalJsonValue event.details })).toList

def AuditEvent.forMac (event : AuditEvent) : AuditEventForMac where
  version := event.version
  eventId := event.eventId
  timestampMs := event.timestampMs
  action := event.action
  previousMac := event.previousMac
  details := event.details

/-! ### Verification -/

structure AuditVerification where
  eventCount : Nat
  latestMac : Option String
  tornTailBytes : Nat
deriving DecidableEq, Repr

structure VerifiedAuditLog where
  verification : AuditVerification
  validLen : Nat
  auditLen : Nat
  tornSuffixSha256 : Option String
  prefixNeedsSeparator : Bool
deriving DecidableEq, Repr

def emptyVerifiedAuditLog : VerifiedAuditLog where
  verification := { eventCount := 0, latestMac := none, tornTailBytes := 0 }
  validLen := 0
  auditLen := 0
  tornSuffixSha256 := none
  prefixNeedsSeparator := false

/-- `bail_audit_chain`. -/
def auditChainError (index : Nat) (reason : String) : String :=
  s!"vault audit chain verification failed at line {index + 1}: {reason}"

/-- `{:?}` of an optional text. -/
def debugOption : Option String → String
  | none => "None"
  | some text => "Some(" ++ libs.debug text ++ ")"

/-- The variables of the loop of `verify_chain_text`. -/
structure ChainCursor where
  previousMac : Option String
  eventCount : Nat
  validLen : Nat
  offset : Nat
deriving DecidableEq, Repr

/-- What one turn of the loop does: go on behind a verified event, or stop at a torn tail. -/
inductive LineOutcome where
  | verified (cursor : ChainCursor)
  | tornTail (bytes : Nat)

/-- One line without its newline. -/
def verifyLine (key : Bytes) (auditLen index : Nat) (cursor : ChainCursor)
    (line : List Char) (lineEnded : Bool) : Except String LineOutcome :=
  let withEnding := Utf8.byteLen line + if lineEnded then 1 else 0
  if line.all Text.isWhitespace then
    .error (auditChainError index "blank audit lines are not allowed")
  else
    match libs.fromJson line with
    | .error error =>
        if !lineEnded && cursor.offset + withEnding == auditLen then
          .ok (.tornTail withEnding)
        else
          .error (s!"failed to parse vault audit event at line {index + 1}: " ++ error)
    | .ok event =>
        if event.previousMac ≠ cursor.previousMac then
          .error (auditChainError index ("expected previous_mac " ++
            debugOption libs cursor.previousMac ++ ", found " ++
            debugOption libs event.previousMac))
        else if event.mac ≠ eventMac libs key event.forMac then
          .error (auditChainError index "event MAC does not match event contents")
        else
          .ok (.verified
            { previousMac := some event.mac
              eventCount := cursor.eventCount + 1
              validLen := cursor.offset + withEnding
              offset := cursor.offset + withEnding })

/-- The loop of `verify_chain_text`, with the bytes of a torn tail. -/
def verifyLines (key : Bytes) (auditLen : Nat) :
    Nat → ChainCursor → List (List Char × Bool) → Except String (ChainCursor × Nat)
  | _, cursor, [] => .ok (cursor, 0)
  | index, cursor, (line, lineEnded) :: rest => do
      match ← verifyLine libs key auditLen index cursor line lineEnded with
      | .verified next => verifyLines key auditLen (index + 1) next rest
      | .tornTail bytes => .ok (cursor, bytes)

def verifyChainText (text : List Char) (key : Bytes) : Except String VerifiedAuditLog := do
  let auditLen := Utf8.byteLen text
  let start : ChainCursor := { previousMac := none, eventCount := 0, validLen := 0, offset := 0 }
  let (cursor, tornTailBytes) ← verifyLines libs key auditLen 0 start (splitLines '\n' [] text)
  .ok
    { verification :=
        { eventCount := cursor.eventCount, latestMac := cursor.previousMac, tornTailBytes }
      validLen := cursor.validLen
      auditLen
      tornSuffixSha256 :=
        if cursor.validLen < auditLen then
          some (sha256Hex libs ((Utf8.encode text).drop cursor.validLen))
        else
          none
      prefixNeedsSeparator :=
        0 < cursor.validLen && (Utf8.sliceTo cursor.validLen text).getLast? != some '\n' }

/-- The events that are read again from a verified log: every line of `text[..valid_len]`. -/
def verifiedEvents (text : List Char) (log : VerifiedAuditLog) : List AuditEvent :=
  (splitLines '\n' [] (Utf8.sliceTo log.validLen text)).filterMap fun line =>
    (libs.fromJson line.1).toOption

def verifyExactPrefix (bytes key : Bytes) : Except String (Option String) :=
  match Utf8.decode? bytes with
  | none => .error "vault audit prefix is not valid UTF-8"
  | some text => do
      let verified ← verifyChainText libs text key
      if verified.validLen ≠ Utf8.byteLen text then
        .error "vault audit prefix ends with an unverified partial event"
      else
        .ok verified.verification.latestMac

/-! ### Appending -/

/-- What an append reads of its store: the two state files and the limit of the audit log. -/
structure AuditStore where
  /-- The envelope, `vault.json`. -/
  vault : Option Bytes
  /-- The audit log. -/
  audit : Option Bytes
  auditTextReadLimit : Nat

variable (store : AuditStore)

def AuditStore.readAuditText : Except String (Option (List Char)) :=
  match store.audit with
  | none => .ok none
  | some bytes =>
      if bytes.length > store.auditTextReadLimit then
        .error s!"audit log is larger than the {store.auditTextReadLimit} byte read limit"
      else
        match Utf8.decode? bytes with
        | none => .error "failed to read audit log"
        | some text => .ok (some text)

def verifyChainForAppend (key : Bytes) (allowMissing : Bool) :
    Except String VerifiedAuditLog := do
  match ← store.readAuditText with
  | some text => verifyChainText libs text key
  | none =>
      if allowMissing || store.vault.isNone then .ok emptyVerifiedAuditLog
      else .error "vault audit log is missing"

/-- What an append is asked to record, with the identifier and the time it takes from outside. -/
structure AppendRequest where
  action : AuditAction
  details : Value
  /-- `Ulid::new()`. -/
  eventId : String
  /-- `OffsetDateTime::now_utc()`. -/
  timestampMs : Int

structure PreparedAuditAppend where
  event : AuditEvent
  line : List Char
  validLen : Nat
  auditLen : Nat
  tornSuffixSha256 : Option String
  needsSeparator : Bool

def nextEvent (key : Bytes) (request : AppendRequest) (previousMac : Option String)
    (details : Value) : AuditEvent where
  version := 1
  eventId := request.eventId
  timestampMs := request.timestampMs
  action := request.action.asStr
  previousMac := previousMac
  details := details
  mac := eventMac libs key
    { version := 1
      eventId := request.eventId
      timestampMs := request.timestampMs
      action := request.action.asStr
      previousMac := previousMac
      details := details }

def prepareAppend (key : Bytes) (request : AppendRequest) :
    Except String PreparedAuditAppend := do
  let verified ←
    verifyChainForAppend libs store key (decide (request.action = .vaultInitialized))
  let details ← detailsWithRecovery request.details (verified.auditLen - verified.validLen)
  let event := nextEvent libs key request verified.verification.latestMac details
  let line := libs.toJson event
  let separator := if verified.prefixNeedsSeparator then 1 else 0
  if verified.validLen + separator + Utf8.byteLen line + 1 > store.auditTextReadLimit then
    .error "vault audit append would exceed the audit read limit"
  else
    .ok
      { event
        line
        validLen := verified.validLen
        auditLen := verified.auditLen
        tornSuffixSha256 := verified.tornSuffixSha256
        needsSeparator := verified.prefixNeedsSeparator }

structure AuditTransition where
  prefixLen : Nat
  prefixTipMac : Option String
  tornSuffixLen : Nat
  tornSuffixSha256 : Option String
  append : List Char
deriving DecidableEq, Repr

variable (prepared : PreparedAuditAppend)

def PreparedAuditAppend.transition : AuditTransition where
  prefixLen := prepared.validLen
  prefixTipMac := prepared.event.previousMac
  tornSuffixLen := prepared.auditLen - prepared.validLen
  tornSuffixSha256 := prepared.tornSuffixSha256
  append := (if prepared.needsSeparator then ['\n'] else []) ++ prepared.line ++ ['\n']

variable (audit : Option Bytes)

/-- `truncate_audit_unlocked` of a log that is there. -/
def truncateAudit (len : Nat) : Option Bytes :=
  audit.map (·.take len)

/-- What `append_audit_line_unlocked` writes behind a log, write by write: it looks at the last byte
of the file itself. -/
def auditLineWrites (line : List Char) : List Bytes :=
  (match (audit.getD []).getLast? with
    | none => []
    | some last => if last ≠ 10 then [[10]] else []) ++ [Utf8.encode line, [10]]

/-- The log that `commit_unlocked` appends to, behind its length check: without its torn tail. -/
def PreparedAuditAppend.kept : Option Bytes :=
  if prepared.validLen < prepared.auditLen then truncateAudit audit prepared.validLen else audit

def PreparedAuditAppend.written : Bytes :=
  (auditLineWrites (prepared.kept audit) prepared.line).flatten

/-- `PreparedAuditAppend::commit_unlocked`: the event, and the log it leaves. -/
def PreparedAuditAppend.commit : Except String (AuditEvent × Bytes) :=
  if (audit.getD []).length ≠ prepared.auditLen then
    .error "vault audit log changed after its next event was prepared"
  else
    .ok (prepared.event, (prepared.kept audit).getD [] ++ prepared.written audit)

end Jig.Vault

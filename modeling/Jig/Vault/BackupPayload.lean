import Jig.Lib.BigEndian
import Jig.Lib.Cursor
import Jig.Lib.Fallible
import Jig.Vault.Operations

/-!
# The payload of a backup

`encode_backup_payload` and `decode_backup_payload` of `jig-vault`, `backup/payload.rs`: the ID and
the format of a vault, its envelope and its audit log, one behind the other with their lengths. Both
directions check the parts, and both bound the whole.

What is behind the size and the UTF-8 check of `inspect_embedded_vault` is a parameter that both
share. A length fits the 64 bits of a `usize`.
-/

namespace Jig.Vault

open Lib

/-! ## The code -/

def maxBackupPayloadBytes : Nat := 47 * 1024 * 1024

def maxSourceVaultIdBytes : Nat := 128

def backupPayloadMagic : Bytes := Utf8.encode "jig-vault-backup-payload\n".toList

def backupPayloadVersion : UInt32 := 1

/-- The checks of the text of an embedded vault, which give its ID and its format. -/
abbrev InspectText := List Char → Except VaultError (String × UInt32)

variable (inspectText : InspectText)

def inspectEmbeddedVault (vaultBytes : Bytes) :
    Except VaultError (String × UInt32) := do
  (if vaultTextReadLimit < vaultBytes.length then
    .error (classified .invalidInput "embedded vault state exceeds the persistent vault size limit")
  else
    .ok ())
  match Utf8.decode? vaultBytes with
  | none => .error (classified .serialization "embedded vault state is not valid UTF-8")
  | some text => inspectText text

/-- The text of a refusal to back up format 1. -/
def migrateFirst : String :=
  "backup contains vault format 1; migrate the source first with `jig vault migrate --to 3` and " ++
    "create a new backup"

def validatePayloadMetadata (sourceVaultId : String) (sourceFormatVersion : UInt32)
    (vaultBytes auditBytes : Bytes) : Except VaultError Unit := do
  (if sourceVaultId = "" ∨ maxSourceVaultIdBytes < Utf8.byteLen sourceVaultId.toList then
    .error (classified .serialization "backup source vault ID length is outside supported bounds")
  else
    .ok ())
  (if sourceFormatVersion = 1 then .error (classified .invalidInput migrateFirst) else .ok ())
  (if supportsFieldKinds sourceFormatVersion.toNat = false then
    .error (classified .invalidInput
      s!"unsupported embedded vault format {sourceFormatVersion}")
  else
    .ok ())
  let embedded ← inspectEmbeddedVault inspectText vaultBytes
  (if embedded.2 ≠ sourceFormatVersion then
    .error (classified .serialization
      "backup source format does not match the embedded vault header")
  else
    .ok ())
  (if embedded.1 ≠ sourceVaultId then
    .error (classified .serialization
      "backup source vault ID does not match the embedded vault header")
  else
    .ok ())
  (if (Utf8.decode? auditBytes).isNone then
    .error (classified .serialization "embedded vault audit log is not valid UTF-8")
  else
    .ok ())

/-- `usize::checked_add`. -/
def checkedLen (m n : Nat) : Except VaultError Nat :=
  if m + n < 2 ^ 64 then .ok (m + n) else .error (plain "backup payload length overflow")

def backupPayloadFixedLen (sourceVaultIdLen : Nat) : Except VaultError Nat :=
  checkedLen backupPayloadMagic.length (4 + 4 + sourceVaultIdLen + 4 + 8 + 8)

def pushU32 (value : UInt32) : Bytes :=
  BigEndian.ofNat 4 value.toNat

def pushLenPrefixedU32 (bytes : Bytes) : Except VaultError Bytes :=
  if bytes.length < 2 ^ 32 then .ok (BigEndian.ofNat 4 bytes.length ++ bytes)
  else .error (plain "backup field is too large")

def pushLenPrefixedU64 (bytes : Bytes) : Except VaultError Bytes :=
  if bytes.length < 2 ^ 64 then .ok (BigEndian.ofNat 8 bytes.length ++ bytes)
  else .error (plain "backup blob is too large")

def encodeBackupPayload (sourceVaultId : String) (sourceFormatVersion : UInt32)
    (vaultBytes auditBytes : Bytes) :
    Except VaultError Bytes := do
  validatePayloadMetadata inspectText sourceVaultId sourceFormatVersion vaultBytes auditBytes
  let fixedLen ← backupPayloadFixedLen (Utf8.byteLen sourceVaultId.toList)
  let vaultEnd ← checkedLen fixedLen vaultBytes.length
  let payloadLen ← checkedLen vaultEnd auditBytes.length
  (if maxBackupPayloadBytes < payloadLen then
    .error (plain (s!"vault audit log is {auditBytes.length} bytes; this one-shot backup supports " ++
      s!"at most {maxBackupPayloadBytes - fixedLen - vaultBytes.length} audit bytes for the current " ++
      "vault size"))
  else
    .ok ())
  let id ← pushLenPrefixedU32 (Utf8.encode sourceVaultId.toList)
  let vault ← pushLenPrefixedU64 vaultBytes
  let audit ← pushLenPrefixedU64 auditBytes
  return backupPayloadMagic ++ pushU32 backupPayloadVersion ++ id ++ pushU32 sourceFormatVersion ++
    vault ++ audit

/-! ### Reading -/

variable (reader : Cursor)

/-- `PayloadReader::take`. -/
def takeBytes (len : Nat) : Except VaultError (Bytes × Cursor) :=
  if 2 ^ 64 ≤ reader.offset + len then
    .error (plain "backup payload offset overflow")
  else if h : reader.offset + len ≤ reader.bytes.length then
    .ok (reader.rest.take len, { reader with offset := reader.offset + len, offset_le := h })
  else
    .error (plain "backup payload is truncated")

def readU32 : Except VaultError (UInt32 × Cursor) := do
  let (bytes, reader) ← takeBytes reader 4
  return (UInt32.ofNat (BigEndian.value bytes), reader)

def readU64 : Except VaultError (Nat × Cursor) := do
  let (bytes, reader) ← takeBytes reader 8
  return (BigEndian.value bytes, reader)

def readLenPrefixedU32 (maxLen : Nat) :
    Except VaultError (Bytes × Cursor) := do
  let (len, reader) ← readU32 reader
  (if maxLen < len.toNat then
    .error (plain s!"backup field length {len} exceeds the {maxLen} byte limit")
  else
    .ok ())
  takeBytes reader len.toNat

/-- `Range<usize>`. -/
structure ByteRange where
  start : Nat
  stop : Nat
deriving DecidableEq

/-- `&bytes[range]`. -/
def slice (bytes : Bytes) (range : ByteRange) : Bytes :=
  (bytes.take range.stop).drop range.start

def readRangeU64 (maxLen : Nat) : Except VaultError (ByteRange × Cursor) := do
  let (len, reader) ← readU64 reader
  (if maxLen < len then
    .error (plain s!"backup blob length {len} exceeds the {maxLen} byte limit")
  else
    .ok ())
  let (_, last) ← takeBytes reader len
  return ({ start := reader.offset, stop := last.offset }, last)

/-- `PayloadReader::finish`. -/
def finishReading : Except VaultError Unit :=
  if reader.offset ≠ reader.bytes.length then
    .error (plain "backup payload contains trailing bytes")
  else
    .ok ()

structure DecodedBackupArchive where
  plaintext : Bytes
  vaultRange : ByteRange
  auditRange : ByteRange
  sourceVaultId : String
  sourceFormatVersion : UInt32
  backupCreatedAtMs : Int
  archiveSha256 : String

def DecodedBackupArchive.vaultBytes (archive : DecodedBackupArchive) : Bytes :=
  slice archive.plaintext archive.vaultRange

def DecodedBackupArchive.auditBytes (archive : DecodedBackupArchive) : Bytes :=
  slice archive.plaintext archive.auditRange

def sourceVaultIdText (bytes : Bytes) : Except VaultError String :=
  match Utf8.decode? bytes with
  | some text => .ok (String.ofList text)
  | none => .error (plain "backup source vault ID is not valid UTF-8")

def decodeBackupPayload (plaintext : Bytes) (backupCreatedAtMs : Int) (archiveSha256 : String) :
    Except VaultError DecodedBackupArchive :=
  if hlen : plaintext.length ≤ maxBackupPayloadBytes then do
    let reader : Cursor :=
      { bytes := plaintext, offset := 0, offset_le := Nat.zero_le _
        length_lt := hlen.trans_lt (by decide) }
    let (magic, reader) ← takeBytes reader backupPayloadMagic.length
    (if magic ≠ backupPayloadMagic then
      .error (classified .serialization "backup payload magic is invalid")
    else
      .ok ())
    let (payloadVersion, reader) ← readU32 reader
    (if payloadVersion ≠ backupPayloadVersion then
      .error (classified .invalidInput s!"unsupported backup payload version {payloadVersion}")
    else
      .ok ())
    let (idBytes, reader) ← readLenPrefixedU32 reader maxSourceVaultIdBytes
    let id ← sourceVaultIdText idBytes
    let (sourceFormatVersion, reader) ← readU32 reader
    let (vaultRange, reader) ← readRangeU64 reader vaultTextReadLimit
    let (auditRange, reader) ← readRangeU64 reader (maxBackupPayloadBytes - reader.offset)
    finishReading reader
    validatePayloadMetadata inspectText id sourceFormatVersion (slice plaintext vaultRange)
      (slice plaintext auditRange)
    return { plaintext, vaultRange, auditRange, sourceVaultId := id, sourceFormatVersion
             backupCreatedAtMs, archiveSha256 }
  else
    .error (classified .invalidInput
      "decrypted backup payload exceeds the supported one-shot limit")

end Jig.Vault

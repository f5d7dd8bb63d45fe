import Jig.Vault.BackupPayload

/-!
# Backup payloads are read back

The encoder and the decoder accept the same parts and agree on their bytes (`encode_eq_ok`,
`decode_ok`, `exists_decode`), so that each undoes the other (`backup_payload_round_trip`).

Every read is described by the word it takes from the front, with the lengths that it accepts.
-/

namespace Jig.Vault

open Lib

/-! ## Reads -/

variable {bytes : Bytes}

section Reads

variable {reader reader' : Cursor}

theorem takeBytes_eq_ok {len : Nat} :
    takeBytes reader len = .ok (bytes, reader') ↔
      bytes.length = len ∧ reader.Advances bytes reader' := by
  have hsmall := reader.length_lt
  have hlength := reader.length_rest
  unfold takeBytes
  constructor
  · intro h
    rw [ite_error_eq_ok] at h
    obtain ⟨-, h⟩ := h
    split at h
    · next hle =>
        obtain ⟨rfl, rfl⟩ := Prod.mk.inj (Except.ok.inj h)
        have htake : (reader.rest.take len).length = len := by
          rw [List.length_take, hlength]
          omega
        refine ⟨htake, rfl, by rw [htake], ?_⟩
        show reader.rest = reader.rest.take len ++ reader.bytes.drop (reader.offset + len)
        rw [← List.drop_drop]
        exact (List.take_append_drop len reader.rest).symm
    · cases h
  · rintro ⟨rfl, hadvances⟩
    have hword := congrArg List.length hadvances.rest
    rw [List.length_append, hlength] at hword
    have hle := reader.offset_le
    have hroom : reader.offset + bytes.length ≤ reader.bytes.length := by omega
    rw [if_neg (by omega), dif_pos hroom]
    congr 2
    · rw [hadvances.rest, List.take_left]
    · exact Cursor.ext_of_eq hadvances.bytes.symm hadvances.offset.symm

@[simp]
theorem length_pushU32 (value : UInt32) : (pushU32 value).length = 4 :=
  BigEndian.length_ofNat ..

theorem readU32_eq_ok {value : UInt32} :
    readU32 reader = .ok (value, reader') ↔ reader.Advances (pushU32 value) reader' := by
  unfold readU32
  simp only [bind_eq_ok, pure_eq_ok, Prod.exists, takeBytes_eq_ok, Prod.mk.injEq]
  constructor
  · rintro ⟨bytes, mid, ⟨hlength, hadvances⟩, rfl, rfl⟩
    have hlt : BigEndian.value bytes < 2 ^ 32 := by
      have := BigEndian.value_lt bytes
      rwa [hlength] at this
    have hbytes : pushU32 (UInt32.ofNat (BigEndian.value bytes)) = bytes := by
      rw [pushU32, UInt32.toNat_ofNat_of_lt' hlt, ← hlength, BigEndian.ofNat_value]
    rwa [hbytes]
  · intro hadvances
    refine ⟨_, _, ⟨length_pushU32 value, hadvances⟩, ?_, rfl⟩
    rw [pushU32, BigEndian.value_ofNat value.toNat_lt, UInt32.ofNat_toNat]

theorem readU64_eq_ok {n : Nat} :
    readU64 reader = .ok (n, reader') ↔
      n < 2 ^ 64 ∧ reader.Advances (BigEndian.ofNat 8 n) reader' := by
  unfold readU64
  simp only [bind_eq_ok, pure_eq_ok, Prod.exists, takeBytes_eq_ok, Prod.mk.injEq]
  constructor
  · rintro ⟨bytes, mid, ⟨hlength, hadvances⟩, rfl, rfl⟩
    have hlt := BigEndian.value_lt bytes
    rw [hlength] at hlt
    refine ⟨hlt, ?_⟩
    rwa [← hlength, BigEndian.ofNat_value]
  · rintro ⟨hlt, hadvances⟩
    exact ⟨_, _, ⟨BigEndian.length_ofNat .., hadvances⟩, BigEndian.value_ofNat hlt, rfl⟩

theorem readLenPrefixedU32_eq_ok {maxLen : Nat} {field : Bytes} :
    readLenPrefixedU32 reader maxLen = .ok (field, reader') ↔
      field.length ≤ maxLen ∧ field.length < 2 ^ 32 ∧
        reader.Advances (BigEndian.ofNat 4 field.length ++ field) reader' := by
  unfold readLenPrefixedU32
  simp only [bind_eq_ok, Prod.exists, readU32_eq_ok, takeBytes_eq_ok, ite_error_eq_ok,
    Nat.not_lt]
  constructor
  · rintro ⟨len, mid, hlen, _, ⟨hmax, -⟩, hlength, hfield⟩
    rw [hlength]
    exact ⟨hmax, len.toNat_lt, hlen.trans hfield⟩
  · rintro ⟨hmax, hlt, hadvances⟩
    obtain ⟨mid, hlen, hfield⟩ := hadvances.split
    have hcast : (UInt32.ofNat field.length).toNat = field.length := UInt32.toNat_ofNat_of_lt' hlt
    refine ⟨UInt32.ofNat field.length, mid, ?_, (), ⟨by rwa [hcast], trivial⟩, hcast.symm, hfield⟩
    rwa [pushU32, hcast]

/-- The range of a blob is where its bytes are. -/
theorem readRangeU64_eq_ok {maxLen : Nat} {range : ByteRange} :
    readRangeU64 reader maxLen = .ok (range, reader') ↔
      ∃ blob : Bytes, blob.length ≤ maxLen ∧ blob.length < 2 ^ 64 ∧
        reader.Advances (BigEndian.ofNat 8 blob.length ++ blob) reader' ∧
          range = { start := reader.offset + 8, stop := reader'.offset } := by
  unfold readRangeU64
  simp only [bind_eq_ok, pure_eq_ok, Prod.exists, readU64_eq_ok, takeBytes_eq_ok, ite_error_eq_ok,
    Nat.not_lt, Prod.mk.injEq]
  constructor
  · rintro ⟨len, mid, ⟨hlt, hlen⟩, _, ⟨hmax, -⟩, blob, last, ⟨rfl, hblob⟩, rfl, rfl⟩
    refine ⟨blob, hmax, hlt, hlen.trans hblob, ?_⟩
    rw [hlen.offset, BigEndian.length_ofNat]
  · rintro ⟨blob, hmax, hlt, hadvances, rfl⟩
    obtain ⟨mid, hlen, hblob⟩ := hadvances.split
    refine ⟨_, mid, ⟨hlt, hlen⟩, (), ⟨hmax, trivial⟩, blob, reader', ⟨rfl, hblob⟩, ?_, rfl⟩
    rw [hlen.offset, BigEndian.length_ofNat]

/-- The bytes in the range of a blob. -/
theorem slice_blob {payload blob : Bytes} (hbytes : reader.bytes = payload)
    (h : reader.Advances (BigEndian.ofNat 8 blob.length ++ blob) reader') :
    slice payload { start := reader.offset + 8, stop := reader'.offset } = blob := by
  obtain ⟨mid, hlen, hblob⟩ := h.split
  have hoffset := hlen.offset
  rw [BigEndian.length_ofNat] at hoffset
  unfold slice
  rw [← hoffset, ← hbytes]
  exact hlen.slice hblob

theorem finishReading_eq_ok {u : Unit} : finishReading reader = .ok u ↔ reader.rest = [] := by
  have hle := reader.offset_le
  unfold finishReading
  rw [ite_error_eq_ok, not_not, ← List.length_eq_zero_iff, reader.length_rest]
  constructor
  · rintro ⟨h, -⟩
    omega
  · intro h
    exact ⟨by omega, rfl⟩

end Reads

/-! ## Payloads -/

section Payloads

variable {inspectText : InspectText} {sourceVaultId : String} {sourceFormatVersion : UInt32}
  {vaultBytes auditBytes payload : Bytes}

/-- The parts of a payload in their order. -/
def payloadBytes (sourceVaultId : String) (sourceFormatVersion : UInt32)
    (vaultBytes auditBytes : Bytes) : Bytes :=
  let id := Utf8.encode sourceVaultId.toList
  backupPayloadMagic ++ (pushU32 backupPayloadVersion ++ (BigEndian.ofNat 4 id.length ++ id ++
    (pushU32 sourceFormatVersion ++ (BigEndian.ofNat 8 vaultBytes.length ++ vaultBytes ++
      (BigEndian.ofNat 8 auditBytes.length ++ auditBytes)))))

theorem length_payloadBytes :
    (payloadBytes sourceVaultId sourceFormatVersion vaultBytes auditBytes).length =
      backupPayloadMagic.length + (4 + 4 + Utf8.byteLen sourceVaultId.toList + 4 + 8 + 8) +
        vaultBytes.length + auditBytes.length := by
  simp only [payloadBytes, List.length_append, length_pushU32, BigEndian.length_ofNat, Utf8.byteLen]
  omega

/-- What the checks say about the lengths. -/
theorem lengths_of_valid
    (h : validatePayloadMetadata inspectText sourceVaultId sourceFormatVersion vaultBytes auditBytes =
      .ok ()) :
    Utf8.byteLen sourceVaultId.toList ≤ maxSourceVaultIdBytes ∧
      vaultBytes.length ≤ vaultTextReadLimit := by
  unfold validatePayloadMetadata at h
  simp only [bind_eq_ok, ite_error_eq_ok] at h
  obtain ⟨_, ⟨hid, -⟩, _, -, _, -, embedded, hinspect, -⟩ := h
  unfold inspectEmbeddedVault at hinspect
  simp only [bind_eq_ok, ite_error_eq_ok] at hinspect
  obtain ⟨_, ⟨hvault, -⟩, -⟩ := hinspect
  rw [not_or] at hid
  exact ⟨Nat.not_lt.mp hid.2, Nat.not_lt.mp hvault⟩

theorem checkedLen_eq_ok {m n len : Nat} :
    checkedLen m n = .ok len ↔ m + n < 2 ^ 64 ∧ len = m + n := by
  unfold checkedLen
  rw [ite_else_error_eq_ok]
  simp [eq_comm]

/-- **Encoding.** -/
theorem encode_eq_ok :
    encodeBackupPayload inspectText sourceVaultId sourceFormatVersion vaultBytes auditBytes =
        .ok payload ↔
      validatePayloadMetadata inspectText sourceVaultId sourceFormatVersion vaultBytes auditBytes =
          .ok () ∧ payload.length ≤ maxBackupPayloadBytes ∧
        payload = payloadBytes sourceVaultId sourceFormatVersion vaultBytes auditBytes := by
  have hlength := @length_payloadBytes sourceVaultId sourceFormatVersion vaultBytes auditBytes
  have hpayload : backupPayloadMagic ++ pushU32 backupPayloadVersion ++
      (BigEndian.ofNat 4 (Utf8.encode sourceVaultId.toList).length ++
        Utf8.encode sourceVaultId.toList) ++ pushU32 sourceFormatVersion ++
        (BigEndian.ofNat 8 vaultBytes.length ++ vaultBytes) ++
        (BigEndian.ofNat 8 auditBytes.length ++ auditBytes) =
      payloadBytes sourceVaultId sourceFormatVersion vaultBytes auditBytes := by
    simp only [payloadBytes, List.append_assoc]
  unfold encodeBackupPayload backupPayloadFixedLen pushLenPrefixedU32 pushLenPrefixedU64
  simp only [bind_eq_ok, pure_eq_ok, ite_error_eq_ok, ite_else_error_eq_ok, checkedLen_eq_ok,
    Except.ok.injEq]
  constructor
  · rintro ⟨_, hvalid, _, ⟨-, rfl⟩, _, ⟨-, rfl⟩, _, ⟨-, rfl⟩, _, ⟨hmax, -⟩, _, ⟨-, rfl⟩, _, ⟨-, rfl⟩,
      _, ⟨-, rfl⟩, rfl⟩
    rw [hpayload]
    exact ⟨hvalid, by omega, rfl⟩
  · rintro ⟨hvalid, hmax, rfl⟩
    have hsmall : maxBackupPayloadBytes < 2 ^ 32 := by decide
    have hid : (Utf8.encode sourceVaultId.toList).length ≤ maxBackupPayloadBytes := by
      show Utf8.byteLen sourceVaultId.toList ≤ _
      omega
    exact ⟨(), hvalid, _, ⟨by omega, rfl⟩, _, ⟨by omega, rfl⟩, _, ⟨by omega, rfl⟩,
      (), ⟨by omega, trivial⟩, _, ⟨by omega, rfl⟩, _, ⟨by omega, rfl⟩, _, ⟨by omega, rfl⟩, hpayload⟩

theorem sourceVaultIdText_eq_ok {id : String} :
    sourceVaultIdText bytes = .ok id ↔ bytes = Utf8.encode id.toList := by
  unfold sourceVaultIdText
  constructor
  · intro h
    split at h
    · next text htext =>
        obtain rfl := Except.ok.inj h
        rw [String.toList_ofList, Utf8.encode_of_decode? htext]
    · cases h
  · rintro rfl
    rw [Utf8.decode?_encode]
    exact congrArg Except.ok (String.ofList_toList)

/-- **Decoding, from the archive.** -/
theorem decode_ok {createdAtMs : Int} {sha256 : String} {archive : DecodedBackupArchive}
    (h : decodeBackupPayload inspectText payload createdAtMs sha256 = .ok archive) :
    payload.length ≤ maxBackupPayloadBytes ∧
      validatePayloadMetadata inspectText archive.sourceVaultId archive.sourceFormatVersion
          archive.vaultBytes archive.auditBytes = .ok () ∧
      payload = payloadBytes archive.sourceVaultId archive.sourceFormatVersion archive.vaultBytes
        archive.auditBytes := by
  unfold decodeBackupPayload at h
  split at h
  · next hlen =>
      simp only [bind_eq_ok, pure_eq_ok, ite_error_eq_ok, Prod.exists, takeBytes_eq_ok,
        readU32_eq_ok, readLenPrefixedU32_eq_ok, readRangeU64_eq_ok, finishReading_eq_ok,
        sourceVaultIdText_eq_ok, not_not] at h
      obtain ⟨_, r₁, ⟨-, hmagic⟩, _, ⟨rfl, -⟩, _, r₂, hversion, _, ⟨rfl, -⟩, _, r₃, ⟨-, -, hid⟩, id,
        rfl, format, r₄, hformat, _, r₅, ⟨vault, -, -, hvault, rfl⟩, _, r₆,
        ⟨audit, -, -, haudit, rfl⟩, _, hfinish, _, hvalid, rfl⟩ := h
      -- the two ranges lie in the payload, and the words fill it
      have hbytes := (hmagic.trans hversion).trans (hid.trans hformat)
      have hvaultSlice := slice_blob hbytes.bytes hvault
      have hauditSlice := slice_blob (hbytes.trans hvault).bytes haudit
      have hall := ((hbytes.trans hvault).trans haudit).rest
      rw [hfinish, List.append_nil] at hall
      refine ⟨hlen, hvalid, ?_⟩
      unfold DecodedBackupArchive.vaultBytes DecodedBackupArchive.auditBytes
      dsimp only
      rw [hvaultSlice, hauditSlice]
      show payload = _
      simpa [payloadBytes, Cursor.rest, List.append_assoc] using hall
  · cases h

/-- **Decoding, from the parts.** -/
theorem exists_decode (createdAtMs : Int) (sha256 : String)
    (hvalid : validatePayloadMetadata inspectText sourceVaultId sourceFormatVersion vaultBytes
      auditBytes = .ok ())
    (hlen : (payloadBytes sourceVaultId sourceFormatVersion vaultBytes auditBytes).length ≤
      maxBackupPayloadBytes) :
    ∃ archive, decodeBackupPayload inspectText
        (payloadBytes sourceVaultId sourceFormatVersion vaultBytes auditBytes) createdAtMs sha256 =
          .ok archive ∧
      archive.sourceVaultId = sourceVaultId ∧ archive.sourceFormatVersion = sourceFormatVersion ∧
        archive.vaultBytes = vaultBytes ∧ archive.auditBytes = auditBytes := by
  obtain ⟨hid, hvault⟩ := lengths_of_valid hvalid
  have hlength := @length_payloadBytes sourceVaultId sourceFormatVersion vaultBytes auditBytes
  have hsmall : maxBackupPayloadBytes < 2 ^ 32 := by decide
  have hidSmall : maxSourceVaultIdBytes < 2 ^ 32 := by decide
  generalize hpayload : payloadBytes sourceVaultId sourceFormatVersion vaultBytes auditBytes = payload
    at hlen hlength
  -- one cursor after the other, along the words of the payload
  let start : Cursor :=
    { bytes := payload, offset := 0, offset_le := Nat.zero_le _
      length_lt := hlen.trans_lt (by decide) }
  have hstart : start.rest = _ := hpayload.symm
  unfold payloadBytes at hstart
  dsimp only at hstart
  obtain ⟨r₁, hmagic, h₁⟩ := Cursor.Advances.exists_of_rest hstart
  obtain ⟨r₂, hversion, h₂⟩ := Cursor.Advances.exists_of_rest h₁
  obtain ⟨r₃, hidWord, h₃⟩ := Cursor.Advances.exists_of_rest h₂
  obtain ⟨r₄, hformat, h₄⟩ := Cursor.Advances.exists_of_rest h₃
  obtain ⟨r₅, hvaultWord, h₅⟩ := Cursor.Advances.exists_of_rest h₄
  obtain ⟨r₆, hauditWord, h₆⟩ := Cursor.Advances.exists_of_rest (h₅.trans (List.append_nil _).symm)
  have hbytes := (hmagic.trans hversion).trans (hidWord.trans hformat)
  have hvaultSlice : slice payload _ = vaultBytes := slice_blob hbytes.bytes hvaultWord
  have hauditSlice : slice payload _ = auditBytes :=
    slice_blob (hbytes.trans hvaultWord).bytes hauditWord
  have hposition : r₅.offset + 8 + auditBytes.length = payload.length := by
    have hend := hauditWord.offset
    have hrest := r₆.length_rest
    have hle := r₆.offset_le
    have hall := ((hbytes.trans hvaultWord).trans hauditWord).bytes
    rw [h₆, hall] at hrest
    rw [hall] at hle
    rw [List.length_append, BigEndian.length_ofNat] at hend
    simp only [start, List.length_nil] at hrest hle
    omega
  refine ⟨{ plaintext := payload, vaultRange := { start := r₄.offset + 8, stop := r₅.offset }
            auditRange := { start := r₅.offset + 8, stop := r₆.offset }, sourceVaultId
            sourceFormatVersion, backupCreatedAtMs := createdAtMs, archiveSha256 := sha256 },
    ?_, rfl, rfl, hvaultSlice, hauditSlice⟩
  unfold decodeBackupPayload
  rw [dif_pos hlen]
  simp only [bind_eq_ok, pure_eq_ok, ite_error_eq_ok, Prod.exists, takeBytes_eq_ok, readU32_eq_ok,
    readLenPrefixedU32_eq_ok, readRangeU64_eq_ok, finishReading_eq_ok, sourceVaultIdText_eq_ok,
    not_not]
  refine ⟨_, r₁, ⟨rfl, hmagic⟩, (), ⟨rfl, trivial⟩, _, r₂, hversion, (), ⟨rfl, trivial⟩, _, r₃,
    ⟨hid, hid.trans_lt hidSmall, hidWord⟩, _, rfl, _, r₄, hformat, _, r₅,
    ⟨_, hvault, by omega, hvaultWord, rfl⟩, _, r₆, ⟨_, by omega, by omega, hauditWord, rfl⟩, (), h₆,
    (), ?_, rfl⟩
  rw [hvaultSlice, hauditSlice]
  exact hvalid

/-- **Round trip.** What the encoder returns is decoded to the parts it was given, and what the
decoder accepts is encoded to the payload it was given. -/
theorem backup_payload_round_trip (inspectText : InspectText) :
    (∀ sourceVaultId sourceFormatVersion vaultBytes auditBytes payload createdAtMs sha256,
      encodeBackupPayload inspectText sourceVaultId sourceFormatVersion vaultBytes auditBytes =
          .ok payload →
        ∃ archive, decodeBackupPayload inspectText payload createdAtMs sha256 = .ok archive ∧
          archive.sourceVaultId = sourceVaultId ∧
          archive.sourceFormatVersion = sourceFormatVersion ∧
          archive.vaultBytes = vaultBytes ∧ archive.auditBytes = auditBytes) ∧
      ∀ payload createdAtMs sha256 archive,
        decodeBackupPayload inspectText payload createdAtMs sha256 = .ok archive →
          encodeBackupPayload inspectText archive.sourceVaultId archive.sourceFormatVersion
            archive.vaultBytes archive.auditBytes = .ok payload := by
  constructor
  · intro id version vault audit payload createdAtMs sha256 h
    obtain ⟨hvalid, hlen, rfl⟩ := encode_eq_ok.mp h
    exact exists_decode createdAtMs sha256 hvalid hlen
  · intro payload createdAtMs sha256 archive h
    obtain ⟨hlen, hvalid, hpayload⟩ := decode_ok h
    exact encode_eq_ok.mpr ⟨hvalid, hlen, hpayload⟩

end Payloads

namespace SampleBackup

def inspectText : InspectText := fun text => .ok (String.ofList text, 3)

def payload : Bytes := payloadBytes "v" 3 [118] [10]

theorem backup_payload_round_trip_of_sample :
    encodeBackupPayload inspectText "v" 3 [118] [10] = .ok payload ∧
      ∃ archive, decodeBackupPayload inspectText payload 0 "" = .ok archive ∧
        archive.vaultBytes = [118] ∧ archive.auditBytes = [10] ∧
        encodeBackupPayload inspectText archive.sourceVaultId archive.sourceFormatVersion
          archive.vaultBytes archive.auditBytes = .ok payload := by
  have hencode : encodeBackupPayload inspectText "v" 3 [118] [10] = .ok payload := by
    decide +kernel
  obtain ⟨hforward, hback⟩ := backup_payload_round_trip inspectText
  obtain ⟨archive, hdecode, -, -, hvault, haudit⟩ := hforward _ _ _ _ _ 0 "" hencode
  exact ⟨hencode, archive, hdecode, hvault, haudit, hback _ _ _ _ hdecode⟩

end SampleBackup

end Jig.Vault

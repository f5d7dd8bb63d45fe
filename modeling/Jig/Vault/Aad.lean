import Jig.Lib.SelfDelimiting
import Jig.Lib.Utf8

/-!
# Authenticated data

The texts that ciphertexts are bound to (`jig-vault`, `format.rs`, `aad.rs` and `backup/codec.rs`):
a domain, and one field after another, each with the length of its value in bytes. A value may hold
colons, newlines and whole fields; its length says where it ends, so the fields are read back one by
one (`encodeFields_inj`), and different headers and roles have different texts.
-/

namespace Jig.Vault

open Lib

/-! ### Headers -/

/-- `MAGIC`. -/
def vaultMagic : String := "jig-vault"

def aeadAlgorithm : String := "xchacha20poly1305"

inductive AeadRole where
  | state | wrappedDek
deriving DecidableEq, Repr

def AeadRole.asStr : AeadRole → String
  | .state => "state"
  | .wrappedDek => "wrapped_dek"

/-- `KdfParams`, and `BackupKdfParams` with the same fields. -/
structure KdfParams where
  algorithm : String
  memoryKib : UInt32
  iterations : UInt32
  parallelism : UInt32
  outputLen : UInt32
deriving DecidableEq, Repr

structure VaultHeader where
  magic : String
  version : UInt32
  vaultId : String
  createdAtMs : Int
  kdf : KdfParams
  saltB64 : String
  aead : String
  generation : Option UInt64
deriving DecidableEq, Repr

structure BackupHeader where
  magic : String
  version : UInt32
  createdAtMs : Int
  kdf : KdfParams
  saltB64 : String
  aead : String
  nonceB64 : String
deriving DecidableEq, Repr

def isSupportedFormatVersion (version : UInt32) : Bool :=
  version = 1 || version = 2 || version = 3

variable (header : VaultHeader)

/-- The generation rule of `validate_header`. -/
def validateGeneration : Except String Unit :=
  if header.version = 3 then
    match header.generation with
    | some generation =>
        if generation ≥ 1 then .ok ⟨⟩ else .error "vault format 3 generation must be at least 1"
    | none => .error "vault format 3 header is missing its generation"
  else
    match header.generation with
    | some _ =>
        .error ("vault format " ++ toString header.version.toNat ++
          " header must not contain a generation")
    | none => .ok ⟨⟩

def validateHeader : Except String Unit :=
  if header.magic ≠ vaultMagic then
    .error ("unsupported vault magic '" ++ header.magic ++ "'")
  else if ¬isSupportedFormatVersion header.version then
    .error ("unsupported vault version " ++ toString header.version.toNat)
  else if header.aead ≠ aeadAlgorithm then
    .error ("unsupported vault AEAD '" ++ header.aead ++ "'")
  else
    validateGeneration header

/-- What an accepted header has, and the texts below are told apart by. -/
theorem validateHeader_eq_ok {header : VaultHeader} (h : validateHeader header = .ok ⟨⟩) :
    isSupportedFormatVersion header.version = true ∧ validateGeneration header = .ok ⟨⟩ := by
  unfold validateHeader at h
  split_ifs at h with hmagic hversion haead
  exact ⟨hversion, h⟩

/-! ### Texts -/

def pushLengthPrefixedField (output name value : String) : String :=
  output ++ (name ++ ":" ++ toString (Utf8.byteLen value.toList) ++ ":" ++ value ++ "\n")

variable (version : UInt32)

/-- The domain of `header_aad_string`. -/
def headerDomain : String :=
  if version = 1 then "jig-vault-header-v1\n"
  else if version = 2 then "jig-vault-header-v2\n"
  else if version = 3 then "jig-vault-header-v3\n"
  else "jig-vault-header-unsupported\n"

def headerAadString : String :=
  let aad := headerDomain header.version
  let aad := pushLengthPrefixedField aad "magic" header.magic
  let aad := pushLengthPrefixedField aad "version" (toString header.version.toNat)
  let aad := pushLengthPrefixedField aad "vault_id" header.vaultId
  let aad := pushLengthPrefixedField aad "created_at_ms" (toString header.createdAtMs)
  let aad := pushLengthPrefixedField aad "kdf.algorithm" header.kdf.algorithm
  let aad := pushLengthPrefixedField aad "kdf.memory_kib" (toString header.kdf.memoryKib.toNat)
  let aad := pushLengthPrefixedField aad "kdf.iterations" (toString header.kdf.iterations.toNat)
  let aad := pushLengthPrefixedField aad "kdf.parallelism" (toString header.kdf.parallelism.toNat)
  let aad := pushLengthPrefixedField aad "kdf.output_len" (toString header.kdf.outputLen.toNat)
  let aad := pushLengthPrefixedField aad "salt_b64" header.saltB64
  pushLengthPrefixedField aad "aead" header.aead

variable (role : AeadRole)

def payloadAad : Bytes :=
  let aad := headerAadString header
  let aad :=
    if header.version = 3 ∧ role = .state then
      pushLengthPrefixedField aad "generation"
        ((header.generation.map fun generation => toString generation.toNat).getD "")
    else aad
  Utf8.encode (pushLengthPrefixedField aad "payload_role" role.asStr).toList

def backupAadDomain : String := "jig-vault-backup-header-v1\n"

def backupAad (header : BackupHeader) : Bytes :=
  let aad := backupAadDomain
  let aad := pushLengthPrefixedField aad "magic" header.magic
  let aad := pushLengthPrefixedField aad "version" (toString header.version.toNat)
  let aad := pushLengthPrefixedField aad "created_at_ms" (toString header.createdAtMs)
  let aad := pushLengthPrefixedField aad "kdf.algorithm" header.kdf.algorithm
  let aad := pushLengthPrefixedField aad "kdf.memory_kib" (toString header.kdf.memoryKib.toNat)
  let aad := pushLengthPrefixedField aad "kdf.iterations" (toString header.kdf.iterations.toNat)
  let aad := pushLengthPrefixedField aad "kdf.parallelism" (toString header.kdf.parallelism.toNat)
  let aad := pushLengthPrefixedField aad "kdf.output_len" (toString header.kdf.outputLen.toNat)
  let aad := pushLengthPrefixedField aad "salt_b64" header.saltB64
  let aad := pushLengthPrefixedField aad "aead" header.aead
  let aad := pushLengthPrefixedField aad "nonce_b64" header.nonceB64
  Utf8.encode (pushLengthPrefixedField aad "payload_role" "backup_payload").toList

/-! ### Fields -/

def textBytes (text : String) : Bytes :=
  Utf8.encode text.toList

@[simp] theorem textBytes_append (a b : String) :
    textBytes (a ++ b) = textBytes a ++ textBytes b := by
  simp [textBytes]

theorem textBytes_injective : Function.Injective textBytes :=
  Utf8.encode_toList_injective

theorem toString_nat_injective : Function.Injective (toString : Nat → String) := by
  intro a b h
  have hdigits := congrArg (fun text : String => Nat.ofDigitChars 10 text.toList 0) h
  simpa [Nat.toString_eq_ofList_toDigits] using hdigits

/-- A digit is one byte, and not a colon. -/
theorem colon_notMem_of_isDigit {c : Char} (h : c.isDigit = true) :
    (58 : UInt8) ∉ String.utf8EncodeChar c := by
  simp only [Char.isDigit, Bool.and_eq_true, decide_eq_true_eq] at h
  have hle : c.val.toNat ≤ 57 := h.2
  have hascii : Utf8.isAscii c = true := decide_eq_true (show c.val.toNat < 128 by omega)
  rw [Utf8.utf8EncodeChar_of_isAscii hascii, List.mem_singleton]
  intro hcolon
  have hbyte := congrArg UInt8.toNat hcolon
  rw [UInt32.toNat_toUInt8, Nat.mod_eq_of_lt (by omega)] at hbyte
  have : (58 : UInt8).toNat = 58 := rfl
  omega

/-- A number before a colon. -/
theorem selfDelimiting_decimal :
    SelfDelimiting fun n : Nat => textBytes (toString n) ++ textBytes ":" := by
  refine SelfDelimiting.terminated (textBytes_injective.comp toString_nat_injective) fun n hmem => ?_
  have hdigits : (toString n).toList = Nat.toDigits 10 n := by simp [toString]
  obtain ⟨c, hc, hbyte⟩ := List.mem_flatMap.mp hmem
  rw [hdigits] at hc
  exact colon_notMem_of_isDigit (Nat.isDigit_of_mem_toDigits (by decide) (by decide) hc) hbyte

theorem toString_int_injective : Function.Injective (toString : Int → String) := by
  have hsign (n m : Nat) : toString n ≠ "-" ++ toString m := by
    intro h
    have hdigits : (toString n).toList = Nat.toDigits 10 n := by simp [toString]
    have hmem : '-' ∈ Nat.toDigits 10 n := by
      rw [← hdigits, h, String.toList_append]
      exact List.mem_append_left _ (List.mem_singleton.mpr rfl)
    exact absurd (Nat.isDigit_of_mem_toDigits (by decide) (by decide) hmem) (by decide)
  intro a b h
  cases a with
  | ofNat n =>
      cases b with
      | ofNat m => exact congrArg Int.ofNat (toString_nat_injective h)
      | negSucc m => exact absurd h (hsign n _)
  | negSucc n =>
      cases b with
      | ofNat m => exact absurd h.symm (hsign m _)
      | negSucc m =>
          have hlist := congrArg String.toList
            (show "-" ++ toString (n + 1) = "-" ++ toString (m + 1) from h)
          rw [String.toList_append, String.toList_append] at hlist
          have hsucc := toString_nat_injective (String.toList_inj.mp (List.append_cancel_left hlist))
          rw [Nat.succ.inj hsucc]

def fieldBytes (field : String × String) : Bytes :=
  textBytes field.1 ++ textBytes ":" ++
    (textBytes (toString (textBytes field.2).length) ++ textBytes ":" ++
      (textBytes field.2 ++ textBytes "\n"))

theorem textBytes_pushLengthPrefixedField (output name value : String) :
    textBytes (pushLengthPrefixedField output name value) =
      textBytes output ++ fieldBytes (name, value) := by
  simp only [pushLengthPrefixedField, fieldBytes, textBytes_append, List.append_assoc]
  rfl

/-- Fields of one name end where their lengths say. -/
theorem fieldBytes_inj {name value value' : String} {r r' : Bytes}
    (h : fieldBytes (name, value) ++ r = fieldBytes (name, value') ++ r') :
    value = value' ∧ r = r' := by
  have hcode := (selfDelimiting_decimal.framed (textBytes "\n")).const_append
    (textBytes name ++ textBytes ":")
  obtain ⟨hvalue, hrest⟩ := hcode h
  exact ⟨textBytes_injective hvalue, hrest⟩

def encodeFields (fields : List (String × String)) : Bytes :=
  fields.flatMap fieldBytes

/-- **Fields of the same names** are read back from their bytes, whatever follows. -/
theorem encodeFields_inj {fields fields' : List (String × String)} {r r' : Bytes}
    (hnames : fields.map Prod.fst = fields'.map Prod.fst)
    (h : encodeFields fields ++ r = encodeFields fields' ++ r') : fields = fields' ∧ r = r' := by
  induction fields generalizing fields' with
  | nil =>
      rw [List.map_nil, eq_comm, List.map_eq_nil_iff] at hnames
      subst hnames
      exact ⟨rfl, h⟩
  | cons field fields ih =>
      cases fields' with
      | nil => cases hnames
      | cons field' fields' =>
          obtain ⟨name, value⟩ := field
          obtain ⟨name', value'⟩ := field'
          rw [List.map_cons, List.map_cons, List.cons.injEq] at hnames
          obtain ⟨rfl, hnames⟩ := hnames
          simp only [encodeFields, List.flatMap_cons, List.append_assoc] at h
          obtain ⟨rfl, hrest⟩ := fieldBytes_inj h
          obtain ⟨rfl, hr⟩ := ih hnames hrest
          exact ⟨rfl, hr⟩

/-! ### The texts as fields -/

/-- The fields of `header_aad_string`. -/
def headerFields : List (String × String) :=
  [("magic", header.magic), ("version", toString header.version.toNat),
    ("vault_id", header.vaultId), ("created_at_ms", toString header.createdAtMs),
    ("kdf.algorithm", header.kdf.algorithm),
    ("kdf.memory_kib", toString header.kdf.memoryKib.toNat),
    ("kdf.iterations", toString header.kdf.iterations.toNat),
    ("kdf.parallelism", toString header.kdf.parallelism.toNat),
    ("kdf.output_len", toString header.kdf.outputLen.toNat), ("salt_b64", header.saltB64),
    ("aead", header.aead)]

def roleFields : List (String × String) :=
  if header.version = 3 ∧ role = .state then
    [("generation", (header.generation.map fun generation => toString generation.toNat).getD ""),
      ("payload_role", role.asStr)]
  else
    [("payload_role", role.asStr)]

/-- The fields of `backup_aad`. -/
def backupFields (header : BackupHeader) : List (String × String) :=
  [("magic", header.magic), ("version", toString header.version.toNat),
    ("created_at_ms", toString header.createdAtMs), ("kdf.algorithm", header.kdf.algorithm),
    ("kdf.memory_kib", toString header.kdf.memoryKib.toNat),
    ("kdf.iterations", toString header.kdf.iterations.toNat),
    ("kdf.parallelism", toString header.kdf.parallelism.toNat),
    ("kdf.output_len", toString header.kdf.outputLen.toNat), ("salt_b64", header.saltB64),
    ("aead", header.aead), ("nonce_b64", header.nonceB64), ("payload_role", "backup_payload")]

theorem payloadAad_eq :
    payloadAad header role = textBytes (headerDomain header.version) ++
      (encodeFields (headerFields header) ++ encodeFields (roleFields header role)) := by
  unfold payloadAad roleFields
  show textBytes _ = _
  by_cases hstate : header.version = 3 ∧ role = .state
  · simp only [if_pos hstate, headerAadString, textBytes_pushLengthPrefixedField, headerFields,
      encodeFields, List.flatMap_cons, List.flatMap_nil, List.append_assoc, List.append_nil]
  · simp only [if_neg hstate, headerAadString, textBytes_pushLengthPrefixedField, headerFields,
      encodeFields, List.flatMap_cons, List.flatMap_nil, List.append_assoc, List.append_nil]

theorem backupAad_eq (header : BackupHeader) :
    backupAad header = textBytes backupAadDomain ++ encodeFields (backupFields header) := by
  unfold backupAad
  show textBytes _ = _
  simp only [textBytes_pushLengthPrefixedField, backupFields, encodeFields, List.flatMap_cons,
    List.flatMap_nil, List.append_assoc, List.append_nil]

/-! ### Domains -/

theorem isSupportedFormatVersion_iff {version : UInt32} :
    isSupportedFormatVersion version = true ↔ version = 1 ∨ version = 2 ∨ version = 3 := by
  simp [isSupportedFormatVersion, or_assoc]

/-- The domains of the supported versions are of one length, and differ. -/
theorem headerDomain_inj {version version' : UInt32} {r r' : Bytes}
    (hversion : isSupportedFormatVersion version = true)
    (hversion' : isSupportedFormatVersion version' = true)
    (h : textBytes (headerDomain version) ++ r = textBytes (headerDomain version') ++ r') :
    version = version' ∧ r = r' := by
  have hlen {version : UInt32} (hversion : isSupportedFormatVersion version = true) :
      (textBytes (headerDomain version)).length = 20 := by
    rcases isSupportedFormatVersion_iff.mp hversion with rfl | rfl | rfl <;> decide +kernel
  obtain ⟨hdomain, hrest⟩ := List.append_inj h ((hlen hversion).trans (hlen hversion').symm)
  refine ⟨?_, hrest⟩
  rcases isSupportedFormatVersion_iff.mp hversion with rfl | rfl | rfl <;>
    rcases isSupportedFormatVersion_iff.mp hversion' with rfl | rfl | rfl <;>
    first
      | rfl
      | exact absurd hdomain (by decide +kernel)

theorem isPrefix_headerDomain :
    textBytes "jig-vault-header-" <+: textBytes (headerDomain version) := by
  unfold headerDomain
  split
  · decide +kernel
  split
  · decide +kernel
  split
  · decide +kernel
  · decide +kernel

/-- Texts that start differently differ. -/
theorem append_ne_append {start w w' : Bytes} (hstart : start <+: w)
    (hlen : start.length ≤ w'.length) (hne : ¬start <+: w') (r r' : Bytes) :
    w ++ r ≠ w' ++ r' := by
  intro h
  have hle : start <+: w' ++ r' := h ▸ hstart.trans (List.prefix_append w r)
  exact hne (List.prefix_of_prefix_length_le hle (List.prefix_append w' r') hlen)

/-- Whatever the version, the domain of a vault is not that of a backup. -/
theorem headerDomain_append_ne (r r' : Bytes) :
    textBytes (headerDomain version) ++ r ≠ textBytes backupAadDomain ++ r' :=
  append_ne_append (isPrefix_headerDomain version) (by decide +kernel) (by decide +kernel) r r'

/-! ### The roles -/

/-- The field of a generation does not start like that of a role. -/
theorem generation_append_ne (generation role : String) (r r' : Bytes) :
    fieldBytes ("generation", generation) ++ r ≠ fieldBytes ("payload_role", role) ++ r' := by
  simp only [fieldBytes, List.append_assoc]
  exact append_ne_append (List.prefix_refl (textBytes "generation"))
    (show _ ≤ (textBytes "payload_role").length by decide +kernel) (by decide +kernel) _ _

theorem generation_text_inj {header header' : VaultHeader} (hversion : header.version = 3)
    (hversion' : header'.version = 3) (hvalid : validateGeneration header = .ok ⟨⟩)
    (hvalid' : validateGeneration header' = .ok ⟨⟩)
    (h : (header.generation.map fun generation => toString generation.toNat).getD "" =
      (header'.generation.map fun generation => toString generation.toNat).getD "") :
    header.generation = header'.generation := by
  have hsome {header : VaultHeader} (hversion : header.version = 3)
      (hvalid : validateGeneration header = .ok ⟨⟩) : ∃ g, header.generation = some g := by
    unfold validateGeneration at hvalid
    rw [if_pos hversion] at hvalid
    cases hgeneration : header.generation with
    | none =>
        rw [hgeneration] at hvalid
        cases hvalid
    | some g => exact ⟨g, rfl⟩
  obtain ⟨g, hg⟩ := hsome hversion hvalid
  obtain ⟨g', hg'⟩ := hsome hversion' hvalid'
  rw [hg, hg'] at h ⊢
  exact congrArg some (UInt64.toNat_inj.mp (toString_nat_injective h))

/-- The fields behind the header tell the role, and for version 3 the generation. -/
theorem roleFields_inj {header header' : VaultHeader} {role role' : AeadRole}
    (hversion : header.version = header'.version)
    (h : encodeFields (roleFields header role) = encodeFields (roleFields header' role')) :
    role = role' ∧ roleFields header role = roleFields header' role' := by
  have hnil : encodeFields (roleFields header role) ++ [] =
      encodeFields (roleFields header' role') ++ [] := by rw [h]
  by_cases hthree : header.version = 3
  · -- in version 3 the state has a generation in front of its role
    have hthree' : header'.version = 3 := hversion ▸ hthree
    cases role <;> cases role'
    case state.state =>
      have hnames : (roleFields header .state).map Prod.fst =
          (roleFields header' .state).map Prod.fst := by
        simp [roleFields, hthree, hthree']
      exact ⟨rfl, (encodeFields_inj hnames hnil).1⟩
    case state.wrappedDek =>
      simp only [roleFields, hthree, hthree', and_self, if_true, reduceCtorEq, and_false, if_false,
        encodeFields, List.flatMap_cons] at h
      exact absurd h (generation_append_ne _ _ _ _)
    case wrappedDek.state =>
      simp only [roleFields, hthree, hthree', and_self, if_true, reduceCtorEq, and_false, if_false,
        encodeFields, List.flatMap_cons] at h
      exact absurd h.symm (generation_append_ne _ _ _ _)
    case wrappedDek.wrappedDek => exact ⟨rfl, by simp [roleFields]⟩
  · have hthree' : header'.version ≠ 3 := hversion ▸ hthree
    have hrole (header : VaultHeader) (hthree : header.version ≠ 3) (role : AeadRole) :
        roleFields header role = [("payload_role", role.asStr)] :=
      if_neg fun h => hthree h.1
    rw [hrole header hthree, hrole header' hthree'] at hnil ⊢
    have hnames : [("payload_role", role.asStr)].map Prod.fst =
        [("payload_role", role'.asStr)].map Prod.fst := rfl
    obtain ⟨hfields, -⟩ := encodeFields_inj hnames hnil
    refine ⟨?_, hfields⟩
    have hstr : role.asStr = role'.asStr := by simpa using hfields
    cases role <;> cases role'
    case state.state => rfl
    case state.wrappedDek => exact absurd hstr (by decide)
    case wrappedDek.state => exact absurd hstr (by decide)
    case wrappedDek.wrappedDek => rfl

/-! ### Headers from their fields -/

theorem uint32_of_toString {a b : UInt32} (h : toString a.toNat = toString b.toNat) : a = b :=
  UInt32.toNat_inj.mp (toString_nat_injective h)

theorem KdfParams.eq_of_texts {kdf kdf' : KdfParams} (halgorithm : kdf.algorithm = kdf'.algorithm)
    (hmemory : toString kdf.memoryKib.toNat = toString kdf'.memoryKib.toNat)
    (hiterations : toString kdf.iterations.toNat = toString kdf'.iterations.toNat)
    (hparallelism : toString kdf.parallelism.toNat = toString kdf'.parallelism.toNat)
    (houtput : toString kdf.outputLen.toNat = toString kdf'.outputLen.toNat) : kdf = kdf' := by
  cases kdf
  cases kdf'
  congr
  · exact uint32_of_toString hmemory
  · exact uint32_of_toString hiterations
  · exact uint32_of_toString hparallelism
  · exact uint32_of_toString houtput

structure VaultHeader.SameAuthenticated (header header' : VaultHeader) : Prop where
  magic : header.magic = header'.magic
  version : header.version = header'.version
  vaultId : header.vaultId = header'.vaultId
  createdAtMs : header.createdAtMs = header'.createdAtMs
  kdf : header.kdf = header'.kdf
  saltB64 : header.saltB64 = header'.saltB64
  aead : header.aead = header'.aead

theorem headerFields_inj {header header' : VaultHeader} {r r' : Bytes}
    (h : encodeFields (headerFields header) ++ r = encodeFields (headerFields header') ++ r') :
    header.SameAuthenticated header' ∧ r = r' := by
  have hnames : (headerFields header).map Prod.fst = (headerFields header').map Prod.fst := rfl
  obtain ⟨h, hrest⟩ := encodeFields_inj hnames h
  simp only [headerFields, List.cons.injEq, Prod.mk.injEq, true_and, and_true] at h
  obtain ⟨hmagic, hversion, hid, hcreated, halgorithm, hmemory, hiterations, hparallelism, houtput,
    hsalt, haead⟩ := h
  exact ⟨⟨hmagic, uint32_of_toString hversion, hid, toString_int_injective hcreated,
    KdfParams.eq_of_texts halgorithm hmemory hiterations hparallelism houtput, hsalt, haead⟩, hrest⟩

theorem backupFields_inj {header header' : BackupHeader}
    (h : encodeFields (backupFields header) ++ [] = encodeFields (backupFields header') ++ []) :
    header = header' := by
  have hnames : (backupFields header).map Prod.fst = (backupFields header').map Prod.fst := rfl
  obtain ⟨h, -⟩ := encodeFields_inj hnames h
  simp only [backupFields, List.cons.injEq, Prod.mk.injEq, true_and, and_true] at h
  obtain ⟨hmagic, hversion, hcreated, halgorithm, hmemory, hiterations, hparallelism, houtput,
    hsalt, haead, hnonce⟩ := h
  have hkdf := KdfParams.eq_of_texts halgorithm hmemory hiterations hparallelism houtput
  have hversion := uint32_of_toString hversion
  have hcreated := toString_int_injective hcreated
  cases header
  cases header'
  congr

/-- **Authenticated data tells what it is for.** The texts of vault payloads agree only for headers
that agree on all that is authenticated and for one role, and for the state of version 3 on the
generation; the texts of backups only for one header; and no text is of both kinds. -/
theorem aad_injective :
    (∀ (header header' : VaultHeader) (role role' : AeadRole),
      isSupportedFormatVersion header.version = true →
      isSupportedFormatVersion header'.version = true →
      validateGeneration header = .ok ⟨⟩ → validateGeneration header' = .ok ⟨⟩ →
      payloadAad header role = payloadAad header' role' →
        header.SameAuthenticated header' ∧ role = role' ∧
          (header.version = 3 → role = .state → header.generation = header'.generation)) ∧
    (∀ header header' : BackupHeader, backupAad header = backupAad header' → header = header') ∧
    ∀ (header : VaultHeader) (role : AeadRole) (backup : BackupHeader),
      payloadAad header role ≠ backupAad backup := by
  refine ⟨fun header header' role role' hversion hversion' hvalid hvalid' h => ?_,
    fun header header' h => ?_, fun header role backup h => ?_⟩
  · rw [payloadAad_eq, payloadAad_eq] at h
    obtain ⟨-, hfields⟩ := headerDomain_inj hversion hversion' h
    obtain ⟨hsame, hrole⟩ := headerFields_inj hfields
    obtain ⟨rfl, hroles⟩ := roleFields_inj hsame.version hrole
    refine ⟨hsame, rfl, fun hthree hstate => ?_⟩
    have hthree' : header'.version = 3 := hsame.version ▸ hthree
    refine generation_text_inj hthree hthree' hvalid hvalid' ?_
    simpa [roleFields, hthree, hthree', hstate] using hroles
  · rw [backupAad_eq, backupAad_eq] at h
    exact backupFields_inj (congrArg (· ++ []) (List.append_cancel_left h))
  · rw [payloadAad_eq, backupAad_eq] at h
    exact headerDomain_append_ne _ _ _ h

def sampleHeader : VaultHeader where
  magic := vaultMagic
  version := 3
  vaultId := "a\ncreated_at_ms:1:0"
  createdAtMs := -1
  kdf := ⟨"argon2id", 65536, 3, 1, 32⟩
  saltB64 := "c2FsdA=="
  aead := aeadAlgorithm
  generation := some 7

theorem aad_injective_sample :
    payloadAad sampleHeader .state ≠
      payloadAad { sampleHeader with generation := some 8 } .state := by
  intro h
  have hseven : validateHeader sampleHeader = .ok ⟨⟩ := by decide
  have height : validateHeader { sampleHeader with generation := some 8 } = .ok ⟨⟩ := by decide
  obtain ⟨hversion, hvalid⟩ := validateHeader_eq_ok hseven
  obtain ⟨hversion', hvalid'⟩ := validateHeader_eq_ok height
  obtain ⟨-, -, hgeneration⟩ := aad_injective.1 _ _ .state .state hversion hversion' hvalid hvalid' h
  exact absurd (hgeneration rfl rfl) (by decide)

end Jig.Vault

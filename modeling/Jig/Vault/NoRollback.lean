import Jig.Vault.VaultJson
import Jig.Vault.WitnessSteps

/-!
# No rolled-back vault is opened

Homes that share a witness, each with its own files, on which operations run, finish or crash, and
whose files may be replaced by anything in between (`World`, `WorldStep`). The witness is written by
the operations alone. Each of them changes the records only as `Evolves` allows, and an open that
succeeds has compared what it returns with the record of its ID.
-/

namespace Jig.Vault

open Lib
open Lib.Durable (Spec Keeps)

variable {Credential : Type} {libs : VaultLibraries Credential} {home : VaultHome} {r₀ : Records}
  {record : WitnessRecord} {request : InitRequest Credential} {credentials : List Credential}
  {vault : OpenVault} {journal : Journal} {vaultId : String} {verifyWith : Option Bytes}
  {found : Option WitnessRecord} {others : List Credential} {pending : PendingMarker}
  {event : AppendRequest} {candidate : List Char} {auditKey : Bytes}

/-! ### What leaves the records alone -/

/-- A program keeps what holds of the records. -/
abbrev KeepsRecords (P : Records → Prop) {α : Type} (m : Txn α) : Prop :=
  Keeps (fun s : VaultState => P s.records) m

section Frame

variable {P : Records → Prop}

theorem keeps_truncateAuditFile {len : Nat} :
    KeepsRecords P (truncateAuditFile len) :=
  .change fun _ hs => hs

theorem keeps_appendAuditBytes {bytes : Bytes} :
    KeepsRecords P (appendAuditBytes bytes) :=
  .writing fun _ _ hs => hs

theorem keeps_removeJournal : KeepsRecords P removeJournal :=
  .change fun _ hs => hs

theorem keeps_applyAuditTransition {transition : AuditTransition} :
    KeepsRecords P (applyAuditTransition libs home transition verifyWith) := by
  refine .bind .look fun plan => ?_
  match plan with
  | .appended => exact .pure
  | .append true => exact .bind keeps_truncateAuditFile fun _ => keeps_appendAuditBytes
  | .append false => exact keeps_appendAuditBytes

theorem keeps_installCandidate :
    KeepsRecords P (installCandidate libs journal candidate) := by
  refine .bind .look fun install => ?_
  cases install with
  | true => exact .change fun _ hs => hs
  | false => exact .pure

theorem keeps_commitAppend {prepared : PreparedAuditAppend} :
    KeepsRecords P (commitAppend prepared) := by
  refine .bind .look fun _ => ?_
  by_cases htorn : prepared.validLen < prepared.auditLen
  · simp only [htorn, if_true]
    exact .bind keeps_truncateAuditFile fun _ => .bind .look fun _ => keeps_appendAuditBytes
  · simp only [htorn, if_false]
    exact .bind .look fun _ => keeps_appendAuditBytes

theorem keeps_appendUnlocked {request : AppendRequest} :
    KeepsRecords P (appendUnlocked libs home auditKey request) :=
  .bind .look fun _ => keeps_commitAppend

theorem keeps_writeVaultText {contents : List Char} :
    KeepsRecords P (writeVaultText contents) :=
  .bind .look fun _ => .change fun _ hs => hs

theorem keeps_installStaging {leaf : String} {staging : HomeDirectory} :
    KeepsRecords P (installStaging leaf staging) :=
  .change fun _ hs => hs

end Frame

/-! ### What changes them -/

/-- The records have come from `r₀`. -/
def Evolved (libs : VaultLibraries Credential) (r₀ : Records) (s : VaultState) : Prop :=
  Evolves libs r₀ s.records

/-- And a record is the one of its ID. -/
def Held (libs : VaultLibraries Credential) (r₀ : Records) (record : WitnessRecord)
    (s : VaultState) : Prop :=
  Evolves libs r₀ s.records ∧ s.records.lookup (libs.idKey record.vaultId) = some record

def Read (libs : VaultLibraries Credential) (r₀ : Records) (vaultId : String)
    (found : Option WitnessRecord) (s : VaultState) : Prop :=
  Evolves libs r₀ s.records ∧ s.records.lookup (libs.idKey vaultId) = found

/-- However a program ends or crashes, the records have come from `r₀`; where it succeeds, `Q` holds
besides. -/
abbrev Evolving (libs : VaultLibraries Credential) (r₀ : Records) {α : Type}
    (P : VaultState → Prop) (m : Txn α) (Q : α → VaultState → Prop) : Prop :=
  Spec P m (Evolved libs r₀) Q fun _ => Evolved libs r₀

section Change

/-- What leaves the records alone leaves a record that was read in its place. -/
theorem spec_read {α : Type} {m : Txn α}
    (h : ∀ P, KeepsRecords P m) :
    Evolving libs r₀ (Read libs r₀ vaultId found) m fun _ => Read libs r₀ vaultId found :=
  (h fun records => Evolves libs r₀ records ∧ records.lookup (libs.idKey vaultId) = found).conseq
    (fun _ hs => hs) (fun _ => And.left) (fun _ _ hs => hs) fun _ _ => And.left

section

variable (hpending : record.pending = some pending) (hnext : pending.next = journal.next)
  (hvalid : record.validate record.vaultId = .ok ⟨⟩)

include hpending hnext hvalid

/-- A marker is promoted to the checkpoint it names. -/
theorem spec_promote :
    Evolving libs r₀ (Held libs r₀ record) (promote libs journal record)
      fun _ => Evolved libs r₀ := by
  have hstep (s : VaultState) (hs : Held libs r₀ record s) :
      Evolves libs r₀ (setRecord s.records (libs.idKey record.vaultId)
        { record with committed := some journal.next, pending := none }) := by
    rw [← hnext]
    exact hs.1.tail (.promote hs.2 hpending fun c hc =>
      WitnessRecord.generation_lt_of_validate hvalid hpending hc)
  refine .bind (fun _ => Evolved libs r₀) ?_ fun _ => keeps_removeJournal
  exact .bind _ (.look_frame fun _ => And.left)
    fun _ => Spec.change hstep hstep

theorem spec_finishInPlace :
    Evolving libs r₀ (Held libs r₀ record) (finishInPlace libs home journal record verifyWith)
      fun _ => Evolved libs r₀ := by
  unfold finishInPlace
  cases journal.payload with
  | restore payload => exact .look_end fun _ => And.left
  | inPlace candidate audit =>
      exact .bind _ (spec_read fun _ => keeps_applyAuditTransition) fun _ =>
        Spec.bind _ (spec_read fun _ => keeps_installCandidate) fun _ =>
        spec_promote hpending hnext hvalid

theorem spec_finishPendingRestore :
    Evolving libs r₀ (Held libs r₀ record) (finishPendingRestore libs home journal record)
      fun _ => Evolved libs r₀ := by
  unfold finishPendingRestore
  cases journal.payload with
  | inPlace candidate audit => exact .look_end fun _ => And.left
  | restore payload =>
      refine .bind _ (.look_frame fun _ => And.left) fun staging => ?_
      cases staging with
      | none => exact spec_promote hpending hnext hvalid
      | some staging =>
          exact .bind (fun _ => Held libs r₀ record)
            (Spec.change (fun _ hs => hs.1) fun _ hs => hs)
            fun _ => spec_promote hpending hnext hvalid

end

/-- A marker is put where there is none, and what follows it is run. -/
theorem spec_publish_then {α : Type} {f : VaultError → VaultError} {next : Txn α}
    (hid : (found.getD (.new vaultId)).vaultId = vaultId) (hnone : found.bind (·.pending) = none)
    (hnext : ({ found.getD (.new vaultId) with pending := some pending } : WitnessRecord).validate
        vaultId = .ok ⟨⟩ →
      Evolving libs r₀ (Held libs r₀ { found.getD (.new vaultId) with pending := some pending }) next
        fun _ => Evolved libs r₀) :
    Evolving libs r₀ (Read libs r₀ vaultId found)
      (do
        Durable.mapFailure f
          (publishRecord libs { found.getD (.new vaultId) with pending := some pending })
        next)
      fun _ => Evolved libs r₀ := by
  let marked : WitnessRecord := { found.getD (.new vaultId) with pending := some pending }
  have hmarked : marked.vaultId = vaultId := hid
  have hstep (s : VaultState) (hs : Read libs r₀ vaultId found s) :
      Evolves libs r₀ (setRecord s.records (libs.idKey vaultId) marked) :=
    hs.1.tail (.mark hs.2 hid hnone)
  refine .bind
    (fun _ s => marked.validate vaultId = .ok ⟨⟩ ∧ Held libs r₀ marked s)
    (Spec.mapFailure ?_ fun _ _ hs => hs) fun _ => Spec.of_and hnext
  refine .bind
    (fun _ s => marked.validate vaultId = .ok ⟨⟩ ∧ Read libs r₀ vaultId found s)
    (Spec.look (fun s records hs hrecords => ⟨?_, hs⟩) fun _ _ hs _ => hs.1) fun _ => ?_
  · -- a record is validated before it is written
    have hvalid := (then_eq_ok.mp hrecords).1
    rwa [show marked.vaultId = vaultId from hmarked] at hvalid
  · refine .change (fun s hs => ?_) fun s hs => ⟨hs.1, ?_, ?_⟩
    · show Evolves libs r₀ (setRecord s.records (libs.idKey marked.vaultId) marked)
      rw [hmarked]
      exact hstep s hs.2
    · show Evolves libs r₀ (setRecord s.records (libs.idKey marked.vaultId) marked)
      rw [hmarked]
      exact hstep s hs.2
    · exact lookup_setRecord _ _ _

end Change

/-! ### The operations -/

section Operations

theorem spec_readRecord :
    Evolving libs r₀ (Evolved libs r₀) (Durable.look fun s => readRecord libs s.records vaultId)
      fun found s => (found.getD (.new vaultId)).vaultId = vaultId ∧
        Read libs r₀ vaultId found s := by
  refine Spec.look (fun s found hs hread => ⟨?_, hs, lookup_of_readRecord hread⟩)
    fun _ _ hs _ => hs
  cases found with
  | none => rfl
  | some record => exact WitnessRecord.vaultId_eq_of_validate (readRecord_eq_ok_some.mp hread).2.2

theorem keeps_commitInPlace {commit : InPlaceCommit} :
    Keeps (Evolved libs r₀) (commitInPlace libs home commit) := by
  refine Spec.bind _ spec_readRecord.mapFailure_const
    fun found => Spec.of_and fun hid => ?_
  cases hpending : found.bind (·.pending) with
  | some pending =>
      -- another transaction is under way
      simp only [Option.isSome_some, if_true]
      exact .look_end fun _ => And.left
  | none =>
      simp only [Option.isSome_none, Bool.false_eq_true, if_false]
      refine .bind (fun _ => Read libs r₀ commit.vaultId found)
        (Spec.look_frame fun _ => And.left).mapFailure_const fun text => ?_
      refine .bind (fun _ => Read libs r₀ commit.vaultId found)
        (Spec.change (fun _ hs => hs.1) fun _ hs => hs) fun _ => ?_
      -- the journal is there before its marker
      refine spec_publish_then hid hpending fun hvalid => ?_
      refine (spec_finishInPlace rfl rfl ?_).mapFailure_const
      show WitnessRecord.validate _ (found.getD (.new commit.vaultId)).vaultId = _
      rw [hid]
      exact hvalid

theorem keeps_recoverRecordedRestore (hpending : record.pending = some pending)
    (hnext : pending.next = journal.next) (hvalid : record.validate record.vaultId = .ok ⟨⟩) :
    Evolving libs r₀ (Held libs r₀ record)
      (recoverRecordedRestore libs home journal record credentials) fun _ => Evolved libs r₀ := by
  refine .mapFailure_const ?_
  cases journal.payload with
  | inPlace candidate audit => exact .look_end fun _ => And.left
  | restore payload =>
      refine Spec.bind _ (.look_frame fun _ => And.left) fun candidate => ?_
      refine Spec.bind _ (.look_frame fun _ => And.left) fun opened => ?_
      exact Spec.bind _ (spec_finishPendingRestore hpending hnext hvalid) fun _ =>
        Keeps.pure

/-- What a referenced journal and its record are used for. -/
theorem spec_classify {α : Type} {f : TargetJournal → Txn α}
    (hnone : ∀ found, (∀ vaultId record journal, found ≠ .referenced vaultId record journal) →
      Keeps (Evolved libs r₀) (f found))
    (hreferenced : ∀ record journal pending, record.pending = some pending →
      pending.next = journal.next →
      Keeps (Evolved libs r₀) (f (.referenced record.vaultId record journal))) :
    Keeps (Evolved libs r₀) (do
      let found ← Durable.look fun s =>
        (classifyTargetJournal libs s.records home.target.targetKey s.journal).mapError failClosed
      f found) := by
  refine Spec.bind
    (fun found s => (∀ vaultId record journal, found = .referenced vaultId record journal →
      vaultId = record.vaultId ∧
        ∃ pending, record.pending = some pending ∧ pending.next = journal.next) ∧
      Evolved libs r₀ s)
    (Spec.look ?_ fun _ _ hs _ => hs) fun found => Spec.of_and fun hfound => ?_
  · rintro s found hs hclassify
    refine ⟨?_, hs⟩
    rintro vaultId record journal rfl
    exact classifyTargetJournal_eq_referenced (mapError_eq_ok.mp hclassify)
  · cases found with
    | absent | orphan => exact hnone _ fun _ _ _ heq => by cases heq
    | referenced vaultId record journal =>
        obtain ⟨rfl, pending, hpending, hnext⟩ := hfound _ _ _ rfl
        exact hreferenced record journal pending hpending hnext

/-- The record of a referenced journal is read again. -/
theorem spec_checkRecordUnchanged :
    Evolving libs r₀ (Evolved libs r₀)
      (Durable.look (checkRecordUnchanged libs record.vaultId record))
      fun _ s => record.validate record.vaultId = .ok ⟨⟩ ∧ Held libs r₀ record s := by
  refine Spec.look (fun s _ hs hcheck => ?_) fun _ _ hs _ => hs
  obtain ⟨current, hread, hsame⟩ := bind_eq_ok.mp hcheck
  rw [beq_iff_eq.mp (require_eq_ok.mp hsame)] at hread
  obtain ⟨-, hlookup, hvalid⟩ := readRecord_eq_ok_some.mp hread
  exact ⟨hvalid, hs, hlookup⟩

/-- **Recovery.** -/
theorem keeps_recoverPendingKind {requiredKind : Option TransactionKind} :
    Keeps (Evolved libs r₀) (recoverPendingKind libs home credentials requiredKind) := by
  unfold recoverPendingKind
  refine .bind .look fun _ => ?_
  refine spec_classify (fun found hfound => ?_) fun record journal pending hpending hnext => ?_
  · cases found with
    | absent => exact .pure
    | orphan =>
        cases requiredKind with
        | none => exact .bind keeps_removeJournal fun _ => .pure
        | some kind => exact .pure
    | referenced vaultId record journal => exact absurd rfl (hfound _ _ _)
  · show Keeps _ (if requiredKind.any (· ≠ journal.operation) then _ else _)
    split
    · exact .pure
    -- the record may have changed since it was classified
    refine Spec.bind _ spec_checkRecordUnchanged
      fun _ => Spec.of_and fun hvalid => ?_
    cases journal.payload with
    | inPlace candidate audit =>
        refine .bind _ (.look_frame fun _ => And.left) fun _ => ?_
        refine .bind _ (.look_frame fun _ => And.left) fun opened => ?_
        exact .bind _ (spec_finishInPlace hpending hnext hvalid) fun _ =>
          Keeps.pure
    | restore payload =>
        exact .bind _ (keeps_recoverRecordedRestore hpending hnext hvalid) fun _ =>
          Keeps.pure

theorem checkWitnessRecord_eq_ok {checkpoint : Checkpoint} {u : Unit}
    (h : checkWitnessRecord record checkpoint = .ok u) :
    record.pending = none ∧ record.committed = some checkpoint := by
  unfold checkWitnessRecord at h
  cases hpending : record.pending with
  | some pending =>
      rw [hpending] at h
      cases h
  | none =>
      rw [hpending] at h
      cases hcommitted : record.committed with
      | none =>
          rw [hcommitted] at h
          cases h
      | some committed =>
          rw [hcommitted] at h
          obtain ⟨-, h⟩ := ite_error_eq_ok.mp h
          obtain ⟨-, h⟩ := ite_error_eq_ok.mp h
          obtain ⟨hsame, -⟩ := ite_error_eq_ok.mp h
          exact ⟨rfl, congrArg some (not_not.mp hsame).symm⟩

theorem keeps_recoverPending : Keeps (Evolved libs r₀) (recoverPending libs home credentials) :=
  keeps_recoverPendingKind

/-! ### Opening -/

variable {credential : Credential}

/-- A vault was opened from an envelope. -/
def OpenedFrom (libs : VaultLibraries Credential) (vault : OpenVault)
    (envelope : Option Bytes) : Prop :=
  ∃ bytes, envelope = some bytes ∧ vault.envelopeSha256 = sha256Hex libs.toAuditLibraries bytes

theorem openEnvelope_eq_ok {s : VaultState} (h : openEnvelope libs credential s = .ok vault) :
    OpenedFrom libs vault s.envelope := by
  obtain ⟨read, hread, h⟩ := bind_eq_ok.mp h
  cases henvelope : s.envelope with
  | none =>
      rw [henvelope] at hread
      cases hread
      cases h
  | some bytes =>
      rw [henvelope] at hread
      obtain ⟨-, hread⟩ := ite_error_eq_ok.mp hread
      cases hread
      refine ⟨bytes, rfl, ?_⟩
      cases htext : Utf8.decode? bytes with
      | none =>
          simp only [htext] at h
          cases h
      | some text =>
          simp only [htext] at h
          obtain ⟨unlocked, -, h⟩ := bind_eq_ok.mp h
          cases h
          rfl

/-- A vault is at the checkpoint that is committed for its ID, or it is of an older format and the ID
has no record. -/
def Current (libs : VaultLibraries Credential) (vault : OpenVault) (records : Records) : Prop :=
  (vault.v3 = none ∧ records.lookup (libs.idKey vault.vaultId) = none) ∨
    ∃ fields record, vault.v3 = some fields ∧
      records.lookup (libs.idKey vault.vaultId) = some record ∧ record.pending = none ∧
      record.committed = some (vault.checkpoint fields)

theorem spec_verifyWitnessedState {E : Option Bytes → Prop} :
    Evolving libs r₀ (fun s => Evolved libs r₀ s ∧ E s.envelope)
      (verifyWitnessedState libs home vault)
      fun _ s => Evolved libs r₀ s ∧ E s.envelope ∧ Current libs vault s.records := by
  have hread : Evolving libs r₀ (fun s => Evolved libs r₀ s ∧ E s.envelope)
      (Durable.look fun s => readRecord libs s.records vault.vaultId)
      fun found s => Read libs r₀ vault.vaultId found s ∧ E s.envelope :=
    Spec.look (fun s found hs hread => ⟨⟨hs.1, lookup_of_readRecord hread⟩, hs.2⟩)
      fun _ _ hs _ => hs.1
  unfold verifyWitnessedState
  cases hv3 : vault.v3 with
  | none =>
      -- an older format is only opened where its ID has no record
      refine .bind _ hread fun found => ?_
      cases found with
      | none => exact .pure fun s hs => ⟨hs.1.1, hs.2, .inl ⟨hv3, hs.1.2⟩⟩
      | some record =>
          exact .look (fun _ _ _ heq => by cases heq) fun _ _ hs _ => hs.1.1
  | some fields =>
      refine .bind (fun _ s => Evolved libs r₀ s ∧ E s.envelope)
        (Spec.look (fun _ _ hs _ => hs) fun _ _ hs _ => hs.1) fun _ => ?_
      refine .bind _ hread fun found => ?_
      cases found with
      | none =>
          -- the first open enrolls the vault
          refine .mapFailure_const (Spec.bind _ (Spec.look
            (fun _ _ hs _ => hs) fun _ _ hs _ => hs.1.1) fun _ => Spec.change ?_ ?_)
          · exact fun s hs => hs.1.1.tail (.enroll hs.1.2)
          · exact fun s hs => ⟨hs.1.1.tail (.enroll hs.1.2), hs.2,
              .inr ⟨fields, _, hv3, lookup_setRecord _ _ _, rfl, rfl⟩⟩
      | some record =>
          refine .look (fun s _ hs hcheck => ⟨hs.1.1, hs.2, .inr ?_⟩)
            fun _ _ hs _ => hs.1.1
          obtain ⟨hpending, hcommitted⟩ := checkWitnessRecord_eq_ok hcheck
          exact ⟨fields, record, hv3, hs.1.2, hpending, hcommitted⟩

/-- **Opening.** -/
theorem spec_openWitnessed :
    Evolving libs r₀ (Evolved libs r₀) (openWitnessed libs home credential others)
      fun opened s => Evolved libs r₀ s ∧ OpenedFrom libs opened.1 s.envelope ∧
        Current libs opened.1 s.records := by
  refine .bind _ keeps_recoverPending fun recovered => ?_
  refine .bind (fun vault s => Evolved libs r₀ s ∧ OpenedFrom libs vault s.envelope)
    (Spec.look (fun s vault hs hopen => ⟨hs, openEnvelope_eq_ok hopen⟩) fun _ _ hs _ => hs)
    fun vault => ?_
  exact .bind _ spec_verifyWitnessedState fun _ => Spec.pure fun _ hs => hs

theorem keeps_openWitnessed : Keeps (Evolved libs r₀) (openWitnessed libs home credential others) :=
  spec_openWitnessed.post_mono fun _ _ => And.left

theorem keeps_openVault :
    Keeps (Evolved libs r₀) (openVault libs home credential) :=
  .bind keeps_openWitnessed fun _ => .pure

/-! ### Writing -/

theorem keeps_withLock {α : Type} {m : Txn α} (h : Keeps (Evolved libs r₀) m) :
    Keeps (Evolved libs r₀) (withLock libs home m) :=
  .bind .look fun _ => h

/-- An older format is saved without its witness. -/
theorem keeps_saveLegacy {f g : VaultError → VaultError} :
    Keeps (Evolved libs r₀) (do
      Durable.mapFailure f (appendUnlocked libs home auditKey event)
      Durable.mapFailure g (writeVaultText candidate)) :=
  .bind keeps_appendUnlocked.mapFailure fun _ => keeps_writeVaultText.mapFailure

theorem keeps_initResumed : Keeps (Evolved libs r₀) (initResumed libs home request) := by
  refine .bind keeps_recoverPending fun recovered => ?_
  split
  · exact .pure
  · exact .bind .look fun _ => .bind .look fun _ => .bind .look fun _ => .pure

theorem keeps_initWithMaterial : Keeps (Evolved libs r₀) (initWithMaterial libs home request) :=
  .bind .look fun _ => .bind .look fun _ => .bind .look fun _ => keeps_commitInPlace

theorem keeps_init : Keeps (Evolved libs r₀) (init libs home request) := by
  refine keeps_withLock (.bind keeps_initResumed fun resumed => ?_)
  cases resumed with
  | true => exact .pure
  | false =>
      refine .bind .look fun directory => ?_
      cases directory with
      | some _ => exact keeps_initWithMaterial
      | none =>
          -- the new home is locked and looked at again
          refine .bind (.change fun _ hs => hs) fun _ =>
            keeps_withLock (.bind keeps_initResumed fun resumed => ?_)
          cases resumed with
          | true => exact .pure
          | false => exact keeps_initWithMaterial

theorem keeps_commitState {sealing : Sealing} :
    Keeps (Evolved libs r₀) (commitState libs home vault event sealing) := by
  refine .bind .look fun staged => .bind .look fun candidate => .bind .look fun _ => ?_
  cases staged with
  | some _ => exact keeps_commitInPlace
  | none => exact keeps_saveLegacy

theorem keeps_edit {request : EditRequest Credential} :
    Keeps (Evolved libs r₀) (edit libs home request) := by
  refine keeps_withLock (.bind keeps_openVault fun vault => .bind .look fun _ => .bind .look fun _ =>
    .bind .look fun outcome => ?_)
  obtain ⟨commits, changes⟩ := outcome
  dsimp only
  split
  · exact .pure
  · split
    · exact keeps_appendUnlocked.mapFailure
    · exact keeps_commitState

theorem keeps_migrate {request : MigrateRequest Credential} :
    Keeps (Evolved libs r₀) (migrate libs home request) := by
  unfold migrate
  split
  · refine keeps_withLock (.bind keeps_openVault fun vault => .bind .look fun _ => ?_)
    split
    · exact .pure
    · split
      · exact .fail
      · dsimp only
        split
        · exact .bind .look fun _ => .bind .look fun _ => .bind .look fun _ => keeps_commitInPlace
        · exact .bind .look fun _ => .bind .look fun _ => keeps_saveLegacy
  · exact .fail

theorem keeps_changePassphrase {request : PassphraseRequest Credential} :
    Keeps (Evolved libs r₀) (changePassphrase libs home request) := by
  unfold changePassphrase
  cases request.policy with
  | error policyError =>
      -- a change that was under way is finished all the same
      refine keeps_withLock (.bind keeps_recoverPendingKind.mapFailure fun recovered => ?_)
      split
      · exact .pure
      · exact .fail
  | ok _ =>
      refine keeps_withLock (.bind keeps_recoverPending fun recovered => ?_)
      split
      · exact .pure
      · refine .bind keeps_openVault fun vault => .bind .look fun _ => ?_
        split
        · exact .fail
        · refine .bind .look fun staged => .bind .look fun candidate => .bind .look fun _ => ?_
          cases staged with
          | some _ => exact keeps_commitInPlace
          | none => exact keeps_saveLegacy

/-! ### Restores -/

/-- A program on a staging sees and changes the records of the home. -/
theorem spec_onStaging {α : Type} {leaf : String} {m : Txn α} {Q : α → Records → Prop}
    (h : Evolving libs r₀ (Evolved libs r₀) m fun a s => Q a s.records) :
    Evolving libs r₀ (Evolved libs r₀) (onStaging leaf m) fun a s => Q a s.records :=
  Spec.zoom fun _ ht => h.pre_mono fun _ hs => hs ▸ ht

variable {request : RestoreRequest Credential}

theorem keeps_createStaging :
    Keeps (Evolved libs r₀) (createStaging home request) :=
  .bind .look fun _ => .bind .look fun _ => .change fun _ hs => hs

theorem keeps_writeStaged :
    Keeps (Evolved libs r₀) (writeStaged request) :=
  spec_onStaging (Q := fun _ records => Evolves libs r₀ records)
    (Keeps.bind (.writing fun _ _ hs => hs) fun _ => .writing fun _ _ hs => hs)

/-- The record a restore was planned over has no marker, and is still there. -/
def Planned (libs : VaultLibraries Credential) (r₀ : Records) (vaultId : String)
    (found : Option WitnessRecord) (records : Records) : Prop :=
  ((found.getD (.new vaultId)).vaultId = vaultId ∧ found.bind (·.pending) = none) ∧
    Evolves libs r₀ records ∧ records.lookup (libs.idKey vaultId) = found

theorem spec_prepareRestoreCandidate :
    Evolving libs r₀ (Evolved libs r₀) (prepareRestoreCandidate libs request)
      fun plan s => Planned libs r₀ request.sourceVaultId plan.2 s.records := by
  refine .bind _ Keeps.look fun _ => ?_
  refine .bind _ Keeps.look fun vault => ?_
  refine .bind _ Keeps.look fun _ => ?_
  refine .bind _ Keeps.look fun _ => ?_
  refine .bind _ spec_readRecord fun found => Spec.of_and fun hid => ?_
  cases hpending : found.bind (·.pending) with
  | some pending =>
      simp only [Option.isSome_some, if_true]
      exact .look (fun _ _ _ heq => by cases heq) fun _ _ hs _ => hs.1
  | none =>
      simp only [Option.isSome_none, Bool.false_eq_true, if_false]
      refine .bind _ (.look_frame fun _ => And.left) fun generation => ?_
      refine .bind _ (.look_frame fun _ => And.left) fun prepared => ?_
      refine .bind _ (.look_frame fun _ => And.left) fun candidate => ?_
      refine .bind _ (.look_frame fun _ => And.left) fun _ => ?_
      refine .bind _ (spec_read fun _ => keeps_commitAppend) fun _ => ?_
      refine .bind _ (spec_read fun _ => keeps_writeVaultText) fun _ => ?_
      exact .pure fun s hs => ⟨⟨hid, hpending⟩, hs⟩

theorem spec_stageRestore :
    Evolving libs r₀ (Evolved libs r₀) (stageRestore libs request)
      fun plan s => Planned libs r₀ request.sourceVaultId plan.2.1 s.records := by
  have hstaged : Evolving libs r₀ (Evolved libs r₀)
      (onStaging request.stagingLeaf (prepareRestoreCandidate libs request))
      fun plan s => Planned libs r₀ request.sourceVaultId plan.2 s.records :=
    spec_onStaging (Q := fun (plan : Checkpoint × Option WitnessRecord) =>
      Planned libs r₀ request.sourceVaultId plan.2)
      spec_prepareRestoreCandidate
  refine Spec.onFailure (Spec.bind _ keeps_writeStaged fun _ =>
    Spec.bind _ hstaged fun plan => Spec.bind
      (fun _ s => Planned libs r₀ request.sourceVaultId plan.2 s.records)
      (Spec.look (fun _ _ hs _ => hs) fun _ _ hs _ => hs.2.1) fun audit =>
    Spec.pure fun _ hs => hs) (fun _ _ hs => hs) fun _ _ hs => hs

theorem keeps_restoreTransactional :
    Keeps (Evolved libs r₀) (restoreTransactional libs home request) := by
  refine .bind keeps_createStaging fun _ => ?_
  refine Spec.bind _ spec_stageRestore fun plan => ?_
  obtain ⟨next, found, audit⟩ := plan
  refine .of_and fun hplan => ?_
  refine .bind _ (.look_frame fun _ => And.left) fun text => ?_
  refine Spec.bind (fun _ => Read libs r₀ request.sourceVaultId found)
    (Spec.change (fun _ hs => hs.1) fun _ hs => hs) fun _ => ?_
  refine spec_publish_then hplan.1 hplan.2 fun hvalid => ?_
  refine (spec_finishPendingRestore rfl rfl ?_).mapFailure_const
  show WitnessRecord.validate _ (found.getD (.new request.sourceVaultId)).vaultId = _
  rw [hplan.1]
  exact hvalid

theorem keeps_finalizeBackupRestore :
    Keeps (Evolved libs r₀) (finalizeBackupRestore libs request) :=
  keeps_withLock (.bind keeps_openVault.mapFailure fun _ => .bind .look fun _ =>
    .bind .look fun _ => .bind keeps_appendUnlocked.mapFailure fun _ => .look)

theorem keeps_restoreLegacy :
    Keeps (Evolved libs r₀) (restoreLegacy libs home request) := by
  have hfinalize : Keeps (Evolved libs r₀)
      (onStaging request.stagingLeaf (finalizeBackupRestore libs request)) :=
    spec_onStaging (Q := fun _ records => Evolves libs r₀ records) keeps_finalizeBackupRestore
  refine .bind .look fun _ => .bind keeps_createStaging fun _ => .onFailure ?_ fun _ hs => hs
  exact .bind keeps_writeStaged fun _ => .bind hfinalize fun _ => .bind .look fun _ =>
    .bind .look fun _ => .bind .look fun _ => .bind .look fun _ => keeps_installStaging

theorem keeps_restore :
    Keeps (Evolved libs r₀) (restore libs home request) := by
  have hresume : Keeps (Evolved libs r₀) (resumeMatchingRetry libs home request) := by
    unfold resumeMatchingRetry
    refine spec_classify (fun found hfound => ?_) fun record journal pending hpending hnext => ?_
    · cases found with
      | absent => exact .pure
      | orphan => exact .bind keeps_removeJournal fun _ => .pure
      | referenced vaultId record journal => exact absurd rfl (hfound _ _ _)
    · refine Spec.bind _ spec_checkRecordUnchanged
        fun _ => Spec.of_and fun hvalid => ?_
      cases journal.payload with
      | inPlace candidate audit =>
          exact .look_end fun _ => And.left
      | restore payload =>
          dsimp only
          split
          · exact .look_end fun _ => And.left
          · exact .bind _ (keeps_recoverRecordedRestore hpending hnext hvalid) fun _ =>
              Keeps.pure
  refine .bind hresume fun resumed => ?_
  cases resumed with
  | true => exact .pure
  | false =>
      refine .bind .look fun _ => .bind .look fun record => ?_
      split
      · exact keeps_restoreLegacy
      · exact keeps_restoreTransactional

end Operations

/-! ### Runs -/

structure HomeState where
  journal : Option Bytes
  directory : Option (Nat × Nat)
  audit : Option Bytes
  envelope : Option Bytes
  stagings : List (String × HomeDirectory)

/-- Homes that share a witness, by target key. -/
structure World where
  records : Records
  homes : String → HomeState

/-- What an operation on a home sees. -/
def World.view (w : World) (home : VaultHome) : VaultState where
  records := w.records
  journal := (w.homes home.target.targetKey).journal
  directory := (w.homes home.target.targetKey).directory
  audit := (w.homes home.target.targetKey).audit
  envelope := (w.homes home.target.targetKey).envelope
  stagings := (w.homes home.target.targetKey).stagings

/-- The world after an operation left a home in a state. -/
def World.put (w : World) (home : VaultHome) (s : VaultState) : World where
  records := s.records
  homes key :=
    if key = home.target.targetKey then
      { journal := s.journal, directory := s.directory, audit := s.audit, envelope := s.envelope
        stagings := s.stagings }
    else
      w.homes key

/-- What may be run on a home. -/
inductive Operation (Credential : Type) where
  | init (request : InitRequest Credential)
  | edit (request : EditRequest Credential)
  | migrate (request : MigrateRequest Credential)
  | changePassphrase (request : PassphraseRequest Credential)
  | restore (request : RestoreRequest Credential)
  | recover (credentials : List Credential)
  | opening (credential : Credential) (others : List Credential)

def Operation.run (libs : VaultLibraries Credential) (home : VaultHome) :
    Operation Credential → Txn Unit
  | .init request => Vault.init libs home request
  | .edit request => Vault.edit libs home request
  | .migrate request => Vault.migrate libs home request
  | .changePassphrase request => Vault.changePassphrase libs home request
  | .restore request => Vault.restore libs home request
  | .recover credentials => withLock libs home do
      let _ ← recoverPending libs home credentials
      pure ⟨⟩
  | .opening credential others => withLock libs home do
      let _ ← openWitnessed libs home credential others
      pure ⟨⟩

/-- An operation ends or crashes, or the files of a home are replaced. The journals are in the
witness. -/
inductive WorldStep (libs : VaultLibraries Credential) (w : World) : World → Prop
  | ends (home : VaultHome) (operation : Operation Credential) :
      WorldStep libs w (w.put home (operation.run libs home (w.view home)).final)
  | crashes (home : VaultHome) (operation : Operation Credential) {s : VaultState}
      (hs : s ∈ (operation.run libs home).crashStates (w.view home)) :
      WorldStep libs w (w.put home s)
  | replaces (home : VaultHome) (directory : Option (Nat × Nat)) (audit envelope : Option Bytes)
      (stagings : List (String × HomeDirectory)) :
      WorldStep libs w
        (w.put home { w.view home with directory, audit, envelope, stagings })

def WorldRun (libs : VaultLibraries Credential) : World → World → Prop :=
  Relation.ReflTransGen (WorldStep libs)

/-- **Every operation** lets the records evolve. -/
theorem Operation.keeps_run {operation : Operation Credential} :
    Keeps (Evolved libs r₀) (operation.run libs home) := by
  cases operation with
  | init request => exact keeps_init
  | edit request => exact keeps_edit
  | migrate request => exact keeps_migrate
  | changePassphrase request => exact keeps_changePassphrase
  | restore request => exact keeps_restore
  | recover credentials => exact keeps_withLock (.bind keeps_recoverPending fun _ => .pure)
  | opening credential others => exact keeps_withLock (.bind keeps_openWitnessed fun _ => .pure)

/-- A step changes the records only as they evolve. -/
theorem WorldStep.evolves {w w' : World} (h : WorldStep libs w w') :
    Evolves libs w.records w'.records := by
  have hstart (home : VaultHome) : Evolved libs w.records (w.view home) := .refl
  cases h with
  | ends home operation =>
      have hkeeps : Keeps (Evolved libs w.records) (operation.run libs home) :=
        Operation.keeps_run
      show Evolved libs w.records _
      cases hresult : (operation.run libs home (w.view home)).result with
      | ok a => exact hkeeps.ok _ a (hstart home) hresult
      | error e => exact hkeeps.error _ e (hstart home) hresult
  | crashes home operation hs =>
      exact Spec.crashStates Operation.keeps_run (fun _ hs => hs) (hstart home) hs
  | replaces home directory audit envelope stagings =>
      -- whoever replaces files does not reach the witness
      exact .refl

theorem WorldRun.evolves {w w' : World} (h : WorldRun libs w w') :
    Evolves libs w.records w'.records := by
  induction h with
  | refl => exact .refl
  | tail _ hstep ih => exact ih.trans hstep.evolves

/-- **No rolled-back or forked vault is opened.** In every run of operations, crashes and replaced
files, from a witness in which every record is under its own key: an ID has one marker at most; its
committed checkpoint gives way only to later generations, and its marker only to the checkpoint that
the marker names, or one that is later still; and an open that succeeds for an ID with a record
returns the committed checkpoint of the record, which is of format 3. -/
theorem no_rolled_back_vault_opened {w₀ w w' : World} (hkeyed : Keyed libs w₀.records)
    (hrun : WorldRun libs w₀ w) (hlater : WorldRun libs w w') :
    (∀ vaultId, (w.records.filter fun entry =>
      entry.2.vaultId = vaultId ∧ entry.2.pending.isSome).length ≤ 1) ∧
    (∀ vaultId c, committedAt w.records (libs.idKey vaultId) = some c →
      ∃ c', committedAt w'.records (libs.idKey vaultId) = some c' ∧
        (c' = c ∨ c.generation < c'.generation)) ∧
    (∀ vaultId p, pendingAt w.records (libs.idKey vaultId) = some p →
      w'.records.lookup (libs.idKey vaultId) = w.records.lookup (libs.idKey vaultId) ∨
      (∀ c ∈ committedAt w.records (libs.idKey vaultId), c.generation < p.next.generation) ∧
      ∃ c', committedAt w'.records (libs.idKey vaultId) = some c' ∧
        (c' = p.next ∨ p.next.generation < c'.generation)) ∧
    ∀ (home : VaultHome) (credential : Credential) (others : List Credential) (vault : OpenVault)
      (recovered : Option Recovered),
      (openWitnessed libs home credential others (w.view home)).result = .ok (vault, recovered) →
      w.records.lookup (libs.idKey vault.vaultId) ≠ none →
      ∃ fields record bytes, vault.v3 = some fields ∧ vault.formatVersion = 3 ∧
        (openWitnessed libs home credential others (w.view home)).final.envelope = some bytes ∧
        vault.envelopeSha256 = sha256Hex libs.toAuditLibraries bytes ∧
        (openWitnessed libs home credential others (w.view home)).final.records.lookup
          (libs.idKey vault.vaultId) = some record ∧
        record.pending = none ∧
        record.committed = some
          { generation := fields.generation
            envelopeSha256 := vault.envelopeSha256
            mutationAuditMac := fields.mutationAuditMac } := by
  refine ⟨(hrun.evolves.keyed hkeyed).pending_unique,
    fun vaultId c => hlater.evolves.committedAt,
    fun vaultId p => hlater.evolves.pendingAt, ?_⟩
  intro home credential others vault recovered hopen hexists
  have hspec : Spec (Evolved libs w.records)
      (openWitnessed libs home credential others) _ _ _ := spec_openWitnessed
  obtain ⟨hevolves, ⟨bytes, henvelope, hsha⟩, hrecord⟩ := hspec.ok (w.view home) _ .refl hopen
  obtain ⟨-, hnone⟩ | ⟨fields, record, hv3, hlookup, hpending, hcommitted⟩ := hrecord
  · -- a record is never lost
    obtain ⟨record, hrecord⟩ := hevolves.exists_lookup (Option.ne_none_iff_exists'.mp hexists)
    rw [hnone] at hrecord
    cases hrecord
  · refine ⟨fields, record, bytes, hv3, vault.isSome_v3.mp ?_, henvelope, hsha, hlookup, hpending,
      hcommitted⟩
    rw [hv3]
    rfl

end Jig.Vault

namespace Jig.Vault.SampleOpen

open Lib
open SampleLog (key first)
open SampleVault (home envelope)

/-- The first generation of a vault, whose log has the event of its initialization. -/
def opened : UnlockedEnvelope where
  vaultId := "v"
  formatVersion := 3
  v3 := some { generation := 1, mutationAuditMac := first.mac }
  auditKey := key
  isSome_v3 := by simp

def libs : VaultLibraries String := .ofTables [first] [] [(envelope, opened)]

def audit : Bytes := Utf8.encode (first.line ++ ['\n'])

def record : WitnessRecord := SampleVault.record first.mac

def world : World where
  records := [("v", record)]
  homes _ :=
    { journal := none, directory := some (1, 3), audit := some audit
      envelope := some (Text.bytes envelope), stagings := [] }

theorem keyed_world : Keyed libs world.records where
  nodup := List.nodup_singleton _
  key_eq := by
    intro entry hentry
    cases List.mem_singleton.mp hentry
    rfl

/-- A copy is opened after the files of its home were taken away and put back. -/
theorem no_rolled_back_vault_opened_copy :
    ∃ w vault recovered, WorldRun libs world w ∧
      (openWitnessed libs home "passphrase" [] (w.view home)).result = .ok (vault, recovered) ∧
      vault.formatVersion = 3 := by
  let taken : World := world.put home
    { world.view home with directory := none, audit := none, envelope := none, stagings := [] }
  let back : World := taken.put home
    { taken.view home with
      directory := some (1, 3), audit := some audit, envelope := some (Text.bytes envelope)
      stagings := [] }
  have hrun : WorldRun libs world back :=
    .tail (.tail .refl (.replaces home none none none []))
      (.replaces home (some (1, 3)) (some audit) (some (Text.bytes envelope)) [])
  have hresult : isOkAnd (openWitnessed libs home "passphrase" [] (back.view home)).result
      (·.1.vaultId = "v") = true := by decide +kernel
  obtain ⟨⟨vault, recovered⟩, hopen, hid⟩ := exists_of_isOkAnd hresult
  obtain ⟨fields, found, bytes, -, hformat, -⟩ :=
    (no_rolled_back_vault_opened keyed_world hrun .refl).2.2.2 home "passphrase" [] vault
      recovered hopen (by rw [of_decide_eq_true hid]; decide +kernel)
  exact ⟨back, vault, recovered, hrun, hopen, hformat⟩

end Jig.Vault.SampleOpen

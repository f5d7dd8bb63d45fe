import Jig.Vault.AuditAppend
import Jig.Vault.Transaction

/-!
# What the witness answers

Reading, replacing and scanning the records of a witness in which every record is valid and stored
under its own key, and classifying the journal of a target there.
-/

namespace Jig.Vault

open Lib

variable {Credential : Type} {libs : VaultLibraries Credential} {records : Records}
  {pending : PendingMarker}

@[simp] theorem require_eq_ok {check : Bool} {error : VaultError} {u : Unit} :
    require check error = .ok u ↔ check = true := by
  unfold require
  cases check with
  | true => simp
  | false => simp

/-! ### Records -/

def GoodRecords (libs : VaultLibraries Credential) (records : Records) : Prop :=
  ∀ entry ∈ records, entry.2.validate entry.2.vaultId = .ok ⟨⟩ ∧ libs.idKey entry.2.vaultId = entry.1

@[simp] theorem lookup_setRecord (records : Records) (key : String) (record : WitnessRecord) :
    (setRecord records key record).lookup key = some record := by
  simp [setRecord]

theorem GoodRecords.set (h : GoodRecords libs records) (record : WitnessRecord)
    (hvalid : record.validate record.vaultId = .ok ⟨⟩) :
    GoodRecords libs (setRecord records (libs.idKey record.vaultId) record) := by
  refine List.forall_mem_cons.mpr ⟨⟨hvalid, rfl⟩, fun entry hentry => ?_⟩
  exact h entry (List.mem_of_mem_filter hentry)

variable {vaultId : String} {record : WitnessRecord}

theorem readRecord_eq_ok_some :
    readRecord libs records vaultId = .ok (some record) ↔
      validateVaultId vaultId = .ok ⟨⟩ ∧ records.lookup (libs.idKey vaultId) = some record ∧
        record.validate vaultId = .ok ⟨⟩ := by
  unfold readRecord
  rw [then_eq_ok]
  refine and_congr_right fun _ => ?_
  cases hlookup : records.lookup (libs.idKey vaultId) with
  | none => simp
  | some found =>
      simp only [then_eq_ok, mapError_eq_ok, Except.ok.injEq, Option.some.injEq]
      constructor
      · rintro ⟨hvalid, rfl⟩
        exact ⟨rfl, hvalid⟩
      · rintro ⟨rfl, hvalid⟩
        exact ⟨hvalid, rfl⟩

theorem lookup_of_readRecord {found : Option WitnessRecord}
    (h : readRecord libs records vaultId = .ok found) :
    records.lookup (libs.idKey vaultId) = found := by
  unfold readRecord at h
  obtain ⟨-, h⟩ := then_eq_ok.mp h
  cases hlookup : records.lookup (libs.idKey vaultId) with
  | none =>
      rw [hlookup] at h
      exact Except.ok.inj h
  | some record =>
      rw [hlookup] at h
      exact Except.ok.inj (then_eq_ok.mp h).2

theorem WitnessRecord.vaultId_eq_of_validate (h : record.validate vaultId = .ok ⟨⟩) :
    record.vaultId = vaultId :=
  beq_iff_eq.mp (require_eq_ok.mp (then_eq_ok.mp (then_eq_ok.mp h).2).1)

/-- A valid marker is later than the checkpoint beside it. -/
theorem WitnessRecord.generation_lt_of_validate (h : record.validate vaultId = .ok ⟨⟩)
    (hpending : record.pending = some pending) {c : Checkpoint} (hc : record.committed = some c) :
    c.generation < pending.next.generation := by
  unfold WitnessRecord.validate at h
  obtain ⟨-, h⟩ := then_eq_ok.mp h
  obtain ⟨-, h⟩ := then_eq_ok.mp h
  obtain ⟨-, h⟩ := then_eq_ok.mp h
  rw [hc, hpending] at h
  obtain ⟨-, h⟩ := then_eq_ok.mp h
  obtain ⟨-, h⟩ := then_eq_ok.mp h
  exact of_decide_eq_true (require_eq_ok.mp h)

/-! ### The scan -/

theorem readRecordForScan_eq_ok {entry : String × WitnessRecord}
    (hvalid : entry.2.validate entry.2.vaultId = .ok ⟨⟩)
    (hkey : libs.idKey entry.2.vaultId = entry.1) :
    readRecordForScan libs entry = .ok entry.2 := by
  unfold readRecordForScan
  rw [hvalid, hkey]
  simp [require, Except.mapError, bind, Except.bind]

/-- At most two records whose marker names the target. -/
theorem scanPendingFor_eq (h : GoodRecords libs records) (targetKey : String) :
    scanPendingFor libs records targetKey =
      .ok (((records.map Prod.snd).filter (·.namesTarget targetKey)).take 2) := by
  suffices hfold : ∀ naming : List WitnessRecord,
      records.foldlM
        (fun naming entry => do
          let record ← readRecordForScan libs entry
          Except.ok (if record.namesTarget targetKey && naming.length < 2 then naming ++ [record]
            else naming))
        naming =
      .ok (naming ++
        ((records.map Prod.snd).filter (·.namesTarget targetKey)).take (2 - naming.length)) from
    hfold []
  intro naming
  induction records generalizing naming with
  | nil => simp [pure, Except.pure]
  | cons entry rest ih =>
      rw [GoodRecords, List.forall_mem_cons] at h
      rw [List.foldlM_cons, readRecordForScan_eq_ok h.1.1 h.1.2]
      refine (ih h.2 _).trans ?_
      cases hnames : entry.2.namesTarget targetKey with
      | false => simp [hnames]
      | true =>
          by_cases hroom : naming.length < 2
          · have htwo : 2 - naming.length = 2 - (naming.length + 1) + 1 := by omega
            simp [hnames, hroom, htwo]
          · have hzero : 2 - naming.length = 0 := by omega
            simp [hroom, hzero]

/-! ### Classification -/

variable {targetKey : String} {journal : Option Bytes}

def Unnamed (records : Records) (targetKey : String) : Prop :=
  ∀ entry ∈ records, entry.2.namesTarget targetKey = false

/-- A journal that no marker names is left over. -/
theorem classifyTargetJournal_of_unnamed (h : GoodRecords libs records)
    (hunnamed : Unnamed records targetKey) {found : Option (Journal × String)}
    (hread : readJournal libs targetKey journal = .ok found) :
    classifyTargetJournal libs records targetKey journal =
      .ok (if journal.isSome then .orphan else .absent) := by
  have hnaming : (records.map Prod.snd).filter (·.namesTarget targetKey) = [] := by
    rw [List.filter_eq_nil_iff, List.forall_mem_map]
    intro entry hentry
    rw [hunnamed entry hentry]
    exact Bool.false_ne_true
  have hscan := scanPendingFor_eq h targetKey
  rw [hnaming] at hscan
  unfold classifyTargetJournal
  rw [hread, hscan]
  cases journal with
  | none =>
      cases hread
      rfl
  | some bytes =>
      cases found with
      | none =>
          exfalso
          unfold readJournal at hread
          obtain ⟨-, hread⟩ := then_eq_ok.mp hread
          cases hparse : libs.parseJournal bytes with
          | error place => simp [hparse] at hread
          | ok journal =>
              simp only [hparse, then_eq_ok, Except.ok.injEq] at hread
              exact absurd hread.2.2 (by simp)
      | some found => rfl

/-- A journal that the only marker for the target binds. -/
theorem classifyTargetJournal_of_named (h : GoodRecords libs records) {found : Journal}
    {digest : String} (hnaming : (records.map Prod.snd).filter (·.namesTarget targetKey) = [record])
    (hpending : record.pending = some pending)
    (hread : readJournal libs targetKey journal = .ok (some (found, digest)))
    (hdigest : pending.journalSha256 = digest) (hnext : pending.next = found.next)
    (hoperation : pending.operation = found.operation) (hid : found.vaultId = record.vaultId) :
    classifyTargetJournal libs records targetKey journal =
      .ok (.referenced record.vaultId record found) := by
  have hscan := scanPendingFor_eq h targetKey
  rw [hnaming] at hscan
  unfold classifyTargetJournal
  rw [hread, hscan]
  simp [hpending, hdigest, hnext, hoperation, hid, bind, Except.bind]

/-- What a referenced journal says of the record that names it. -/
theorem classifyTargetJournal_eq_referenced {found : Journal}
    (h : classifyTargetJournal libs records targetKey journal =
      .ok (.referenced vaultId record found)) :
    vaultId = record.vaultId ∧
      ∃ pending, record.pending = some pending ∧ pending.next = found.next := by
  unfold classifyTargetJournal at h
  obtain ⟨read, -, h⟩ := bind_eq_ok.mp h
  obtain ⟨naming, -, h⟩ := bind_eq_ok.mp h
  cases read with
  | none =>
      simp only at h
      split at h
      · cases h
      · cases h
  | some read =>
      obtain ⟨found', digest⟩ := read
      obtain ⟨-, h⟩ := ite_error_eq_ok.mp h
      cases hlast : naming.getLast? with
      | none =>
          rw [hlast] at h
          cases h
      | some record' =>
          rw [hlast] at h
          cases hpending : record'.pending with
          | none =>
              simp only [hpending] at h
              cases h
          | some pending =>
              simp only [hpending] at h
              obtain ⟨hmatches, h⟩ := ite_error_eq_ok.mp h
              cases h
              rw [not_or, not_or, not_not] at hmatches
              exact ⟨rfl, pending, hpending, not_not.mp hmatches.2.1⟩

end Jig.Vault

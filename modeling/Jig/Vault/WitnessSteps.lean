import Jig.Vault.Operations
import Jig.Vault.WitnessExact

/-!
# How the witness changes

Three things happen to the records of a witness: a vault is enrolled where its ID has none, a
pending marker is put where there is none, and a marker is promoted to the checkpoint it names.
Whatever an operation does, and wherever it crashes, it does these (`Evolves`): no marker is
replaced, no record is lost, and a committed checkpoint only gives way to one of a later generation.
-/

namespace Jig.Vault

open Lib

variable {Credential : Type} {libs : VaultLibraries Credential}

/-! ### The steps -/

/-- One change of the records. -/
inductive WitnessStep (libs : VaultLibraries Credential) : Records → Records → Prop
  | enroll {records : Records} {vaultId : String} {checkpoint : Checkpoint}
      (hfree : records.lookup (libs.idKey vaultId) = none) :
      WitnessStep libs records (setRecord records (libs.idKey vaultId)
        { WitnessRecord.new vaultId with committed := some checkpoint })
  | mark {records : Records} {vaultId : String} {found : Option WitnessRecord}
      {pending : PendingMarker} (hfound : records.lookup (libs.idKey vaultId) = found)
      (hid : (found.getD (.new vaultId)).vaultId = vaultId) (hnone : found.bind (·.pending) = none) :
      WitnessStep libs records (setRecord records (libs.idKey vaultId)
        { found.getD (.new vaultId) with pending := some pending })
  | promote {records : Records} {record : WitnessRecord} {pending : PendingMarker}
      (hfound : records.lookup (libs.idKey record.vaultId) = some record)
      (hpending : record.pending = some pending)
      (hlater : ∀ c ∈ record.committed, c.generation < pending.next.generation) :
      WitnessStep libs records (setRecord records (libs.idKey record.vaultId)
        { record with committed := some pending.next, pending := none })

def Evolves (libs : VaultLibraries Credential) : Records → Records → Prop :=
  Relation.ReflTransGen (WitnessStep libs)

theorem lookup_setRecord_ne {records : Records} {key key' : String} {record : WitnessRecord}
    (hne : key' ≠ key) : (setRecord records key record).lookup key' = records.lookup key' := by
  have hrest : (records.filter (·.1 ≠ key)).lookup key' = records.lookup key' := by
    induction records with
    | nil => rfl
    | cons entry rest ih =>
        by_cases hkey : entry.1 = key
        · have hskip : (key' == entry.1) = false := by simpa [hkey] using hne
          rw [List.filter_cons_of_neg (by simpa using hkey), ih, List.lookup_cons, hskip]
        · rw [List.filter_cons_of_pos (by simpa using hkey), List.lookup_cons, List.lookup_cons, ih]
  rw [setRecord, List.lookup_cons, hrest, beq_false_of_ne hne]

/-- What a step does to the record under a key: nothing, or one of the three. -/
theorem WitnessStep.lookup_cases {records records' : Records} (h : WitnessStep libs records records')
    (key : String) :
    records'.lookup key = records.lookup key ∨
      (records.lookup key = none ∧ ∃ record, records'.lookup key = some record) ∨
      (∃ record pending, records.lookup key = some record ∧ record.pending = none ∧
        records'.lookup key = some { record with pending := some pending }) ∨
      ∃ record pending, records.lookup key = some record ∧ record.pending = some pending ∧
        (∀ c ∈ record.committed, c.generation < pending.next.generation) ∧
        records'.lookup key =
          some { record with committed := some pending.next, pending := none } := by
  cases h with
  | @enroll vaultId checkpoint hfree =>
      by_cases hkey : key = libs.idKey vaultId
      · subst hkey
        exact .inr (.inl ⟨hfree, _, lookup_setRecord _ _ _⟩)
      · exact .inl (lookup_setRecord_ne hkey)
  | @mark vaultId found pending hfound _ hnone =>
      by_cases hkey : key = libs.idKey vaultId
      · subst hkey
        cases found with
        | none => exact .inr (.inl ⟨hfound, _, lookup_setRecord _ _ _⟩)
        | some record =>
            exact .inr (.inr (.inl ⟨record, pending, hfound, hnone, lookup_setRecord _ _ _⟩))
      · exact .inl (lookup_setRecord_ne hkey)
  | @promote record pending hfound hpending hlater =>
      by_cases hkey : key = libs.idKey record.vaultId
      · subst hkey
        exact .inr (.inr (.inr
          ⟨record, pending, hfound, hpending, hlater, lookup_setRecord _ _ _⟩))
      · exact .inl (lookup_setRecord_ne hkey)

/-! ### Whole histories -/

section History

variable {records records' : Records} {key : String}

/-- A record is never lost. -/
theorem Evolves.exists_lookup (h : Evolves libs records records')
    (hsome : ∃ record, records.lookup key = some record) :
    ∃ record, records'.lookup key = some record := by
  induction h with
  | refl => exact hsome
  | tail _ hstep ih =>
      obtain ⟨record, hrecord⟩ := ih
      obtain heq | ⟨-, hsome'⟩ | ⟨_, _, -, -, heq⟩ | ⟨_, _, -, -, -, heq⟩ := hstep.lookup_cases key
      · exact ⟨record, heq.trans hrecord⟩
      · exact hsome'
      · exact ⟨_, heq⟩
      · exact ⟨_, heq⟩

def committedAt (records : Records) (key : String) : Option Checkpoint :=
  (records.lookup key).bind (·.committed)

def pendingAt (records : Records) (key : String) : Option PendingMarker :=
  (records.lookup key).bind (·.pending)

theorem WitnessStep.committedAt (h : WitnessStep libs records records') {c : Checkpoint}
    (hc : Vault.committedAt records key = some c) :
    ∃ c', Vault.committedAt records' key = some c' ∧ (c' = c ∨ c.generation < c'.generation) := by
  unfold Vault.committedAt at hc ⊢
  obtain ⟨record, hrecord, hcommitted⟩ := Option.bind_eq_some_iff.mp hc
  obtain heq | ⟨hnone, -⟩ | ⟨r, p, hr, -, heq⟩ | ⟨r, p, hr, -, hlater, heq⟩ := h.lookup_cases key
  · exact ⟨c, by rw [heq]; exact hc, .inl rfl⟩
  · rw [hnone] at hrecord
    cases hrecord
  · rw [hrecord] at hr
    cases hr
    exact ⟨c, by rw [heq]; exact hcommitted, .inl rfl⟩
  · rw [hrecord] at hr
    cases hr
    exact ⟨p.next, by rw [heq]; rfl, .inr (hlater c hcommitted)⟩

/-- **A committed checkpoint gives way only to later generations.** -/
theorem Evolves.committedAt (h : Evolves libs records records') {c : Checkpoint}
    (hc : Vault.committedAt records key = some c) :
    ∃ c', Vault.committedAt records' key = some c' ∧ (c' = c ∨ c.generation < c'.generation) := by
  induction h with
  | refl => exact ⟨c, hc, .inl rfl⟩
  | tail _ hstep ih =>
      obtain ⟨c₁, hc₁, hle₁⟩ := ih
      obtain ⟨c₂, hc₂, hle₂⟩ := hstep.committedAt hc₁
      refine ⟨c₂, hc₂, ?_⟩
      rcases hle₁ with rfl | hlt₁
      · exact hle₂
      · rcases hle₂ with rfl | hlt₂
        · exact .inr hlt₁
        · exact .inr (hlt₁.trans hlt₂)

/-- **A marker stays until it is promoted**, and what it is promoted to is later than what was
committed. -/
theorem Evolves.pendingAt (h : Evolves libs records records') {p : PendingMarker}
    (hp : Vault.pendingAt records key = some p) :
    records'.lookup key = records.lookup key ∨
      (∀ c ∈ Vault.committedAt records key, c.generation < p.next.generation) ∧
      ∃ c', Vault.committedAt records' key = some c' ∧
        (c' = p.next ∨ p.next.generation < c'.generation) := by
  induction h using Relation.ReflTransGen.head_induction_on with
  | refl => exact .inl rfl
  | @head records middle hstep hrest ih =>
      obtain ⟨record, hrecord, hpending⟩ := Option.bind_eq_some_iff.mp hp
      obtain heq | ⟨hnone, -⟩ | ⟨r, q, hr, hnone, -⟩ | ⟨r, q, hr, hq, hlater, heq⟩ :=
        hstep.lookup_cases key
      · have hih := ih (by rw [Vault.pendingAt, heq]; exact hp)
        rwa [heq, Vault.committedAt, heq] at hih
      · rw [hnone] at hrecord
        cases hrecord
      · rw [hrecord] at hr
        cases hr
        rw [hpending] at hnone
        cases hnone
      · rw [hrecord] at hr
        cases hr
        rw [hpending] at hq
        cases hq
        refine .inr ⟨fun c hc => hlater c ?_, ?_⟩
        · rw [Vault.committedAt, hrecord] at hc
          exact hc
        · exact Evolves.committedAt hrest (by rw [Vault.committedAt, heq]; rfl)

/-! ### One record for an ID -/

/-- Every record is stored under the key of its ID, and under no other. -/
structure Keyed (libs : VaultLibraries Credential) (records : Records) : Prop where
  nodup : (records.map Prod.fst).Nodup
  key_eq : ∀ entry ∈ records, libs.idKey entry.2.vaultId = entry.1

theorem Keyed.set (h : Keyed libs records) (record : WitnessRecord) :
    Keyed libs (setRecord records (libs.idKey record.vaultId) record) := by
  constructor
  · rw [setRecord, List.map_cons, List.nodup_cons]
    refine ⟨fun hmem => ?_, h.nodup.sublist (List.filter_sublist.map _)⟩
    obtain ⟨entry, hentry, hkey⟩ := List.mem_map.mp hmem
    have hne := (List.mem_filter.mp hentry).2
    simp [hkey] at hne
  · intro entry hentry
    rcases List.mem_cons.mp hentry with rfl | hentry
    · rfl
    · exact h.key_eq entry (List.mem_of_mem_filter hentry)

theorem WitnessStep.keyed (h : WitnessStep libs records records') (hkeyed : Keyed libs records) :
    Keyed libs records' := by
  cases h with
  | @enroll vaultId checkpoint _ =>
      exact hkeyed.set { WitnessRecord.new vaultId with committed := some checkpoint }
  | @mark vaultId found pending _ hid _ =>
      have hset := hkeyed.set { found.getD (.new vaultId) with pending := some pending }
      rwa [show ({ found.getD (.new vaultId) with pending := some pending } : WitnessRecord).vaultId =
        vaultId from hid] at hset
  | @promote record pending _ _ _ =>
      exact hkeyed.set { record with committed := some pending.next, pending := none }

theorem Evolves.keyed (h : Evolves libs records records') (hkeyed : Keyed libs records) :
    Keyed libs records' := by
  induction h with
  | refl => exact hkeyed
  | tail _ hstep ih => exact hstep.keyed ih

/-- **At most one marker is pending for an ID.** -/
theorem Keyed.pending_unique (h : Keyed libs records) (vaultId : String) :
    (records.filter fun entry => entry.2.vaultId = vaultId ∧ entry.2.pending.isSome).length ≤ 1 := by
  let found := records.filter fun entry => entry.2.vaultId = vaultId ∧ entry.2.pending.isSome
  have hnodup : (found.map Prod.fst).Nodup := h.nodup.sublist (List.filter_sublist.map _)
  have hsame : found.map Prod.fst = List.replicate found.length (libs.idKey vaultId) := by
    rw [List.eq_replicate_iff, List.length_map]
    refine ⟨rfl, fun key hkey => ?_⟩
    obtain ⟨entry, hentry, rfl⟩ := List.mem_map.mp hkey
    obtain ⟨hmem, hid⟩ := List.mem_filter.mp hentry
    rw [← h.key_eq entry hmem, (of_decide_eq_true hid).1]
  rw [hsame] at hnodup
  exact List.nodup_replicate.mp hnodup

end History

end Jig.Vault

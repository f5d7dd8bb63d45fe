import Jig.Vault.VaultJson
import Jig.Vault.WitnessExact

/-!
# In-place transactions are crash-atomic

The durable states a commit goes through are of three kinds: nothing but the journal has been
written (`Before`); the marker is published, and the log and the envelope are somewhere on their way
(`Marked`); the record is promoted, and only the journal may be left (`Promoted`). Each step of
`finishInPlace` accepts every state of its own progress, so recovery, however often it crashes, ends
where the commit would have ended.
-/

namespace Jig.Vault

open Lib
open Lib.Utf8 (encode byteLen)
open Lib.Durable (Spec)

variable {Credential : Type} {libs : VaultLibraries Credential} {home : VaultHome}
  {verifyWith : Option Bytes} {s : VaultState} {events : List AuditEvent}
  {request : AppendRequest}

/-- A state in which nothing is pending for the vault or at the target, and in which the witness can
be read. A journal may have been left over. -/
structure CommittedState (libs : VaultLibraries Credential) (home : VaultHome) (vaultId : String)
    (s : VaultState) : Prop where
  goodRecords : GoodRecords libs s.records
  unnamed : Unnamed s.records home.target.targetKey
  record : ∃ record, readRecord libs s.records vaultId = .ok record ∧
    record.bind (·.pending) = none
  journal : ∃ found, readJournal libs home.target.targetKey s.journal = .ok found

/-- A commit whose candidate is sealed over the envelope of a state, and the credentials that its
recovery is given. -/
structure Sealed (libs : VaultLibraries Credential) (commit : InPlaceCommit) (s : VaultState)
    (key : Bytes) (credentials : List Credential) : Prop where
  /-- The candidate replaces the envelope that is there. -/
  previous_eq : commit.previousEnvelopeSha256 = s.envelope.map (sha256Hex libs.toAuditLibraries)
  envelope_le : ∀ bytes ∈ s.envelope, bytes.length ≤ vaultTextReadLimit
  candidate_le : byteLen commit.candidate ≤ vaultTextReadLimit
  /-- The two envelopes do not collide. -/
  collision_free : ∀ bytes ∈ s.envelope,
    sha256Hex libs.toAuditLibraries bytes =
      sha256Hex libs.toAuditLibraries (encode commit.candidate) →
    bytes = encode commit.candidate
  header_eq : ∀ envelope, envelope = s.envelope ∨ envelope = some (encode commit.candidate) →
    ∀ id ∈ headerVaultIdForLock libs envelope, id = commit.vaultId
  /-- One of the credentials opens the candidate, behind others that are refused. -/
  authenticates : ∃ refused credential rest,
    credentials = refused ++ credential :: rest ∧
    (∀ c ∈ refused, ∃ error, libs.unlock commit.candidate c = .error error ∧
      error.kind = some .authentication) ∧
    libs.unlock commit.candidate credential = .ok
      { vaultId := commit.vaultId
        formatVersion := 3
        v3 := some
          { generation := commit.generation, mutationAuditMac := commit.prepared.event.mac }
        auditKey := key
        isSome_v3 := ⟨fun _ => rfl, fun _ => rfl⟩ }

/-! ### Applying the audit transition -/

section Audit

variable {key : Bytes} {audit : Option Bytes} {prepared : PreparedAuditAppend}
  {body torn : List Char} {current : Option Bytes}

/-- The logs between the one an append was prepared for and the one it leaves. -/
def AuditProgress (audit : Option Bytes) (prepared : PreparedAuditAppend) (body : List Char)
    (current : Option Bytes) : Prop :=
  current = audit ∨ ∃ p, p <+: encode prepared.transition.append ∧
    current = some (encode body ++ p)

def appendedAudit (prepared : PreparedAuditAppend) (body : List Char) : Option Bytes :=
  some (encode body ++ encode prepared.transition.append)

/-- What a plan says of the log it is made for. -/
def AuditPlan.Fits (prepared : PreparedAuditAppend) (body : List Char)
    (current : Option Bytes) : AuditPlan → Prop
  | .appended => current = appendedAudit prepared body
  | .append false => current ≠ appendedAudit prepared body ∧ current.getD [] = encode body
  | .append true => current ≠ appendedAudit prepared body ∧
      truncateAudit current prepared.transition.prefixLen = some (encode body)

variable (h : Prepares libs.toAuditLibraries key audit home.auditTextReadLimit request prepared body
  torn events)

include h

theorem Prepares.verifyExactPrefix_eq :
    verifyExactPrefix libs.toAuditLibraries (encode body) key =
      .ok prepared.transition.prefixTipMac := by
  have hverify := h.accepted.keep.verifyChainText_eq
  rw [List.append_nil] at hverify
  have hlen : (logOf libs.toAuditLibraries body [] events).validLen = byteLen body := rfl
  unfold verifyExactPrefix
  rw [Utf8.decode?_encode]
  show (verifyChainText libs.toAuditLibraries body key >>= _) = _
  rw [hverify]
  refine (if_neg (not_not.mpr hlen)).trans ?_
  exact congrArg Except.ok h.follows.previousMac_eq.symm

/-- The recorded prefix is the text of the events. -/
theorem Prepares.take_prefixLen :
    (audit.getD []).take prepared.transition.prefixLen = encode body := by
  have hlen : prepared.transition.prefixLen = (encode body).length := h.validLen_eq
  obtain haudit | ⟨haudit, rfl, -⟩ := h.audit_eq
  · rw [haudit, Option.getD_some, hlen, Utf8.encode_append, List.take_left]
  · rw [haudit]
    exact List.take_nil

/-- Behind the prefix only the append, the torn tail of before or a part of the append is taken. -/
theorem Prepares.planSuffix_eq {suffix : Bytes} (hsuffix : suffix = encode torn ∨
      suffix <+: encode prepared.transition.append) :
    planSuffix libs prepared.transition suffix =
      if suffix = encode prepared.transition.append then .ok .appended
      else .ok (.append (decide (suffix ≠ []))) := by
  by_cases hdone : suffix = encode prepared.transition.append
  · rw [if_pos hdone]
    exact if_pos hdone
  rw [if_neg hdone]
  refine (if_neg hdone).trans (if_neg ?_)
  rw [Bool.and_eq_true, Bool.not_eq_true', Bool.not_eq_true', not_and_or, Bool.not_eq_false,
    Bool.not_eq_false]
  obtain rfl | hpart := hsuffix
  · by_cases htorn : torn = []
    · subst htorn
      exact .inr rfl
    · left
      have hpos := Utf8.byteLen_pos.mpr htorn
      have hlen : prepared.transition.tornSuffixLen = byteLen torn := by
        show prepared.auditLen - prepared.validLen = _
        rw [h.auditLen_eq, h.validLen_eq, Nat.add_sub_cancel_left]
      have hsha : prepared.transition.tornSuffixSha256 =
          some (sha256Hex libs.toAuditLibraries (encode torn)) := by
        show prepared.tornSuffixSha256 = _
        rw [h.tornSuffixSha256_eq]
        exact if_neg htorn
      rw [hlen, hsha]
      simp only [byteLen, beq_self_eq_true, Bool.and_true]
      exact decide_eq_true hpos
  · exact .inr (List.isPrefixOf_iff_prefix.mpr hpart)

/-- A log on its way is the prefix and a suffix of one of the two kinds. -/
theorem Prepares.exists_suffix (hcurrent : AuditProgress audit prepared body current) :
    ∃ suffix, readAuditBytes home current = .ok (encode body ++ suffix) ∧
      (current = some (encode body ++ suffix) ∨
        current = none ∧ encode body ++ suffix = []) ∧
      (suffix = encode torn ∨ suffix <+: encode prepared.transition.append) := by
  rcases hcurrent with rfl | ⟨p, hp, rfl⟩
  · refine ⟨encode torn, ?_⟩
    obtain haudit | ⟨haudit, rfl, rfl⟩ := h.audit_eq
    · have hle : ¬(encode (body ++ torn)).length > home.auditTextReadLimit := by
        have := h.audit_le
        rw [← Utf8.byteLen_append] at this
        exact Nat.not_lt.mpr this
      rw [haudit, readAuditBytes, if_neg hle, Utf8.encode_append]
      exact ⟨rfl, .inl rfl, .inl rfl⟩
    · rw [haudit]
      exact ⟨rfl, .inr ⟨rfl, rfl⟩, .inl rfl⟩
  · have hle : ¬(encode body ++ p).length > home.auditTextReadLimit := by
      have happend := h.append_le
      have hplen := hp.length_le
      rw [List.length_append]
      unfold byteLen at happend
      omega
    rw [readAuditBytes, if_neg hle]
    exact ⟨p, rfl, .inl rfl, .inr hp⟩

/-- Every log on its way has its plan. -/
theorem Prepares.exists_planAudit (hkey : verifyWith = none ∨ verifyWith = some key)
    (hcurrent : AuditProgress audit prepared body current) :
    ∃ plan, planAudit libs home prepared.transition verifyWith current = .ok plan ∧
      plan.Fits prepared body current := by
  have hlen : prepared.transition.prefixLen = (encode body).length := h.validLen_eq
  obtain ⟨suffix, hread, hbytes, hsuffix⟩ := h.exists_suffix hcurrent
  have hcheck : checkAuditPrefix libs prepared.transition verifyWith (encode body ++ suffix) =
      .ok ⟨⟩ := by
    rcases hkey with rfl | rfl
    · rfl
    · unfold checkAuditPrefix
      rw [hlen, List.take_left]
      simp only [h.verifyExactPrefix_eq]
      simp [require]
  have hplan : planAudit libs home prepared.transition verifyWith current =
      planSuffix libs prepared.transition suffix := by
    unfold planAudit
    rw [hread]
    have hlong : require (decide (prepared.transition.prefixLen ≤
        (encode body ++ suffix).length)) (classified .auditTampered
          "vault audit log is shorter than the pending transaction's recorded prefix") = .ok ⟨⟩ := by
      rw [require_eq_ok, hlen]
      simp
    show (require _ _ >>= _) = _
    rw [hlong]
    show (checkAuditPrefix _ _ _ _ >>= _) = _
    rw [hcheck]
    show planSuffix _ _ _ = _
    rw [hlen, List.drop_left]
  rw [h.planSuffix_eq hsuffix] at hplan
  -- an append ends with its newline
  have happend : encode prepared.transition.append ≠ [] := by
    rw [show prepared.transition.append = separator prepared.needsSeparator ++ prepared.line ++
      ['\n'] from rfl]
    simp
  by_cases hdone : suffix = encode prepared.transition.append
  · rw [if_pos hdone] at hplan
    refine ⟨_, hplan, ?_⟩
    subst hdone
    obtain hbytes | ⟨-, hnil⟩ := hbytes
    · exact hbytes
    · exact absurd (List.append_eq_nil_iff.mp hnil).2 happend
  · rw [if_neg hdone] at hplan
    refine ⟨_, hplan, ?_⟩
    obtain rfl | ⟨rfl, hnil⟩ := hbytes
    · have hne : some (encode body ++ suffix) ≠ appendedAudit prepared body :=
        fun heq => hdone (List.append_cancel_left (Option.some.inj heq))
      by_cases hempty : suffix = []
      · subst hempty
        exact ⟨hne, List.append_nil _⟩
      · rw [decide_eq_true hempty]
        refine ⟨hne, ?_⟩
        show some ((encode body ++ suffix).take _) = _
        rw [hlen, List.take_left]
    · obtain ⟨hbody, rfl⟩ := List.append_eq_nil_iff.mp hnil
      exact ⟨by simp [appendedAudit], hbody.symm⟩

end Audit

/-! ### The states of a transaction -/

section Transaction

variable (libs : VaultLibraries Credential) (home : VaultHome) (commit : InPlaceCommit)
  (s₀ : VaultState) (record : Option WitnessRecord) (body : List Char)

def InPlaceCommit.text : Bytes :=
  libs.journalText (commit.journal libs home record)

def InPlaceCommit.marked : WitnessRecord :=
  commit.pendingRecord libs home record (commit.text libs home record)

def InPlaceCommit.promoted : WitnessRecord :=
  { commit.marked libs home record with committed := some (commit.next libs), pending := none }

structure Before (s : VaultState) : Prop where
  records_eq : s.records = s₀.records
  audit_eq : s.audit = s₀.audit
  envelope_eq : s.envelope = s₀.envelope
  rest_eq : s.directory = s₀.directory ∧ s.stagings = s₀.stagings
  journal : ∃ found, readJournal libs home.target.targetKey s.journal = .ok found

structure Marked (s : VaultState) : Prop where
  records_eq : s.records =
    setRecord s₀.records (libs.idKey commit.vaultId) (commit.marked libs home record)
  journal_eq : s.journal = some (commit.text libs home record)
  progress : AuditProgress s₀.audit commit.prepared body s.audit
  envelope : s.envelope = s₀.envelope ∨
    s.envelope = some (encode commit.candidate) ∧ s.audit = appendedAudit commit.prepared body
  rest_eq : s.directory = s₀.directory ∧ s.stagings = s₀.stagings

structure Promoted (s : VaultState) : Prop where
  records_eq : s.records =
    setRecord (setRecord s₀.records (libs.idKey commit.vaultId) (commit.marked libs home record))
      (libs.idKey commit.vaultId) (commit.promoted libs home record)
  journal : s.journal = none ∨ s.journal = some (commit.text libs home record)
  audit_eq : s.audit = appendedAudit commit.prepared body
  envelope_eq : s.envelope = some (encode commit.candidate)
  rest_eq : s.directory = s₀.directory ∧ s.stagings = s₀.stagings

/-- The transaction is published: its record has the marker, or is promoted. -/
def Published (s : VaultState) : Prop :=
  Marked libs home commit s₀ record body s ∨ Promoted libs home commit s₀ record body s

/-- The log and the envelope are those of the transaction. -/
def Installed (s : VaultState) : Prop :=
  Marked libs home commit s₀ record body s ∧ s.audit = appendedAudit commit.prepared body ∧
    s.envelope = some (encode commit.candidate)

def InPlaceCommit.done : VaultState :=
  { s₀ with
    records :=
      setRecord (setRecord s₀.records (libs.idKey commit.vaultId) (commit.marked libs home record))
        (libs.idKey commit.vaultId) (commit.promoted libs home record)
    journal := none
    audit := appendedAudit commit.prepared body
    envelope := some (encode commit.candidate) }

variable {libs home commit s₀ record body}

/-- The candidate is installed only behind the append. -/
theorem Marked.envelope_eq_of_ne (h : Marked libs home commit s₀ record body s)
    (hne : s.audit ≠ appendedAudit commit.prepared body) : s.envelope = s₀.envelope :=
  h.envelope.resolve_right fun hdone => hne hdone.2

end Transaction

/-! ### Finishing -/

section Finish

variable {commit : InPlaceCommit} {s₀ : VaultState} {record : Option WitnessRecord}
  {key : Bytes} {body torn : List Char} {credentials : List Credential}

/-- What is known of a transaction: its start, its candidate, its audit append, and, for its journal
and its marker, that they were valid when they were written. -/
structure Transacting (libs : VaultLibraries Credential) (home : VaultHome) (commit : InPlaceCommit)
    (s₀ : VaultState) (record : Option WitnessRecord) (key : Bytes) (request : AppendRequest)
    (body torn : List Char) (events : List AuditEvent) (credentials : List Credential) : Prop where
  goodRecords : GoodRecords libs s₀.records
  unnamed : Unnamed s₀.records home.target.targetKey
  sealed : Sealed libs commit s₀ key credentials
  prepares : Prepares libs.toAuditLibraries key s₀.audit home.auditTextReadLimit request
    commit.prepared body torn events
  vaultId_eq : (commit.marked libs home record).vaultId = commit.vaultId
  journal_valid : (commit.journal libs home record).validate = .ok ⟨⟩
  journal_le : (commit.text libs home record).length ≤ journalReadLimit
  journal_parses : libs.parseJournal (commit.text libs home record) =
    .ok (commit.journal libs home record)
  marked_valid : (commit.marked libs home record).validate commit.vaultId = .ok ⟨⟩

theorem Unnamed.filter {records : Records} {targetKey : String} (h : Unnamed records targetKey)
    (keep : String × WitnessRecord → Bool) : Unnamed (records.filter keep) targetKey :=
  fun entry hentry => h entry (List.mem_of_mem_filter hentry)

section Transacting

variable (h : Transacting libs home commit s₀ record key request body torn events credentials)

include h

/-- The log is brought to the recorded successor. -/
theorem Transacting.spec_applyAuditTransition (hkey : verifyWith = none ∨ verifyWith = some key) :
    Spec (Marked libs home commit s₀ record body)
      (applyAuditTransition libs home commit.prepared.transition verifyWith)
      (Marked libs home commit s₀ record body)
      (fun _ s => Marked libs home commit s₀ record body s ∧
        s.audit = appendedAudit commit.prepared body)
      fun _ _ => False := by
  refine .bind
    (fun plan s => Marked libs home commit s₀ record body s ∧
      plan.Fits commit.prepared body s.audit)
    (Spec.look_ok fun s hs => ?_) fun plan => ?_
  · obtain ⟨plan, hplan, hfits⟩ := h.prepares.exists_planAudit hkey hs.progress
    exact ⟨plan, hplan, hs, hfits⟩
  have happend : Spec
      (fun s => Marked libs home commit s₀ record body s ∧ s.envelope = s₀.envelope ∧
        s.audit.getD [] = encode body)
      (appendAuditBytes (encode commit.prepared.transition.append))
      (Marked libs home commit s₀ record body)
      (fun _ s => Marked libs home commit s₀ record body s ∧
        s.audit = appendedAudit commit.prepared body)
      fun _ _ => False := by
    refine .writing (fun s ⟨hs, henv, hbody⟩ p hp => ?_) fun s ⟨hs, henv, hbody⟩ => ?_
    · rw [hbody]
      exact ⟨hs.records_eq, hs.journal_eq, .inr ⟨p, hp, rfl⟩, .inl henv, hs.rest_eq⟩
    · rw [hbody]
      exact ⟨⟨hs.records_eq, hs.journal_eq, .inr ⟨_, List.prefix_refl _, rfl⟩, .inl henv,
        hs.rest_eq⟩, rfl⟩
  match plan with
  | .appended => exact .pure fun s hs => hs
  | .append false =>
      exact happend.pre_mono fun s ⟨hs, hne, hbody⟩ => ⟨hs, hs.envelope_eq_of_ne hne, hbody⟩
  | .append true =>
      -- the torn tail is cut off first
      refine .bind _ (Spec.change ?_ ?_) fun _ => happend
      · rintro s ⟨hs, hne, hbody⟩
        exact ⟨hs.records_eq, hs.journal_eq,
          .inr ⟨[], List.nil_prefix, by rw [hbody, List.append_nil]⟩,
          .inl (hs.envelope_eq_of_ne hne), hs.rest_eq⟩
      · rintro s ⟨hs, hne, hbody⟩
        refine ⟨⟨hs.records_eq, hs.journal_eq, .inr ⟨[], List.nil_prefix, ?_⟩,
          .inl (hs.envelope_eq_of_ne hne), hs.rest_eq⟩, hs.envelope_eq_of_ne hne, ?_⟩
        · rw [hbody, List.append_nil]
        · show (truncateAudit s.audit _).getD [] = _
          rw [hbody]
          rfl

/-- The candidate is installed over its predecessor, or found installed. -/
theorem Transacting.spec_installCandidate :
    Spec
      (fun s => Marked libs home commit s₀ record body s ∧
        s.audit = appendedAudit commit.prepared body)
      (installCandidate libs (commit.journal libs home record) commit.candidate)
      (Marked libs home commit s₀ record body)
      (fun _ => Installed libs home commit s₀ record body)
      fun _ _ => False := by
  have hle : (encode commit.candidate).length ≤ vaultTextReadLimit := h.sealed.candidate_le
  have hplan (s : VaultState) (hs : Marked libs home commit s₀ record body s) :
      ∃ install, planInstall libs (commit.journal libs home record) commit.candidate s.envelope =
          .ok install ∧
        (install = false → s.envelope = some (encode commit.candidate)) := by
    have hnext : (commit.journal libs home record).next.envelopeSha256 =
      sha256Hex libs.toAuditLibraries (encode commit.candidate) := rfl
    have hprevious : (commit.journal libs home record).previousEnvelopeSha256 =
      s₀.envelope.map (sha256Hex libs.toAuditLibraries) := h.sealed.previous_eq
    unfold planInstall
    rcases hs.envelope with henv | ⟨henv, -⟩
    · -- the envelope of before: it is replaced, unless it is the candidate already
      have hread : readVaultBytes s₀.envelope = .ok s₀.envelope := by
        cases hbytes : s₀.envelope with
        | none => rfl
        | some bytes => exact if_neg (Nat.not_lt.mpr (h.sealed.envelope_le bytes hbytes))
      rw [henv, hread]
      by_cases hsame : s₀.envelope.map (sha256Hex libs.toAuditLibraries) =
          some (commit.journal libs home record).next.envelopeSha256
      · refine ⟨false, if_pos hsame, fun _ => ?_⟩
        obtain ⟨bytes, hbytes, hsha⟩ := Option.map_eq_some_iff.mp hsame
        rw [hbytes, h.sealed.collision_free bytes hbytes hsha]
      · have hfits : validateVaultTextLen commit.candidate = .ok ⟨⟩ :=
          require_eq_ok.mpr (decide_eq_true h.sealed.candidate_le)
        refine ⟨true, (if_neg hsame).trans ((if_neg (not_not.mpr hprevious.symm)).trans ?_), nofun⟩
        rw [hfits]
        rfl
    · have hread : readVaultBytes (some (encode commit.candidate)) =
          .ok (some (encode commit.candidate)) := if_neg (Nat.not_lt.mpr hle)
      rw [henv, hread]
      exact ⟨false, if_pos (by rw [hnext]; rfl), fun _ => rfl⟩
  refine .bind
    (fun install s => Marked libs home commit s₀ record body s ∧
      s.audit = appendedAudit commit.prepared body ∧
      (install = false → s.envelope = some (encode commit.candidate)))
    (Spec.look_ok fun s ⟨hs, haudit⟩ => ?_) fun install => ?_
  · obtain ⟨install, hinstall, henv⟩ := hplan s hs
    exact ⟨install, hinstall, hs, haudit, henv⟩
  · have hmarked (s : VaultState) (hs : Marked libs home commit s₀ record body s)
        (haudit : s.audit = appendedAudit commit.prepared body) :
        Marked libs home commit s₀ record body
          { s with envelope := some (encode commit.candidate) } :=
      ⟨hs.records_eq, hs.journal_eq, hs.progress, .inr ⟨rfl, haudit⟩, hs.rest_eq⟩
    cases install with
    | true =>
        exact .change (fun s ⟨hs, haudit, _⟩ => hmarked s hs haudit)
          fun s ⟨hs, haudit, _⟩ => ⟨hmarked s hs haudit, haudit, rfl⟩
    | false => exact .pure fun s ⟨hs, haudit, henv⟩ => ⟨hs, haudit, henv rfl⟩

theorem Transacting.promoted_valid :
    (commit.promoted libs home record).validate commit.vaultId = .ok ⟨⟩ := by
  have hvalid := h.marked_valid
  unfold WitnessRecord.validate at hvalid ⊢
  obtain ⟨hschema, hvalid⟩ := then_eq_ok.mp hvalid
  obtain ⟨hid, hvalid⟩ := then_eq_ok.mp hvalid
  obtain ⟨hformat, hvalid⟩ := then_eq_ok.mp hvalid
  refine then_eq_ok.mpr ⟨hschema, then_eq_ok.mpr ⟨hid, then_eq_ok.mpr ⟨hformat, ?_⟩⟩⟩
  show (commit.next libs).validate = _
  cases hcommitted : (commit.marked libs home record).committed with
  | none =>
      rw [hcommitted] at hvalid
      exact (then_eq_ok.mp hvalid).1
  | some committed =>
      rw [hcommitted] at hvalid
      exact (then_eq_ok.mp (then_eq_ok.mp (then_eq_ok.mp hvalid).2).1).1

/-- The record is promoted, and the journal removed. -/
theorem Transacting.spec_promote :
    Spec
      (Installed libs home commit s₀ record body)
      (promote libs (commit.journal libs home record) (commit.marked libs home record))
      (Published libs home commit s₀ record body)
      (fun _ s => s = commit.done libs home s₀ record body)
      fun _ _ => False := by
  have hid : (commit.promoted libs home record).vaultId = commit.vaultId := h.vaultId_eq
  have hpromoted (s : VaultState) (hs : Installed libs home commit s₀ record body s) :
      Promoted libs home commit s₀ record body
        { s with records := setRecord s.records (libs.idKey (commit.promoted libs home record).vaultId)
                  (commit.promoted libs home record) } := by
    obtain ⟨hs, haudit, henv⟩ := hs
    refine ⟨?_, .inr hs.journal_eq, haudit, henv, hs.rest_eq⟩
    rw [hid, hs.records_eq]
  refine .bind (fun _ => Promoted libs home commit s₀ record body) ?_ fun _ => ?_
  · refine .bind
      (fun _ => Installed libs home commit s₀ record body)
      (Spec.look_ok fun s hs => ?_)
      fun _ => Spec.change (fun s hs => .inr (hpromoted s hs)) hpromoted
    refine ⟨_, then_eq_ok.mpr ⟨?_, rfl⟩, hs⟩
    show (commit.promoted libs home record).validate (commit.promoted libs home record).vaultId = _
    rw [hid]
    exact h.promoted_valid
  · refine .change
      (fun s hs => .inr ⟨hs.records_eq, .inl rfl, hs.audit_eq, hs.envelope_eq,
        hs.rest_eq⟩) fun s hs => ?_
    rw [InPlaceCommit.done, ← hs.records_eq, ← hs.audit_eq, ← hs.envelope_eq, ← hs.rest_eq.1,
      ← hs.rest_eq.2]

/-- **Finishing.** From every state of its progress a transaction is finished, and on its way there
it stays within them. -/
theorem Transacting.spec_finishInPlace (hkey : verifyWith = none ∨ verifyWith = some key) :
    Spec (Marked libs home commit s₀ record body)
      (finishInPlace libs home (commit.journal libs home record) (commit.marked libs home record)
        verifyWith)
      (Published libs home commit s₀ record body)
      (fun _ s => s = commit.done libs home s₀ record body)
      fun _ _ => False :=
  Spec.bind _ ((h.spec_applyAuditTransition hkey).crash_mono fun _ => .inl) fun _ =>
    Spec.bind _ (h.spec_installCandidate.crash_mono fun _ => .inl) fun _ => h.spec_promote

/-! ### The witness on the way -/

theorem Transacting.goodRecords_marked :
    GoodRecords libs
      (setRecord s₀.records (libs.idKey commit.vaultId) (commit.marked libs home record)) := by
  have hset := h.goodRecords.set (commit.marked libs home record)
    (by rw [h.vaultId_eq]; exact h.marked_valid)
  rwa [h.vaultId_eq] at hset

theorem Transacting.goodRecords_promoted :
    GoodRecords libs (commit.done libs home s₀ record body).records := by
  have hid : (commit.promoted libs home record).vaultId = commit.vaultId := h.vaultId_eq
  have hset := h.goodRecords_marked.set (commit.promoted libs home record)
    (by rw [hid]; exact h.promoted_valid)
  rwa [hid] at hset

/-- A promoted record names no target. -/
theorem Transacting.unnamed_promoted :
    Unnamed (commit.done libs home s₀ record body).records home.target.targetKey := by
  intro entry hentry
  rcases List.mem_cons.mp hentry with rfl | hentry
  · rfl
  · obtain ⟨hentry, hkey⟩ := List.mem_filter.mp hentry
    rcases List.mem_cons.mp hentry with rfl | hentry
    · simp at hkey
    · exact h.unnamed.filter _ entry hentry

/-- The marker of the transaction is the only one for the target. -/
theorem Transacting.naming_marked :
    ((setRecord s₀.records (libs.idKey commit.vaultId) (commit.marked libs home record)).map
      Prod.snd).filter (·.namesTarget home.target.targetKey) = [commit.marked libs home record] := by
  have hrest : ((s₀.records.filter (·.1 ≠ libs.idKey commit.vaultId)).map Prod.snd).filter
      (·.namesTarget home.target.targetKey) = [] := by
    rw [List.filter_eq_nil_iff, List.forall_mem_map]
    intro entry hentry
    rw [h.unnamed.filter _ entry hentry]
    exact Bool.false_ne_true
  have hnames : (commit.marked libs home record).namesTarget home.target.targetKey = true := by
    show (home.target.targetKey == home.target.targetKey) = true
    exact beq_self_eq_true _
  rw [setRecord, List.map_cons, List.filter_cons, hrest, if_pos hnames]

end Transacting

/-- The ID in the live header, if it can be read, is the vault's; its marker, if there is one, names
the home. -/
theorem checkHeaderPending_eq_ok {vaultId : String} {found : Option WitnessRecord}
    (hheader : ∀ id ∈ headerVaultIdForLock libs s.envelope, id = vaultId)
    (hread : readRecord libs s.records vaultId = .ok found)
    (hpending : ∀ pending ∈ found.bind (·.pending), pending.targetKey = home.target.targetKey) :
    checkHeaderPending libs home s = .ok ⟨⟩ := by
  unfold checkHeaderPending
  cases hid : headerVaultIdForLock libs s.envelope with
  | none => rfl
  | some id =>
      have hread' : readRecord libs s.records id = .ok found := hheader id hid ▸ hread
      cases hmarker : found.bind (·.pending) with
      | none => simp [hread', hmarker, bind, Except.bind]
      | some pending =>
          have hkey := hpending pending hmarker
          simp [hread', hmarker, hkey, require, bind, Except.bind]

theorem authenticateText_append {kind : TransactionKind} {journal : Journal} {candidate : List Char}
    {refused rest : List Credential} {credential : Credential} {unlocked : UnlockedEnvelope}
    (hrefused : ∀ c ∈ refused, ∃ error, libs.unlock candidate c = .error error ∧
      error.kind = some .authentication)
    (hunlock : libs.unlock candidate credential = .ok unlocked)
    (hbindings : checkCandidateBindings libs journal unlocked.vaultId unlocked.v3 candidate = .ok ⟨⟩)
    (index : Nat) :
    authenticateText libs kind journal candidate index (refused ++ credential :: rest) =
      .ok (unlocked.auditKey, index + refused.length) := by
  induction refused generalizing index with
  | nil => simp [authenticateText, hunlock, hbindings, bind, Except.bind]
  | cons c refused ih =>
      rw [List.forall_mem_cons] at hrefused
      obtain ⟨⟨error, herror, hkind⟩, hrefused⟩ := hrefused
      rw [List.cons_append, authenticateText]
      simp only [herror, hkind, if_true]
      rw [ih hrefused, List.length_cons, Nat.add_right_comm, Nat.add_assoc]

/-! ### Recovering -/

/-- Where no marker names the target, recovery removes a journal that is left over. -/
theorem spec_recoverPending_of_unnamed {pre : VaultState → Prop} {final : VaultState}
    (hheader : ∀ s, pre s → checkHeaderPending libs home s = .ok ⟨⟩)
    (hgood : ∀ s, pre s → GoodRecords libs s.records)
    (hunnamed : ∀ s, pre s → Unnamed s.records home.target.targetKey)
    (hjournal : ∀ s, pre s → ∃ found, readJournal libs home.target.targetKey s.journal = .ok found)
    (hfinal : ∀ s, pre s → { s with journal := none } = final) (hpre : pre final) :
    Spec pre (recoverPending libs home credentials) pre
      (fun recovered s => recovered = none ∧ s = final) fun _ _ => False := by
  refine .bind (fun _ => pre) (Spec.look_ok fun s hs => ⟨_, hheader s hs, hs⟩)
    fun _ => ?_
  refine .bind
    (fun found s => pre s ∧ found = if s.journal.isSome then .orphan else .absent)
    (Spec.look_ok fun s hs => ?_) fun found => ?_
  · obtain ⟨read, hread⟩ := hjournal s hs
    refine ⟨_, mapError_eq_ok.mpr ?_, hs, rfl⟩
    exact classifyTargetJournal_of_unnamed (hgood s hs) (hunnamed s hs) hread
  cases found with
  | absent =>
      refine .pure fun s ⟨hs, habsent⟩ => ⟨rfl, ?_⟩
      cases hnone : s.journal with
      | none =>
          rw [← hfinal s hs, ← hnone]
      | some bytes =>
          rw [hnone] at habsent
          cases habsent
  | orphan =>
      refine .bind (fun _ s => s = final) (Spec.change ?_ ?_)
        fun _ => Spec.pure fun s hs => ⟨rfl, hs⟩
      · rintro s ⟨hs, -⟩
        rwa [hfinal s hs]
      · rintro s ⟨hs, -⟩
        exact hfinal s hs
  | referenced vaultId record journal =>
      -- no marker, no reference
      refine .of_false ?_
      rintro s ⟨hs, hfound⟩
      split at hfound
      · cases hfound
      · cases hfound

/-- A transaction that was not published is forgotten. -/
theorem CommittedState.spec_recoverPending (hs₀ : CommittedState libs home commit.vaultId s₀)
    (hheader : ∀ id ∈ headerVaultIdForLock libs s₀.envelope, id = commit.vaultId) :
    Spec (Before libs home s₀) (recoverPending libs home credentials)
      (Before libs home s₀) (fun recovered s => recovered = none ∧ s = { s₀ with journal := none })
      fun _ _ => False := by
  obtain ⟨found, hread, hpending⟩ := hs₀.record
  refine spec_recoverPending_of_unnamed (fun s hs => ?_) (fun s hs => ?_) (fun s hs => ?_)
    (fun s hs => hs.journal) (fun s hs => ?_) ⟨rfl, rfl, rfl, ⟨rfl, rfl⟩, none, rfl⟩
  · rw [← hs.records_eq] at hread
    refine checkHeaderPending_eq_ok ?_ hread ?_
    · rwa [hs.envelope_eq]
    · rw [hpending]
      simp
  · rw [hs.records_eq]
    exact hs₀.goodRecords
  · rw [hs.records_eq]
    exact hs₀.unnamed
  · rw [← hs.records_eq, ← hs.audit_eq, ← hs.envelope_eq, ← hs.rest_eq.1, ← hs.rest_eq.2]

theorem InPlaceCommit.readJournal_text
    (hparses : libs.parseJournal (commit.text libs home record) =
      .ok (commit.journal libs home record))
    (hvalid : (commit.journal libs home record).validate = .ok ⟨⟩)
    (hle : (commit.text libs home record).length ≤ journalReadLimit) :
    readJournal libs home.target.targetKey (some (commit.text libs home record)) =
      .ok (some (commit.journal libs home record,
        sha256Hex libs.toAuditLibraries (commit.text libs home record))) := by
  have htarget : (commit.journal libs home record).target.targetKey = home.target.targetKey := rfl
  unfold readJournal
  simp [require, hle, hparses, hvalid, htarget, bind, Except.bind]

section Recovery

variable (h : Transacting libs home commit s₀ record key request body torn events credentials)

include h

theorem Transacting.exists_authenticateCandidate :
    ∃ index, authenticateCandidate libs (commit.journal libs home record) commit.candidate
      credentials = .ok (key, index) := by
  obtain ⟨refused, credential, rest, rfl, hrefused, hunlock⟩ := h.sealed.authenticates
  refine ⟨_, authenticateText_append hrefused hunlock ?_ 0⟩
  exact if_neg (by simp [InPlaceCommit.journal, InPlaceCommit.next])

theorem Transacting.validateVaultId_eq :
    validateVaultId commit.vaultId = .ok ⟨⟩ :=
  (then_eq_ok.mp (then_eq_ok.mp h.journal_valid).2).1

theorem Transacting.readJournal_eq :
    readJournal libs home.target.targetKey (some (commit.text libs home record)) =
      .ok (some (commit.journal libs home record,
        sha256Hex libs.toAuditLibraries (commit.text libs home record))) :=
  InPlaceCommit.readJournal_text h.journal_parses h.journal_valid h.journal_le

/-- A promoted transaction is left as it is, but for its journal. -/
theorem Transacting.spec_recoverPending_promoted :
    Spec (Promoted libs home commit s₀ record body)
      (recoverPending libs home credentials)
      (Promoted libs home commit s₀ record body)
      (fun recovered s => recovered = none ∧ s = commit.done libs home s₀ record body)
      fun _ _ => False := by
  have hrecords {s : VaultState} (hs : Promoted libs home commit s₀ record body s) :
    s.records = (commit.done libs home s₀ record body).records := hs.records_eq
  refine spec_recoverPending_of_unnamed (fun s hs => ?_) (fun s hs => ?_) (fun s hs => ?_)
    (fun s hs => ?_) (fun s hs => ?_) ⟨rfl, .inl rfl, rfl, rfl, rfl, rfl⟩
  · have hread : readRecord libs s.records commit.vaultId =
        .ok (some (commit.promoted libs home record)) := by
      rw [hs.records_eq]
      exact readRecord_eq_ok_some.mpr
        ⟨h.validateVaultId_eq, lookup_setRecord _ _ _, h.promoted_valid⟩
    refine checkHeaderPending_eq_ok (h.sealed.header_eq _ (.inr hs.envelope_eq)) hread ?_
    intro pending hpending
    cases hpending
  · rw [hrecords hs]
    exact h.goodRecords_promoted
  · rw [hrecords hs]
    exact h.unnamed_promoted
  · rcases hs.journal with hnone | hsome
    · exact ⟨none, by rw [hnone]; rfl⟩
    · exact ⟨_, by rw [hsome]; exact h.readJournal_eq⟩
  · rw [InPlaceCommit.done, ← hs.records_eq, ← hs.audit_eq, ← hs.envelope_eq, ← hs.rest_eq.1,
      ← hs.rest_eq.2]

/-- **Recovery.** A published transaction is finished from every state of its progress. -/
theorem Transacting.spec_recoverPending_marked :
    Spec (Marked libs home commit s₀ record body)
      (recoverPending libs home credentials)
      (Published libs home commit s₀ record body)
      (fun _ s => s = commit.done libs home s₀ record body)
      fun _ _ => False := by
  have hread {s : VaultState} (hs : Marked libs home commit s₀ record body s) :
      readRecord libs s.records commit.vaultId = .ok (some (commit.marked libs home record)) := by
    rw [hs.records_eq]
    exact readRecord_eq_ok_some.mpr ⟨h.validateVaultId_eq, lookup_setRecord _ _ _, h.marked_valid⟩
  refine .look_then ⟨⟩ (fun s hs => ⟨?_, hs⟩) ?_
  · refine checkHeaderPending_eq_ok (h.sealed.header_eq _ ?_) (hread hs) ?_
    · exact hs.envelope.imp_right And.left
    · intro pending hpending
      cases hpending
      rfl
  refine .look_then (.referenced commit.vaultId (commit.marked libs home record)
    (commit.journal libs home record)) (fun s hs => ⟨mapError_eq_ok.mpr ?_, hs⟩) ?_
  · rw [hs.records_eq, hs.journal_eq]
    have hnamed := classifyTargetJournal_of_named h.goodRecords_marked h.naming_marked rfl
      h.readJournal_eq rfl rfl rfl h.vaultId_eq.symm
    rwa [h.vaultId_eq] at hnamed
  refine .look_then ⟨⟩ (fun s hs => ⟨?_, hs⟩) ?_
  · unfold checkRecordUnchanged
    rw [hread hs]
    exact require_eq_ok.mpr (beq_self_eq_true _)
  refine .look_then ⟨⟩ (fun s hs => ⟨require_eq_ok.mpr (beq_self_eq_true _), hs⟩) ?_
  obtain ⟨index, hauthenticates⟩ := h.exists_authenticateCandidate
  refine .look_then (key, index) (fun s hs => ⟨hauthenticates, hs⟩) ?_
  exact .bind _ (h.spec_finishInPlace (.inr rfl)) fun _ =>
    Spec.pure fun s hs => hs

/-- Recovery, crashing or not, stays with a published transaction and ends where the commit ends. -/
theorem Transacting.spec_recoverPending :
    Spec
      (Published libs home commit s₀ record body)
      (recoverPending libs home credentials)
      (Published libs home commit s₀ record body)
      (fun _ s => s = commit.done libs home s₀ record body)
      fun _ _ => False :=
  h.spec_recoverPending_marked.or
    ((h.spec_recoverPending_promoted.crash_mono fun _ => .inr).post_mono fun _ _ hs => hs.2)

end Recovery

/-! ### Committing -/

theorem InPlaceCommit.vaultId_marked
    (hread : readRecord libs s₀.records commit.vaultId = .ok record) :
    (commit.marked libs home record).vaultId = commit.vaultId := by
  cases record with
  | none => rfl
  | some record =>
      show record.vaultId = _
      exact WitnessRecord.vaultId_eq_of_validate (readRecord_eq_ok_some.mp hread).2.2

/-- A commit goes from what was there to its journal, its marker and what `finishInPlace` does;
where it fails, the marker has not been published. -/
theorem CommittedState.spec_commitInPlace (hs₀ : CommittedState libs home commit.vaultId s₀)
    (hread : readRecord libs s₀.records commit.vaultId = .ok record)
    (hpending : record.bind (·.pending) = none) (hsealed : Sealed libs commit s₀ key credentials)
    (hprepares : Prepares libs.toAuditLibraries key s₀.audit home.auditTextReadLimit request
      commit.prepared body torn events)
    (hparses : libs.parseJournal (libs.journalText (commit.journal libs home record)) =
      .ok (commit.journal libs home record)) :
    Spec (fun s => s = s₀) (commitInPlace libs home commit)
      (fun s => Before libs home s₀ s ∨
        Transacting libs home commit s₀ record key request body torn events credentials ∧
        Published libs home commit s₀ record body s)
      (fun _ s => s = commit.done libs home s₀ record body)
      fun _ s => Before libs home s₀ s := by
  have hbefore : Before libs home s₀ s₀ := ⟨rfl, rfl, rfl, ⟨rfl, rfl⟩, hs₀.journal⟩
  refine .bind (fun found s => found = record ∧ s = s₀)
    (Spec.mapFailure (Spec.look_ok ?_) fun _ _ hs => hs) fun found => Spec.of_and ?_
  · rintro s rfl
    exact ⟨_, hread, rfl, rfl⟩
  rintro rfl
  rw [hpending]
  -- the journal is checked before it is written
  refine .bind
    (fun text s => (text = commit.text libs home found ∧
      (commit.journal libs home found).validate = .ok ⟨⟩ ∧
      (commit.text libs home found).length ≤ journalReadLimit) ∧ s = s₀)
    (Spec.mapFailure (Spec.look ?_ ?_) fun _ _ hs => hs)
    fun text => Spec.of_and ?_
  · rintro s text rfl htext
    obtain ⟨hvalid, htext⟩ := then_eq_ok.mp htext
    obtain ⟨hle, htext⟩ := then_eq_ok.mp htext
    cases htext
    exact ⟨⟨rfl, hvalid, of_decide_eq_true (require_eq_ok.mp hle)⟩, rfl⟩
  · rintro s error rfl -
    exact hbefore
  rintro ⟨rfl, hvalid, hle⟩
  have hbefore' : Before libs home s₀
      { s₀ with journal := some (commit.text libs home found) } :=
    ⟨rfl, rfl, rfl, ⟨rfl, rfl⟩, _, InPlaceCommit.readJournal_text hparses hvalid hle⟩
  refine .bind
    (fun _ s => s = { s₀ with journal := some (commit.text libs home found) })
    (Spec.change ?_ ?_) fun _ => ?_
  · rintro s rfl
    exact .inl hbefore'
  · rintro s rfl
    rfl
  -- and so is the marker
  refine .bind
    (fun _ s => Transacting libs home commit s₀ found key request body torn events credentials ∧
      Marked libs home commit s₀ found body s)
    (Spec.mapFailure ?_ fun _ _ hs => hs) fun _ => Spec.of_and fun h => ?_
  · refine .bind
      (fun _ s => Transacting libs home commit s₀ found key request body torn events credentials ∧
        s = { s₀ with journal := some (commit.text libs home found) })
      (Spec.look ?_ ?_) fun _ => Spec.of_and fun h => ?_
    · rintro s records rfl hrecords
      obtain ⟨hmarked, -⟩ := then_eq_ok.mp hrecords
      have hid : (commit.marked libs home found).vaultId = commit.vaultId :=
        InPlaceCommit.vaultId_marked hread
      refine ⟨⟨hs₀.goodRecords, hs₀.unnamed, hsealed, hprepares, hid, hvalid, hle, hparses, ?_⟩, rfl⟩
      rw [← hid]
      exact hmarked
    · rintro s error rfl -
      exact hbefore'
    · have hmarked : Marked libs home commit s₀ found body
          { s₀ with
            records := setRecord s₀.records (libs.idKey (commit.marked libs home found).vaultId)
              (commit.marked libs home found)
            journal := some (commit.text libs home found) } :=
        ⟨by rw [h.vaultId_eq], rfl, .inl rfl, .inl rfl, rfl, rfl⟩
      refine .change ?_ ?_
      · rintro s rfl
        exact .inr ⟨h, .inl hmarked⟩
      · rintro s rfl
        exact ⟨h, hmarked⟩
  · exact .mapFailure ((h.spec_finishInPlace (.inl rfl)).crash_mono fun _ hs => .inr ⟨h, hs⟩)
      fun _ _ hs => hs.elim

/-- The record of a published transaction is not the one of before: it has a marker, or a later
checkpoint. -/
theorem Transacting.records_ne
    (h : Transacting libs home commit s₀ record key request body torn events credentials)
    (hread : readRecord libs s₀.records commit.vaultId = .ok record)
    (hpending : record.bind (·.pending) = none) (hs : Published libs home commit s₀ record body s) :
    s.records ≠ s₀.records := by
  intro heq
  have hlookup := lookup_of_readRecord hread
  rcases hs with hs | hs
  · rw [← heq, hs.records_eq, lookup_setRecord] at hlookup
    rw [← hlookup] at hpending
    cases hpending
  · rw [← heq, hs.records_eq, lookup_setRecord] at hlookup
    -- the checkpoint of before would be the one of the marker, which is later
    have hcommitted : (commit.marked libs home record).committed = some (commit.next libs) := by
      show (record.getD (.new commit.vaultId)).committed = _
      nth_rewrite 1 [← hlookup]
      rfl
    exact absurd (WitnessRecord.generation_lt_of_validate h.marked_valid rfl hcommitted)
      (Nat.lt_irrefl _)

end Finish

/-! ### Crash atomicity -/

/-- **An in-place transaction is crash-atomic.** From a committed state, with an append prepared for
its log, a commit crashes somewhere, and recovery, given a credential that opens the candidate,
crashes any number of times. As long as the marker has not been published nothing else has changed,
and a journal that was left over is removed. Once it has been, recovery does not fail; it leaves the
candidate, the recorded prefix and append, the next checkpoint without a marker, and no journal. -/
theorem commit_in_place_crash_atomic {commit : InPlaceCommit} {s₀ : VaultState} {key : Bytes}
    {request : AppendRequest} {credentials : List Credential}
    (hs₀ : CommittedState libs home commit.vaultId s₀)
    (hprepared : prepareAppend libs.toAuditLibraries
      { vault := s₀.envelope, audit := s₀.audit, auditTextReadLimit := home.auditTextReadLimit } key
      request = .ok commit.prepared)
    (hsealed : Sealed libs commit s₀ key credentials)
    (hparses : ∀ record, readRecord libs s₀.records commit.vaultId = .ok record →
      libs.parseJournal (libs.journalText (commit.journal libs home record)) =
        .ok (commit.journal libs home record))
    {s s' : VaultState} (hcrash : s ∈ (commitInPlace libs home commit).crashStates s₀)
    (hrecovery : (recoverPending libs home credentials).CrashRun s s') :
    (s.records = s₀.records →
      s'.records = s₀.records ∧ s'.envelope = s₀.envelope ∧ s'.audit = s₀.audit ∧
      classifyTargetJournal libs s'.records home.target.targetKey s'.journal =
        .ok (if s'.journal.isSome then .orphan else .absent) ∧
      (recoverPending libs home credentials s').result = .ok none ∧
      (recoverPending libs home credentials s').final =
        { s₀ with journal := none }) ∧
    (s.records ≠ s₀.records →
      ∃ recovered final record,
        (recoverPending libs home credentials s').result = .ok recovered ∧
        (recoverPending libs home credentials s').final = final ∧
        final.envelope = some (encode commit.candidate) ∧
        final.audit = some ((s₀.audit.getD []).take commit.prepared.transition.prefixLen ++
          encode commit.prepared.transition.append) ∧
        readRecord libs final.records commit.vaultId = .ok (some record) ∧
        record.committed = some (commit.next libs) ∧ record.pending = none ∧
        final.journal = none) := by
  obtain ⟨body, torn, events, hprepares⟩ := prepares_of_prepareAppend hprepared
  obtain ⟨record, hread, hpending⟩ := hs₀.record
  have hcommit := hs₀.spec_commitInPlace hread hpending hsealed hprepares (hparses record hread)
  have hbefore : Before libs home s₀ s₀ := ⟨rfl, rfl, rfl, ⟨rfl, rfl⟩, hs₀.journal⟩
  have hrecover : Spec (Before libs home s₀)
      (recoverPending libs home credentials) _ _ _ :=
    hs₀.spec_recoverPending (hsealed.header_eq _ (.inl rfl))
  -- the marker divides the crash states of the commit
  rcases hcommit.crashStates (fun s hs => .inl (hs ▸ hbefore)) rfl hcrash with hs | ⟨h, hs⟩
  · refine ⟨fun _ => ?_, fun hne => absurd hs.records_eq hne⟩
    have hs' := hrecover.of_crashRun hs hrecovery
    obtain ⟨found, hfound⟩ := hs'.journal
    obtain ⟨recovered, hresult, rfl, hfinal⟩ := hrecover.exists_ok hs'
    refine ⟨hs'.records_eq, hs'.envelope_eq, hs'.audit_eq, ?_, hresult, hfinal⟩
    rw [hs'.records_eq]
    exact classifyTargetJournal_of_unnamed hs₀.goodRecords hs₀.unnamed hfound
  · refine ⟨fun heq => absurd heq (h.records_ne hread hpending hs), fun _ => ?_⟩
    have hs' := h.spec_recoverPending.of_crashRun hs hrecovery
    obtain ⟨recovered, hresult, hfinal⟩ := h.spec_recoverPending.exists_ok hs'
    refine ⟨recovered, _, commit.promoted libs home record, hresult, hfinal, rfl, ?_, ?_, rfl, rfl,
      rfl⟩
    · rw [hprepares.take_prefixLen]
      rfl
    · exact readRecord_eq_ok_some.mpr
        ⟨h.validateVaultId_eq, lookup_setRecord _ _ _, h.promoted_valid⟩

end Jig.Vault

namespace Jig.Vault.SampleEdit

open Lib
open Lib.Utf8 (encode byteLen)
open SampleLog (key torn request recorded)
open SampleVault (home envelope)

def event : AuditEvent :=
  nextEvent (.ofEvents []) key request none recorded

def candidate : String := "\x7b\"version\":3,\"vault_id\":\"v\",\"payload\":\"two\"\x7d"

def prepared : PreparedAuditAppend where
  event := event
  line := event.line
  validLen := 0
  auditLen := byteLen torn
  tornSuffixSha256 := some (sha256Hex (.ofEvents []) (encode torn))
  needsSeparator := false

def commit : InPlaceCommit where
  kind := .edit
  vaultId := "v"
  previousEnvelopeSha256 := some (sha256Hex (.ofEvents []) (Text.bytes envelope))
  candidate := candidate.toList
  generation := 2
  prepared := prepared

def record : WitnessRecord := SampleVault.record (sha256Hex (.ofEvents []) [])

def journal : Journal := commit.journal (.ofTables [] [] []) home (some record)

def opened : UnlockedEnvelope where
  vaultId := "v"
  formatVersion := 3
  v3 := some { generation := 2, mutationAuditMac := event.mac }
  auditKey := key
  isSome_v3 := by simp

def libs : VaultLibraries String := .ofTables [event] [journal] [(candidate, opened)]

def start : VaultState where
  records := [("v", record)]
  journal := none
  directory := some (1, 3)
  audit := some (encode torn)
  envelope := some (Text.bytes envelope)
  stagings := []

theorem committedState_start : CommittedState libs home "v" start where
  goodRecords := by
    intro entry hentry
    cases List.mem_singleton.mp hentry
    exact ⟨by decide +kernel, rfl⟩
  unnamed := by
    intro entry hentry
    cases List.mem_singleton.mp hentry
    rfl
  record := ⟨some record, by decide +kernel, rfl⟩
  journal := ⟨none, rfl⟩

theorem sealed_commit : Sealed libs commit start key ["passphrase"] where
  previous_eq := rfl
  envelope_le := by
    intro bytes hbytes
    cases hbytes
    decide +kernel
  candidate_le := by decide +kernel
  collision_free := by
    intro bytes hbytes hsha
    cases hbytes
    exact absurd hsha (by decide +kernel)
  header_eq := by
    rintro envelope (rfl | rfl)
    · decide +kernel
    · decide +kernel
  authenticates := ⟨[], "passphrase", [], rfl, by simp, by decide +kernel⟩

theorem prepareAppend_start :
    prepareAppend libs.toAuditLibraries
      { vault := start.envelope, audit := start.audit,
        auditTextReadLimit := home.auditTextReadLimit } key request = .ok commit.prepared := by
  have hfacts : '\n' ∉ torn ∧ torn.all Text.isWhitespace = false ∧ event.line ≠ torn ∧
      byteLen torn ≤ 1000 ∧
      byteLen ([] : List Char) + 1 + byteLen (libs.toJson event) + 1 ≤ 1000 := by
    decide +kernel
  obtain ⟨hopen, hblank, hline, hlimit, hroom⟩ := hfacts
  have haccepted : Accepted libs.toAuditLibraries key [] torn [] :=
    ⟨.done _, fun _ => ⟨nofun, hopen, hblank,
      fromJson_ofEvents_eq_error (List.forall_mem_singleton.mpr hline)⟩⟩
  have hnext : nextEvent libs.toAuditLibraries key request none recorded = event :=
    nextEvent_ofEvents ..
  exact haccepted.prepareAppend_eq rfl hlimit rfl hnext hroom

theorem parseJournal_record {found : Option WitnessRecord}
    (hread : readRecord libs start.records commit.vaultId = .ok found) :
    libs.parseJournal (libs.journalText (commit.journal libs home found)) =
      .ok (commit.journal libs home found) := by
  have hfound : some record = found := lookup_of_readRecord hread
  subst hfound
  decide +kernel

/-- The marker is published, then the commit crashes; recovery crashes behind the first byte of the
event. -/
theorem commit_in_place_crash_atomic_edit :
    ∃ s s', s ∈ (commitInPlace libs home commit).crashStates start ∧
      s' ∈ (recoverPending libs home ["passphrase"]).crashStates s ∧
      s.records ≠ start.records ∧ s.audit = start.audit ∧ s'.audit = some [123] ∧
      ∃ recovered, (recoverPending libs home ["passphrase"] s').result = .ok recovered := by
  let s : VaultState := (commitInPlace libs home commit start).visited.getD 1 start
  let s' : VaultState := (recoverPending libs home ["passphrase"] s).visited.getD 2 start
  have hfacts : s ∈ (commitInPlace libs home commit).crashStates start ∧
      s' ∈ (recoverPending libs home ["passphrase"]).crashStates s ∧
      s.records ≠ start.records ∧ s.audit = start.audit ∧ s'.audit = some [123] := by
    decide +kernel
  obtain ⟨hs, hs', hne, haudit, haudit'⟩ := hfacts
  obtain ⟨recovered, final, promoted, hresult, -⟩ :=
    (commit_in_place_crash_atomic committedState_start prepareAppend_start sealed_commit
      (fun _ => parseJournal_record) hs (.crash .start hs')).2 hne
  exact ⟨s, s', hs, hs', hne, haudit, haudit', recovered, hresult⟩

end Jig.Vault.SampleEdit

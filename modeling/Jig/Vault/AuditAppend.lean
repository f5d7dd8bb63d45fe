import Jig.Lib.Lists
import Jig.Vault.EventJson

/-!
# Appends that are cut off

An append keeps the verified part of the log and writes one line behind it. `Accepted.cut` says what
verification makes of the log when any prefix of that line has been written, and
`audit_append_only` what that means for the events: they are never lost, whatever the sequence of
appends and wherever each was cut.
-/

namespace Jig.Vault

open Lib
open Lib.Utf8 (encode byteLen)

variable {libs : AuditLibraries} {key : Bytes} {text body torn : List Char}
  {events : List AuditEvent} {log : VerifiedAuditLog} {audit : Option Bytes}
  {events' : List AuditEvent} {event : AuditEvent}

theorem verifiedEvents_logOf (h : Accepted libs key body torn events) :
    verifiedEvents libs (body ++ torn) (logOf libs body torn events) = events := by
  unfold verifiedEvents
  rw [show (logOf libs body torn events).validLen = byteLen body from rfl, Utf8.sliceTo_append]
  exact h.body_accepts.filterMap_eq

/-- The verified part of a log, by itself. -/
theorem Accepted.keep (h : Accepted libs key body torn events) : Accepted libs key body [] events :=
  ⟨h.body_accepts, fun hne => absurd rfl hne⟩

/-! ### The line that is added -/

/-- What goes between the verified part of a log and the next line. -/
def separator (needsSeparator : Bool) : List Char :=
  if needsSeparator then ['\n'] else []

/-- With its separator the verified part of a log is lines that all end. -/
theorem Accepted.exists_ended (h : Accepted libs key body torn events) :
    ∃ whole, (∀ l ∈ whole, l.2 = true) ∧ (∀ l ∈ whole, '\n' ∉ l.1) ∧
      writeLines '\n' whole = body ++ separator (logOf libs body torn events).prefixNeedsSeparator ∧
      Accepts libs key none whole events [] := by
  have hbody : writeLines '\n' (splitLines '\n' [] body) = body := writeLines_splitLines [] _
  have hsep : ∀ l ∈ splitLines '\n' [] body, '\n' ∉ l.1 :=
    notMem_of_mem_splitLines body List.not_mem_nil
  have hdrop : ∀ l ∈ (splitLines '\n' [] body).dropLast, l.2 = true := ended_of_mem_dropLast
  have haccepts := h.body_accepts
  show ∃ whole, _ ∧ _ ∧ _ = body ++ separator (body ≠ [] && body.getLast? != some '\n') ∧ _
  generalize splitLines '\n' [] body = lines at *
  subst hbody
  rcases List.eq_nil_or_concat lines with rfl | ⟨init, ⟨line, ended⟩, hlines⟩
  · exact ⟨[], by simp, by simp, rfl, haccepts⟩
  · rw [List.concat_eq_append] at hlines
    subst hlines
    rw [List.dropLast_concat] at hdrop
    rw [List.forall_mem_append, List.forall_mem_singleton] at hsep
    have hended : ∀ l ∈ init ++ [(line, true)], l.2 = true := forall_mem_concat hdrop rfl
    have hsep' : ∀ l ∈ init ++ [(line, true)], '\n' ∉ l.1 := forall_mem_concat hsep.1 hsep.2
    have hline : line ≠ [] := haccepts.ne_nil_of_mem (line, ended) (by simp)
    refine ⟨init ++ [(line, true)], hended, hsep', ?_, haccepts.congr rfl (by simp)⟩
    cases ended with
    | true => simp [writeLines, separator]
    | false =>
        have hlast : line.getLast? ≠ some '\n' := fun hlast =>
          hsep.2 (List.mem_of_getLast? hlast)
        have hneeds : ((writeLines '\n' init ++ line).getLast? != some '\n') = true := by
          rw [List.getLast?_append_of_ne_nil _ hline]
          simpa using hlast
        have hwrite : writeLines '\n' (init ++ [(line, false)]) = writeLines '\n' init ++ line := by
          simp [writeLines]
        rw [hwrite, hneeds, writeLines_append]
        simp [hline, separator, writeLines]

/-- An event that may come next. -/
structure Follows (libs : AuditLibraries) (key : Bytes) (events : List AuditEvent)
    (event : AuditEvent) : Prop where
  previousMac_eq : event.previousMac = tipMac none events
  mac_eq : event.mac = eventMac libs key event.forMac

/-- What is accepted of a line that was cut off after `r`. -/
theorem Follows.accepts_cut (hlibs : libs.Lawful event) (h : Follows libs key events event)
    {r : List Char} (hr : r <+: libs.toJson event ++ ['\n']) :
    Accepts libs key (tipMac none events) (splitLines '\n' [] r)
      (if libs.toJson event <+: r then [event] else [])
      (if libs.toJson event <+: r then [] else r) := by
  obtain ⟨rest, hobject⟩ := hlibs.toJson_object
  have hline := hlibs.toJson_line
  have hblank : (libs.toJson event).all Text.isWhitespace = false := by
    rw [hobject]
    rfl
  have hevent (ended : Bool) :
      Accepts libs key (tipMac none events) [(libs.toJson event, ended)] [event] [] :=
    .event hblank hlibs.fromJson_toJson h.previousMac_eq h.mac_eq (.done _)
  have hne : libs.toJson event ≠ [] := by
    rw [hobject]
    simp
  rcases List.prefix_concat_iff.mp hr with rfl | hcut
  · -- the whole line and its newline
    rw [if_pos (List.prefix_append _ _), if_pos (List.prefix_append _ _), splitLines_append hline]
    exact hevent true
  by_cases hwhole : libs.toJson event <+: r
  · -- the whole line
    obtain rfl : r = libs.toJson event := hcut.eq_of_length_le hwhole.length_le
    rw [if_pos hwhole, if_pos hwhole, splitLines_of_notMem hline [] hne]
    exact hevent false
  rw [if_neg hwhole, if_neg hwhole]
  cases r with
  | nil => exact .done _
  | cons c r =>
      -- a part of the line, which starts as the object does
      have hc : c = '{' := by
        rw [hobject] at hcut
        exact (List.cons_prefix_cons.mp hcut).1
      obtain ⟨error, hparse⟩ := hlibs.fromJson_cut _ hcut fun heq =>
        hwhole (heq ▸ List.prefix_refl _)
      have hopen : '\n' ∉ c :: r := fun hmem => hline (hcut.subset hmem)
      rw [splitLines_of_notMem hopen [] (by simp), List.nil_append]
      refine .torn ?_ hparse
      subst hc
      rfl

/-- A log of one event and a torn line. -/
theorem Follows.accepted_line (h : Follows libs key [] event) (hlibs : libs.Lawful event)
    (hopen : '\n' ∉ torn) (hblank : torn.all Text.isWhitespace = false)
    (herror : ∃ error, libs.fromJson torn = .error error) :
    Accepted libs key (libs.toJson event ++ ['\n']) torn [event] := by
  have hwhole : libs.toJson event <+: libs.toJson event ++ ['\n'] := List.prefix_append _ _
  have haccepts := h.accepts_cut hlibs (List.prefix_refl _)
  rw [if_pos hwhole, if_pos hwhole] at haccepts
  refine ⟨haccepts, fun _ => ⟨?_, hopen, hblank, herror⟩⟩
  rw [splitLines_append hlibs.toJson_line]
  exact List.forall_mem_singleton.mpr rfl

/-- **Cut anywhere.** Behind the verified part of a log any prefix of the next line, with its
separator, leaves a log that is accepted; the event is in it as soon as the line is whole. -/
theorem Accepted.cut (hlibs : libs.Lawful event) (h : Accepted libs key body torn events)
    (hfollows : Follows libs key events event) {needsSeparator : Bool}
    (hneeds : needsSeparator = (logOf libs body torn events).prefixNeedsSeparator) {q : List Char}
    (hq : q <+: separator needsSeparator ++ libs.toJson event ++ ['\n']) :
    ∃ body' torn', body ++ q = body' ++ torn' ∧ Accepted libs key body' torn'
      (events ++ if separator needsSeparator ++ libs.toJson event <+: q then [event] else []) := by
  obtain ⟨whole, hended, hsep, hwrite, haccepts⟩ := h.exists_ended
  rw [← hneeds] at hwrite
  obtain ⟨rest, hobject⟩ := hlibs.toJson_object
  by_cases hstart : separator needsSeparator <+: q
  · obtain ⟨r, rfl⟩ := hstart
    rw [List.append_assoc, List.prefix_append_right_inj] at hq
    simp only [List.prefix_append_right_inj]
    have hlines := haccepts.append rfl (hfollows.accepts_cut hlibs hq)
    rw [← splitLines_writeLines_append hended hsep, hwrite, List.append_assoc] at hlines
    obtain ⟨body', htext, haccepted⟩ := hlines.exists_accepted
    exact ⟨body', _, htext, haccepted⟩
  · -- only the empty prefix misses the separator
    have hnil : q = [] := by
      cases needsSeparator with
      | false => exact absurd (List.nil_prefix) hstart
      | true =>
          cases q with
          | nil => rfl
          | cons c q =>
              obtain ⟨rfl, -⟩ := List.cons_prefix_cons.mp hq
              exact absurd (List.cons_prefix_cons.mpr ⟨rfl, List.nil_prefix⟩) hstart
    subst hnil
    refine ⟨body, [], rfl, ?_⟩
    rw [if_neg (by simp [hobject]), List.append_nil]
    exact h.keep

/-! ### ASCII -/

theorem isAsciiText_toString (n : Nat) : isAsciiText (toString n) = true := by
  have hdigits : (toString n).toList = Nat.toDigits 10 n := by simp [toString]
  rw [isAsciiText, hdigits, List.all_eq_true]
  intro c hc
  have hdigit := Nat.isDigit_of_mem_toDigits (by decide) (by decide) hc
  simp only [Char.isDigit, Bool.and_eq_true, decide_eq_true_eq] at hdigit
  have hle : c.val.toNat ≤ 57 := hdigit.2
  have hlt : c.toNat < 128 := by
    show c.val.toNat < 128
    omega
  exact decide_eq_true hlt

theorem isAsciiText_lowerHex (digest : Bytes) : isAsciiText (Text.lowerHex digest) = true := by
  rw [isAsciiText, List.all_eq_true]
  intro c hc
  have hdigits : "0123456789abcdef".toList.all Utf8.isAscii = true := by decide
  exact List.all_eq_true.mp hdigits c (Text.mem_hexDigits_of_mem_lowerHex hc)

theorem entriesAreAscii_iff {entries : List (String × Value)} :
    entriesAreAscii entries = true ↔
      ∀ entry ∈ entries, isAsciiText entry.1 = true ∧ entry.2.isAscii = true := by
  induction entries with
  | nil => simp [entriesAreAscii]
  | cons entry rest ih =>
      rw [entriesAreAscii, Bool.and_eq_true, Bool.and_eq_true, ih, List.forall_mem_cons]

/-- The recovery note is ASCII. -/
theorem isAscii_of_detailsWithRecovery {details details' : Value} {bytes : Nat}
    (h : detailsWithRecovery details bytes = .ok details') (hascii : details.isAscii = true) :
    details'.isAscii = true := by
  have hnumber : (Value.number (toString bytes)).isAscii = true := by
    rw [Value.isAscii, isAsciiText_toString]
  have hkey : isAsciiText "truncated_torn_tail_bytes" = true := by decide
  have hdetails : isAsciiText "details" = true := by decide
  unfold detailsWithRecovery at h
  split at h
  · cases h
    exact hascii
  obtain ⟨-, h⟩ := ite_error_eq_ok.mp h
  cases details with
  | object entries =>
      cases h
      rw [Value.isAscii, entriesAreAscii_iff] at hascii ⊢
      intro entry hentry
      rcases List.mem_append.mp hentry with hentry | hentry
      · exact hascii entry (List.mem_of_mem_filter hentry)
      rcases List.mem_cons.mp hentry with rfl | hentry
      · exact ⟨hkey, hnumber⟩
      · exact hascii entry (List.mem_of_mem_filter hentry)
  | null | bool | number | string | array =>
      cases h
      rw [Value.isAscii, entriesAreAscii_iff, List.forall_mem_cons, List.forall_mem_singleton]
      exact ⟨⟨hdetails, hascii⟩, hkey, hnumber⟩

/-- Nothing outside ASCII is asked to be recorded. A ULID is ASCII. -/
def AppendRequest.isAscii (request : AppendRequest) : Bool :=
  request.details.isAscii && isAsciiText request.eventId

theorem AuditAction.isAscii_asStr (action : AuditAction) : isAsciiText action.asStr = true := by
  cases action <;> decide

/-! ### Preparing -/

variable {store : AuditStore} {request : AppendRequest} {prepared : PreparedAuditAppend}

/-- **What is prepared.** The next event behind the events of the log, with the lengths and the
separator of that log. -/
structure Prepares (libs : AuditLibraries) (key : Bytes) (audit : Option Bytes)
    (limit : Nat) (request : AppendRequest) (prepared : PreparedAuditAppend)
    (body torn : List Char) (events : List AuditEvent) : Prop where
  audit_eq : audit = some (encode (body ++ torn)) ∨ audit = none ∧ body = [] ∧ torn = []
  accepted : Accepted libs key body torn events
  follows : Follows libs key events prepared.event
  isAscii : request.isAscii = true → prepared.event.isAscii = true
  line_eq : prepared.line = libs.toJson prepared.event
  validLen_eq : prepared.validLen = byteLen body
  auditLen_eq : prepared.auditLen = byteLen body + byteLen torn
  tornSuffixSha256_eq : prepared.tornSuffixSha256 = (logOf libs body torn events).tornSuffixSha256
  needsSeparator_eq :
    prepared.needsSeparator = (logOf libs body torn events).prefixNeedsSeparator
  audit_le : byteLen body + byteLen torn ≤ limit
  append_le : byteLen body + byteLen prepared.transition.append ≤ limit

theorem verifyChainForAppend_eq_ok {allowMissing : Bool}
    (h : verifyChainForAppend libs store key allowMissing = .ok log) :
    ∃ body torn events,
      (store.audit = some (encode (body ++ torn)) ∨
        store.audit = none ∧ body = [] ∧ torn = []) ∧
      byteLen body + byteLen torn ≤ store.auditTextReadLimit ∧
      Accepted libs key body torn events ∧ log = logOf libs body torn events := by
  obtain ⟨read, hread, h⟩ := bind_eq_ok.mp h
  unfold AuditStore.readAuditText at hread
  cases haudit : store.audit with
  | none =>
      rw [haudit] at hread
      cases hread
      obtain ⟨-, h⟩ := ite_else_error_eq_ok.mp h
      cases h
      exact ⟨[], [], [], .inr ⟨rfl, rfl, rfl⟩, Nat.zero_le _,
        ⟨.done _, fun hne => absurd rfl hne⟩, rfl⟩
  | some bytes =>
      rw [haudit] at hread
      obtain ⟨hlimit, hread⟩ := ite_error_eq_ok.mp hread
      cases htext : Utf8.decode? bytes with
      | none => simp [htext] at hread
      | some text =>
          simp only [htext, Except.ok.injEq] at hread
          subst hread
          obtain ⟨body, torn, events, rfl, haccepted, rfl⟩ := verifyChainText_eq_ok_iff.mp h
          have hbytes := Utf8.encode_of_decode? htext
          refine ⟨body, torn, events, .inl (by rw [hbytes]), ?_, haccepted, rfl⟩
          rw [← Utf8.byteLen_append]
          unfold byteLen
          rw [hbytes]
          omega

/-- Where there is room for one more event, it is prepared behind what is verified of the log. -/
theorem Accepted.prepareAppend_eq {details : Value} (h : Accepted libs key body torn events)
    (haudit : store.audit = some (encode (body ++ torn)))
    (hlimit : byteLen (body ++ torn) ≤ store.auditTextReadLimit)
    (hdetails : detailsWithRecovery request.details (byteLen torn) = .ok details)
    (hevent : nextEvent libs key request (tipMac none events) details = event)
    (hroom : byteLen body + 1 + byteLen (libs.toJson event) + 1 ≤
      store.auditTextReadLimit) :
    prepareAppend libs store key request = .ok
      { event
        line := libs.toJson event
        validLen := byteLen body
        auditLen := byteLen body + byteLen torn
        tornSuffixSha256 := (logOf libs body torn events).tornSuffixSha256
        needsSeparator := (logOf libs body torn events).prefixNeedsSeparator } := by
  subst hevent
  have hread : store.readAuditText = .ok (some (body ++ torn)) := by
    have hfits : ¬(encode (body ++ torn)).length > store.auditTextReadLimit :=
      Nat.not_lt.mpr hlimit
    unfold AuditStore.readAuditText
    rw [haudit]
    show (if (encode (body ++ torn)).length > _ then _ else _) = _
    rw [if_neg hfits, Utf8.decode?_encode]
  unfold prepareAppend verifyChainForAppend
  rw [hread]
  show (verifyChainText libs (body ++ torn) key >>= _) = _
  rw [h.verifyChainText_eq]
  have hsize : (logOf libs body torn events).auditLen - (logOf libs body torn events).validLen =
      byteLen torn := Nat.add_sub_cancel_left ..
  show (detailsWithRecovery request.details
    ((logOf libs body torn events).auditLen - (logOf libs body torn events).validLen) >>= _) = _
  rw [hsize, hdetails]
  have hroom' (separator : Nat) (hseparator : separator ≤ 1) :
      ¬byteLen body + separator + byteLen (libs.toJson
        (nextEvent libs key request (tipMac none events) details)) + 1 >
          store.auditTextReadLimit := by
    omega
  refine if_neg (hroom' _ ?_)
  split
  · exact Nat.le_refl _
  · exact Nat.zero_le _

theorem prepares_of_prepareAppend (h : prepareAppend libs store key request = .ok prepared) :
    ∃ body torn events,
      Prepares libs key store.audit store.auditTextReadLimit request prepared body torn events := by
  obtain ⟨log, hlog, h⟩ := bind_eq_ok.mp h
  obtain ⟨details, hdetails, h⟩ := bind_eq_ok.mp h
  obtain ⟨body, torn, events, haudit, hlimit, haccepted, rfl⟩ := verifyChainForAppend_eq_ok hlog
  obtain ⟨hsize, h⟩ := ite_error_eq_ok.mp h
  cases h
  refine ⟨body, torn, events, haudit, haccepted, ⟨rfl, rfl⟩, ?_, rfl, rfl, rfl, rfl, rfl, hlimit, ?_⟩
  · intro hascii
    rw [AppendRequest.isAscii, Bool.and_eq_true] at hascii
    have hmac : (tipMac none events).all isAsciiText = true := by
      obtain hnone | ⟨covered, hsome⟩ := haccepted.body_accepts.tipMac_eq
      · rw [hnone]
        rfl
      · rw [hsome]
        exact isAsciiText_lowerHex _
    simp only [AuditEvent.isAscii, nextEvent, logOf, Bool.and_eq_true]
    exact ⟨⟨⟨⟨hascii.2, request.action.isAscii_asStr⟩, hmac⟩,
      isAscii_of_detailsWithRecovery hdetails hascii.1⟩, isAsciiText_lowerHex _⟩
  · have hnewline : byteLen ['\n'] = 1 := rfl
    simp only [PreparedAuditAppend.transition, Utf8.byteLen_append] at hsize ⊢
    cases hneeds : (logOf libs body torn events).prefixNeedsSeparator with
    | true =>
        rw [hneeds, if_pos rfl] at hsize
        rw [if_pos rfl]
        exact not_lt.mp (by simpa [logOf, hnewline, Nat.add_assoc] using hsize)
    | false =>
        rw [hneeds, if_neg (by simp)] at hsize
        rw [if_neg (by simp), Utf8.byteLen_nil]
        exact not_lt.mp (by simpa [logOf, hnewline, Nat.add_assoc] using hsize)

/-- One text has one reading. -/
theorem Accepted.unique {body' torn' : List Char} (h : Accepted libs key body torn events)
    (h' : Accepted libs key body' torn' events') (htext : body ++ torn = body' ++ torn') :
    body = body' ∧ torn = torn' ∧ events = events' := by
  have hlog : logOf libs body torn events = logOf libs body' torn' events' := by
    have heq := h.verifyChainText_eq
    rw [htext, h'.verifyChainText_eq, Except.ok.injEq] at heq
    exact heq.symm
  have hbody : body = body' := by
    have hslice := congrArg (Utf8.sliceTo (logOf libs body torn events).validLen) htext
    nth_rewrite 2 [hlog] at hslice
    rwa [show (logOf libs body torn events).validLen = byteLen body from rfl,
      show (logOf libs body' torn' events').validLen = byteLen body' from rfl,
      Utf8.sliceTo_append, Utf8.sliceTo_append] at hslice
  have hevents := verifiedEvents_logOf h
  rw [htext, hlog, verifiedEvents_logOf h'] at hevents
  subst hbody
  exact ⟨rfl, List.append_cancel_left htext, hevents.symm⟩

namespace Prepares

variable {limit : Nat}

section

variable (h : Prepares libs key audit limit request prepared body torn events)

include h

theorem unique {body' torn' : List Char} (h' : Accepted libs key body' torn' events')
    (haudit : audit = some (encode (body' ++ torn'))) :
    body = body' ∧ torn = torn' ∧ events = events' := by
  refine h.accepted.unique h' ?_
  obtain haudit' | ⟨hnone, -⟩ := h.audit_eq
  · rw [haudit', Option.some.injEq] at haudit
    have hdecode := congrArg Utf8.decode? haudit
    rwa [Utf8.decode?_encode, Utf8.decode?_encode, Option.some.injEq] at hdecode
  · rw [hnone] at haudit
    cases haudit

/-- The verified part of the log is kept. -/
theorem getD_kept :
    (prepared.kept audit).getD [] = encode body := by
  unfold PreparedAuditAppend.kept
  rw [h.validLen_eq, h.auditLen_eq]
  obtain haudit | ⟨haudit, rfl, rfl⟩ := h.audit_eq
  · subst haudit
    split
    · exact Utf8.take_encode body torn
    · next hlt =>
        have htorn : torn = [] := not_not.mp fun hne =>
          hlt (by have := Utf8.byteLen_pos.mpr hne; omega)
        rw [htorn, List.append_nil]
        rfl
  · rw [haudit]
    rfl

/-- **Two ways to the separator.** What the append writes, looking at the last byte of the file, is
what the transition says, looking at the verified text. -/
theorem written_eq :
    prepared.written audit = encode prepared.transition.append := by
  have hneeds : prepared.needsSeparator = (body ≠ [] && body.getLast? != some '\n') :=
    h.needsSeparator_eq
  unfold PreparedAuditAppend.written auditLineWrites
  rw [h.getD_kept]
  show _ = encode ((if prepared.needsSeparator then ['\n'] else []) ++ prepared.line ++ ['\n'])
  have hlast : (encode body).getLast? = some 10 ↔ body.getLast? = some '\n' :=
    Utf8.getLast?_encode_eq_newline_iff
  cases hbyte : (encode body).getLast? with
  | none =>
      have hbody : body = [] := by
        have hnil := List.getLast?_eq_none_iff.mp hbyte
        exact not_not.mp fun hne =>
          absurd (Utf8.byteLen_pos.mpr hne) (by simp [byteLen, hnil])
      rw [hneeds, hbody]
      simp
  | some last =>
      have hbody : body ≠ [] := by
        rintro rfl
        cases hbyte
      rw [hbyte, Option.some.injEq] at hlast
      by_cases hnewline : last = 10
      · rw [hneeds, hlast.mp hnewline]
        simp [hnewline]
      · have hchar : (body.getLast? != some '\n') = true := by simpa using mt hlast.mpr hnewline
        rw [hneeds, hchar]
        simp [hnewline, hbody]

theorem commit_eq :
    prepared.commit audit =
      .ok (prepared.event, encode body ++ encode prepared.transition.append) := by
  have hlen : (audit.getD []).length = prepared.auditLen := by
    rw [h.auditLen_eq, ← Utf8.byteLen_append]
    obtain haudit | ⟨haudit, rfl, rfl⟩ := h.audit_eq
    · rw [haudit]
      rfl
    · rw [haudit]
      rfl
  unfold PreparedAuditAppend.commit
  rw [if_neg (not_not.mpr hlen), h.getD_kept, h.written_eq]

end

/-- The log that a cut append leaves. -/
theorem cut (hlibs : libs.Lawful prepared.event)
    (h : Prepares libs key audit limit request prepared body torn events)
    (hascii : request.isAscii = true) {p : Bytes}
    (hp : p <+: encode prepared.transition.append) :
    ∃ body' torn', encode body ++ p = encode (body' ++ torn') ∧
      Accepted libs key body' torn'
        (events ++ if encode (separator prepared.needsSeparator ++ prepared.line) <+: p then
          [prepared.event] else []) := by
  have happend : prepared.transition.append =
      separator prepared.needsSeparator ++ prepared.line ++ ['\n'] := rfl
  have hchars : ∀ c ∈ prepared.transition.append, Utf8.isAscii c = true := by
    have hline := hlibs.toJson_ascii (h.isAscii hascii)
    rw [happend, h.line_eq, List.forall_mem_append, List.forall_mem_append, List.forall_mem_singleton]
    refine ⟨⟨?_, hline⟩, by decide⟩
    cases prepared.needsSeparator with
    | true => exact List.all_eq_true.mp (by decide)
    | false => exact List.all_eq_true.mp (by decide)
  obtain ⟨q, hq, rfl⟩ := Utf8.exists_of_isPrefix_encode hchars hp
  have hwhole : separator prepared.needsSeparator ++ prepared.line <+: prepared.transition.append :=
    List.prefix_append _ _
  simp only [Utf8.encode_isPrefix_encode_iff hchars hwhole hq]
  rw [happend, h.line_eq] at hq
  obtain ⟨body', torn', htext, haccepted⟩ :=
    h.accepted.cut hlibs h.follows h.needsSeparator_eq hq
  rw [h.line_eq]
  exact ⟨body', torn', by rw [← htext, Utf8.encode_append], haccepted⟩

end Prepares

/-! ### Sequences of appends -/

/-- Appends to one log, each cut off anywhere: before the torn tail of the log is dropped nothing
changes, and afterwards any prefix of what is written may be there. -/
inductive AppendRun (libs : AuditLibraries) (key : Bytes) (start : Option Bytes) :
    Option Bytes → Prop
  | start : AppendRun libs key start start
  | cut {store : AuditStore} {request : AppendRequest} {prepared : PreparedAuditAppend}
      {p : Bytes} (hrun : AppendRun libs key start store.audit)
      (hprepared : prepareAppend libs store key request = .ok prepared)
      (hascii : request.isAscii = true) (hlibs : libs.Lawful prepared.event)
      (hp : p <+: prepared.written store.audit) :
      AppendRun libs key start (some ((prepared.kept store.audit).getD [] ++ p))

/-- What a run keeps: the events of its start, in place. -/
theorem AppendRun.accepted (h : Accepted libs key body torn events)
    (hrun : AppendRun libs key (some (encode (body ++ torn))) audit) :
    ∃ body' torn' events', audit = some (encode (body' ++ torn')) ∧
      Accepted libs key body' torn' events' ∧ events <+: events' := by
  induction hrun with
  | start => exact ⟨body, torn, events, rfl, h, List.prefix_refl _⟩
  | @cut store request prepared p _ hprepared hascii hlibs hp ih =>
      obtain ⟨body', torn', events', haudit, haccepted, hkeeps⟩ := ih
      obtain ⟨body₁, torn₁, events₁, hprepares⟩ := prepares_of_prepareAppend hprepared
      -- what was prepared is about the log the run has reached
      obtain ⟨rfl, rfl, rfl⟩ := hprepares.unique haccepted haudit
      rw [hprepares.written_eq] at hp
      obtain ⟨body₂, torn₂, hbytes, haccepted₂⟩ := hprepares.cut hlibs hascii hp
      refine ⟨body₂, torn₂, _, ?_, haccepted₂, hkeeps.trans (List.prefix_append _ _)⟩
      rw [hprepares.getD_kept, hbytes]

/-- **Append-only, through torn writes.** For a log that verifies: what an append writes is the
recorded transition; wherever it is cut, the log verifies with the events it had, and with the new
one exactly when its line is whole; and over any sequence of cut appends the events that were
verified stay, in place, in a chain that is linked by MACs. -/
theorem audit_append_only
    (hverified : verifyChainText libs text key = .ok log) :
    (∀ (store : AuditStore) (request : AppendRequest) (prepared : PreparedAuditAppend),
      store.audit = some (encode text) → request.isAscii = true →
      prepareAppend libs store key request = .ok prepared →
      prepared.written store.audit = encode prepared.transition.append ∧
      prepared.commit store.audit = .ok (prepared.event,
        (encode text).take log.validLen ++ encode prepared.transition.append) ∧
      (libs.Lawful prepared.event → ∀ p, p <+: encode prepared.transition.append →
        ∃ text' log', encode text' = (encode text).take log.validLen ++ p ∧
          verifyChainText libs text' key = .ok log' ∧
          verifiedEvents libs text' log' = verifiedEvents libs text log ++
            if encode (separator prepared.needsSeparator ++ prepared.line) <+: p then
              [prepared.event] else [])) ∧
    ∀ audit, AppendRun libs key (some (encode text)) audit →
      ∃ text' log', audit = some (encode text') ∧
        verifyChainText libs text' key = .ok log' ∧
        verifiedEvents libs text log <+: verifiedEvents libs text' log' ∧
        Linked none (verifiedEvents libs text' log') := by
  obtain ⟨body, torn, events, rfl, haccepted, rfl⟩ := verifyChainText_eq_ok_iff.mp hverified
  rw [verifiedEvents_logOf haccepted]
  have hkeep : (encode (body ++ torn)).take (logOf libs body torn events).validLen =
      encode body := Utf8.take_encode body torn
  rw [hkeep]
  constructor
  · intro store request prepared haudit hascii hprepared
    obtain ⟨body₁, torn₁, events₁, hprepares⟩ := prepares_of_prepareAppend hprepared
    obtain ⟨rfl, rfl, rfl⟩ := hprepares.unique haccepted haudit
    refine ⟨hprepares.written_eq, hprepares.commit_eq, fun hlibs p hp => ?_⟩
    obtain ⟨body', torn', hbytes, haccepted'⟩ := hprepares.cut hlibs hascii hp
    exact ⟨_, _, hbytes.symm, haccepted'.verifyChainText_eq, verifiedEvents_logOf haccepted'⟩
  · intro audit hrun
    obtain ⟨body', torn', events', haudit, haccepted', hkeeps⟩ := hrun.accepted haccepted
    refine ⟨_, _, haudit, haccepted'.verifyChainText_eq, ?_⟩
    rw [verifiedEvents_logOf haccepted']
    exact ⟨hkeeps, haccepted'.body_accepts.linked⟩

end Jig.Vault

namespace Jig.Vault.SampleLog

open Lib
open Lib.Utf8 (encode byteLen)

def key : Bytes := Text.bytes "key"

def initialization : AppendRequest where
  action := .vaultInitialized
  details := .object [("generation", .number "1")]
  eventId := "01JCZ0"
  timestampMs := 1731715200000

def first : AuditEvent :=
  nextEvent (.ofEvents []) key initialization none initialization.details

def torn : List Char := "\x7b\"version\":1,".toList

def request : AppendRequest where
  action := .secretSet
  details := .object [("field", .string "token")]
  eventId := "01JCZ1"
  timestampMs := 1731715260000

/-- The details that are recorded, with a note of the bytes that are cut off. -/
def recorded : Value :=
  .object (insertEntry "truncated_torn_tail_bytes" (.number (toString (byteLen torn)))
    [("field", .string "token")])

def second : AuditEvent :=
  nextEvent (.ofEvents []) key request (some first.mac) recorded

def libs : AuditLibraries := .ofEvents [first, second]

def text : List Char := libs.toJson first ++ ['\n'] ++ torn

def store : AuditStore where
  vault := some []
  audit := some (encode text)
  auditTextReadLimit := 1000

theorem lawful_libs : libs.Lawful first ∧ libs.Lawful second := by
  have hlines : (first.line.head? = some '{' ∧ '\n' ∉ first.line ∧
        first.line.all Utf8.isAscii = true) ∧
      (second.line.head? = some '{' ∧ '\n' ∉ second.line ∧
        second.line.all Utf8.isAscii = true) ∧
      ¬first.line <+: second.line ∧ ¬second.line <+: first.line := by decide +kernel
  obtain ⟨hfirst, hsecond, hapart, hapart'⟩ := hlines
  constructor
  · refine lawful_ofEvents List.mem_cons_self ?_ hfirst
    exact List.forall_mem_cons.mpr ⟨fun _ => rfl,
      List.forall_mem_singleton.mpr fun hpre => absurd hpre hapart'⟩
  · refine lawful_ofEvents (List.mem_cons_of_mem _ List.mem_cons_self) ?_ hsecond
    exact List.forall_mem_cons.mpr ⟨fun hpre => absurd hpre hapart,
      List.forall_mem_singleton.mpr fun _ => rfl⟩

theorem accepted_text : Accepted libs key (libs.toJson first ++ ['\n']) torn [first] := by
  have hfacts : '\n' ∉ torn ∧ torn.all Text.isWhitespace = false ∧
      ∀ line ∈ [first.line, second.line], line ≠ torn := by decide +kernel
  have hfirst : nextEvent libs key initialization none initialization.details = first :=
    nextEvent_ofEvents ..
  have hfollows : Follows libs key [] first := hfirst ▸ ⟨rfl, rfl⟩
  refine hfollows.accepted_line lawful_libs.1 hfacts.1 hfacts.2.1 (fromJson_ofEvents_eq_error ?_)
  simpa using hfacts.2.2

/-- An append behind a torn write, cut off before its newline, leaves a log of both events. -/
theorem audit_append_only_torn :
    ∃ prepared log text' log', prepareAppend libs store key request = .ok prepared ∧
      verifyChainText libs text key = .ok log ∧
      encode text' = (encode text).take log.validLen ++
        encode (separator prepared.needsSeparator ++ prepared.line) ∧
      verifyChainText libs text' key = .ok log' ∧
      verifiedEvents libs text' log' = [first, second] := by
  have hsizes : byteLen (libs.toJson first ++ ['\n'] ++ torn) ≤ 1000 ∧
      byteLen (libs.toJson first ++ ['\n']) + 1 + byteLen (libs.toJson second) + 1 ≤
        1000 := by
    decide +kernel
  have hnext : nextEvent libs key request (tipMac none [first]) recorded = second :=
    nextEvent_ofEvents ..
  obtain ⟨prepared, hprepared, hevent⟩ : ∃ prepared, prepareAppend libs store key request =
      .ok prepared ∧ prepared.event = second :=
    ⟨_, accepted_text.prepareAppend_eq rfl hsizes.1 rfl hnext hsizes.2, rfl⟩
  have hverify : verifyChainText libs text key = _ := accepted_text.verifyChainText_eq
  obtain ⟨-, -, hcut⟩ := (audit_append_only hverify).1 store request prepared rfl rfl hprepared
  have hline : encode (separator prepared.needsSeparator ++ prepared.line) <+:
      encode prepared.transition.append := ⟨encode ['\n'], (Utf8.encode_append _ _).symm⟩
  obtain ⟨text', log', htext, hlog, hevents⟩ := hcut (hevent ▸ lawful_libs.2) _ hline
  have hbefore : verifiedEvents libs text _ = [first] := verifiedEvents_logOf accepted_text
  rw [if_pos (List.prefix_refl _), hbefore, hevent] at hevents
  exact ⟨prepared, _, text', log', hprepared, hverify, htext, hlog, hevents⟩

end Jig.Vault.SampleLog

import Jig.Lib.Fallible
import Jig.Vault.Audit

/-!
# What verification accepts

`verifyChainText` walks over the lines of a log with a cursor of byte offsets. `Accepts` says what
it looks for, without offsets: lines that parse to linked events, and behind them at most one torn
line. `verifyChainText_eq_ok_iff` says that verification finds exactly that, and that its result is
`logOf` the text before the torn line, the torn line and the events.
-/

namespace Jig.Vault

open Lib
open Lib.Utf8 (encode byteLen)

/-! ### Assumptions about JSON -/

def isAsciiText (text : String) : Bool :=
  text.toList.all Utf8.isAscii

mutual

def Value.isAscii : Value → Bool
  | .null | .bool _ => true
  | .number text | .string text => isAsciiText text
  | .array values => valuesAreAscii values
  | .object entries => entriesAreAscii entries

def valuesAreAscii : List Value → Bool
  | [] => true
  | value :: rest => value.isAscii && valuesAreAscii rest

def entriesAreAscii : List (String × Value) → Bool
  | [] => true
  | (key, value) :: rest => isAsciiText key && value.isAscii && entriesAreAscii rest

end

def AuditEvent.isAscii (event : AuditEvent) : Bool :=
  isAsciiText event.eventId && isAsciiText event.action && event.previousMac.all isAsciiText &&
    event.details.isAscii && isAsciiText event.mac

/-- What is assumed of `serde_json` at an event that is written: it is read back, an object that is
cut off is no value, and the compact form is one line that is ASCII where the texts of the event
are. -/
structure AuditLibraries.Lawful (libs : AuditLibraries) (event : AuditEvent) : Prop where
  fromJson_toJson : libs.fromJson (libs.toJson event) = .ok event
  fromJson_cut : ∀ q, q <+: libs.toJson event → q ≠ libs.toJson event →
    ∃ error, libs.fromJson q = .error error
  toJson_object : ∃ rest, libs.toJson event = '{' :: rest
  toJson_line : '\n' ∉ libs.toJson event
  toJson_ascii : event.isAscii = true → ∀ c ∈ libs.toJson event, Utf8.isAscii c = true

variable {libs : AuditLibraries} {key : Bytes} {lines : List (List Char × Bool)}
  {events : List AuditEvent} {torn : List Char}

/-! ### Chains of events -/

/-- The MAC of the last event. -/
def tipMac : Option String → List AuditEvent → Option String
  | tip, [] => tip
  | _, event :: rest => tipMac (some event.mac) rest

/-- Every event names the MAC of the one before it. -/
def Linked : Option String → List AuditEvent → Prop
  | _, [] => True
  | previous, event :: rest => event.previousMac = previous ∧ Linked (some event.mac) rest

/-- The lines that verification accepts behind a MAC, the events in them, and the torn line. -/
inductive Accepts (libs : AuditLibraries) (key : Bytes) :
    Option String → List (List Char × Bool) → List AuditEvent → List Char → Prop
  | done (previous) : Accepts libs key previous [] [] []
  | torn {previous line error} (hblank : line.all Text.isWhitespace = false)
      (hparse : libs.fromJson line = .error error) :
      Accepts libs key previous [(line, false)] [] line
  | event {previous line ended rest event events torn}
      (hblank : line.all Text.isWhitespace = false) (hparse : libs.fromJson line = .ok event)
      (hprevious : event.previousMac = previous) (hmac : event.mac = eventMac libs key event.forMac)
      (hrest : Accepts libs key (some event.mac) rest events torn) :
      Accepts libs key previous ((line, ended) :: rest) (event :: events) torn

variable {lines' : List (List Char × Bool)} {previous : Option String}

namespace Accepts

section

variable (h : Accepts libs key previous lines events torn)

include h

theorem linked : Linked previous events := by
  induction h with
  | done | torn => exact trivial
  | event _ _ hprevious _ _ ih => exact ⟨hprevious, ih⟩

/-- The last MAC is one that was computed. -/
theorem tipMac_eq :
    tipMac previous events = previous ∨
      ∃ covered, tipMac previous events = some (eventMac libs key covered) := by
  induction h with
  | done | torn => exact .inl rfl
  | event _ _ _ hmac _ ih => exact .inr (ih.elim (fun h => ⟨_, h.trans (congrArg some hmac)⟩) id)

/-- Behind whole lines acceptance goes on. -/
theorem append {events' : List AuditEvent} {torn' : List Char} (htorn : torn = [])
    (h' : Accepts libs key (tipMac previous events) lines' events' torn') :
    Accepts libs key previous (lines ++ lines') (events ++ events') torn' := by
  induction h with
  | done => exact h'
  | torn hblank => exact absurd htorn (by rintro rfl; cases hblank)
  | event hblank hparse hprevious hmac _ ih => exact .event hblank hparse hprevious hmac (ih htorn h')

/-- Whether a whole line has its newline does not matter. -/
theorem congr (htorn : torn = []) (hlines : lines'.map Prod.fst = lines.map Prod.fst) :
    Accepts libs key previous lines' events [] := by
  induction h generalizing lines' with
  | done =>
      obtain rfl : lines' = [] := by simpa using hlines
      exact .done _
  | torn hblank => exact absurd htorn (by rintro rfl; cases hblank)
  | event hblank hparse hprevious hmac _ ih =>
      obtain ⟨⟨line, ended⟩, rest, rfl, hline, hrest⟩ := List.map_eq_cons_iff.mp hlines
      obtain rfl : line = _ := hline
      exact .event hblank hparse hprevious hmac (ih htorn hrest)

/-- The whole lines and the torn one. -/
theorem exists_whole :
    ∃ whole, Accepts libs key previous whole events [] ∧
      (torn = [] ∧ lines = whole ∨ torn ≠ [] ∧ lines = whole ++ [(torn, false)]) := by
  induction h with
  | done previous => exact ⟨[], .done _, .inl ⟨rfl, rfl⟩⟩
  | torn hblank =>
      refine ⟨[], .done _, .inr ⟨?_, rfl⟩⟩
      rintro rfl
      cases hblank
  | event hblank hparse hprevious hmac _ ih =>
      obtain ⟨whole, hwhole, ⟨htorn, rfl⟩ | ⟨htorn, rfl⟩⟩ := ih
      · exact ⟨_, .event hblank hparse hprevious hmac hwhole, .inl ⟨htorn, rfl⟩⟩
      · exact ⟨_, .event hblank hparse hprevious hmac hwhole, .inr ⟨htorn, rfl⟩⟩

theorem ne_nil_of_mem :
    ∀ l ∈ lines, l.1 ≠ [] := by
  have hline {line : List Char} (hblank : line.all Text.isWhitespace = false) : line ≠ [] := by
    rintro rfl
    cases hblank
  induction h with
  | done => exact fun l hl => absurd hl List.not_mem_nil
  | torn hblank => exact List.forall_mem_singleton.mpr (hline hblank)
  | event hblank _ _ _ _ ih => exact List.forall_mem_cons.mpr ⟨hline hblank, ih⟩

/-- A torn line is no event and not blank. -/
theorem of_torn_ne_nil (htorn : torn ≠ []) :
    torn.all Text.isWhitespace = false ∧ ∃ error, libs.fromJson torn = .error error := by
  induction h with
  | done => exact absurd rfl htorn
  | torn hblank hparse => exact ⟨hblank, _, hparse⟩
  | event _ _ _ _ _ ih => exact ih htorn

/-- The events are what the whole lines parse to. -/
theorem filterMap_eq :
    lines.filterMap (fun line => (libs.fromJson line.1).toOption) = events := by
  induction h with
  | done => rfl
  | torn _ hparse => simp [hparse, Except.toOption]
  | event _ hparse _ _ _ ih =>
      rw [← ih, List.filterMap_cons, hparse]
      rfl

end

end Accepts

/-! ### The loop -/

section Loop

variable {auditLen index : Nat} {cursor : ChainCursor}

theorem byteLen_line (line : List Char) (ended : Bool) :
    byteLen (if ended then line ++ ['\n'] else line) =
      byteLen line + if ended then 1 else 0 := by
  cases ended with
  | false => rfl
  | true =>
      rw [if_pos rfl, if_pos rfl, Utf8.byteLen_append]
      rfl

def cursorBehind (cursor : ChainCursor) (events : List AuditEvent) (bytes : Nat) : ChainCursor where
  previousMac := tipMac cursor.previousMac events
  eventCount := cursor.eventCount + events.length
  validLen := cursor.validLen + bytes
  offset := cursor.offset + bytes

/-- What the loop accepts, it verifies. -/
theorem Accepts.verifyLines_eq (h : Accepts libs key previous lines events torn)
    (hprevious : cursor.previousMac = previous) (hcursor : cursor.validLen = cursor.offset)
    (hlen : cursor.offset + byteLen (writeLines '\n' lines) = auditLen) :
    verifyLines libs key auditLen index cursor lines =
      .ok (cursorBehind cursor events (byteLen (writeLines '\n' lines) - byteLen torn),
        byteLen torn) := by
  induction h generalizing index cursor with
  | done => rfl
  | @torn previous line error hblank hparse =>
      have hbytes : writeLines '\n' [(line, false)] = line := List.append_nil _
      rw [hbytes] at hlen ⊢
      have hline : verifyLine libs key auditLen index cursor line false =
          .ok (.tornTail (byteLen line)) := by
        unfold verifyLine
        simp [hblank, hparse, hlen]
      show (verifyLine libs key auditLen index cursor line false >>= _) = _
      rw [hline, Nat.sub_self]
      rfl
  | @event previous line ended rest event events torn hblank hparse hprev hmac hrest ih =>
      have hbytes : byteLen (writeLines '\n' ((line, ended) :: rest)) =
          (byteLen line + if ended then 1 else 0) + byteLen (writeLines '\n' rest) := by
        rw [writeLines_cons, Utf8.byteLen_append, byteLen_line]
      rw [hbytes] at hlen ⊢
      have hline : verifyLine libs key auditLen index cursor line ended =
          .ok (.verified
            { previousMac := some event.mac
              eventCount := cursor.eventCount + 1
              validLen := cursor.offset + (byteLen line + if ended then 1 else 0)
              offset := cursor.offset + (byteLen line + if ended then 1 else 0) }) := by
        unfold verifyLine
        rw [hblank, hparse]
        simp only [Bool.false_eq_true, if_false]
        rw [if_neg (by simp [hprev, hprevious]), if_neg (by simp [← hmac])]
      show (verifyLine libs key auditLen index cursor line ended >>= _) = _
      rw [hline]
      -- the rest is verified from the MAC of this event
      refine (ih rfl rfl ((Nat.add_assoc _ _ _).trans hlen)).trans ?_
      have htorn : byteLen torn ≤ byteLen (writeLines '\n' rest) := by
        obtain ⟨whole, -, ⟨rfl, -⟩ | ⟨-, rfl⟩⟩ := hrest.exists_whole
        · exact Nat.zero_le _
        · simp [writeLines]
      simp only [cursorBehind, tipMac, List.length_cons, Except.ok.injEq, Prod.mk.injEq,
        ChainCursor.mk.injEq, and_true, true_and]
      omega

/-- What the loop verifies, it accepts. -/
theorem accepts_of_verifyLines {result : ChainCursor × Nat}
    (h : verifyLines libs key auditLen index cursor lines = .ok result)
    (hended : ∀ l ∈ lines.dropLast, l.2 = true) :
    ∃ events torn, Accepts libs key cursor.previousMac lines events torn := by
  induction lines generalizing index cursor with
  | nil => exact ⟨[], [], .done _⟩
  | cons l rest ih =>
      obtain ⟨line, ended⟩ := l
      obtain ⟨outcome, hline, h⟩ := bind_eq_ok.mp h
      unfold verifyLine at hline
      cases hblank : line.all Text.isWhitespace with
      | true => simp [hblank] at hline
      | false =>
          cases hparse : libs.fromJson line with
          | error error =>
              -- an open line is the last one
              simp only [hblank, hparse, Bool.false_eq_true, if_false] at hline
              obtain ⟨hopen, -⟩ := ite_else_error_eq_ok.mp hline
              simp only [Bool.and_eq_true, Bool.not_eq_true'] at hopen
              obtain rfl : ended = false := hopen.1
              cases rest with
              | nil => exact ⟨[], line, .torn hblank hparse⟩
              | cons next rest =>
                  have := hended (line, false) (by simp)
                  cases this
          | ok event =>
              simp only [hblank, hparse, Bool.false_eq_true, if_false] at hline
              obtain ⟨hprevious, hline⟩ := ite_error_eq_ok.mp hline
              obtain ⟨hmac, hline⟩ := ite_error_eq_ok.mp hline
              cases hline
              obtain ⟨events, torn, hrest⟩ := ih h fun l hl => by
                cases rest with
                | nil => cases hl
                | cons next rest => exact hended l (List.mem_cons_of_mem _ hl)
              exact ⟨_, _, .event hblank hparse (not_ne_iff.mp hprevious) (not_ne_iff.mp hmac) hrest⟩

end Loop

/-! ### Whole texts -/

/-- A text that is accepted: what precedes its torn line, the torn line, and the events. -/
structure Accepted (libs : AuditLibraries) (key : Bytes) (body torn : List Char)
    (events : List AuditEvent) : Prop where
  body_accepts : Accepts libs key none (splitLines '\n' [] body) events []
  /-- A torn line is behind a newline or at the start of the log. -/
  torn_accepts : torn ≠ [] → (∀ l ∈ splitLines '\n' [] body, l.2 = true) ∧ '\n' ∉ torn ∧
    torn.all Text.isWhitespace = false ∧ ∃ error, libs.fromJson torn = .error error

def logOf (libs : AuditLibraries) (body torn : List Char) (events : List AuditEvent) :
    VerifiedAuditLog where
  verification :=
    { eventCount := events.length
      latestMac := tipMac none events
      tornTailBytes := byteLen torn }
  validLen := byteLen body
  auditLen := byteLen body + byteLen torn
  tornSuffixSha256 := if torn = [] then none else some (sha256Hex libs (encode torn))
  prefixNeedsSeparator := body ≠ [] && body.getLast? != some '\n'

variable {text body : List Char} {log : VerifiedAuditLog}

theorem Accepted.accepts (h : Accepted libs key body torn events) :
    Accepts libs key none (splitLines '\n' [] (body ++ torn)) events torn := by
  by_cases htorn : torn = []
  · subst htorn
    rw [List.append_nil]
    exact h.body_accepts
  · obtain ⟨hended, hline, hblank, error, hparse⟩ := h.torn_accepts htorn
    have hsplit := splitLines_writeLines_append hended
      (notMem_of_mem_splitLines body List.not_mem_nil) torn
    rw [writeLines_splitLines, List.nil_append, splitLines_of_notMem hline [] htorn] at hsplit
    rw [hsplit]
    simpa using h.body_accepts.append rfl (.torn hblank hparse)

/-- What verification reports of an accepted text. -/
theorem Accepted.verifyChainText_eq (h : Accepted libs key body torn events) :
    verifyChainText libs (body ++ torn) key = .ok (logOf libs body torn events) := by
  have hbytes : writeLines '\n' (splitLines '\n' [] (body ++ torn)) = body ++ torn :=
    writeLines_splitLines [] _
  let start : ChainCursor := { previousMac := none, eventCount := 0, validLen := 0, offset := 0 }
  have hlines : verifyLines libs key (byteLen (body ++ torn)) 0 start
      (splitLines '\n' [] (body ++ torn)) =
        .ok (cursorBehind start events (byteLen (body ++ torn) - byteLen torn),
          byteLen torn) := by
    have hlen := congrArg byteLen hbytes
    rw [← hlen]
    exact h.accepts.verifyLines_eq rfl rfl (Nat.zero_add _)
  show (verifyLines libs key (byteLen (body ++ torn)) 0 start
    (splitLines '\n' [] (body ++ torn)) >>= _) = _
  rw [hlines]
  have htorn : byteLen body < byteLen body + byteLen torn ↔ torn ≠ [] := by
    rw [← Utf8.byteLen_pos]
    omega
  show Except.ok (VerifiedAuditLog.mk _ _ _ _ _) = _
  simp only [cursorBehind, start, logOf, Nat.zero_add, Utf8.byteLen_append, Nat.add_sub_cancel,
    Utf8.drop_encode, Utf8.sliceTo_append, Utf8.byteLen_pos, htorn, ite_not]

/-- An accepted text is its whole lines and its torn line. -/
theorem Accepts.exists_accepted (h : Accepts libs key none (splitLines '\n' [] text) events torn) :
    ∃ body, text = body ++ torn ∧ Accepted libs key body torn events := by
  have hbytes : writeLines '\n' (splitLines '\n' [] text) = text := writeLines_splitLines [] _
  have hsep : ∀ l ∈ splitLines '\n' [] text, '\n' ∉ l.1 :=
    notMem_of_mem_splitLines text List.not_mem_nil
  obtain ⟨whole, hwhole, ⟨rfl, hlines⟩ | ⟨htorn, hlines⟩⟩ := h.exists_whole
  · exact ⟨text, (List.append_nil _).symm, hlines ▸ hwhole, fun hne => absurd rfl hne⟩
  · have hended : ∀ l ∈ whole, l.2 = true := by
      have hdrop : ∀ l ∈ (splitLines '\n' [] text).dropLast, l.2 = true := ended_of_mem_dropLast
      rwa [hlines, List.dropLast_concat] at hdrop
    rw [hlines, List.forall_mem_append, List.forall_mem_singleton] at hsep
    have hsplit : splitLines '\n' [] (writeLines '\n' whole) = whole := by
      simpa [splitLines] using splitLines_writeLines_append hended hsep.1 []
    refine ⟨writeLines '\n' whole, ?_, ?_, fun _ => ⟨?_, hsep.2, ?_⟩⟩
    · rw [hlines, writeLines_append] at hbytes
      rw [← hbytes]
      simp [writeLines]
    · rwa [hsplit]
    · rwa [hsplit]
    · exact h.of_torn_ne_nil htorn

/-- **Verification.** It accepts the texts that are whole lines and perhaps a torn one. -/
theorem verifyChainText_eq_ok_iff :
    verifyChainText libs text key = .ok log ↔
      ∃ body torn events, text = body ++ torn ∧ Accepted libs key body torn events ∧
        log = logOf libs body torn events := by
  constructor
  · intro h
    obtain ⟨result, hlines, -⟩ := bind_eq_ok.mp h
    obtain ⟨events, torn, haccepts⟩ := accepts_of_verifyLines hlines ended_of_mem_dropLast
    obtain ⟨body, htext, haccepted⟩ := haccepts.exists_accepted
    rw [htext, haccepted.verifyChainText_eq, Except.ok.injEq] at h
    exact ⟨body, torn, events, htext, haccepted, h.symm⟩
  · rintro ⟨body, torn, events, rfl, haccepted, rfl⟩
    exact haccepted.verifyChainText_eq

end Jig.Vault

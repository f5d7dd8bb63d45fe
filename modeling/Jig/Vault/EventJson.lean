import Jig.Lib.BigEndian
import Jig.Lib.Json
import Jig.Vault.AuditChain

/-!
# Events as JSON

The compact JSON of an audit event, field by field in declaration order, and libraries that read
back the events of a table and nothing else. `lawful_ofEvents` says when they meet the assumptions
made of `serde_json` at an event of the table: no other line of the table is a part of its line.
-/

namespace Jig.Vault

open Lib

mutual

def Value.json : Value → Bytes
  | .null => Text.bytes "null"
  | .bool value => Json.bool value
  | .number text => Text.bytes text
  | .string text => Json.string text
  | .array values => Json.array (valuesJson values)
  | .object entries => Json.object (entriesJson entries)

def valuesJson : List Value → List Bytes
  | [] => []
  | value :: rest => value.json :: valuesJson rest

def entriesJson : List (String × Value) → List (String × Bytes)
  | [] => []
  | (key, value) :: rest => (key, value.json) :: entriesJson rest

end

def AuditEventForMac.fields (event : AuditEventForMac) : List (String × Bytes) :=
  [("version", Json.number event.version), ("event_id", Json.string event.eventId),
    ("timestamp_ms", Text.bytes (toString event.timestampMs)),
    ("action", Json.string event.action), ("previous_mac", Json.stringOrNull event.previousMac),
    ("details", event.details.json)]

def AuditEvent.line (event : AuditEvent) : List Char :=
  Text.asciiChars (Json.object (event.forMac.fields ++ [("mac", Json.string event.mac)]))

def checkValue (bytes : Bytes) : Vector UInt8 32 :=
  ⟨(BigEndian.checksum bytes).toArray, by rw [List.size_toArray, BigEndian.length_checksum]⟩

/-- Libraries that know the lines of some events, with a check value for a hash. -/
def AuditLibraries.ofEvents (events : List AuditEvent) : AuditLibraries where
  sha256 := checkValue
  hmacSha256 key bytes := checkValue (key ++ bytes)
  macInput event := Json.object event.fields
  toJson := AuditEvent.line
  fromJson text :=
    match events.find? fun event => event.line = text with
    | some event => .ok event
    | none => .error "expected an event"
  debug text := "\"" ++ text ++ "\""

/-- The next event does not depend on what can be read. -/
theorem nextEvent_ofEvents (events : List AuditEvent) (key : Bytes) (request : AppendRequest)
    (previousMac : Option String) (details : Value) :
    nextEvent (.ofEvents events) key request previousMac details =
      nextEvent (.ofEvents []) key request previousMac details := rfl

theorem fromJson_ofEvents_eq_error {events : List AuditEvent} {text : List Char}
    (h : ∀ event ∈ events, event.line ≠ text) :
    ∃ error, (AuditLibraries.ofEvents events).fromJson text = .error error := by
  have hnone : events.find? (fun event => event.line = text) = none := by simpa using h
  simp only [AuditLibraries.ofEvents, hnone]
  exact ⟨_, rfl⟩

theorem lawful_ofEvents {events : List AuditEvent} {event : AuditEvent} (hmem : event ∈ events)
    (halone : ∀ other ∈ events, other.line <+: event.line → other = event)
    (hline : event.line.head? = some '{' ∧ '\n' ∉ event.line ∧
      event.line.all Utf8.isAscii = true) :
    (AuditLibraries.ofEvents events).Lawful event := by
  -- what the table finds behind a part of the line is the event itself
  have hfound {q : List Char} {other : AuditEvent} (hq : q <+: event.line)
      (hfind : events.find? (fun event => event.line = q) = some other) : other = event := by
    have hother : other.line = q := by simpa using List.find?_some hfind
    apply halone other (List.mem_of_find?_eq_some hfind)
    rwa [hother]
  have hread (q : List Char) : (AuditLibraries.ofEvents events).fromJson q =
      match events.find? fun event => event.line = q with
      | some event => .ok event
      | none => .error "expected an event" := rfl
  refine ⟨?_, ?_, List.head?_eq_some_iff.mp hline.1, hline.2.1,
    fun _ => List.all_eq_true.mp hline.2.2⟩
  · show (AuditLibraries.ofEvents events).fromJson event.line = .ok event
    rw [hread]
    split
    · next other hfind => rw [hfound (List.prefix_refl _) hfind]
    · next hfind => simpa using List.find?_eq_none.mp hfind event hmem
  · intro q hq hne
    rw [hread]
    split
    · next other hfind =>
        have hother : other.line = q := by simpa using List.find?_some hfind
        rw [hfound hq hfind] at hother
        exact absurd hother.symm hne
    · exact ⟨_, rfl⟩

end Jig.Vault

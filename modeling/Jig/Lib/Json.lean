import Jig.Lib.Text

/-!
# JSON texts

Compact JSON as `serde_json` writes it, in bytes: strings with their escapes, arrays, and objects
whose fields come in the order in which they are given. A record that leaves a field out when it is
empty lists that field with `optional`, `nonempty` or `flag`.
-/

namespace Jig.Lib.Json

/-- A byte inside of a string. Of the control characters five have a short form. -/
def escape (b : UInt8) : Bytes :=
  let n := b.toNat
  if n = 34 ∨ n = 92 then [92, b]
  else if 32 ≤ n then [b]
  else if n = 8 then Text.bytes "\\b"
  else if n = 9 then Text.bytes "\\t"
  else if n = 10 then Text.bytes "\\n"
  else if n = 12 then Text.bytes "\\f"
  else if n = 13 then Text.bytes "\\r"
  else Text.bytes "\\u00" ++ Text.bytes (Text.lowerHex [b])

def string (text : String) : Bytes :=
  34 :: ((Text.bytes text).flatMap escape ++ [34])

def number (n : Nat) : Bytes :=
  Text.bytes (toString n)

def bool (value : Bool) : Bytes :=
  Text.bytes (toString value)

def stringOrNull (text : Option String) : Bytes :=
  (text.map string).getD (Text.bytes "null")

def array (items : List Bytes) : Bytes :=
  91 :: ([44].intercalate items ++ [93])

def object (fields : List (String × Bytes)) : Bytes :=
  123 :: ([44].intercalate (fields.map fun (name, value) => string name ++ 58 :: value) ++ [125])

/-- A field that is left out when there is no value. -/
def optional (name : String) (value : Option Bytes) : List (String × Bytes) :=
  value.toList.map (name, ·)

/-- A field that is left out when the list is empty. -/
def nonempty (name : String) (items : List Bytes) : List (String × Bytes) :=
  if items.isEmpty then [] else [(name, array items)]

/-- A flag that is left out when it is not set. -/
def flag (name : String) (value : Bool) : List (String × Bytes) :=
  if value then [(name, bool true)] else []

example : object [("a", string "x\n"), ("b", array [number 1, bool true])] =
    Text.bytes "\x7b\"a\":\"x\\n\",\"b\":[1,true]\x7d" := by decide +kernel

end Jig.Lib.Json

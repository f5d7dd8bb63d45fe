import Mathlib.Data.List.Basic

/-!
# Text

The methods of Rust's `str` that validators are written with, over the characters of a `String`, so
that they evaluate. Rust indexes bytes; where a method looks at a byte, the definition says which
characters can hold it.
-/

namespace Jig.Lib

/-- `Vec<u8>` and `&[u8]`. -/
abbrev Bytes := List UInt8

namespace Text

def isWhitespace (c : Char) : Bool :=
  let n := c.toNat
  (9 ≤ n && n ≤ 13) || n == 32 || n == 0x85 || n == 0xA0 || n == 0x1680 ||
    (0x2000 ≤ n && n ≤ 0x200A) || n == 0x2028 || n == 0x2029 || n == 0x202F || n == 0x205F ||
    n == 0x3000

def isControl (c : Char) : Bool :=
  let n := c.toNat
  n ≤ 0x1F || (0x7F ≤ n && n ≤ 0x9F)

def trim (s : String) : String :=
  let dropLeading := (s.toList.dropWhile isWhitespace).reverse
  String.ofList (dropLeading.dropWhile isWhitespace).reverse

/-- `str::split` at a character. The empty text has one empty part. -/
def split (separator : Char) (s : String) : List String :=
  (s.toList.splitOn separator).map String.ofList

def splitOnce (separator : Char) (s : String) : Option (String × String) :=
  match s.toList.dropWhile (· != separator) with
  | [] => none
  | _ :: rest => some (String.ofList (s.toList.takeWhile (· != separator)), String.ofList rest)

def rsplitOnce (separator : Char) (s : String) : Option (String × String) :=
  match s.toList.reverse.dropWhile (· != separator) with
  | [] => none
  | _ :: before =>
      some (String.ofList before.reverse,
        String.ofList (s.toList.reverse.takeWhile (· != separator)).reverse)

/-- The text before the first occurrence of another one: the first half of `str::split_once`. -/
def beforeText (text s : String) : Option String :=
  (s.toList.tails.findIdx? (text.toList.isPrefixOf ·)).map fun i => String.ofList (s.toList.take i)

/-- `str::contains` of a character. -/
def containsChar (c : Char) (s : String) : Bool :=
  s.toList.contains c

/-- `str::contains` of any of several characters. -/
def containsAnyOf (cs : List Char) (s : String) : Bool :=
  s.toList.any (cs.contains ·)

/-- `str::starts_with` a character. -/
def startsWithChar (c : Char) (s : String) : Bool :=
  s.toList.head? == some c

def endsWith (suffix s : String) : Bool :=
  suffix.toList.isSuffixOf s.toList

/-- `str::contains` of a text. -/
def containsText (text s : String) : Bool :=
  s.toList.tails.any (text.toList.isPrefixOf ·)

/-- `str::strip_suffix` of a text. -/
def stripEnd (suffix s : String) : Option String :=
  if endsWith suffix s then
    some (String.ofList (s.toList.take (s.toList.length - suffix.toList.length)))
  else
    none

/-- `str::strip_prefix` of a text. -/
def stripStart (start s : String) : Option String :=
  if start.toList.isPrefixOf s.toList then
    some (String.ofList (s.toList.drop start.toList.length))
  else
    none

theorem stripEnd_eq_some {suffix s rest : String} :
    stripEnd suffix s = some rest ↔ s.toList = rest.toList ++ suffix.toList := by
  unfold stripEnd endsWith
  rw [Option.ite_none_right_eq_some, List.isSuffixOf_iff_suffix, Option.some.injEq]
  constructor
  · rintro ⟨⟨front, hfront⟩, rfl⟩
    simp [← hfront]
  · intro h
    simp [h]

theorem stripStart_eq_some {start s rest : String} :
    stripStart start s = some rest ↔ s.toList = start.toList ++ rest.toList := by
  unfold stripStart
  rw [Option.ite_none_right_eq_some, List.isPrefixOf_iff_prefix, Option.some.injEq]
  constructor
  · rintro ⟨⟨tail, htail⟩, rfl⟩
    simp [← htail]
  · intro h
    simp [h]

/-- The second byte is a given ASCII character: the first character then takes one byte. -/
def secondByteIs (c : Char) (s : String) : Bool :=
  match s.toList with
  | first :: second :: _ => first.toNat < 128 && second == c
  | _ => false

def join (separator : String) (parts : List String) : String :=
  String.intercalate separator parts

def bytes (s : String) : Bytes :=
  s.toUTF8.data.toList

def asciiChars (bytes : Bytes) : List Char :=
  bytes.map fun b => Char.ofNat b.toNat

/-- `{:x}` of a digest: two lower-case digits a byte. -/
def lowerHex (digest : Bytes) : String :=
  let digit (n : Nat) : Char := "0123456789abcdef".toList.getD n '0'
  String.ofList (digest.flatMap fun b => [digit (b.toNat / 16), digit (b.toNat % 16)])

theorem mem_hexDigits_of_mem_lowerHex {digest : Bytes} {c : Char}
    (h : c ∈ (lowerHex digest).toList) : c ∈ "0123456789abcdef".toList := by
  have hdigit : ∀ n, "0123456789abcdef".toList.getD n '0' ∈ "0123456789abcdef".toList := by
    intro n
    rw [List.getD_eq_getElem?_getD]
    cases hn : "0123456789abcdef".toList[n]? with
    | none => decide
    | some c => exact List.mem_of_getElem? hn
  unfold lowerHex at h
  rw [String.toList_ofList, List.mem_flatMap] at h
  obtain ⟨b, -, hb⟩ := h
  rcases List.mem_cons.mp hb with rfl | hb
  · exact hdigit _
  · rw [List.mem_singleton.mp hb]
    exact hdigit _

end Text

end Jig.Lib

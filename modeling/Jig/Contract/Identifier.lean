import Mathlib.Data.List.Sort

/-!
# Identifiers

The stable names of the repository contract (`jig-contract`, `repository.rs`): component, action
and profile identifiers, and the `component:action` pair that names one executable target.

An `Identifier k` carries the proof that `validateIdentifier` accepted it, so an identifier that the
Rust constructors would reject cannot be built. Identifiers are ordered as the Rust types are (by
their text, targets lexicographically by component and then action); `BTreeMap` and `BTreeSet` are
modelled by `Std.ExtTreeMap` and `Std.ExtTreeSet` over these orders.
-/

namespace Jig.Contract

open Std

inductive IdentifierKind where
  | component
  | action
  | profile
deriving DecidableEq, Repr

structure IdentifierError where
  kind : IdentifierKind
  value : String
  reason : String
deriving DecidableEq, Repr

def maxIdentifierBytes : Nat := 64

/-- `is_ascii_lowercase() || is_ascii_digit()`. A byte of a multi-byte character is neither, so the
check on bytes and the check on characters agree. -/
def isIdentifierEdge (c : Char) : Bool :=
  c.isLower || c.isDigit

def validateIdentifier (kind : IdentifierKind) (value : String) : Except IdentifierError Unit :=
  let error (reason : String) : Except IdentifierError Unit := .error ⟨kind, value, reason⟩
  match value.toList with
  | [] => error "the value must not be empty"
  | first :: rest =>
      if value.utf8ByteSize > maxIdentifierBytes then
        error "the value must be at most 64 bytes"
      else if !isIdentifierEdge first then
        error "the value must start with a lowercase ASCII letter or digit"
      else if !isIdentifierEdge (rest.getLastD first) then
        error "the value must end with a lowercase ASCII letter or digit"
      else if !(first :: rest).all (fun c => isIdentifierEdge c || c == '-' || c == '_') then
        error "the value may contain only lowercase ASCII letters, digits, '-' and '_'"
      else
        .ok ()

structure Identifier (kind : IdentifierKind) where
  value : String
  valid : validateIdentifier kind value = .ok ()

namespace Identifier

variable {kind : IdentifierKind}

@[ext]
theorem ext {a b : Identifier kind} (h : a.value = b.value) : a = b := by
  cases a
  cases b
  cases h
  rfl

instance : DecidableEq (Identifier kind) := fun a b =>
  decidable_of_iff (a.value = b.value) ⟨ext, fun h => h ▸ rfl⟩

instance : Repr (Identifier kind) := ⟨fun a n => reprPrec a.value n⟩

def parse (kind : IdentifierKind) (value : String) : Except IdentifierError (Identifier kind) :=
  match h : validateIdentifier kind value with
  | .ok () => .ok ⟨value, h⟩
  | .error e => .error e

instance : ToString (Identifier kind) := ⟨Identifier.value⟩

instance : Ord (Identifier kind) := ⟨compareOn Identifier.value⟩

instance : TransOrd (Identifier kind) :=
  inferInstanceAs (TransCmp (compareOn Identifier.value))

instance : LawfulEqOrd (Identifier kind) where
  eq_of_compare h := ext (LawfulEqOrd.eq_of_compare (α := String) h)

end Identifier

abbrev ComponentId := Identifier .component
abbrev ActionId := Identifier .action
abbrev ProfileId := Identifier .profile

/-! ## Targets -/

structure TargetId where
  component : ComponentId
  action : ActionId
deriving DecidableEq, Repr

namespace TargetId

instance : ToString TargetId := ⟨fun t => t.component.value ++ ":" ++ t.action.value⟩

instance : Ord TargetId := ⟨compareLex (compareOn component) (compareOn action)⟩

instance : TransOrd TargetId :=
  inferInstanceAs (TransCmp (compareLex (compareOn component) (compareOn action)))

instance : LawfulEqOrd TargetId where
  eq_of_compare {a b} h := by
    have hlex : (compare a.component b.component).then (compare a.action b.action) = .eq := h
    rw [Ordering.then_eq_eq] at hlex
    obtain ⟨hc, ha⟩ := hlex
    cases a
    cases b
    simp only [LawfulEqOrd.compare_eq_iff_eq] at hc ha
    rw [hc, ha]

end TargetId

end Jig.Contract

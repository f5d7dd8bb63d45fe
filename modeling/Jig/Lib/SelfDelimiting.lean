import Mathlib.Data.List.Infix

/-!
# Self-delimiting codes

A code is self-delimiting when the end of a code word can be told without looking at what follows
it. A constant in front keeps the property (`SelfDelimiting.const_append`).
-/

namespace Jig.Lib

universe u v

variable {α : Type u} {β : Type v}

/-- The first occurrence of a letter splits a list in one way. -/
theorem append_stop_inj {stop : β} {l l' r r' : List β} (h : stop ∉ l) (h' : stop ∉ l')
    (heq : l ++ stop :: r = l' ++ stop :: r') : l = l' ∧ r = r' := by
  classical
  have hlen := congrArg (List.idxOf stop) heq
  rw [List.idxOf_append_of_notMem h, List.idxOf_append_of_notMem h', List.idxOf_cons_self,
    List.idxOf_cons_self] at hlen
  exact (List.append_inj heq hlen).imp_right List.tail_eq_of_cons_eq

/-- What follows a word does not change which word it is. -/
def SelfDelimiting (code : α → List β) : Prop :=
  ∀ ⦃a a' : α⦄ ⦃r r' : List β⦄, code a ++ r = code a' ++ r' → a = a' ∧ r = r'

namespace SelfDelimiting

variable {code : α → List β}

/-- Words that end with a letter they do not contain. -/
theorem terminated {stop : β} (hinj : Function.Injective code) (hstop : ∀ a, stop ∉ code a) :
    SelfDelimiting fun a => code a ++ [stop] := by
  intro a a' r r' heq
  simp only [List.append_assoc, List.singleton_append] at heq
  obtain ⟨hcode, hrest⟩ := append_stop_inj (hstop a) (hstop a') heq
  exact ⟨hinj hcode, hrest⟩

/-- A word behind a fixed text. -/
theorem const_append (h : SelfDelimiting code) (w : List β) :
    SelfDelimiting fun a => w ++ code a := by
  intro a a' r r' heq
  simp only [List.append_assoc] at heq
  exact h (List.append_cancel_left heq)

/-- A length, and as many letters before a fixed end. -/
theorem framed {code : Nat → List β} (h : SelfDelimiting code) (stop : List β) :
    SelfDelimiting fun value : List β => code value.length ++ (value ++ stop) := by
  intro value value' r r' heq
  simp only [List.append_assoc] at heq
  obtain ⟨hlen, hrest⟩ := h heq
  obtain ⟨rfl, hstop⟩ := List.append_inj hrest hlen
  exact ⟨rfl, List.append_cancel_left hstop⟩

end SelfDelimiting

end Jig.Lib

import Mathlib.Data.List.Basic

/-!
# The last of the greatest

`Iterator::max_by_key` of Rust: of several elements with the greatest key it returns the last.
-/

namespace Jig.Lib

variable {α : Type*} {key : α → Nat} {l : List α}

/-- `max_by_key`. -/
def lastMaxBy (key : α → Nat) : List α → Option α
  | [] => none
  | a :: rest =>
      match lastMaxBy key rest with
      | none => some a
      | some b => if key a ≤ key b then some b else some a

theorem lastMaxBy_eq_none_iff : lastMaxBy key l = none ↔ l = [] := by
  cases l with
  | nil => exact iff_of_true rfl rfl
  | cons a rest =>
      refine iff_of_false (fun h => ?_) (List.cons_ne_nil a rest)
      unfold lastMaxBy at h
      split at h
      · cases h
      · split at h <;> cases h

/-- What is returned is one of the elements, and none is greater. -/
theorem lastMaxBy_eq_some {m : α} (h : lastMaxBy key l = some m) :
    m ∈ l ∧ ∀ a ∈ l, key a ≤ key m := by
  induction l generalizing m with
  | nil => cases h
  | cons a rest ih =>
      unfold lastMaxBy at h
      split at h
      · next hnone =>
          cases h
          rw [lastMaxBy_eq_none_iff] at hnone
          subst hnone
          exact ⟨List.mem_cons_self, fun b hb => List.mem_singleton.mp hb ▸ Nat.le_refl _⟩
      · next b hsome =>
          obtain ⟨hmem, hle⟩ := ih hsome
          split at h
          · next hab =>
              cases h
              exact ⟨List.mem_cons_of_mem _ hmem, List.forall_mem_cons.mpr ⟨hab, hle⟩⟩
          · next hab =>
              cases h
              refine ⟨List.mem_cons_self, List.forall_mem_cons.mpr ⟨Nat.le_refl _, fun c hc => ?_⟩⟩
              exact Nat.le_trans (hle c hc) (Nat.le_of_not_le hab)

theorem exists_lastMaxBy (key : α → Nat) {a : α} (h : a ∈ l) :
    ∃ m, lastMaxBy key l = some m ∧ m ∈ l ∧ key a ≤ key m := by
  cases hmax : lastMaxBy key l with
  | none =>
      rw [lastMaxBy_eq_none_iff.mp hmax] at h
      exact absurd h List.not_mem_nil
  | some m =>
      obtain ⟨hmem, hle⟩ := lastMaxBy_eq_some hmax
      exact ⟨m, rfl, hmem, hle a h⟩

end Jig.Lib

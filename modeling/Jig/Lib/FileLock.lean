import Mathlib.Data.List.Basic

/-!
# Advisory file locks

A lock that is held either by any number of holders who share it, or by one holder alone. The
structure carries that as a field, so a lock in any other state cannot be built.
-/

namespace Jig.Lib

universe u

/-- The holders of a lock, each with a flag that says whether it holds the lock alone. -/
structure FileLock (ι : Type u) where
  holders : List (ι × Bool)
  alone : ∀ holder ∈ holders, holder.2 = true → holders = [holder]

namespace FileLock

variable {ι : Type u}

def free : FileLock ι where
  holders := []
  alone _ h := absurd h List.not_mem_nil

variable (lock : FileLock ι)

/-- Nobody holds the lock alone. -/
def shareable : Bool :=
  lock.holders.all (!·.2)

/-- `try_lock_exclusive` and `try_lock_shared`. -/
def tryLock (holder : ι) : Bool → Option (FileLock ι)
  | true => if lock.holders.isEmpty then some ⟨[(holder, true)], by simp⟩ else none
  | false =>
      if h : lock.shareable = true then
        some ⟨(holder, false) :: lock.holders, by
          rintro entry hentry hexclusive
          rcases List.mem_cons.mp hentry with rfl | hentry
          · cases hexclusive
          · have hshared := List.all_eq_true.mp h entry hentry
            rw [hexclusive] at hshared
            cases hshared⟩
      else
        none

/-- The holders that are not released stay. -/
def release (keep : ι → Bool) : FileLock ι where
  holders := lock.holders.filter fun holder => keep holder.1
  alone holder hholder hexclusive := by
    obtain ⟨hmem, hkeep⟩ := List.mem_filter.mp hholder
    rw [lock.alone holder hmem hexclusive]
    simp [hkeep]

variable {lock} {lock' : FileLock ι} {holder : ι} {exclusive : Bool} {entry : ι × Bool}

theorem mem_tryLock (h : lock.tryLock holder exclusive = some lock') :
    entry ∈ lock'.holders ↔ entry = (holder, exclusive) ∨ entry ∈ lock.holders := by
  cases exclusive with
  | true =>
      obtain ⟨hempty, rfl⟩ : lock.holders.isEmpty = true ∧ _ = lock' := by
        simpa only [tryLock, Option.ite_none_right_eq_some, Option.some.injEq] using h
      rw [List.isEmpty_iff.mp hempty, List.mem_singleton]
      simp
  | false =>
      simp only [tryLock] at h
      split at h
      · obtain rfl := Option.some.inj h
        exact List.mem_cons
      · cases h

theorem exists_holder (h : lock.tryLock holder exclusive = none) :
    ∃ entry, entry ∈ lock.holders := by
  refine List.exists_mem_of_ne_nil _ fun hnil => ?_
  cases exclusive <;> simp [tryLock, shareable, hnil] at h

theorem mem_release {keep : ι → Bool} :
    entry ∈ (lock.release keep).holders ↔ entry ∈ lock.holders ∧ keep entry.1 = true :=
  List.mem_filter

/-- **Exclusion.** Of two holders neither holds the lock alone. -/
theorem shared_of_two {a b : ι × Bool} (ha : a ∈ lock.holders)
    (hb : b ∈ lock.holders) (hne : a ≠ b) : a.2 = false ∧ b.2 = false := by
  have hshared : ∀ {x y : ι × Bool}, x ∈ lock.holders → y ∈ lock.holders → x ≠ y →
      x.2 = false := by
    intro x y hx hy hxy
    by_contra hexclusive
    rw [lock.alone x hx (by simpa using hexclusive), List.mem_singleton] at hy
    exact hxy hy.symm
  exact ⟨hshared ha hb hne, hshared hb ha hne.symm⟩

end FileLock

end Jig.Lib

import Mathlib.Data.List.Basic

/-!
# Programs over a file that is held under a lock

A program that holds a lock reads and replaces what the lock guards, and may fail at any point; what
it has written by then stays. `Ends` is the weakest precondition of such a program, with one
condition for its result and one for its failure, and one equivalence for each way of building
programs.
-/

namespace Jig.Lib

universe u

/-- A program over a file `σ`. -/
abbrev Locked (σ ε : Type u) := ExceptT ε (StateM σ)

namespace Locked

variable {σ ε α β : Type u}

/-- A computation that does not touch the file. -/
def lift (x : Except ε α) : Locked σ ε α :=
  ExceptT.mk (Pure.pure x)

def file (m : Locked σ ε α) (s : σ) : σ :=
  (m.run.run s).2

/-- **The weakest precondition**: from `s` the program ends in one of the two conditions. -/
def Ends (m : Locked σ ε α) (s : σ) (post : α → σ → Prop) (fails : ε → σ → Prop) : Prop :=
  match m.run.run s with
  | (.ok a, t) => post a t
  | (.error e, t) => fails e t

variable {m : Locked σ ε α} {s : σ} {post : α → σ → Prop} {fails : ε → σ → Prop}

/-- A condition on the file alone holds of what the program leaves. -/
theorem Ends.file {P : σ → Prop} (h : Ends m s (fun _ t => P t) fun _ t => P t) : P (m.file s) := by
  unfold Ends at h
  unfold Locked.file
  split at h <;> simp_all

@[simp]
theorem ends_pure {a : α} : Ends (Pure.pure a : Locked σ ε α) s post fails ↔ post a s :=
  Iff.rfl

@[simp]
theorem ends_throw {e : ε} : Ends (throw e : Locked σ ε α) s post fails ↔ fails e s :=
  Iff.rfl

@[simp]
theorem ends_get {post : σ → σ → Prop} : Ends (get : Locked σ ε σ) s post fails ↔ post s s :=
  Iff.rfl

@[simp]
theorem ends_set {t : σ} {post : PUnit → σ → Prop} :
    Ends (set t : Locked σ ε PUnit) s post fails ↔ post ⟨⟩ t :=
  Iff.rfl

@[simp]
theorem ends_bind {f : α → Locked σ ε β} {post : β → σ → Prop} :
    Ends (m >>= f) s post fails ↔ Ends m s (fun a t => Ends (f a) t post fails) fails := by
  unfold Ends
  rw [ExceptT.run_bind, StateT.run_bind]
  rcases m.run.run s with ⟨_ | _, t⟩ <;> rfl

@[simp]
theorem ends_map {f : α → β} {post : β → σ → Prop} :
    Ends (f <$> m) s post fails ↔ Ends m s (fun a t => post (f a) t) fails := by
  rw [map_eq_pure_bind, ends_bind]
  rfl

@[simp]
theorem ends_lift {x : Except ε α} :
    Ends (lift x : Locked σ ε α) s post fails ↔
      (∀ a, x = .ok a → post a s) ∧ ∀ e, x = .error e → fails e s := by
  cases x with
  | ok a =>
      have hends : Ends (lift (.ok a) : Locked σ ε α) s post fails ↔ post a s := Iff.rfl
      simp [hends]
  | error e =>
      have hends : Ends (lift (.error e) : Locked σ ε α) s post fails ↔ fails e s := Iff.rfl
      simp [hends]

@[simp]
theorem ends_tryCatch {handle : ε → Locked σ ε α} :
    Ends (tryCatch m handle) s post fails ↔
      Ends m s post fun e t => Ends (handle e) t post fails := by
  unfold Ends
  rw [ExceptT.run_tryCatch, StateT.run_bind]
  rcases m.run.run s with ⟨_ | _, t⟩ <;> rfl

theorem ends_ite {c : Prop} [Decidable c] {m' : Locked σ ε α} :
    Ends (if c then m else m') s post fails ↔
      (c → Ends m s post fails) ∧ (¬c → Ends m' s post fails) := by
  by_cases hc : c <;> simp [hc]

end Locked

end Jig.Lib

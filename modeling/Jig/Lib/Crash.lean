import Mathlib.Data.List.Infix

/-!
# Programs over durable state that may crash

A program here changes a state that survives a crash. Running it gives its result and every durable
state it goes through, so a crash between two effects leaves one of those states. `Spec` is a triple
with a crash condition: where the precondition holds, every state the program goes through meets the
crash condition, and it ends in the postcondition of its result. The rules follow the ways programs
are built; `Spec.of_crashRun` is the one for a program that is run again after each of its crashes.
-/

namespace Jig.Lib

universe u v

/-- What a run leaves: the durable states after its start, the last one, and its result. -/
structure Outcome (σ : Type u) (ε α : Type v) where
  visited : List σ
  final : σ
  result : Except ε α

/-- A program over durable states `σ`. -/
def Durable (σ : Type u) (ε α : Type v) : Type (max u v) :=
  σ → Outcome σ ε α

namespace Durable

variable {σ : Type u} {ε α β : Type v}

/-- Go on with `f` where `m` succeeds. -/
def andThen (m : Durable σ ε α) (f : α → Durable σ ε β) : Durable σ ε β := fun s =>
  match (m s).result with
  | .ok a =>
      { visited := (m s).visited ++ (f a (m s).final).visited
        final := (f a (m s).final).final
        result := (f a (m s).final).result }
  | .error e => { visited := (m s).visited, final := (m s).final, result := .error e }

instance : Monad (Durable σ ε) where
  pure a := fun s => { visited := [], final := s, result := .ok a }
  bind := andThen

/-- Read the state, and fail where what is read is not as expected. -/
def look (f : σ → Except ε α) : Durable σ ε α := fun s =>
  { visited := [], final := s, result := f s }

def fail (e : ε) : Durable σ ε α :=
  look fun _ => .error e

/-- One effect that a crash does not divide. -/
def change (f : σ → σ) : Durable σ ε PUnit := fun s =>
  { visited := [f s], final := f s, result := .ok ⟨⟩ }

/-- Write something piece by piece: a crash leaves any part of it from its start on. -/
def writing {β : Type*} (pieces : List β) (f : List β → σ → σ) : Durable σ ε PUnit := fun s =>
  { visited := pieces.inits.map (f · s), final := f pieces s, result := .ok ⟨⟩ }

/-- Another text for the failures of a program. -/
def mapFailure (f : ε → ε) (m : Durable σ ε α) : Durable σ ε α := fun s =>
  { m s with result := (m s).result.mapError f }

/-- One more effect where a program fails. -/
def onFailure (f : σ → σ) (m : Durable σ ε α) : Durable σ ε α := fun s =>
  match (m s).result with
  | .ok a => { visited := (m s).visited, final := (m s).final, result := .ok a }
  | .error e =>
      { visited := (m s).visited ++ [f (m s).final], final := f (m s).final, result := .error e }

/-- A program over a part of the state. -/
def zoom {τ : Type u} (get : τ → σ) (put : σ → τ → τ) (m : Durable σ ε α) : Durable τ ε α := fun t =>
  { visited := (m (get t)).visited.map (put · t)
    final := put (m (get t)).final t
    result := (m (get t)).result }

/-- The states a crash may leave, the start among them. -/
def crashStates (m : Durable σ ε α) (s : σ) : List σ :=
  s :: (m s).visited

/-- The program is run, crashes, is run again on what is left, and so on. -/
inductive CrashRun (m : Durable σ ε α) (s : σ) : σ → Prop
  | start : CrashRun m s s
  | crash {s' s'' : σ} (hrun : CrashRun m s s') (hcrash : s'' ∈ m.crashStates s') :
      CrashRun m s s''

/-- **The triple.** -/
structure Spec (pre : σ → Prop) (m : Durable σ ε α) (crash : σ → Prop) (post : α → σ → Prop)
    (fails : ε → σ → Prop) : Prop where
  visited : ∀ s, pre s → ∀ s' ∈ (m s).visited, crash s'
  ok : ∀ s a, pre s → (m s).result = .ok a → post a (m s).final
  error : ∀ s e, pre s → (m s).result = .error e → fails e (m s).final

variable {f : σ → Except ε α} {m : Durable σ ε α}

/-! ### Rules -/

namespace Spec

variable {pre pre' crash crash' : σ → Prop} {post post' : α → σ → Prop}
  {fails fails' : ε → σ → Prop}

theorem pure {a : α} (h : ∀ s, pre s → post a s) :
    Spec pre (Pure.pure a : Durable σ ε α) crash post fails where
  visited _ _ _ hmem := absurd hmem List.not_mem_nil
  ok s a' hs heq := by
    cases heq
    exact h s hs
  error _ _ _ heq := nomatch heq

/-- A run is either successful or failed. -/
theorem of_result (h : ∀ s, pre s → (∀ s' ∈ (m s).visited, crash s') ∧
      match (m s).result with
      | .ok a => post a (m s).final
      | .error e => fails e (m s).final) :
    Spec pre m crash post fails where
  visited s hs := (h s hs).1
  ok s a hs heq := by
    have hend := (h s hs).2
    rw [heq] at hend
    exact hend
  error s e hs heq := by
    have hend := (h s hs).2
    rw [heq] at hend
    exact hend

/-- One program behind another. -/
theorem bind (mid : α → σ → Prop) {post : β → σ → Prop} {f : α → Durable σ ε β}
    (h : Spec pre m crash mid fails) (hf : ∀ a, Spec (mid a) (f a) crash post fails) :
    Spec pre (m >>= f) crash post fails := by
  refine of_result fun s hs => ?_
  rw [show (m >>= f) s = andThen m f s from rfl, andThen]
  cases heq : (m s).result with
  | ok a =>
      have hmid := h.ok s a hs heq
      refine ⟨List.forall_mem_append.mpr ⟨h.visited s hs, (hf a).visited _ hmid⟩, ?_⟩
      dsimp only
      split
      · next b hb => exact (hf a).ok _ b hmid hb
      · next e he => exact (hf a).error _ e hmid he
  | error e => exact ⟨h.visited s hs, h.error s e hs heq⟩

theorem look (hok : ∀ s a, pre s → f s = .ok a → post a s)
    (herror : ∀ s e, pre s → f s = .error e → fails e s) :
    Spec pre (Durable.look f) crash post fails where
  visited _ _ _ hmem := absurd hmem List.not_mem_nil
  ok := hok
  error := herror

/-- What is read is as expected. -/
theorem look_ok (h : ∀ s, pre s → ∃ a, f s = .ok a ∧ post a s) :
    Spec pre (Durable.look f) crash post fails :=
  look
    (fun s a' hs heq => by
      obtain ⟨a, hfs, hpost⟩ := h s hs
      rw [hfs] at heq
      cases heq
      exact hpost)
    fun s e hs heq => by
      obtain ⟨a, hfs, -⟩ := h s hs
      rw [hfs] at heq
      cases heq

theorem change {f : σ → σ} {post : PUnit → σ → Prop} (hcrash : ∀ s, pre s → crash (f s))
    (h : ∀ s, pre s → post ⟨⟩ (f s)) :
    Spec pre (Durable.change f) crash post fails where
  visited s hs _ hs' := List.mem_singleton.mp hs' ▸ hcrash s hs
  ok s _ hs _ := h s hs
  error _ _ _ heq := nomatch heq

theorem writing {β : Type*} {pieces : List β} {f : List β → σ → σ} {post : PUnit → σ → Prop}
    (hcrash : ∀ s, pre s → ∀ p, p <+: pieces → crash (f p s))
    (h : ∀ s, pre s → post ⟨⟩ (f pieces s)) :
    Spec pre (Durable.writing pieces f) crash post fails where
  visited s hs s' hs' := by
    obtain ⟨p, hp, rfl⟩ := List.mem_map.mp hs'
    exact hcrash s hs p ((List.mem_inits _ _).mp hp)
  ok s _ hs _ := h s hs
  error _ _ _ heq := nomatch heq

theorem mapFailure {f : ε → ε} (h : Spec pre m crash post fails')
    (hfails : ∀ e s, fails' e s → fails (f e) s) : Spec pre (m.mapFailure f) crash post fails := by
  refine of_result fun s hs => ⟨h.visited s hs, ?_⟩
  dsimp only [Durable.mapFailure]
  cases heq : (m s).result with
  | ok a => exact h.ok s a hs heq
  | error e => exact hfails e _ (h.error s e hs heq)

/-- Failures that are not looked at. -/
theorem mapFailure_const {f : ε → ε} {fails : σ → Prop} (h : Spec pre m crash post fun _ => fails) :
    Spec pre (m.mapFailure f) crash post fun _ => fails :=
  h.mapFailure fun _ _ hs => hs

theorem onFailure {f : σ → σ} (h : Spec pre m crash post fails')
    (hcrash : ∀ e s, fails' e s → crash (f s))
    (hfails : ∀ e s, fails' e s → fails e (f s)) : Spec pre (m.onFailure f) crash post fails := by
  refine of_result fun s hs => ?_
  unfold Durable.onFailure
  cases heq : (m s).result with
  | ok a => exact ⟨h.visited s hs, h.ok s a hs heq⟩
  | error e =>
      have hend := h.error s e hs heq
      refine ⟨List.forall_mem_append.mpr ⟨h.visited s hs, ?_⟩, hfails e _ hend⟩
      exact List.forall_mem_singleton.mpr (hcrash e _ hend)

theorem zoom {τ : Type u} {get : τ → σ} {put : σ → τ → τ} {pre crash : τ → Prop}
    {post : α → τ → Prop} {fails : ε → τ → Prop}
    (h : ∀ t, pre t → Spec (fun s => s = get t) m (fun s => crash (put s t))
      (fun a s => post a (put s t)) fun e s => fails e (put s t)) :
    Spec pre (m.zoom get put) crash post fails where
  visited t ht t' ht' := by
    obtain ⟨s, hs, rfl⟩ := List.mem_map.mp ht'
    exact (h t ht).visited _ rfl s hs
  ok t a ht ha := (h t ht).ok _ a rfl ha
  error t e ht he := (h t ht).error _ e rfl he

section

variable (h : Spec pre m crash post fails)

include h

/-- Weaken every condition but the first, which is strengthened. -/
theorem conseq (hpre : ∀ s, pre' s → pre s)
    (hcrash : ∀ s, crash s → crash' s) (hpost : ∀ a s, post a s → post' a s)
    (hfails : ∀ e s, fails e s → fails' e s) : Spec pre' m crash' post' fails' where
  visited s hs s' hs' := hcrash s' (h.visited s (hpre s hs) s' hs')
  ok s a hs heq := hpost a _ (h.ok s a (hpre s hs) heq)
  error s e hs heq := hfails e _ (h.error s e (hpre s hs) heq)

theorem pre_mono (hpre : ∀ s, pre' s → pre s) :
    Spec pre' m crash post fails :=
  h.conseq hpre (fun _ hs => hs) (fun _ _ hs => hs) fun _ _ hs => hs

theorem crash_mono (hcrash : ∀ s, crash s → crash' s) :
    Spec pre m crash' post fails :=
  h.conseq (fun _ hs => hs) hcrash (fun _ _ hs => hs) fun _ _ hs => hs

theorem post_mono (hpost : ∀ a s, post a s → post' a s) :
    Spec pre m crash post' fails :=
  h.conseq (fun _ hs => hs) (fun _ hs => hs) hpost fun _ _ hs => hs

/-- Cases of the precondition. -/
theorem or (h' : Spec pre' m crash post fails) :
    Spec (fun s => pre s ∨ pre' s) m crash post fails where
  visited s hs := hs.elim (h.visited s) (h'.visited s)
  ok s a hs := hs.elim (h.ok s a) (h'.ok s a)
  error s e hs := hs.elim (h.error s e) (h'.error s e)

end

/-- A part of the precondition that the state is not in. -/
theorem of_and {p : Prop} (h : p → Spec pre m crash post fails) :
    Spec (fun s => p ∧ pre s) m crash post fails where
  visited s hs := (h hs.1).visited s hs.2
  ok s a hs := (h hs.1).ok s a hs.2
  error s e hs := (h hs.1).error s e hs.2

/-- A value that the precondition names. -/
theorem of_exists {ι : Sort*} {pre : ι → σ → Prop} (h : ∀ i, Spec (pre i) m crash post fails) :
    Spec (fun s => ∃ i, pre i s) m crash post fails where
  visited s hs := hs.elim fun i hi => (h i).visited s hi
  ok s a hs := hs.elim fun i hi => (h i).ok s a hi
  error s e hs := hs.elim fun i hi => (h i).error s e hi

/-- A look whose answer does not matter. -/
theorem look_frame {fails : σ → Prop} (h : ∀ s, pre s → fails s) :
    Spec pre (Durable.look f) crash (fun _ => pre) fun _ => fails :=
  look (fun _ _ hs _ => hs) fun s _ hs _ => h s hs

/-- A look at the end. -/
theorem look_end {ends : σ → Prop} (h : ∀ s, pre s → ends s) :
    Spec pre (Durable.look f) crash (fun _ => ends) fun _ => ends :=
  look (fun s _ hs _ => h s hs) fun s _ hs _ => h s hs

/-- A look whose answer is known goes on with it. -/
theorem look_then {g : α → Durable σ ε β} {post : β → σ → Prop} {mid : σ → Prop} (a : α)
    (h : ∀ s, pre s → f s = .ok a ∧ mid s) (hg : Spec mid (g a) crash post fails) :
    Spec pre (Durable.look f >>= g) crash post fails :=
  bind (fun a' s => a' = a ∧ mid s)
    (look_ok fun s hs => ⟨a, (h s hs).1, rfl, (h s hs).2⟩) fun _ => of_and fun ha => ha ▸ hg

/-- A precondition that cannot hold. -/
theorem of_false (h : ∀ s, ¬pre s) : Spec pre m crash post fails where
  visited s hs := absurd hs (h s)
  ok s _ hs := absurd hs (h s)
  error s _ hs := absurd hs (h s)

/-- A program that does not fail ends in its postcondition. -/
theorem exists_ok (h : Spec pre m crash post fun _ _ => False) {s : σ} (hs : pre s) :
    ∃ a, (m s).result = .ok a ∧ post a (m s).final := by
  cases hresult : (m s).result with
  | ok a => exact ⟨a, rfl, h.ok s a hs hresult⟩
  | error e => exact (h.error s e hs hresult).elim

theorem crashStates (h : Spec pre m crash post fails) (hpre : ∀ s, pre s → crash s) {s s' : σ}
    (hs : pre s) (hs' : s' ∈ m.crashStates s) : crash s' := by
  rcases List.mem_cons.mp hs' with rfl | hs'
  · exact hpre _ hs
  · exact h.visited s hs s' hs'

/-- **Crashes while recovering.** What holds before and in every crash of a program holds after any
number of crashes of it. -/
theorem of_crashRun (h : Spec pre m pre post fails) {s s' : σ} (hs : pre s)
    (hrun : m.CrashRun s s') : pre s' := by
  induction hrun with
  | start => exact hs
  | crash _ hcrash ih => exact h.crashStates (fun _ hs => hs) ih hcrash

end Spec

/-! ### Invariants -/

/-- What holds before a program holds in every state it goes through. -/
def Keeps (inv : σ → Prop) (m : Durable σ ε α) : Prop :=
  Spec inv m inv (fun _ => inv) fun _ => inv

namespace Keeps

variable {inv : σ → Prop}

theorem pure {a : α} : Keeps inv (Pure.pure a : Durable σ ε α) :=
  Spec.pure fun _ hs => hs

theorem bind {f : α → Durable σ ε β} (h : Keeps inv m) (hf : ∀ a, Keeps inv (f a)) :
    Keeps inv (m >>= f) :=
  Spec.bind _ h hf

theorem look : Keeps inv (Durable.look f) :=
  Spec.look (fun _ _ hs _ => hs) fun _ _ hs _ => hs

theorem fail {e : ε} : Keeps inv (Durable.fail e : Durable σ ε α) :=
  look

theorem change {f : σ → σ} (h : ∀ s, inv s → inv (f s)) :
    Keeps inv (Durable.change f : Durable σ ε PUnit) :=
  Spec.change h h

theorem writing {β : Type*} {pieces : List β} {f : List β → σ → σ}
    (h : ∀ p s, inv s → inv (f p s)) : Keeps inv (Durable.writing pieces f : Durable σ ε PUnit) :=
  Spec.writing (fun s hs p _ => h p s hs) fun s hs => h pieces s hs

theorem mapFailure {f : ε → ε} (h : Keeps inv m) : Keeps inv (m.mapFailure f) :=
  Spec.mapFailure h fun _ _ hs => hs

theorem onFailure {f : σ → σ} (h : Keeps inv m) (hf : ∀ s, inv s → inv (f s)) :
    Keeps inv (m.onFailure f) :=
  Spec.onFailure h (fun _ s hs => hf s hs) fun _ s hs => hf s hs

end Keeps

end Durable

end Jig.Lib

import Mathlib.Algebra.Ring.Nat
import Mathlib.Data.List.Induction
import Mathlib.Data.List.Sort

/-!
# Fallible loops

Rules for computations in `Except ε` that are written as loops: when a bind, a `forM`, a `mapM` or a
`foldlM` succeeds, and how an invariant is carried along one.

* `foldlM_ok_induction`: a successful loop carries every invariant its steps keep. The invariant may
  mention the elements already processed.
* `foldlM_ok_progress`: a loop succeeds when every step can be taken from every state the invariant
  allows.
-/

namespace Jig.Lib

universe u v

variable {ε : Type v} {α β σ : Type u}

variable {x : Except ε α} {f : α → Except ε β} {l : List α} {a : α} {good : α → Prop} {bs : List β}
  {e : ε} {c : Prop} {s : σ} {b : β}

@[simp]
theorem bind_eq_ok : (x >>= f) = .ok b ↔ ∃ a, x = .ok a ∧ f a = .ok b := by
  cases x with
  | error e => simp [bind, Except.bind]
  | ok a => simp [bind, Except.bind]

@[simp]
theorem pure_eq_ok {b : α} : (pure a : Except ε α) = .ok b ↔ a = b := by
  simp [pure, Except.pure]

@[simp]
theorem map_eq_ok {f : α → β} : f <$> x = .ok b ↔ ∃ a, x = .ok a ∧ f a = b := by
  cases x with
  | error e => simp [Functor.map, Except.map]
  | ok a => simp [Functor.map, Except.map]

/-- Does the computation succeed with a value that passes the test? -/
def isOkAnd (x : Except ε α) (p : α → Bool) : Bool :=
  match x with
  | .ok a => p a
  | .error _ => false

theorem exists_of_isOkAnd {p : α → Bool} (h : isOkAnd x p = true) : ∃ a, x = .ok a ∧ p a = true := by
  cases x with
  | error e => cases h
  | ok a => exact ⟨a, rfl, h⟩

theorem map_eq_error {f : α → β} : f <$> x = .error e ↔ x = .error e := by
  cases x <;> simp [Functor.map, Except.map]

/-- A check before the rest of a computation. -/
theorem then_eq_ok {x : Except ε PUnit} {y : Except ε β} :
    (x >>= fun _ => y) = .ok b ↔ x = .ok ⟨⟩ ∧ y = .ok b := by
  rw [bind_eq_ok]
  exact ⟨fun ⟨_, hx, hy⟩ => ⟨hx, hy⟩, fun ⟨hx, hy⟩ => ⟨⟨⟩, hx, hy⟩⟩

@[simp]
theorem mapError_eq_ok {ε' : Type v} {f : ε → ε'} : x.mapError f = .ok a ↔ x = .ok a := by
  cases x with
  | error e => simp [Except.mapError]
  | ok a => simp [Except.mapError]

/-- A guard that fails with an error when its condition holds. -/
theorem ite_error_eq_ok [Decidable c] : (if c then .error e else x) = .ok a ↔ ¬c ∧ x = .ok a := by
  by_cases hc : c
  · simp [hc]
  · simp [hc]

/-- A guard that fails with an error unless its condition holds. -/
theorem ite_else_error_eq_ok [Decidable c] :
    (if c then x else .error e) = .ok a ↔ c ∧ x = .ok a := by
  by_cases hc : c
  · simp [hc]
  · simp [hc]

/-! ## Loops without state -/

theorem forM_eq_ok {f : α → Except ε PUnit} : l.forM f = .ok ⟨⟩ ↔ ∀ a ∈ l, f a = .ok ⟨⟩ := by
  induction l with
  | nil => simp [pure, Except.pure]
  | cons a l ih =>
      have hcons : (a :: l).forM f = f a >>= fun _ => l.forM f := rfl
      rw [hcons, then_eq_ok, List.forall_mem_cons, ih]

theorem mapM_eq_ok : l.mapM f = .ok bs ↔ List.Forall₂ (fun a b => f a = .ok b) l bs := by
  induction l generalizing bs with
  | nil =>
      simp only [List.mapM_nil, pure_eq_ok, List.forall₂_nil_left_iff]
      exact eq_comm
  | cons a l ih =>
      simp only [List.mapM_cons, bind_eq_ok, pure_eq_ok, List.forall₂_cons_left_iff, ih]
      constructor
      · rintro ⟨b, hb, bs', hbs', rfl⟩
        exact ⟨b, bs', hb, hbs', rfl⟩
      · rintro ⟨b, bs', hb, hbs', rfl⟩
        exact ⟨b, hb, bs', hbs', rfl⟩

/-- A step that computes a function where a condition holds, for a whole list. -/
theorem mapM_eq_ok_map {g : α → β} (h : ∀ a b, f a = .ok b ↔ good a ∧ b = g a) :
    l.mapM f = .ok bs ↔ (∀ a ∈ l, good a) ∧ bs = l.map g := by
  simp only [mapM_eq_ok, h]
  induction l generalizing bs with
  | nil => simp
  | cons a l ih =>
      simp only [List.forall₂_cons_left_iff, ih, List.forall_mem_cons, List.map_cons]
      constructor
      · rintro ⟨b, bs', ⟨ha, rfl⟩, ⟨hl, rfl⟩, rfl⟩
        exact ⟨⟨ha, hl⟩, rfl⟩
      · rintro ⟨⟨ha, hl⟩, rfl⟩
        exact ⟨_, _, ⟨ha, rfl⟩, ⟨hl, rfl⟩, rfl⟩

/-- A `mapM` whose every step succeeds with a good result succeeds with good results. -/
theorem mapM_ok_progress {good : α → β → Prop} (h : ∀ a ∈ l, ∃ b, f a = .ok b ∧ good a b) :
    ∃ bs, l.mapM f = .ok bs ∧ List.Forall₂ good l bs := by
  induction l with
  | nil => exact ⟨[], rfl, .nil⟩
  | cons a l ih =>
      obtain ⟨b, hb, hgood⟩ := h a List.mem_cons_self
      obtain ⟨bs, hbs, hgoods⟩ := ih fun a' ha' => h a' (List.mem_cons_of_mem a ha')
      refine ⟨b :: bs, ?_, .cons hgood hgoods⟩
      simp only [List.mapM_cons, bind_eq_ok, pure_eq_ok]
      exact ⟨b, hb, bs, hbs, rfl⟩

theorem exists_of_mem_of_mapM (h : l.mapM f = .ok bs) (ha : a ∈ l) : ∃ b ∈ bs, f a = .ok b := by
  obtain ⟨i, hi, rfl⟩ := List.mem_iff_getElem.mp ha
  have hforall := mapM_eq_ok.mp h
  have hlt : i < bs.length := hforall.length_eq ▸ hi
  exact ⟨bs[i], List.getElem_mem hlt, hforall.get hi hlt⟩

/-! ## Loops with state -/

section Fold

variable {f : σ → α → Except ε σ} {init final : σ} {parse : α → Except ε β}

theorem foldlM_append_eq_ok {l₁ l₂ : List α} :
    (l₁ ++ l₂).foldlM f init = .ok final ↔
      ∃ mid, l₁.foldlM f init = .ok mid ∧ l₂.foldlM f mid = .ok final := by
  rw [List.foldlM_append, bind_eq_ok]

theorem foldlM_concat_eq_ok :
    (l ++ [a]).foldlM f init = .ok final ↔
      ∃ mid, l.foldlM f init = .ok mid ∧ f mid a = .ok final := by
  rw [foldlM_append_eq_ok]
  simp only [List.foldlM_cons, List.foldlM_nil, bind_eq_ok, pure_eq_ok, exists_eq_right]

/-- **Invariant rule.** The motive sees the prefix of the list that has been processed. -/
theorem foldlM_ok_induction (motive : List α → σ → Prop) (hfold : l.foldlM f init = .ok final)
    (hinit : motive [] init)
    (hstep : ∀ done a s s', done ++ [a] <+: l → motive done s → f s a = .ok s' →
      motive (done ++ [a]) s') :
    motive l final := by
  induction l using List.reverseRecOn generalizing final with
  | nil =>
      simp only [List.foldlM_nil, pure_eq_ok] at hfold
      exact hfold ▸ hinit
  | append_singleton l a ih =>
      obtain ⟨mid, hl, ha⟩ := foldlM_concat_eq_ok.mp hfold
      have hmid : motive l mid := by
        apply ih hl
        intro done b s s' hpre hs hb
        exact hstep done b s s' (hpre.trans (List.prefix_append l [a])) hs hb
      exact hstep l a mid final List.prefix_rfl hmid ha

/-- **Progress rule.** A loop whose every step succeeds from the states of the motive succeeds. -/
theorem foldlM_ok_progress (motive : List α → σ → Prop) (hinit : motive [] init)
    (hstep : ∀ done a s, done ++ [a] <+: l → motive done s →
      ∃ s', f s a = .ok s' ∧ motive (done ++ [a]) s') :
    ∃ final, l.foldlM f init = .ok final ∧ motive l final := by
  induction l using List.reverseRecOn with
  | nil => exact ⟨init, rfl, hinit⟩
  | append_singleton l a ih =>
      have hprogress : ∃ mid, l.foldlM f init = .ok mid ∧ motive l mid := by
        apply ih
        intro done b s hpre hs
        exact hstep done b s (hpre.trans (List.prefix_append l [a])) hs
      obtain ⟨mid, hl, hmid⟩ := hprogress
      obtain ⟨final, ha, hfinal⟩ := hstep l a mid List.prefix_rfl hmid
      exact ⟨final, foldlM_concat_eq_ok.mpr ⟨mid, hl, ha⟩, hfinal⟩

/-- Two folds whose rounds agree up to a map of the states agree up to the map. -/
theorem foldlM_map_comm {τ : Type*} {g : τ → α → Except ε τ} {φ : σ → τ}
    (h : ∀ s a, g (φ s) a = (f s a).map φ) :
    l.foldlM g (φ init) = (l.foldlM f init).map φ := by
  induction l generalizing init with
  | nil => rfl
  | cons a l ih =>
      rw [List.foldlM_cons, List.foldlM_cons, h]
      cases f init a with
      | error e => rfl
      | ok s => exact ih

/-- Parsing the selected elements selects what they parse to. -/
theorem mapM_filter_eq_ok {p : α → Bool} {q : β → Bool} {parsed : List β}
    (hpq : ∀ a b, parse a = .ok b → p a = q b) (h : l.mapM parse = .ok parsed) :
    (l.filter p).mapM parse = .ok (parsed.filter q) := by
  rw [mapM_eq_ok] at h ⊢
  induction h with
  | nil => exact .nil
  | cons hab _ ih =>
      rw [List.filter_cons, List.filter_cons, hpq _ _ hab]
      split
      · exact .cons hab ih
      · exact ih

/-- A fold that parses each element first. -/
theorem foldlM_parse_eq_ok {g : σ → β → Except ε σ} :
    l.foldlM (fun s a => parse a >>= g s) init = .ok final ↔
      ∃ parsed, l.mapM parse = .ok parsed ∧ parsed.foldlM g init = .ok final := by
  induction l generalizing init with
  | nil => simp
  | cons a l ih =>
      rw [List.foldlM_cons, List.mapM_cons]
      simp only [bind_eq_ok, ih, pure_eq_ok]
      constructor
      · rintro ⟨mid, ⟨b, hb, hmid⟩, parsed, hparsed, hfinal⟩
        refine ⟨b :: parsed, ⟨b, hb, parsed, hparsed, rfl⟩, ?_⟩
        rw [List.foldlM_cons, bind_eq_ok]
        exact ⟨mid, hmid, hfinal⟩
      · rintro ⟨_, ⟨b, hb, parsed, hparsed, rfl⟩, hfinal⟩
        rw [List.foldlM_cons, bind_eq_ok] at hfinal
        obtain ⟨mid, hmid, hfinal⟩ := hfinal
        exact ⟨mid, ⟨b, hb, hmid⟩, parsed, hparsed, hfinal⟩

/-- A fold all of whose rounds succeed succeeds. -/
theorem foldlM_ok_exists (h : ∀ s, ∀ a ∈ l, ∃ s', f s a = .ok s') :
    ∃ final, l.foldlM f init = .ok final := by
  obtain ⟨final, hfinal, -⟩ : ∃ final, l.foldlM f init = .ok final ∧ True := by
    refine foldlM_ok_progress (fun _ _ => True) trivial fun done a s hpre _ => ?_
    obtain ⟨s', hs'⟩ := h s a (hpre.subset (by simp))
    exact ⟨s', hs', trivial⟩
  exact ⟨final, hfinal⟩

/-- **Loops that refuse repetitions.** `f` checks an element, refuses one whose key was seen and
records it otherwise. -/
theorem foldlM_new_eq_ok {κ : Type*} {k : α → κ} {P : σ → κ → Prop} {g : σ → α → σ}
    (hf : ∀ s a s', f s a = .ok s' ↔ good a ∧ ¬P s (k a) ∧ s' = g s a)
    (hg : ∀ s a b, P (g s a) b ↔ k a = b ∨ P s b) {s' : σ} :
    l.foldlM f s = .ok s' ↔
      (∀ a ∈ l, good a) ∧ (l.map k).Nodup ∧ (∀ a ∈ l, ¬P s (k a)) ∧ s' = l.foldl g s := by
  induction l generalizing s with
  | nil =>
      simp only [List.foldlM_nil, pure_eq_ok, List.not_mem_nil, false_implies, implies_true,
        List.map_nil, List.nodup_nil, List.foldl_nil, true_and]
      exact eq_comm
  | cons a l ih =>
      simp only [List.foldlM_cons, bind_eq_ok, hf, ih, List.forall_mem_cons, List.map_cons,
        List.nodup_cons, List.foldl_cons]
      constructor
      · rintro ⟨_, ⟨hgood, hnew, rfl⟩, hall, hnodup, hfresh, rfl⟩
        simp only [hg, not_or] at hfresh
        refine ⟨⟨hgood, hall⟩, ⟨?_, hnodup⟩, ⟨hnew, fun b hb => (hfresh b hb).2⟩, rfl⟩
        intro hmem
        obtain ⟨b, hb, hkey⟩ := List.mem_map.mp hmem
        exact (hfresh b hb).1 hkey.symm
      · rintro ⟨⟨hgood, hall⟩, ⟨hnotMem, hnodup⟩, ⟨hnew, hfresh⟩, rfl⟩
        refine ⟨_, ⟨hgood, hnew, rfl⟩, hall, hnodup, ?_, rfl⟩
        intro b hb
        rw [hg, not_or]
        exact ⟨fun h => hnotMem (List.mem_map.mpr ⟨b, hb, h.symm⟩), hfresh b hb⟩

/-- Such a loop over what it compares, run for its checks only. -/
theorem discard_foldlM_distinct_eq_ok {f : List α → α → Except ε (List α)}
    (hf : ∀ seen a seen', f seen a = .ok seen' ↔ good a ∧ a ∉ seen ∧ seen' = a :: seen) :
    discard (l.foldlM f []) = .ok ⟨⟩ ↔ (∀ a ∈ l, good a) ∧ l.Nodup := by
  have hdiscard : discard (l.foldlM f []) = (fun _ => ⟨⟩) <$> l.foldlM f [] := by
    cases l.foldlM f [] <;> rfl
  rw [hdiscard, map_eq_ok]
  simp [foldlM_new_eq_ok (k := id) (P := fun seen b => b ∈ seen) hf (by simp [eq_comm])]

end Fold

/-! ## Pre- and postconditions

`Ensures x post fails`: when `x` returns, its result satisfies `post`, and when it stops, the error
satisfies `fails`. The rules below take a computation apart along binds, branches and loops. -/

def Ensures (x : Except ε α) (post : α → Prop) (fails : ε → Prop) : Prop :=
  match x with
  | .ok a => post a
  | .error e => fails e

section Ensures

variable {post : α → Prop} {fails : ε → Prop}

theorem Ensures.of_eq_ok (h : Ensures x post fails) (hx : x = .ok a) : post a := by
  rw [hx] at h
  exact h

theorem Ensures.of_eq_error (h : Ensures x post fails) (hx : x = .error e) : fails e := by
  rw [hx] at h
  exact h

/-- A computation whose errors are impossible returns. -/
theorem Ensures.exists_ok (h : Ensures x post fails) (hfails : ∀ e, ¬fails e) :
    ∃ a, x = .ok a ∧ post a := by
  cases x with
  | ok a => exact ⟨a, rfl, h⟩
  | error e => exact absurd h (hfails e)

theorem Ensures.mono {post' : α → Prop} (h : Ensures x post fails) (hpost : ∀ a, post a → post' a) :
    Ensures x post' fails := by
  cases x with
  | ok a => exact hpost a h
  | error e => exact h

theorem Ensures.bind {post : β → Prop} {mid : α → Prop} (hx : Ensures x mid fails)
    (hf : ∀ a, mid a → Ensures (f a) post fails) : Ensures (x >>= f) post fails := by
  cases x with
  | ok a => exact hf a hx
  | error e => exact hx

theorem Ensures.ite [Decidable c] {y : Except ε α} (hx : c → Ensures x post fails)
    (hy : ¬c → Ensures y post fails) : Ensures (if c then x else y) post fails := by
  split
  · exact hx ‹c›
  · exact hy ‹¬c›

/-- **Loop rule.** The motive sees the elements still to be processed. -/
theorem Ensures.foldlM {f : σ → α → Except ε σ} (motive : List α → σ → Prop) (hinit : motive l s)
    (hstep : ∀ a rest s, motive (a :: rest) s → Ensures (f s a) (motive rest) fails) :
    Ensures (l.foldlM f s) (motive []) fails := by
  induction l generalizing s with
  | nil => exact hinit
  | cons a l ih =>
      rw [List.foldlM_cons]
      exact (hstep a l s hinit).bind fun s' hs' => ih hs'

/-- **Loops that append.** What is listed under a key at the end are the lists of all elements. -/
theorem Ensures.foldlM_append {κ : Type*} {f : σ → α → Except ε σ} {listed : σ → κ → List β}
    {q : α → κ → List β}
    (hstep : ∀ a ∈ l, ∀ s, Ensures (f s a) (fun s' => ∀ k, listed s' k = listed s k ++ q a k) fails)
    (s : σ) :
    Ensures (l.foldlM f s) (fun s' => ∀ k, listed s' k = listed s k ++ l.flatMap (q · k)) fails := by
  induction l generalizing s with
  | nil => exact fun k => (List.append_nil _).symm
  | cons a l ih =>
      rw [List.forall_mem_cons] at hstep
      rw [List.foldlM_cons]
      refine (hstep.1 s).bind fun s' hs' => (ih hstep.2 s').mono fun s'' hs'' k => ?_
      rw [hs'', hs', List.append_assoc, List.flatMap_cons]

end Ensures

/-! ## Two computations side by side

`Together r x y`: both computations stop, or both return and their results are related by `r`. -/

def Together {α β : Type u} (r : α → β → Prop) (x : Except ε α) (y : Except ε β) : Prop :=
  match x, y with
  | .ok a, .ok b => r a b
  | .error _, .error _ => True
  | _, _ => False

section Together

variable {τ : Type u} {r : σ → τ → Prop}

theorem together_error {e' : ε} : Together r (.error e) (.error e') :=
  trivial

theorem Together.exists_right {x : Except ε σ} {y : Except ε τ} (h : Together r x y)
    (hx : x = .ok s) : ∃ t, y = .ok t ∧ r s t := by
  cases y with
  | ok t => exact ⟨t, rfl, by simpa [hx, Together] using h⟩
  | error e => simp [hx, Together] at h

theorem Together.exists_left {x : Except ε σ} {y : Except ε τ} (h : Together r x y) {t : τ}
    (hy : y = .ok t) : ∃ s, x = .ok s ∧ r s t := by
  cases x with
  | ok s => exact ⟨s, rfl, by simpa [hy, Together] using h⟩
  | error e => simp [hy, Together] at h

/-- **Relational loop rule.** Loops over one list whose steps go together go together. -/
theorem Together.foldlM {f : σ → α → Except ε σ} {g : τ → α → Except ε τ}
    (hstep : ∀ a ∈ l, ∀ s t, r s t → Together r (f s a) (g t a)) {t : τ} (h : r s t) :
    Together r (l.foldlM f s) (l.foldlM g t) := by
  induction l generalizing s t with
  | nil => exact h
  | cons a l ih =>
      rw [List.foldlM_cons, List.foldlM_cons]
      have ha := hstep a List.mem_cons_self s t h
      cases hf : f s a with
      | ok s' =>
          obtain ⟨t', hg, hr⟩ := ha.exists_right hf
          rw [hg]
          exact ih (fun b hb => hstep b (List.mem_cons_of_mem a hb)) hr
      | error e =>
          cases hg : g t a with
          | ok t' => simp [hf, hg, Together] at ha
          | error e' => exact together_error

end Together

end Jig.Lib

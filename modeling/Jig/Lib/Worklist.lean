import Jig.Lib.Lists

/-!
# Worklists

The loop that pops an element, processes it and pushes what it adds, until nothing is pending. The
state and the step are arbitrary and the step may fail.

* `worklist_induction`, `worklist_progress`: the rules of the loop. They ask for an invariant of the
  state and the pending elements, and for a weight of the state that pays for every push;
* `worklist_invariant`, `worklist_map_comm`: what only the state needs to know;
* `Closing`: the invariant of a loop that marks what it pushes. With nothing pending the marked
  elements are those reachable from the roots (`Closing.exact`), and the unmarked part of a finite
  universe is its weight (`countP_unseen_add_length_le`); `worklist_reachable` puts the two
  together.
-/

namespace Jig.Lib

universe u v w

variable {α : Type u} {σ : Type v} {ε : Type w} {step : σ → α → Except ε (σ × List α)}
  {pending : List α} {next : α → List α} {rounds : Nat}

/-- Process pending elements, the last one pushed first. The number bounds the rounds; the rules
below say when it is enough. -/
def worklist (step : σ → α → Except ε (σ × List α)) : Nat → σ → List α → Except ε σ
  | _, s, [] => .ok s
  | 0, s, _ :: _ => .ok s
  | rounds + 1, s, a :: pending =>
      match step s a with
      | .error e => .error e
      | .ok (s', pushed) => worklist step rounds s' (pushed.reverse ++ pending)

/-- Two loops whose rounds agree up to a map of the states agree up to the map. -/
theorem worklist_map_comm {τ : Type*} {step' : τ → α → Except ε (τ × List α)} {φ : σ → τ}
    (h : ∀ s a, step' (φ s) a = (step s a).map (Prod.map φ id)) (rounds : Nat) (s : σ)
    (pending : List α) :
    worklist step' rounds (φ s) pending = (worklist step rounds s pending).map φ := by
  induction rounds generalizing s pending with
  | zero => cases pending <;> rfl
  | succ rounds ih =>
      cases pending with
      | nil => rfl
      | cons a pending =>
          unfold worklist
          rw [h]
          cases step s a with
          | error e => rfl
          | ok r => exact ih r.1 (r.2.reverse ++ pending)

/-! ## Rules -/

section Rules

/-- **Loop rule.** When the loop succeeds, the invariant holds with nothing pending. -/
theorem worklist_induction (Inv : σ → List α → Prop) (weight : σ → Nat)
    (hstep : ∀ {s a pending s' pushed}, Inv s (a :: pending) → step s a = .ok (s', pushed) →
      Inv s' (pushed.reverse ++ pending) ∧ weight s' + pushed.length ≤ weight s) {s final : σ}
    (hinv : Inv s pending) (hrounds : pending.length + weight s ≤ rounds)
    (h : worklist step rounds s pending = .ok final) : Inv final [] := by
  induction rounds generalizing s pending with
  | zero =>
      cases pending with
      | nil =>
          cases h
          exact hinv
      | cons a pending =>
          rw [List.length_cons] at hrounds
          omega
  | succ rounds ih =>
      cases pending with
      | nil =>
          cases h
          exact hinv
      | cons a pending =>
          unfold worklist at h
          split at h
          · cases h
          · next s' pushed hs =>
              obtain ⟨hinv', hpaid⟩ := hstep hinv hs
              apply ih hinv' _ h
              rw [List.length_cons] at hrounds
              rw [List.length_append, List.length_reverse]
              omega

/-- **Progress.** The loop succeeds when its step does wherever the invariant holds. -/
theorem worklist_progress (Inv : σ → List α → Prop)
    (hstep : ∀ {s a pending s' pushed}, Inv s (a :: pending) → step s a = .ok (s', pushed) →
      Inv s' (pushed.reverse ++ pending))
    (hok : ∀ {s a pending}, Inv s (a :: pending) → ∃ r, step s a = .ok r) {s : σ}
    (hinv : Inv s pending) (rounds : Nat) :
    ∃ final, worklist step rounds s pending = .ok final := by
  induction rounds generalizing s pending with
  | zero =>
      cases pending with
      | nil => exact ⟨s, rfl⟩
      | cons a pending => exact ⟨s, rfl⟩
  | succ rounds ih =>
      cases pending with
      | nil => exact ⟨s, rfl⟩
      | cons a pending =>
          obtain ⟨⟨s', pushed⟩, hs⟩ := hok hinv
          obtain ⟨final, hfinal⟩ := ih (hstep hinv hs)
          refine ⟨final, ?_⟩
          unfold worklist
          rw [hs]
          exact hfinal

/-- A property of the state that every step keeps. -/
theorem worklist_invariant (good : σ → Prop)
    (hstep : ∀ {s a s' pushed}, good s → step s a = .ok (s', pushed) → good s') {s final : σ}
    (hgood : good s) (h : worklist step rounds s pending = .ok final) : good final := by
  induction rounds generalizing s pending with
  | zero =>
      cases pending with
      | nil =>
          cases h
          exact hgood
      | cons a pending =>
          cases h
          exact hgood
  | succ rounds ih =>
      cases pending with
      | nil =>
          cases h
          exact hgood
      | cons a pending =>
          unfold worklist at h
          split at h
          · cases h
          · next s' pushed hs => exact ih (hstep hgood hs) h

end Rules

/-! ## Closing a set under successors -/

/-- The elements a list of successors leads to from some root. -/
def Reachable (next : α → List α) (root : α → Prop) (a : α) : Prop :=
  ∃ r, root r ∧ Relation.ReflTransGen (fun a b => b ∈ next a) r a

/-- The state of a loop that marks the successors of an element when it pops it, and pushes those
that were not marked before. -/
structure Closing (next : α → List α) (root seen : α → Prop) (pending : List α) : Prop where
  seen_root : ∀ {a}, root a → seen a
  reachable : ∀ {a}, seen a → Reachable next root a
  seen_pending : ∀ {a}, a ∈ pending → seen a
  nodup_pending : pending.Nodup
  closed : ∀ {a b}, seen a → a ∉ pending → b ∈ next a → seen b

namespace Closing

variable {root seen seen' : α → Prop} {a : α} {pushed : List α}

/-- Before the first round the roots are marked and pending. -/
theorem initial (hpending : ∀ {a}, a ∈ pending ↔ root a) (hnodup : pending.Nodup) :
    Closing next root root pending where
  seen_root h := h
  reachable {a} h := ⟨a, h, .refl⟩
  seen_pending h := hpending.mp h
  nodup_pending := hnodup
  closed h hnot _ := absurd (hpending.mpr h) hnot

/-- **One round.** -/
theorem visit (h : Closing next root seen (a :: pending))
    (hseen : ∀ {b}, seen' b ↔ seen b ∨ b ∈ next a) (hnodup : pushed.Nodup)
    (hpushed : ∀ {b}, b ∈ pushed ↔ b ∈ next a ∧ ¬ seen b) :
    Closing next root seen' (pushed.reverse ++ pending) := by
  have hmem : ∀ {b}, b ∈ pushed.reverse ++ pending ↔ b ∈ pushed ∨ b ∈ pending := by simp
  refine ⟨fun hroot => hseen.mpr (.inl (h.seen_root hroot)), ?_, ?_, ?_, ?_⟩
  · intro b hb
    rcases hseen.mp hb with hb | hb
    · exact h.reachable hb
    · obtain ⟨r, hroot, hra⟩ := h.reachable (h.seen_pending List.mem_cons_self)
      exact ⟨r, hroot, hra.tail hb⟩
  · intro b hb
    rcases hmem.mp hb with hb | hb
    · exact hseen.mpr (.inr (hpushed.mp hb).1)
    · exact hseen.mpr (.inl (h.seen_pending (List.mem_cons_of_mem a hb)))
  · refine List.nodup_append.mpr
      ⟨(List.reverse_perm pushed).nodup_iff.mpr hnodup, (List.nodup_cons.mp h.nodup_pending).2, ?_⟩
    intro b hb c hpend heq
    subst heq
    exact (hpushed.mp (List.mem_reverse.mp hb)).2 (h.seen_pending (List.mem_cons_of_mem a hpend))
  · intro b c hb hnot hc
    rw [hmem, not_or] at hnot
    by_cases hba : b = a
    · subst hba
      exact hseen.mpr (.inr hc)
    · -- a marked element other than the popped one is not pending, so it was closed before
      have hseenb : seen b := (hseen.mp hb).elim id fun hnext =>
        Classical.not_not.mp fun hnew => hnot.1 (hpushed.mpr ⟨hnext, hnew⟩)
      have hnotb : b ∉ a :: pending := by simp [hba, hnot.2]
      exact hseen.mpr (.inl (h.closed hseenb hnotb hc))

/-- **At the end.** -/
theorem exact (h : Closing next root seen []) : seen a ↔ Reachable next root a := by
  refine ⟨h.reachable, ?_⟩
  intro hreach
  obtain ⟨r, hroot, hra⟩ := hreach
  induction hra with
  | refl => exact h.seen_root hroot
  | tail _ hbc ih => exact h.closed ih List.not_mem_nil hbc

end Closing

/-- A round that goes through the successors one by one and pushes each that is not marked yet. -/
theorem foldl_pushNew [DecidableEq α] {f : σ × List α → α → σ × List α} (seen : σ → α → Bool)
    (hpush : ∀ state a, (f state a).2 = if seen state.1 a then state.2 else state.2 ++ [a])
    (hmark : ∀ state a b, seen (f state a).1 b = (decide (a = b) || seen state.1 b))
    (s : σ) (l : List α) :
    (∀ b, seen (l.foldl f (s, [])).1 b = true ↔ seen s b = true ∨ b ∈ l) ∧
      (l.foldl f (s, [])).2.Nodup ∧
      ∀ b, b ∈ (l.foldl f (s, [])).2 ↔ b ∈ l ∧ seen s b = false := by
  induction l using List.reverseRecOn with
  | nil => simp
  | append_singleton l a ih =>
      obtain ⟨hseen, hnodup, hpushed⟩ := ih
      rw [List.foldl_concat]
      refine ⟨?_, ?_, ?_⟩
      · intro b
        rw [hmark, Bool.or_eq_true, decide_eq_true_eq, hseen, List.mem_append, List.mem_singleton,
          eq_comm (a := b)]
        exact or_comm.trans or_assoc
      · rw [hpush]
        split
        · exact hnodup
        · next hnew =>
            rw [← List.concat_eq_append, List.nodup_concat]
            exact ⟨fun ha => hnew ((hseen a).mpr (.inr ((hpushed a).mp ha).1)), hnodup⟩
      · intro b
        have ha := hseen a
        rw [hpush, List.mem_append, List.mem_singleton]
        split
        · next hold =>
            -- a marked successor was marked before, or is a repetition
            rw [hpushed]
            grind
        · next hnew =>
            rw [List.mem_append, List.mem_singleton, hpushed]
            grind

/-- What a round pushes is no longer unmarked, so the unmarked part of a universe pays for it. -/
theorem countP_unseen_add_length_le {seen seen' : α → Bool} {all pushed : List α}
    (hnodup : pushed.Nodup)
    (hpushed : ∀ b ∈ pushed, b ∈ all ∧ seen b = false ∧ seen' b = true)
    (hmono : ∀ b, seen b = true → seen' b = true) :
    all.countP (fun b => !seen' b) + pushed.length ≤ all.countP (fun b => !seen b) := by
  have hsplit := List.countP_eq_countP_filter_add all (fun b => !seen b) seen'
  rw [List.countP_filter, List.countP_filter] at hsplit
  have hunseen : all.countP (fun b => !seen b && !seen' b) =
      all.countP (fun b => !seen' b) := by
    apply List.countP_congr
    intro b _
    have := hmono b
    grind
  have hsub : pushed.length ≤ all.countP (fun b => !seen b && seen' b) := by
    rw [List.countP_eq_length_filter]
    apply (hnodup.subperm _).length_le
    intro b hb
    obtain ⟨hmem, hnew, hold⟩ := hpushed b hb
    exact List.mem_filter.mpr ⟨hmem, by simp [hnew, hold]⟩
  omega

/-- **Closure by worklist.** A loop that marks the successors of what it pops and pushes those that
were not marked computes what is reachable from what was marked at the start. -/
theorem worklist_reachable (seen : σ → α → Bool) {all : List α}
    (hstep : ∀ {s a s' pushed}, step s a = .ok (s', pushed) →
      (∀ b, seen s' b = true ↔ seen s b = true ∨ b ∈ next a) ∧ pushed.Nodup ∧
        ∀ b, b ∈ pushed ↔ b ∈ next a ∧ seen s b = false) (hall : ∀ {a b}, b ∈ next a → b ∈ all)
    {s final : σ} (hpending : ∀ {a}, a ∈ pending ↔ seen s a = true) (hnodup : pending.Nodup)
    (hrounds : pending.length + all.length ≤ rounds)
    (h : worklist step rounds s pending = .ok final) (a : α) :
    seen final a = true ↔ Reachable next (fun r => seen s r = true) a := by
  have hclosing : Closing next (fun r => seen s r = true) (fun r => seen final r = true) [] := by
    refine worklist_induction
      (fun s' pending => Closing next (fun r => seen s r = true)
        (fun r => seen s' r = true) pending)
      (fun s => all.countP (fun b => !seen s b)) ?_ (.initial hpending hnodup) ?_ h
    · intro s a pending s' pushed hinv hs
      obtain ⟨hseen, hpushedNodup, hpushed⟩ := hstep hs
      constructor
      · apply hinv.visit (hseen _) hpushedNodup
        intro b
        rw [hpushed, Bool.not_eq_true]
      · apply countP_unseen_add_length_le hpushedNodup
        · intro b hb
          obtain ⟨hnext, hnew⟩ := (hpushed b).mp hb
          exact ⟨hall hnext, hnew, (hseen b).mpr (.inr hnext)⟩
        · intro b hb
          exact (hseen b).mpr (.inl hb)
    · have hle : all.countP (fun b => !seen s b) ≤ all.length := List.countP_le_length
      omega
  exact hclosing.exact

/-! ## Marking what is popped -/

/-- The state of a loop that marks an element when it pops it, and then pushes all its successors.
-/
structure Visiting (next : α → List α) (root seen : α → Prop) (pending : List α) : Prop where
  found_root : ∀ {a}, root a → seen a ∨ a ∈ pending
  reachable : ∀ {a}, seen a ∨ a ∈ pending → Reachable next root a
  closed : ∀ {a b}, seen a → b ∈ next a → seen b ∨ b ∈ pending

namespace Visiting

variable {root seen seen' : α → Prop} {a : α}

/-- What is marked or pending stays so when an element is popped and marked. -/
theorem found_pop (pushed : List α) (ha : seen' a) (hmono : ∀ b, seen b → seen' b) {b : α}
    (hb : seen b ∨ b ∈ a :: pending) : seen' b ∨ b ∈ pushed ++ pending := by
  rcases hb with hb | hb
  · exact .inl (hmono b hb)
  · rcases List.mem_cons.mp hb with rfl | hb
    · exact .inl ha
    · exact .inr (List.mem_append_right _ hb)

/-- What was marked before is dropped. -/
theorem skip (h : Visiting next root seen (a :: pending)) (ha : seen a) :
    Visiting next root seen pending where
  found_root hroot := found_pop [] ha (fun _ hb => hb) (h.found_root hroot)
  reachable hfound := h.reachable (hfound.imp_right (List.mem_cons_of_mem _))
  closed hseen hnext := found_pop [] ha (fun _ hb => hb) (h.closed hseen hnext)

/-- What was not is marked, and its successors are pending. -/
theorem visit (h : Visiting next root seen (a :: pending)) (hseen : ∀ b, seen' b ↔ seen b ∨ b = a) :
    Visiting next root seen' ((next a).reverse ++ pending) := by
  have hkeep {b : α} : seen b ∨ b ∈ a :: pending → seen' b ∨ b ∈ (next a).reverse ++ pending :=
    found_pop _ ((hseen a).mpr (.inr rfl)) fun b hb => (hseen b).mpr (.inl hb)
  constructor
  · exact fun hroot => hkeep (h.found_root hroot)
  · have ha : Reachable next root a := h.reachable (.inr List.mem_cons_self)
    rintro b (hb | hb)
    · rcases (hseen b).mp hb with hb | rfl
      · exact h.reachable (.inl hb)
      · exact ha
    · rcases List.mem_append.mp hb with hb | hb
      · obtain ⟨r, hr, hpath⟩ := ha
        exact ⟨r, hr, hpath.tail (List.mem_reverse.mp hb)⟩
      · exact h.reachable (.inr (List.mem_cons_of_mem _ hb))
  · intro b c hb hc
    rcases (hseen b).mp hb with hb | rfl
    · exact hkeep (h.closed hb hc)
    · exact .inr (List.mem_append_left _ (List.mem_reverse.mpr hc))

/-- With nothing pending the marked elements are those that can be reached. -/
theorem exact (h : Visiting next root seen []) : seen a ↔ Reachable next root a := by
  refine ⟨fun ha => h.reachable (.inl ha), ?_⟩
  rintro ⟨r, hr, hpath⟩
  induction hpath with
  | refl => simpa using h.found_root hr
  | tail _ hnext ih => simpa using h.closed ih hnext

end Visiting

/-- **Closure by worklist.** A loop that marks what it pops and pushes all its successors, and that
drops what was marked before, computes what is reachable from what was pending at the start. -/
theorem worklist_visit_reachable (seen : σ → α → Bool) (next : α → List α) (all : List α)
    (hstep : ∀ {s a s' pushed}, step s a = .ok (s', pushed) →
      (seen s a = true ∧ (∀ b, seen s' b = seen s b) ∧ pushed = []) ∨
        (seen s a = false ∧ (∀ b, seen s' b = true ↔ seen s b = true ∨ b = a) ∧ pushed = next a))
    (hall : ∀ {a}, next a ≠ [] → a ∈ all) {s final : σ} (hfresh : ∀ a, seen s a = false)
    (hrounds : pending.length + (all.map fun a => (next a).length).sum ≤ rounds)
    (h : worklist step rounds s pending = .ok final) (a : α) :
    seen final a = true ↔ Reachable next (· ∈ pending) a := by
  have hvisiting : Visiting next (· ∈ pending) (fun a => seen final a = true) [] := by
    refine worklist_induction
      (fun s' pending' => Visiting next (· ∈ pending) (fun a => seen s' a = true) pending')
      (fun s' => (all.map fun a => if seen s' a then 0 else (next a).length).sum) ?_ ?_ ?_ h
    · intro s a pending' s' pushed hinv hs
      rcases hstep hs with ⟨hseen, hsame, rfl⟩ | ⟨hnew, hseen, rfl⟩
      · simp only [hsame]
        exact ⟨hinv.skip hseen, le_rfl⟩
      · -- what is pushed is paid for by the element that is marked
        refine ⟨hinv.visit hseen, ?_⟩
        have hle : ∀ b ∈ all, (if seen s' b then 0 else (next b).length) ≤
            if seen s b then 0 else (next b).length := by
          intro b _
          by_cases hb : seen s b = true
          · simp [hb, (hseen b).mpr (.inl hb)]
          · rw [if_neg hb]
            split <;> simp
        by_cases hempty : next a = []
        · rw [hempty, List.length_nil, Nat.add_zero]
          exact List.sum_le_sum hle
        · apply sum_map_add_le hle (hall hempty)
          simp [hnew, (hseen a).mpr (.inr rfl)]
    · constructor
      · exact fun ha => .inr ha
      · rintro b (hb | hb)
        · rw [hfresh] at hb
          cases hb
        · exact ⟨b, hb, .refl⟩
      · intro b c hb
        rw [hfresh] at hb
        cases hb
    · simpa [hfresh] using hrounds
  exact hvisiting.exact

end Jig.Lib

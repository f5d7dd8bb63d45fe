import Jig.Lib.Fallible
import Jig.Lib.Lists

/-!
# Peeling a dependency graph

The loop that takes the elements whose dependencies have all been taken, layer by layer, until
nothing is left or no element is ready. `Peeled` says what the layers of such a loop look like.

* `peel_eq_ok`: the layers partition what was there, and every element is taken as soon as its
  dependencies are;
* `Peeled.layerIndex_eq`: the layer of an element is one more than the last layer of a dependency;
* `peelWithin_eq_error`: an element that is left has a dependency that is left;
* `peel_of_rank`: a graph whose edges decrease a rank is peeled to the end.
-/

namespace Jig.Lib

universe u

variable {α : Type u} [DecidableEq α] {deps : α → List α}

/-- The elements whose dependencies have all been taken. -/
def ready (deps : α → List α) (completed remaining : List α) : List α :=
  remaining.filter fun a => (deps a).all (· ∈ completed)

/-- The loop. As many rounds as there are elements are always enough. -/
def peelWithin (deps : α → List α) : Nat → List α → List α → Except (List α) (List (List α))
  | 0, _, remaining => if remaining.isEmpty then .ok [] else .error remaining
  | rounds + 1, completed, remaining =>
      if remaining.isEmpty then
        .ok []
      else
        let layer := ready deps completed remaining
        if layer.isEmpty then
          .error remaining
        else
          (layer :: ·) <$>
            peelWithin deps rounds (completed ++ layer) (remaining.filter (· ∉ layer))

/-- Peel a list. The error is what cannot be taken. -/
def peel (deps : α → List α) (l : List α) : Except (List α) (List (List α)) :=
  peelWithin deps l.length [] l

/-- Layers as the loop produces them. -/
inductive Peeled (deps : α → List α) : List α → List (List α) → Prop
  | nil (completed : List α) : Peeled deps completed []
  | cons {completed layer : List α} {rest : List (List α)} (hne : layer ≠ [])
      (hready : ∀ a ∈ layer, ∀ d ∈ deps a, d ∈ completed)
      (hwaits : ∀ a ∈ rest.flatten, ∃ d ∈ deps a, d ∉ completed)
      (hrest : Peeled deps (completed ++ layer) rest) : Peeled deps completed (layer :: rest)

variable {completed : List α} {remaining : List α} {a : α}

theorem mem_ready :
    a ∈ ready deps completed remaining ↔ a ∈ remaining ∧ ∀ d ∈ deps a, d ∈ completed := by
  simp [ready, List.mem_filter, List.all_eq_true]

theorem length_rest_lt {layer : List α} (hsub : layer ⊆ remaining) (hne : layer ≠ []) :
    (remaining.filter (· ∉ layer)).length < remaining.length := by
  obtain ⟨a, ha⟩ := List.exists_mem_of_ne_nil layer hne
  rw [List.length_filter_lt_length_iff_exists]
  exact ⟨a, hsub ha, by simpa using ha⟩

variable {layers : List (List α)}

/-- **Success.** -/
theorem peelWithin_eq_ok {rounds : Nat} (hnodup : remaining.Nodup)
    (h : peelWithin deps rounds completed remaining = .ok layers) :
    Peeled deps completed layers ∧ layers.flatten.Perm remaining := by
  induction rounds generalizing completed remaining layers with
  | zero =>
      unfold peelWithin at h
      cases remaining with
      | nil =>
          cases h
          exact ⟨.nil completed, .nil⟩
      | cons => cases h
  | succ rounds ih =>
      unfold peelWithin at h
      by_cases hempty : remaining.isEmpty
      · simp only [hempty, if_true, Except.ok.injEq] at h
        subst h
        rw [List.isEmpty_iff] at hempty
        subst hempty
        exact ⟨.nil completed, .nil⟩
      · simp only [hempty, Bool.false_eq_true, if_false] at h
        by_cases hlayer : (ready deps completed remaining).isEmpty
        · simp [hlayer] at h
        · simp only [hlayer, Bool.false_eq_true, if_false] at h
          obtain ⟨rest, hrest, rfl⟩ := map_eq_ok.mp h
          obtain ⟨hpeeled, hperm⟩ := ih (hnodup.filter _) hrest
          constructor
          · refine .cons (by simpa [List.isEmpty_iff] using hlayer) ?_ ?_ hpeeled
            · intro a ha
              exact (mem_ready.mp ha).2
            · intro a ha
              have hmem := List.mem_filter.mp (hperm.mem_iff.mp ha)
              simp only [mem_ready, hmem.1, true_and, decide_eq_true_eq] at hmem
              simpa using hmem
          · -- The layer and the rest split the list by one decidable property.
            have hsplit : remaining.filter (· ∉ ready deps completed remaining) =
                remaining.filter fun a => !(deps a).all (· ∈ completed) := by
              refine List.filter_congr fun a ha => ?_
              rw [Bool.eq_iff_iff]
              simp [mem_ready, ha]
            rw [hsplit] at hperm
            exact (hperm.append_left _).trans (List.filter_append_perm _ remaining)

/-- **Failure.** Every element that is left waits for one that has not been taken. -/
theorem peelWithin_eq_error {rounds : Nat} {stuck : List α} (hrounds : remaining.length ≤ rounds)
    (h : peelWithin deps rounds completed remaining = .error stuck) :
    stuck ≠ [] ∧ stuck ⊆ remaining ∧
      ∃ taken : List α, (∀ a ∈ completed, a ∈ taken) ∧ (∀ a ∈ remaining, a ∈ taken ∨ a ∈ stuck) ∧
        ∀ a ∈ stuck, ∃ d ∈ deps a, d ∉ taken := by
  induction rounds generalizing completed remaining with
  | zero =>
      unfold peelWithin at h
      obtain rfl : remaining = [] := List.eq_nil_of_length_eq_zero (Nat.le_zero.mp hrounds)
      cases h
  | succ rounds ih =>
      unfold peelWithin at h
      by_cases hempty : remaining.isEmpty
      · simp [hempty] at h
      · simp only [hempty, Bool.false_eq_true, if_false] at h
        by_cases hlayer : (ready deps completed remaining).isEmpty
        · simp only [hlayer, if_true, Except.error.injEq] at h
          subst h
          refine ⟨by simpa [List.isEmpty_iff] using hempty, List.Subset.refl _, completed,
            fun a ha => ha, fun a ha => Or.inr ha, ?_⟩
          intro a ha
          by_contra hall
          have hmem : a ∈ ready deps completed remaining := by
            rw [mem_ready]
            refine ⟨ha, ?_⟩
            intro d hd
            by_contra hd'
            exact hall ⟨d, hd, hd'⟩
          rw [List.isEmpty_iff.mp hlayer] at hmem
          cases hmem
        · simp only [hlayer, Bool.false_eq_true, if_false] at h
          have hne : ready deps completed remaining ≠ [] := by
            simpa [List.isEmpty_iff] using hlayer
          have hsub : ready deps completed remaining ⊆ remaining :=
            fun a ha => (mem_ready.mp ha).1
          have hlt := length_rest_lt hsub hne
          obtain ⟨hstuck, hleft, taken, hcompleted, hcover, hwaits⟩ :=
            ih (by omega) (map_eq_error.mp h)
          refine ⟨hstuck, fun a ha => (List.mem_filter.mp (hleft ha)).1, taken, ?_, ?_, hwaits⟩
          · intro a ha
            exact hcompleted a (List.mem_append_left _ ha)
          · intro a ha
            by_cases hr : a ∈ ready deps completed remaining
            · exact Or.inl (hcompleted a (List.mem_append_right _ hr))
            · exact hcover a (List.mem_filter.mpr ⟨ha, by simpa using hr⟩)

/-- **Graphs with a rank.** When every dependency is in the list and of smaller rank, the loop takes
every element. -/
theorem peel_of_rank {l : List α} (rank : α → Nat)
    (hdeps : ∀ a ∈ l, ∀ d ∈ deps a, d ∈ l ∧ rank d < rank a) :
    ∃ layers, peel deps l = .ok layers := by
  cases hpeel : peel deps l with
  | ok layers => exact ⟨layers, rfl⟩
  | error stuck =>
      obtain ⟨hne, hsub, taken, -, hcover, hwaits⟩ := peelWithin_eq_error (Nat.le_refl _) hpeel
      -- An element of least rank among those that are left waits for nothing that is left.
      cases ha : stuck.argmin rank with
      | none => exact absurd (List.argmin_eq_none.mp ha) hne
      | some a =>
          have hmem := List.argmin_mem ha
          obtain ⟨d, hd, htaken⟩ := hwaits a hmem
          obtain ⟨hd, hlt⟩ := hdeps a (hsub hmem) d hd
          have hstuck := (hcover d hd).resolve_left htaken
          exact absurd (List.le_of_mem_argmin hstuck ha) (by omega)

/-! ## The layer of an element -/

/-- The first layer that has the element. -/
def layerIndex (layers : List (List α)) (a : α) : Nat :=
  layers.findIdx (a ∈ ·)

@[simp]
theorem layerIndex_cons (layer : List α) (rest : List (List α)) (a : α) :
    layerIndex (layer :: rest) a = if a ∈ layer then 0 else layerIndex rest a + 1 := by
  simp [layerIndex, List.findIdx_cons]

theorem layerIndex_lt_length (h : a ∈ layers.flatten) : layerIndex layers a < layers.length := by
  rw [layerIndex, List.findIdx_lt_length]
  simpa using h

/-- An element lies in the layer its index names. -/
theorem getElem?_layerIndex (h : a ∈ layers.flatten) :
    ∃ layer, layers[layerIndex layers a]? = some layer ∧ a ∈ layer := by
  have hlt := layerIndex_lt_length h
  refine ⟨layers[layerIndex layers a], List.getElem?_eq_getElem hlt, ?_⟩
  exact of_decide_eq_true (List.findIdx_getElem (w := hlt))

/-- Every dependency lies in an earlier layer, and one of them in the layer before. -/
theorem Peeled.layerIndex_spec (h : Peeled deps completed layers) (ha : a ∈ layers.flatten) :
    (∀ d ∈ deps a, d ∈ completed ∨ d ∈ layers.flatten ∧ layerIndex layers d < layerIndex layers a) ∧
      (layerIndex layers a = 0 ∨
        ∃ d ∈ deps a, d ∉ completed ∧ layerIndex layers d + 1 = layerIndex layers a) := by
  induction h with
  | nil => cases ha
  | @cons completed layer rest hne hready hwaits hrest ih =>
      rw [List.flatten_cons, List.mem_append] at ha
      by_cases hlayer : a ∈ layer
      · refine ⟨fun d hd => Or.inl (hready a hlayer d hd), Or.inl ?_⟩
        simp [hlayer]
      · have hmem := ha.resolve_left hlayer
        obtain ⟨hdeps, hlast⟩ := ih hmem
        constructor
        · intro d hd
          rcases hdeps d hd with hdone | ⟨hlater, hlt⟩
          · rcases List.mem_append.mp hdone with hdone | hdone
            · exact Or.inl hdone
            · right
              simp [hdone, hlayer]
          · right
            by_cases hd' : d ∈ layer
            · simp [hd', hlayer]
            · rw [List.flatten_cons, List.mem_append, layerIndex_cons, layerIndex_cons, if_neg hd',
                if_neg hlayer]
              exact ⟨Or.inr hlater, by omega⟩
        · right
          rcases hlast with hzero | ⟨d, hd, hnew, hlast⟩
          · -- `a` became ready with this layer, so that a dependency of it is in this layer.
            obtain ⟨d, hd, hnew⟩ := hwaits a hmem
            refine ⟨d, hd, hnew, ?_⟩
            rcases hdeps d hd with hdone | ⟨-, hlt⟩
            · have hin := (List.mem_append.mp hdone).resolve_left hnew
              simp [hin, hlayer, hzero]
            · omega
          · rw [List.mem_append, not_or] at hnew
            exact ⟨d, hd, hnew.1, by simp [hnew.2, hlayer, hlast]⟩

/-- **Depth.** The layer of an element is one more than the last layer of its dependencies, and the
first one when it has none. -/
theorem Peeled.layerIndex_eq (h : Peeled deps [] layers) (ha : a ∈ layers.flatten) :
    layerIndex layers a = (deps a).foldr (fun d m => max (layerIndex layers d + 1) m) 0 := by
  obtain ⟨hdeps, hlast⟩ := h.layerIndex_spec ha
  symm
  apply foldr_max_eq
  · intro d hd
    have := ((hdeps d hd).resolve_left List.not_mem_nil).2
    omega
  · rcases hlast with hzero | ⟨d, hd, -, hlast⟩
    · exact Or.inl hzero
    · exact Or.inr ⟨d, hd, hlast⟩

omit [DecidableEq α] in
theorem Peeled.ne_nil (h : Peeled deps completed layers) :
    ∀ layer ∈ layers, layer ≠ [] := by
  induction h with
  | nil => simp
  | cons hne _ _ _ ih =>
      rw [List.forall_mem_cons]
      exact ⟨hne, ih⟩

/-- What a successful loop returns. -/
theorem peel_eq_ok {l : List α} (hnodup : l.Nodup) (h : peel deps l = .ok layers) :
    Peeled deps [] layers ∧ layers.flatten.Perm l :=
  peelWithin_eq_ok hnodup h

end Jig.Lib

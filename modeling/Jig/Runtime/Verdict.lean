import Jig.Runtime.QueueConstruction

/-!
# What a plan concludes

The conclusion each target of a plan should get when nothing disturbs the run, as a function of the
plan alone: a target with a dependency that did not succeed is skipped, every other one gets the
conclusion `intrinsic` assigns to it. No order of execution appears in this definition. Both
schedulers are compared with it.
-/

namespace Jig.Runtime

open Contract Lib State

def dependenciesOf (plan : RunPlan) (t : TargetId) : List TargetId :=
  match plan.targets.find? (fun planned => planned.target = t) with
  | some planned => planned.dependsOn
  | none => []

/-- The conclusion of a target, looking at chains of dependencies of at most the given length. -/
def verdictWithin (plan : RunPlan) (intrinsic : TargetId → RunConclusion) :
    Nat → TargetId → RunConclusion
  | 0, t => intrinsic t
  | n + 1, t =>
      if (dependenciesOf plan t).any (fun d => verdictWithin plan intrinsic n d ≠ .success) then
        .skipped
      else
        intrinsic t

/-- The conclusion of a target. No chain of dependencies is longer than the plan. -/
def verdict (plan : RunPlan) (intrinsic : TargetId → RunConclusion) (t : TargetId) : RunConclusion :=
  verdictWithin plan intrinsic plan.targets.length t

section

variable {plan : RunPlan} {intrinsic : TargetId → RunConclusion} {planned : PlannedTarget}

theorem dependenciesOf_planned (h : PlanStructure plan) (hplanned : planned ∈ plan.targets) :
    dependenciesOf plan planned.target = planned.dependsOn := by
  simp only [dependenciesOf, find?_eq_some_of_key_nodup h.targets_nodup hplanned]

theorem idxOf_dependency_lt (h : PlanStructure plan) {t d : TargetId}
    (hd : d ∈ dependenciesOf plan t) :
    plan.executionLayers.flatten.idxOf d < plan.executionLayers.flatten.idxOf t := by
  unfold dependenciesOf at hd
  cases hfind : plan.targets.find? (fun planned => planned.target = t) with
  | none =>
      rw [hfind] at hd
      cases hd
  | some planned =>
      rw [hfind] at hd
      obtain ⟨i, j, hi, hj, hlt⟩ :=
        h.dependency_earlier planned (List.mem_of_find?_eq_some hfind) d hd
      have hname : planned.target = t := by simpa using List.find?_some hfind
      rw [hname] at hj
      exact idxOf_lt_of_layer_lt h.layers_nodup hi hj hlt

/-- Looking further than the place of a target changes nothing. -/
theorem verdictWithin_eq (h : PlanStructure plan) {n m : Nat} {t : TargetId}
    (hn : plan.executionLayers.flatten.idxOf t < n) (hm : plan.executionLayers.flatten.idxOf t < m) :
    verdictWithin plan intrinsic n t = verdictWithin plan intrinsic m t := by
  induction n generalizing m t with
  | zero => exact absurd hn (Nat.not_lt_zero _)
  | succ n ih =>
      obtain ⟨m, rfl⟩ : ∃ k, m = k + 1 := ⟨m - 1, by omega⟩
      have hany : (dependenciesOf plan t).any
            (fun d => verdictWithin plan intrinsic n d ≠ .success) =
          (dependenciesOf plan t).any (fun d => verdictWithin plan intrinsic m d ≠ .success) := by
        rw [Bool.eq_iff_iff, List.any_eq_true, List.any_eq_true]
        refine exists_congr fun d => and_congr_right fun hd => ?_
        have hlt := idxOf_dependency_lt h hd
        rw [ih (t := d) (m := m) (by omega) (by omega)]
      unfold verdictWithin
      rw [hany]

/-- **The equation of a verdict.** -/
theorem verdict_eq (h : PlanStructure plan) (hplanned : planned ∈ plan.targets) :
    verdict plan intrinsic planned.target =
      if ∃ d ∈ planned.dependsOn, verdict plan intrinsic d ≠ .success then .skipped
      else intrinsic planned.target := by
  have hmem : planned.target ∈ plan.executionLayers.flatten :=
    (h.mem_layers _).mpr (List.mem_map_of_mem hplanned)
  have hidx := List.idxOf_lt_length_of_mem hmem
  rw [order_length h] at hidx
  have hunfold : verdict plan intrinsic planned.target =
      verdictWithin plan intrinsic (plan.targets.length + 1) planned.target :=
    verdictWithin_eq h hidx (by omega)
  rw [hunfold, verdictWithin, dependenciesOf_planned h hplanned]
  simp only [List.any_eq_true, decide_eq_true_eq]
  rfl

end

end Jig.Runtime

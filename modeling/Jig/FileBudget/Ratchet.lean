import Jig.FileBudget.Passing

/-!
# The ratchet

Snapshots of the governed files follow each other, and each is evaluated against the one before. A
file has a lineage: the files it comes from, back to the first snapshot or to the snapshot where it
was new. `evaluate_metric` measures a file and its comparison side against the maximum of the rule
that governs the file now. So debt only goes down along a lineage on which no maximum was greater
than the present one, and the total goes down over the files of lineages with one maximum
(`debt_only_goes_down`). A lineage that passes through a rule with a greater maximum may bring debt
along (`SampleDetour.debt_returns`).
-/

namespace Jig.FileBudget

open Lib

/-- A governed regular file: its path and what is measured of it. -/
abbrev Entry := String × MeasurementV1

/-- The governed regular files of a snapshot. -/
abbrev Snapshot := List Entry

def EvaluateFileV1.entry (file : EvaluateFileV1) : Option Entry :=
  match file.current with
  | .regular measurement => some (file.currentPath, measurement)
  | .unsupported _ => none

/-- The entry of the snapshot before that a file comes from. -/
def EvaluateFileV1.parent (file : EvaluateFileV1) : Option Entry :=
  file.baselinePath.bind fun path => file.comparison.map fun measurement => (path, measurement)

def snapshotOf (files : List EvaluateFileV1) : Snapshot :=
  files.filterMap (·.entry)

def PolicyV1.maximumAt (libs : BudgetLibraries) (policy : PolicyV1) (path : String)
    (metric : BudgetMetricV1) : Option Nat :=
  match policy.classifyPath libs path with
  | .ok (.governed rule) => rule.maximum metric
  | _ => none

/-- What is measured beyond a maximum. -/
def MeasurementV1.debt (measurement : MeasurementV1) (metric : BudgetMetricV1) (maximum : Nat) :
    Nat :=
  measurement.get metric - maximum

/-- A passing evaluation of a snapshot against the one before. -/
structure RatchetStep (libs : BudgetLibraries) (policy : PolicyV1) (before : Snapshot)
    (input : EvaluationInputV1) : Prop where
  policy_eq : input.policy = policy
  governed : ∀ file ∈ input.files, ∃ rule,
    policy.classifyPath libs file.currentPath = .ok (.governed rule)
  regular : ∀ file ∈ input.files, ∃ measurement, file.current = .regular measurement
  ancestry : ∀ file ∈ input.files, file.baselinePath = none ∧ file.comparison = none ∨
    ∃ entry ∈ before, file.baselinePath = some entry.1 ∧ file.comparison = some entry.2
  passed : (evaluateV1 libs input).passed = true

/-- Evaluations, the latest first, and the snapshot they end in. -/
inductive RatchetHistory (libs : BudgetLibraries) (policy : PolicyV1) (start : Snapshot) :
    List EvaluationInputV1 → Snapshot → Prop
  | start : RatchetHistory libs policy start [] start
  | step {inputs : List EvaluationInputV1} {before : Snapshot} {input : EvaluationInputV1}
      (h : RatchetHistory libs policy start inputs before)
      (hstep : RatchetStep libs policy before input) :
      RatchetHistory libs policy start (input :: inputs) (snapshotOf input.files)

/-- The lineage of a file: the files it comes from, the latest first, and what its ancestor measures
in the first snapshot if the lineage goes back there. -/
inductive Lineage (start : Snapshot) :
    List EvaluationInputV1 → Entry → List Entry → Option MeasurementV1 → Prop
  | start {entry : Entry} (h : entry ∈ start) : Lineage start [] entry [] (some entry.2)
  | new {inputs : List EvaluationInputV1} {input : EvaluationInputV1} {file : EvaluateFileV1}
      {measurement : MeasurementV1} (hfile : file ∈ input.files)
      (hcurrent : file.current = .regular measurement) (hbaseline : file.baselinePath = none) :
      Lineage start (input :: inputs) (file.currentPath, measurement) [] none
  | step {inputs : List EvaluationInputV1} {input : EvaluationInputV1} {file : EvaluateFileV1}
      {measurement : MeasurementV1} {parent : Entry} {ancestors : List Entry}
      {origin : Option MeasurementV1} (hfile : file ∈ input.files)
      (hcurrent : file.current = .regular measurement)
      (hbaseline : file.baselinePath = some parent.1) (hcomparison : file.comparison = some parent.2)
      (h : Lineage start inputs parent ancestors origin) :
      Lineage start (input :: inputs) (file.currentPath, measurement) (parent :: ancestors) origin

def SharesMaximum (libs : BudgetLibraries) (policy : PolicyV1) (start : Snapshot)
    (metric : BudgetMetricV1) (maximum : Nat) (inputs : List EvaluationInputV1) (entry : Entry) :
    Prop :=
  ∃ ancestors origin, Lineage start inputs entry ancestors origin ∧
    ∀ file ∈ entry :: ancestors, policy.maximumAt libs file.1 metric = some maximum

open Classical in
/-- The total debt of the files that are under one maximum with their ancestors. -/
noncomputable def totalDebt (libs : BudgetLibraries) (policy : PolicyV1) (start : Snapshot)
    (metric : BudgetMetricV1) (maximum : Nat) (inputs : List EvaluationInputV1)
    (snapshot : Snapshot) : Nat :=
  ((snapshot.filter fun entry =>
    SharesMaximum libs policy start metric maximum inputs entry).map fun entry =>
      entry.2.debt metric maximum).sum

variable {inputs : List EvaluationInputV1} {origin : Option MeasurementV1}
  {measurement : MeasurementV1} {ancestors : List Entry}

section

variable {libs : BudgetLibraries} {policy : PolicyV1} {start before : Snapshot}
  {input : EvaluationInputV1}

variable {file : EvaluateFileV1} {entry : Entry} {maximum : Nat}

theorem EvaluateFileV1.entry_eq_some :
    file.entry = some entry ↔ file.currentPath = entry.1 ∧ file.current = .regular entry.2 := by
  unfold EvaluateFileV1.entry
  cases file.current with
  | regular measurement =>
      obtain ⟨path, measurement'⟩ := entry
      simp
  | unsupported kind => simp

theorem EvaluateFileV1.parent_eq_some :
    file.parent = some entry ↔
      file.baselinePath = some entry.1 ∧ file.comparison = some entry.2 := by
  unfold EvaluateFileV1.parent
  obtain ⟨path, measurement⟩ := entry
  cases file.baselinePath with
  | none => simp
  | some path' =>
      cases file.comparison with
      | none => simp
      | some measurement' => simp

theorem mem_snapshotOf {files : List EvaluateFileV1} :
    entry ∈ snapshotOf files ↔
      ∃ file ∈ files, file.currentPath = entry.1 ∧ file.current = .regular entry.2 :=
  List.mem_filterMap.trans
    (exists_congr fun _ => and_congr_right fun _ => EvaluateFileV1.entry_eq_some)

variable {metric : BudgetMetricV1}

theorem maximumAt_eq_some {path : String} (h : policy.maximumAt libs path metric = some maximum) :
    ∃ rule, policy.classifyPath libs path = .ok (.governed rule) ∧
      rule.maximum metric = some maximum := by
  unfold PolicyV1.maximumAt at h
  split at h
  next rule hrule => exact ⟨rule, hrule, h⟩
  · cases h

/-! ### Debt along a lineage -/

/-- **One file.** Its debt is at most the one of its comparison side, under the maximum it has now
and under every greater one. -/
theorem RatchetStep.debt_le (hstep : RatchetStep libs policy before input)
    (hwaivers : policy.waivers = []) (hfile : file ∈ input.files)
    (hcurrent : file.current = .regular measurement) {own : Nat}
    (hown : policy.maximumAt libs file.currentPath metric = some own) (hle : own ≤ maximum) :
    measurement.debt metric maximum ≤
      (file.comparison.map fun comparison => comparison.debt metric maximum).getD 0 := by
  obtain ⟨rule, hclassify, hrule⟩ := maximumAt_eq_some hown
  obtain rfl := hstep.policy_eq
  have hmetric := evaluateMetric_of_passed hstep.passed hfile hclassify hcurrent metric
  have hnone : input.policy.waiverFor rule.id file.currentPath = none := by
    unfold PolicyV1.waiverFor
    rw [hwaivers]
    rfl
  rw [hnone] at hmetric
  have hdebt := (evaluateMetric_noErrors hrule hmetric).2 rfl
  unfold MeasurementV1.debt
  cases hcomparison : file.comparison with
  | none =>
      simp only [hcomparison, Option.map_none, Option.getD_none] at hdebt ⊢
      omega
  | some comparison =>
      simp only [hcomparison, Option.map_some, Option.getD_some] at hdebt ⊢
      omega

/-- Every file of a snapshot has a lineage. -/
theorem RatchetHistory.exists_lineage {now : Snapshot}
    (h : RatchetHistory libs policy start inputs now) (hentry : entry ∈ now) :
    ∃ ancestors origin, Lineage start inputs entry ancestors origin := by
  induction h generalizing entry with
  | start => exact ⟨[], _, .start hentry⟩
  | @step inputs before input h hstep ih =>
      obtain ⟨file, hfile, hpath, hcurrent⟩ := mem_snapshotOf.mp hentry
      obtain ⟨path, measurement⟩ := entry
      obtain rfl : file.currentPath = path := hpath
      rcases hstep.ancestry file hfile with ⟨hbaseline, -⟩ | ⟨parent, hparent, hbaseline, hcomparison⟩
      · exact ⟨[], none, .new hfile hcurrent hbaseline⟩
      · obtain ⟨ancestors, origin, hlineage⟩ := ih hparent
        exact ⟨_, origin, .step hfile hcurrent hbaseline hcomparison hlineage⟩

/-- **Along a lineage** the debt under a maximum only goes down, while no file has a greater one. -/
theorem RatchetHistory.debt_le_origin {now : Snapshot}
    (h : RatchetHistory libs policy start inputs now) (hwaivers : policy.waivers = [])
    (hlineage : Lineage start inputs entry ancestors origin)
    (hmaxima : ∀ file ∈ entry :: ancestors, ∃ own ≤ maximum,
      policy.maximumAt libs file.1 metric = some own) :
    entry.2.debt metric maximum ≤
      (origin.map fun measurement => measurement.debt metric maximum).getD 0 := by
  induction hlineage generalizing now with
  | start => exact Nat.le_refl _
  | @new inputs input file measurement hfile hcurrent hbaseline =>
      cases h with
      | step h hstep =>
          have hcomparison : file.comparison = none := by
            rcases hstep.ancestry file hfile with ⟨-, hnone⟩ | ⟨parent, -, hsome, -⟩
            · exact hnone
            · rw [hbaseline] at hsome
              cases hsome
          obtain ⟨own, hle, hown⟩ := hmaxima _ List.mem_cons_self
          have hdebt := hstep.debt_le hwaivers hfile hcurrent hown hle
          rw [hcomparison] at hdebt
          exact hdebt
  | @step inputs input file measurement parent ancestors origin hfile hcurrent hbaseline
      hcomparison hparent ih =>
      cases h with
      | step h hstep =>
          obtain ⟨own, hle, hown⟩ := hmaxima _ List.mem_cons_self
          have hdebt := hstep.debt_le hwaivers hfile hcurrent hown hle
          rw [hcomparison] at hdebt
          exact Nat.le_trans hdebt (ih h fun file' hmem =>
            hmaxima file' (List.mem_cons_of_mem _ hmem))

/-! ### Total debt -/

/-- The parent of a file under one maximum is under it, too. -/
theorem SharesMaximum.parent (hpaths : (input.files.map (·.currentPath)).Nodup)
    (hfile : file ∈ input.files) {parent : Entry} (hbaseline : file.baselinePath = some parent.1)
    (hcomparison : file.comparison = some parent.2)
    (h : SharesMaximum libs policy start metric maximum (input :: inputs)
      (file.currentPath, measurement)) :
    SharesMaximum libs policy start metric maximum inputs parent := by
  obtain ⟨ancestors, origin, hlineage, hmaximum⟩ := h
  generalize hentry : (file.currentPath, measurement) = entry at hlineage hmaximum
  cases hlineage with
  | @new _ _ file' _ hfile' _ hbaseline' =>
      -- the file of the lineage is this one, since it has its path
      have hsame : file' = file := List.inj_on_of_nodup_map hpaths hfile' hfile
        (congrArg Prod.fst hentry).symm
      rw [hsame, hbaseline] at hbaseline'
      cases hbaseline'
  | @step _ _ file' _ parent' ancestors _ hfile' _ hbaseline' hcomparison' hparent =>
      have hsame : file' = file := List.inj_on_of_nodup_map hpaths hfile' hfile
        (congrArg Prod.fst hentry).symm
      rw [hsame, hbaseline] at hbaseline'
      rw [hsame, hcomparison] at hcomparison'
      obtain rfl : parent = parent' :=
        Prod.ext (Option.some.inj hbaseline') (Option.some.inj hcomparison')
      exact ⟨ancestors, origin, hparent, fun file hmem => hmaximum file (List.mem_cons_of_mem _ hmem)⟩

/-- A file comes from an entry of the snapshot before. -/
theorem RatchetStep.parent_mem (hstep : RatchetStep libs policy before input)
    (hfile : file ∈ input.files) {parent : Entry} (hparent : file.parent = some parent) :
    parent ∈ before := by
  obtain ⟨hbaseline, hcomparison⟩ := EvaluateFileV1.parent_eq_some.mp hparent
  rcases hstep.ancestry file hfile with ⟨hnone, -⟩ | ⟨entry, hentry, hpath, hmeasurement⟩
  · rw [hnone] at hbaseline
    cases hbaseline
  · obtain rfl : entry = parent := by
      rw [hbaseline] at hpath
      rw [hcomparison] at hmeasurement
      exact Prod.ext (Option.some.inj hpath).symm (Option.some.inj hmeasurement).symm
    exact hentry

/-- No two files come from one entry: that is what the check for duplicate baselines is for. -/
theorem RatchetStep.parents_nodup (hstep : RatchetStep libs policy before input) :
    (input.files.filterMap EvaluateFileV1.parent).Nodup := by
  refine List.Nodup.of_map Prod.fst ?_
  rw [List.map_filterMap]
  refine Eq.mp (congrArg List.Nodup (List.filterMap_congr fun file hfile => ?_))
    (scopePassed hstep.passed).baselinePaths_nodup
  rcases hstep.ancestry file hfile with ⟨hbaseline, -⟩ | ⟨entry, -, hparts⟩
  · rw [EvaluateFileV1.parent, hbaseline]
    rfl
  · rw [EvaluateFileV1.parent_eq_some.mpr hparts, hparts.1]
    rfl

/-- **The total** under one maximum only goes down. -/
theorem RatchetStep.totalDebt_le (hstep : RatchetStep libs policy before input)
    (hwaivers : policy.waivers = []) (metric : BudgetMetricV1) (maximum : Nat) :
    totalDebt libs policy start metric maximum (input :: inputs) (snapshotOf input.files) ≤
      totalDebt libs policy start metric maximum inputs before := by
  classical
  have hscope := scopePassed hstep.passed
  unfold totalDebt snapshotOf
  rw [sum_map_filter_filterMap]
  -- a file is bounded by its parent, and no two files have one parent
  refine sum_map_le_of_parent
    (hstep.parents_nodup.sublist (List.filter_sublist.filterMap EvaluateFileV1.parent)) ?_ ?_
  · intro file hfile parent hparent
    obtain ⟨hfile, hshares⟩ := List.mem_filter.mp hfile
    obtain ⟨measurement, hcurrent⟩ := hstep.regular file hfile
    have hentry : file.entry = some (file.currentPath, measurement) :=
      EvaluateFileV1.entry_eq_some.mpr ⟨rfl, hcurrent⟩
    rw [hentry, Option.any_some, decide_eq_true_iff] at hshares
    have hparts := EvaluateFileV1.parent_eq_some.mp hparent
    refine List.mem_filter.mpr ⟨hstep.parent_mem hfile hparent, decide_eq_true ?_⟩
    exact hshares.parent hscope.currentPaths_nodup hfile hparts.1 hparts.2
  · intro file hfile
    obtain ⟨hfile, hshares⟩ := List.mem_filter.mp hfile
    obtain ⟨measurement, hcurrent⟩ := hstep.regular file hfile
    have hentry : file.entry = some (file.currentPath, measurement) :=
      EvaluateFileV1.entry_eq_some.mpr ⟨rfl, hcurrent⟩
    rw [hentry, Option.any_some, decide_eq_true_iff] at hshares
    obtain ⟨ancestors, origin, -, hmaximum⟩ := hshares
    have hdebt :=
      hstep.debt_le hwaivers hfile hcurrent (hmaximum _ List.mem_cons_self) (Nat.le_refl maximum)
    rw [hentry]
    refine Nat.le_trans hdebt (Nat.le_of_eq ?_)
    rcases hstep.ancestry file hfile with ⟨hbaseline, hcomparison⟩ | ⟨parent, -, hparts⟩
    · rw [hcomparison, EvaluateFileV1.parent, hbaseline]
      rfl
    · rw [EvaluateFileV1.parent_eq_some.mpr hparts, hparts.2]
      rfl

/-- **The ratchet.** In a history of passing evaluations under a policy without waivers every file
has a lineage. Along it the debt of the file is at most the debt of its ancestor in the first
snapshot, and none where it has none there, if the file and the files it comes from have maxima up
to the one that debt is measured by. The total debt of the files that share a maximum with the files
they come from does not grow with the next evaluation. -/
theorem debt_only_goes_down (libs : BudgetLibraries) {policy : PolicyV1}
    (hwaivers : policy.waivers = []) {start now : Snapshot} {inputs : List EvaluationInputV1}
    (h : RatchetHistory libs policy start inputs now) (metric : BudgetMetricV1) (maximum : Nat) :
    (∀ entry ∈ now, (∃ ancestors origin, Lineage start inputs entry ancestors origin) ∧
      ∀ ancestors origin, Lineage start inputs entry ancestors origin →
        (∀ file ∈ entry :: ancestors, ∃ own ≤ maximum,
          policy.maximumAt libs file.1 metric = some own) →
        entry.2.debt metric maximum ≤
          (origin.map fun measurement => measurement.debt metric maximum).getD 0) ∧
    ∀ input, RatchetStep libs policy now input →
      totalDebt libs policy start metric maximum (input :: inputs) (snapshotOf input.files) ≤
        totalDebt libs policy start metric maximum inputs now := by
  refine ⟨fun entry hentry => ⟨h.exists_lineage hentry, ?_⟩,
    fun input hstep => hstep.totalDebt_le hwaivers metric maximum⟩
  intro ancestors origin hlineage hmaxima
  exact h.debt_le_origin hwaivers hlineage hmaxima

end

/-! ### Samples -/

namespace SampleDetour

def libs : BudgetLibraries where
  globMatches pattern path := pattern.toList.take 3 = path.toList.take 3
  semanticSha256 _ := ""

def rule (id pattern : String) (maxLines : Nat) : RuleV1 where
  id := id
  includes := [pattern]
  excludes := []
  noticeLines := none
  warnLines := none
  maxLines := some maxLines
  noticeBytes := none
  warnBytes := none
  maxBytes := none

def policy : PolicyV1 where
  rules := [rule "strict" "lib/**" 10, rule "loose" "src/**" 100]
  exclusions := []
  waivers := []
  waiver_ids := List.nodup_nil
  waiver_targets := List.nodup_nil

def fileOf (path baseline : String) (current comparison : Nat) : EvaluateFileV1 where
  currentPath := path
  baselinePath := some baseline
  current := .regular ⟨current, 0⟩
  comparison := some ⟨comparison, 0⟩

def evaluation (path baseline : String) (current comparison : Nat) : EvaluationInputV1 where
  policy := policy
  comparisonPolicy := .present policy
  currentDate := ⟨2026, 8, 30, by decide⟩
  waiverTargets := []
  files := [fileOf path baseline current comparison]

/-- A passing evaluation of one file is a step. -/
theorem step_of_passed {path baseline : String} {current comparison : Nat} (ruleOf : RuleV1)
    (hrule : policy.classifyPath libs path = .ok (.governed ruleOf))
    (hpassed : (evaluateV1 libs (evaluation path baseline current comparison)).passed = true) :
    RatchetStep libs policy [(baseline, ⟨comparison, 0⟩)]
      (evaluation path baseline current comparison) where
  policy_eq := rfl
  governed file hfile := by
    rw [List.mem_singleton.mp hfile]
    exact ⟨ruleOf, hrule⟩
  regular file hfile := by
    rw [List.mem_singleton.mp hfile]
    exact ⟨_, rfl⟩
  ancestry file hfile := by
    rw [List.mem_singleton.mp hfile]
    exact .inr ⟨_, List.mem_cons_self, rfl, rfl⟩
  passed := hpassed

theorem lineage_step {start : Snapshot} (path baseline : String) (current comparison : Nat)
    (h : Lineage start inputs (baseline, ⟨comparison, 0⟩) ancestors origin) :
    Lineage start (evaluation path baseline current comparison :: inputs) (path, ⟨current, 0⟩)
      ((baseline, ⟨comparison, 0⟩) :: ancestors) origin :=
  have hfile : fileOf path baseline current comparison ∈
      (evaluation path baseline current comparison).files := List.mem_cons_self
  .step hfile rfl rfl rfl h

/-- A file of five lines moves to the loose directory, grows there to fifty lines and moves back. -/
theorem detour :
    RatchetHistory libs policy [("lib/a.rs", ⟨5, 0⟩)]
      [evaluation "lib/a.rs" "src/a.rs" 50 50, evaluation "src/a.rs" "lib/a.rs" 50 5]
      [("lib/a.rs", ⟨50, 0⟩)] :=
  .step (.step .start (step_of_passed (rule "loose" "src/**" 100) (by decide +kernel)
    (by decide +kernel))) (step_of_passed (rule "strict" "lib/**" 10) (by decide +kernel)
    (by decide +kernel))

/-- **Debt comes back.** Every evaluation passes, the file has forty lines of debt in the end, and
its ancestor in the first snapshot had none under the same rule. -/
theorem debt_returns :
    RatchetHistory libs policy [("lib/a.rs", ⟨5, 0⟩)]
        [evaluation "lib/a.rs" "src/a.rs" 50 50, evaluation "src/a.rs" "lib/a.rs" 50 5]
        [("lib/a.rs", ⟨50, 0⟩)] ∧
      Lineage [("lib/a.rs", ⟨5, 0⟩)]
        [evaluation "lib/a.rs" "src/a.rs" 50 50, evaluation "src/a.rs" "lib/a.rs" 50 5]
        ("lib/a.rs", ⟨50, 0⟩) [("src/a.rs", ⟨50, 0⟩), ("lib/a.rs", ⟨5, 0⟩)] (some ⟨5, 0⟩) ∧
      policy.maximumAt libs "lib/a.rs" .lines = some 10 ∧
      (⟨5, 0⟩ : MeasurementV1).debt .lines 10 < (⟨50, 0⟩ : MeasurementV1).debt .lines 10 := by
  refine ⟨detour, ?_, by decide +kernel, by decide⟩
  exact lineage_step _ _ _ _ (lineage_step _ _ _ _ (.start List.mem_cons_self))

/-- A file that moves from the strict directory to the loose one keeps within its debt there. -/
theorem debt_only_goes_down_moved :
    RatchetHistory libs policy [("lib/a.rs", ⟨150, 0⟩)] [evaluation "src/a.rs" "lib/a.rs" 140 150]
        [("src/a.rs", ⟨140, 0⟩)] ∧
      policy.maximumAt libs "lib/a.rs" .lines = some 10 ∧
      policy.maximumAt libs "src/a.rs" .lines = some 100 ∧
      (⟨140, 0⟩ : MeasurementV1).debt .lines 100 ≤ (⟨150, 0⟩ : MeasurementV1).debt .lines 100 := by
  have hhistory : RatchetHistory libs policy [("lib/a.rs", ⟨150, 0⟩)]
      [evaluation "src/a.rs" "lib/a.rs" 140 150] [("src/a.rs", ⟨140, 0⟩)] :=
    .step .start (step_of_passed (rule "loose" "src/**" 100) (by decide +kernel)
      (by decide +kernel))
  have hstrict : policy.maximumAt libs "lib/a.rs" .lines = some 10 := by decide +kernel
  have hloose : policy.maximumAt libs "src/a.rs" .lines = some 100 := by decide +kernel
  refine ⟨hhistory, hstrict, hloose, ?_⟩
  obtain ⟨-, hdebt⟩ :=
    (debt_only_goes_down libs rfl hhistory .lines 100).1 ("src/a.rs", ⟨140, 0⟩) List.mem_cons_self
  refine hdebt _ _ (lineage_step _ _ _ _ (.start List.mem_cons_self)) ?_
  simp only [List.mem_cons, List.not_mem_nil, or_false, forall_eq_or_imp, forall_eq]
  exact ⟨⟨100, by decide, hloose⟩, 10, by decide, hstrict⟩

end SampleDetour

end Jig.FileBudget

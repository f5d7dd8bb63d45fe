import Jig.FileBudget.Passing

/-!
# Debt that had a waiver

A file that comes from a path with a waiver, and that still has debt, should need a waiver of its
own. `record_removed_waiver_debt` looks for the debt of waivers that are gone, and it takes a waiver
to go on where its id is still at the same path. A file that was moved away from there is then not
looked at any more, and its debt passes as legacy debt (`SampleReuse.moved_debt_is_not_authorized`).
That is the only way: `waived_debt_authorized_iff` says that all waived debt of a passing evaluation
is authorized exactly where every file whose waiver stayed behind has a waiver at its new path.
-/

namespace Jig.FileBudget

open Lib

/-- The debt of a file in a metric, where the path it comes from had a waiver for that metric. -/
structure WaivedDebt (libs : BudgetLibraries) (input : EvaluationInputV1) (comparison : PolicyV1)
    (file : EvaluateFileV1) (metric : BudgetMetricV1) (measurement : MeasurementV1)
    (historical : WaiverV1) : Prop where
  exceeds : ∃ rule, input.policy.classifyPath libs file.currentPath = .ok (.governed rule) ∧
    ∃ maximum, rule.maximum metric = some maximum ∧ maximum < measurement.get metric
  regular : file.current = .regular measurement
  waiver : historical ∈ comparison.waivers
  ancestor : file.baselinePath = some historical.path
  ceiling : (historical.ceiling metric).isSome = true

/-- The current policy has a valid waiver at the path of the file whose ceiling the measurement does
not exceed. -/
def Authorized (libs : BudgetLibraries) (input : EvaluationInputV1) (file : EvaluateFileV1)
    (metric : BudgetMetricV1) (measurement : MeasurementV1) : Prop :=
  ∃ waiver ∈ input.policy.waivers, waiver.path = file.currentPath ∧
    waiver.expires.before input.currentDate = false ∧ waiver.id ∉ invalidWaivers libs input ∧
    ∃ ceiling, waiver.ceiling metric = some ceiling ∧ measurement.get metric ≤ ceiling

/-- The file moved, and its waiver stayed. -/
def LeftBehind (input : EvaluationInputV1) (file : EvaluateFileV1) (metric : BudgetMetricV1)
    (historical : WaiverV1) : Prop :=
  file.currentPath ≠ historical.path ∧ ∃ current ∈ input.policy.waivers,
    current.id = historical.id ∧ current.path = historical.path ∧
      (current.ceiling metric).isSome = true

section

variable {libs : BudgetLibraries} {input : EvaluationInputV1} {comparison : PolicyV1}
  {file : EvaluateFileV1} {metric : BudgetMetricV1} {measurement : MeasurementV1}
  {historical : WaiverV1}

section

variable (hpassed : (evaluateV1 libs input).passed = true) (hfile : file ∈ input.files)
  (hdebt : WaivedDebt libs input comparison file metric measurement historical)

include hpassed hfile hdebt

/-- A waiver at the path of a file bounds it. -/
theorem authorized_of_waiver {waiver : WaiverV1} (hwaiver : waiver ∈ input.policy.waivers)
    (hpath : waiver.path = file.currentPath) (hceiling : (waiver.ceiling metric).isSome = true) :
    Authorized libs input file metric measurement := by
  have hscope := scopePassed hpassed
  obtain ⟨hexpires, rule', hclassify', hid⟩ :=
    waiverError_eq_none_imp (hscope.waiverError_eq_none hwaiver)
  obtain ⟨rule, hclassify, maximum, hmaximum, -⟩ := hdebt.exceeds
  obtain ⟨ceiling, hceiling⟩ := Option.isSome_iff_exists.mp hceiling
  -- the rule of the waiver is the one of the file
  rw [hpath, hclassify] at hclassify'
  obtain rfl : rule = rule' := by
    cases hclassify'
    rfl
  have hfor : input.policy.waiverFor rule.id file.currentPath = some waiver := by
    rw [hid, ← hpath]
    exact find?_eq_some_of_key_nodup input.policy.waiver_targets hwaiver
  have hmetric := evaluateMetric_of_passed hpassed hfile hclassify hdebt.regular metric
  rw [hfor] at hmetric
  exact ⟨waiver, hwaiver, hpath, hexpires, hscope.notMem_invalidWaivers _, ceiling, hceiling,
    (evaluateMetric_noErrors hmaximum hmetric).1 ceiling hceiling⟩

/-- Where a waiver's metric is removed, the files that come from its path have no debt left. -/
theorem not_removed_of_passed (hcomparison : input.comparisonPolicy = .present comparison) :
    removedMetric historical (input.policy.waiver historical.id)
      ((input.policy.waiver historical.id).any fun current =>
        waiverTransferFollowsAncestry current historical (indexFiles input.files)) metric =
      false := by
  have hscope := scopePassed hpassed
  obtain ⟨rule, hclassify, maximum, hmaximum, hexceeds⟩ := hdebt.exceeds
  by_contra hremoved
  rw [Bool.not_eq_false] at hremoved
  have herrors := hscope.removed hscope.limit
  unfold recordRemovedWaiverDebt at herrors
  rw [hcomparison] at herrors
  have hone := noErrors_flatMap.mp herrors historical hdebt.waiver
  unfold removedWaiverDebt at hone
  dsimp only at hone
  -- the file is among those that the check looks at
  have haffected : file ∈ valuesOf (affectedFiles (indexFiles input.files) historical) := by
    refine mem_valuesOf.mpr ⟨file.currentPath, getElem?_insertAll_of_agree ?_ ?_ ∅⟩
    · exact List.mem_map_of_mem
        (List.mem_append_right _ (hscope.mem_byBaseline.mpr ⟨hfile, hdebt.ancestor⟩))
    · intro other hother hpath
      have hinput : other ∈ input.files := by
        rcases List.mem_append.mp hother with hother | hother
        · exact (hscope.byCurrent_eq_some.mp (Option.mem_toList.mp hother)).1
        · exact (hscope.mem_byBaseline.mp hother).1
      exact List.inj_on_of_nodup_map hscope.currentPaths_nodup hinput hfile hpath
  have hgoverned : (valuesOf (affectedFiles (indexFiles input.files) historical)).any
      (fun file => input.policy.isGoverned libs file.currentPath) = true := by
    refine List.any_eq_true.mpr ⟨file, haffected, ?_⟩
    unfold PolicyV1.isGoverned
    rw [hclassify]
  rw [if_neg, hgoverned, if_neg] at hone
  · obtain ⟨-, hfiles⟩ := noErrors_append.mp hone
    have hdebts := noErrors_flatMap.mp hfiles file haffected
    rw [hdebt.regular, hclassify] at hdebts
    dsimp only at hdebts
    obtain ⟨hlines, hbytes⟩ := noErrors_append.mp hdebts
    have hmetric : noErrors (removedDebt historical true file rule measurement metric) = true := by
      cases metric with
      | lines =>
          rw [hremoved] at hlines
          exact hlines
      | bytes =>
          rw [hremoved] at hbytes
          exact hbytes
    unfold removedDebt at hmetric
    rw [hmaximum] at hmetric
    dsimp only at hmetric
    rw [if_pos (by simpa using hexceeds)] at hmetric
    cases hmetric
  · simp
  · intro hnone
    rw [Bool.and_eq_true, Bool.not_eq_true', Bool.not_eq_true'] at hnone
    cases metric with
    | lines =>
        rw [hremoved] at hnone
        cases hnone.1
    | bytes =>
        rw [hremoved] at hnone
        cases hnone.2

/-- The waiver goes on: at the path of the file, or it was left behind. -/
theorem exists_current_waiver (hcomparison : input.comparisonPolicy = .present comparison) :
    ∃ current ∈ input.policy.waivers, current.id = historical.id ∧
      (current.ceiling metric).isSome = true ∧
      (current.path = historical.path ∨ current.path = file.currentPath) := by
  have hscope := scopePassed hpassed
  have hremoved := not_removed_of_passed hpassed hfile hdebt hcomparison
  unfold removedMetric at hremoved
  rw [hdebt.ceiling, Bool.true_and, Bool.or_eq_false_iff, Bool.not_eq_false'] at hremoved
  obtain ⟨hcontinues, hceiling⟩ := hremoved
  obtain ⟨current, hcurrent⟩ : ∃ current, input.policy.waiver historical.id = some current := by
    by_contra hnone
    rw [Option.eq_none_iff_forall_ne_some.mpr fun current h => hnone ⟨current, h⟩] at hcontinues
    cases hcontinues
  rw [hcurrent] at hcontinues hceiling
  have hid := List.find?_some hcurrent
  rw [decide_eq_true_iff] at hid
  refine ⟨current, List.mem_of_find?_eq_some hcurrent, hid, ?_, ?_⟩
  · cases hmetric : current.ceiling metric with
    | none =>
        rw [Option.all_some, hmetric] at hceiling
        cases hceiling
    | some ceiling => rfl
  · rw [Option.any_some, waiverTransferFollowsAncestry, Bool.or_eq_true, decide_eq_true_iff]
      at hcontinues
    refine hcontinues.imp_right fun hrenamed => ?_
    -- only this file comes from the path of the waiver
    cases hget : (indexFiles input.files).byBaseline[historical.path]? with
    | none =>
        rw [hget] at hrenamed
        cases hrenamed
    | some renamed =>
        rw [hget, Option.any_some, List.any_eq_true] at hrenamed
        obtain ⟨other, hother, hpath⟩ := hrenamed
        have hfrom : other ∈ input.files ∧ other.baselinePath = some historical.path :=
          hscope.mem_byBaseline.mp (by rw [hget]; exact hother)
        have hsame : other = file :=
          eq_of_filterMap_nodup hscope.baselinePaths_nodup hfrom.1 hfile hfrom.2 hdebt.ancestor
        rw [← hsame]
        exact (of_decide_eq_true hpath).symm

end

/-- **Waived debt is authorized** in a passing evaluation exactly where every file whose waiver was
left behind has another one at its own path. -/
theorem waived_debt_authorized_iff (libs : BudgetLibraries) (input : EvaluationInputV1)
    {comparison : PolicyV1} (hcomparison : input.comparisonPolicy = .present comparison)
    (hpassed : (evaluateV1 libs input).passed = true) :
    (∀ file ∈ input.files, ∀ metric measurement historical,
      WaivedDebt libs input comparison file metric measurement historical →
        Authorized libs input file metric measurement) ↔
    (∀ file ∈ input.files, ∀ metric measurement historical,
      WaivedDebt libs input comparison file metric measurement historical →
        LeftBehind input file metric historical →
          ∃ waiver ∈ input.policy.waivers, waiver.path = file.currentPath ∧
            (waiver.ceiling metric).isSome = true) := by
  constructor
  · intro h file hfile metric measurement historical hdebt _
    obtain ⟨waiver, hwaiver, hpath, -, -, ceiling, hceiling, -⟩ :=
      h file hfile metric measurement historical hdebt
    exact ⟨waiver, hwaiver, hpath, by rw [hceiling]; rfl⟩
  · intro h file hfile metric measurement historical hdebt
    obtain ⟨current, hcurrent, hid, hceiling, hpath | hpath⟩ :=
      exists_current_waiver hpassed hfile hdebt hcomparison
    · by_cases hmoved : file.currentPath = historical.path
      · exact authorized_of_waiver hpassed hfile hdebt hcurrent (hpath.trans hmoved.symm) hceiling
      · obtain ⟨waiver, hwaiver, hown, hownCeiling⟩ := h file hfile metric measurement historical
          hdebt ⟨hmoved, current, hcurrent, hid, hpath, hceiling⟩
        exact authorized_of_waiver hpassed hfile hdebt hwaiver hown hownCeiling
    · exact authorized_of_waiver hpassed hfile hdebt hcurrent hpath hceiling

end

/-! ### Samples -/

namespace SampleReuse

def libs : BudgetLibraries where
  globMatches _ _ := true
  semanticSha256 _ := ""

def source : RuleV1 where
  id := "source"
  includes := ["**/*.rs"]
  excludes := []
  noticeLines := none
  warnLines := none
  maxLines := some 10
  noticeBytes := none
  warnBytes := none
  maxBytes := none

def legacyWaiver (path : String) : WaiverV1 where
  id := "legacy"
  rule := "source"
  path := path
  ceilingLines := some 20
  ceilingBytes := none
  reason := "split later"
  expires := ⟨2027, 1, 1, by decide⟩

def policy (path : String) : PolicyV1 where
  rules := [source]
  exclusions := []
  waivers := [legacyWaiver path]
  waiver_ids := List.nodup_singleton _
  waiver_targets := List.nodup_singleton _

def moved : EvaluateFileV1 where
  currentPath := "src/new.rs"
  baselinePath := some "src/old.rs"
  current := .regular ⟨15, 80⟩
  comparison := some ⟨15, 80⟩

/-- The file is moved, a small one takes its path, and the waiver stays there. -/
def reused : EvaluationInputV1 where
  policy := policy "src/old.rs"
  comparisonPolicy := .present (policy "src/old.rs")
  currentDate := ⟨2026, 8, 30, Eq.refl true⟩
  waiverTargets := [⟨"src/old.rs", .regular⟩]
  files := [moved, ⟨"src/old.rs", none, .regular ⟨1, 1⟩, none⟩]

def transferred : EvaluationInputV1 where
  policy := policy "src/new.rs"
  comparisonPolicy := .present (policy "src/old.rs")
  currentDate := ⟨2026, 8, 30, Eq.refl true⟩
  waiverTargets := [⟨"src/new.rs", .regular⟩]
  files := [moved]

/-- The evaluation passes with debt that had a waiver and has none any more. -/
theorem moved_debt_is_not_authorized :
    (evaluateV1 libs reused).passed = true ∧ moved ∈ reused.files ∧
      WaivedDebt libs reused (policy "src/old.rs") moved .lines ⟨15, 80⟩
        (legacyWaiver "src/old.rs") ∧
      ¬Authorized libs reused moved .lines ⟨15, 80⟩ := by
  refine ⟨by decide +kernel, List.mem_cons_self,
    ⟨⟨source, by decide +kernel, 10, rfl, by decide⟩, rfl, List.mem_cons_self, rfl, rfl⟩, ?_⟩
  rintro ⟨waiver, hwaiver, hpath, -⟩
  rw [List.mem_singleton.mp hwaiver] at hpath
  exact absurd hpath (by decide)

/-- With the waiver moved along, the debt stays authorized. -/
theorem waived_debt_authorized_transferred :
    (evaluateV1 libs transferred).passed = true ∧
      Authorized libs transferred moved .lines ⟨15, 80⟩ := by
  have hpassed : (evaluateV1 libs transferred).passed = true := by decide +kernel
  have hdebt : WaivedDebt libs transferred (policy "src/old.rs") moved .lines ⟨15, 80⟩
      (legacyWaiver "src/old.rs") :=
    ⟨⟨source, by decide +kernel, 10, rfl, by decide⟩, rfl, List.mem_cons_self, rfl, rfl⟩
  refine ⟨hpassed, (waived_debt_authorized_iff libs transferred rfl hpassed).mpr ?_ moved
    List.mem_cons_self .lines ⟨15, 80⟩ _ hdebt⟩
  -- the only waiver is not at the old path
  rintro file - metric measurement historical hdebt ⟨-, current, hcurrent, -, hpath, -⟩
  rw [List.mem_singleton.mp hcurrent, List.mem_singleton.mp hdebt.waiver] at hpath
  exact absurd hpath (by decide)

end SampleReuse

end Jig.FileBudget

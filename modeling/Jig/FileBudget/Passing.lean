import Jig.FileBudget.Evaluation

/-!
# What a passing evaluation says

An evaluation passes when none of its parts has an error (`passed_iff`). What that means part by
part: no path occurs twice, every current waiver is valid, no file lost the waiver of its debt, and
every governed file is regular and within its budget.
-/

namespace Jig.FileBudget

open Lib Std

/-! ### Lists of diagnostics -/

variable {diagnostics : List BudgetDiagnosticV1} {measurement : MeasurementV1}

theorem noErrors_iff :
    noErrors diagnostics = true ↔ ∀ diagnostic ∈ diagnostics, diagnostic.severity ≠ .error := by
  simp [noErrors]

@[simp]
theorem noErrors_append {left right : List BudgetDiagnosticV1} :
    noErrors (left ++ right) = true ↔ noErrors left = true ∧ noErrors right = true := by
  simp [noErrors_iff, List.mem_append, or_imp, forall_and]

@[simp]
theorem noErrors_flatMap {α : Type} {l : List α} {f : α → List BudgetDiagnosticV1} :
    noErrors (l.flatMap f) = true ↔ ∀ a ∈ l, noErrors (f a) = true := by
  simp only [noErrors_iff, List.mem_flatMap]
  exact ⟨fun h a ha d hd => h d ⟨a, ha, hd⟩, fun h d ⟨a, ha, hd⟩ => h a ha d hd⟩

/-- A list of errors passes only when it is empty. -/
theorem eq_nil_of_noErrors (herrors : ∀ diagnostic ∈ diagnostics, diagnostic.severity = .error)
    (h : noErrors diagnostics = true) : diagnostics = [] :=
  List.eq_nil_iff_forall_not_mem.mpr fun diagnostic hmem =>
    noErrors_iff.mp h diagnostic hmem (herrors diagnostic hmem)

theorem noErrors_sortDiagnostics (diagnostics : List BudgetDiagnosticV1) :
    noErrors (sortDiagnostics diagnostics) = noErrors diagnostics := by
  rw [Bool.eq_iff_iff, noErrors_iff, noErrors_iff]
  have hperm := List.perm_insertionSort
    (fun left right => (compareDiagnostic left right).isLE = true) diagnostics
  exact ⟨fun h d hd => h d (hperm.mem_iff.mpr hd), fun h d hd => h d (hperm.mem_iff.mp hd)⟩

section Evaluation

variable {libs : BudgetLibraries} {input : EvaluationInputV1}

/-- The loop only adds to what is there. -/
theorem diagnostics_foldl (policy : PolicyV1) (indexes : FileIndexesV1)
    (invalid : ExtTreeSet String) (files : List EvaluateFileV1)
    (evaluation : BudgetEvaluationV1) :
    (files.foldl
      (fun (evaluation : BudgetEvaluationV1) file =>
        let outcome := evaluateFile libs policy indexes invalid file
        { diagnostics := evaluation.diagnostics ++ outcome.diagnostics
          evaluatedFiles := countIf outcome.evaluated evaluation.evaluatedFiles
          excludedFiles := countIf outcome.excluded evaluation.excludedFiles
          waivedFiles := countIf outcome.waived evaluation.waivedFiles }) evaluation).diagnostics =
      evaluation.diagnostics ++
        files.flatMap fun file => (evaluateFile libs policy indexes invalid file).diagnostics := by
  induction files generalizing evaluation with
  | nil => simp
  | cons file files ih => rw [List.foldl_cons, ih, List.flatMap_cons, List.append_assoc]

/-- **Passing.** -/
theorem passed_iff :
    (evaluateV1 libs input).passed = true ↔
      noErrors (scopeDiagnostics libs input) = true ∧
        ∀ file ∈ input.files, noErrors (evaluateFile libs input.policy (indexFiles input.files)
          (invalidWaivers libs input) file).diagnostics = true := by
  show noErrors (sortDiagnostics _) = true ↔ _
  rw [noErrors_sortDiagnostics, diagnostics_foldl, noErrors_append, noErrors_flatMap]

/-! ### Duplicates -/

theorem repeated_toList_eq_nil {texts : List String} :
    (repeated texts).toList = [] ↔ texts.Nodup := by
  have hmem (text : String) : text ∈ (repeated texts).toList ↔ 1 < texts.count text := by
    rw [ExtTreeSet.mem_toList, repeated, mem_treeSet_ofList, List.mem_filter,
      decide_eq_true_iff]
    exact and_iff_right_of_imp fun h => List.count_pos_iff.mp (Nat.lt_of_succ_lt h)
  rw [List.nodup_iff_count_le_one, List.eq_nil_iff_forall_not_mem]
  exact forall_congr' fun text => (not_congr (hmem text)).trans Nat.not_lt

/-- A file whose paths occur once is no duplicate. -/
theorem isDuplicate_eq_false {duplicatePaths duplicateBaselinePaths : ExtTreeSet String}
    (hpaths : duplicatePaths.toList = []) (hbaselines : duplicateBaselinePaths.toList = [])
    (file : EvaluateFileV1) :
    file.isDuplicate duplicatePaths duplicateBaselinePaths = false := by
  have hnone {s : ExtTreeSet String} (hs : s.toList = []) (text : String) :
      s.contains text = false := by
    rw [← Bool.not_eq_true, ← ExtTreeSet.mem_iff_contains, ← ExtTreeSet.mem_toList, hs]
    exact List.not_mem_nil
  unfold EvaluateFileV1.isDuplicate
  rw [hnone hpaths]
  cases file.baselinePath with
  | none => rfl
  | some path => exact hnone hbaselines path

structure ScopePassed (libs : BudgetLibraries) (input : EvaluationInputV1) : Prop where
  waivers : noErrors (validateCurrentWaivers libs input (waiverFacts input)).2 = true
  removed : waiverFactLimitExceeded input = false →
    noErrors (recordRemovedWaiverDebt libs input (indexFiles input.files) (waiverFacts input)) =
      true
  paths : (indexFiles input.files).duplicatePaths.toList = []
  baselines : (indexFiles input.files).duplicateBaselinePaths.toList = []

theorem scopePassed (h : (evaluateV1 libs input).passed = true) : ScopePassed libs input := by
  obtain ⟨hscope, -⟩ := passed_iff.mp h
  unfold scopeDiagnostics at hscope
  simp only [noErrors_append] at hscope
  obtain ⟨⟨⟨⟨-, hwaivers⟩, -⟩, hremoved⟩, hduplicates⟩ := hscope
  unfold duplicateDiagnostics at hduplicates
  rw [noErrors_append] at hduplicates
  refine ⟨hwaivers, fun hlimit => ?_, ?_, ?_⟩
  · rw [hlimit] at hremoved
    exact hremoved
  · refine List.map_eq_nil_iff.mp (eq_nil_of_noErrors (fun d hd => ?_) hduplicates.1)
    obtain ⟨path, -, rfl⟩ := List.mem_map.mp hd
    rfl
  · refine List.map_eq_nil_iff.mp (eq_nil_of_noErrors (fun d hd => ?_) hduplicates.2)
    obtain ⟨path, -, rfl⟩ := List.mem_map.mp hd
    rfl

variable {file : EvaluateFileV1} {waiver : WaiverV1}

namespace ScopePassed

section

variable (h : ScopePassed libs input)

include h

/-- No path is given twice. -/
theorem currentPaths_nodup :
    (input.files.map (·.currentPath)).Nodup :=
  repeated_toList_eq_nil.mp h.paths

theorem filter_not_duplicatePath :
    (input.files.filter fun file =>
      !(indexFiles input.files).duplicatePaths.contains file.currentPath) = input.files := by
  refine List.filter_eq_self.mpr fun file _ => ?_
  have hfile := isDuplicate_eq_false h.paths h.baselines file
  unfold EvaluateFileV1.isDuplicate at hfile
  rw [Bool.or_eq_false_iff] at hfile
  rw [hfile.1]
  rfl

/-- No comparison path is claimed by two files. -/
theorem baselinePaths_nodup :
    (input.files.filterMap (·.baselinePath)).Nodup := by
  have hbaselines := congrArg (List.filterMap (·.baselinePath)) h.filter_not_duplicatePath
  exact Eq.mp (congrArg List.Nodup hbaselines) (repeated_toList_eq_nil.mp h.baselines)

/-- Every file is indexed. -/
theorem filter_not_isDuplicate :
    (input.files.filter fun file => !file.isDuplicate (indexFiles input.files).duplicatePaths
      (indexFiles input.files).duplicateBaselinePaths) = input.files :=
  List.filter_eq_self.mpr fun file _ => by
    rw [isDuplicate_eq_false h.paths h.baselines]
    rfl

/-- The file at a path. -/
theorem byCurrent_eq_some {path : String} :
    (indexFiles input.files).byCurrent[path]? = some file ↔
      file ∈ input.files ∧ file.currentPath = path := by
  have hindex : (indexFiles input.files).byCurrent =
      insertAll (·.currentPath) id ∅ input.files :=
    congrArg (insertAll EvaluateFileV1.currentPath id ∅) h.filter_not_isDuplicate
  rw [hindex, getElem?_insertAll_empty_eq_some h.currentPaths_nodup]
  exact ⟨fun ⟨_, hfile, hpath, heq⟩ => heq ▸ ⟨hfile, hpath⟩,
    fun ⟨hfile, hpath⟩ => ⟨file, hfile, hpath, rfl⟩⟩

/-- The files that come from a path. -/
theorem mem_byBaseline {path : String} :
    file ∈ (indexFiles input.files).byBaseline[path]?.getD [] ↔
      file ∈ input.files ∧ file.baselinePath = some path := by
  have hindex : (indexFiles input.files).byBaseline =
      groupPairs (input.files.filterMap fun file => file.baselinePath.map (·, file)) :=
    congrArg (fun kept : List EvaluateFileV1 => (groupPairs (kept.filterMap
      fun file : EvaluateFileV1 => file.baselinePath.map fun path => (path, file)) :
        ExtTreeMap String (List EvaluateFileV1))) h.filter_not_isDuplicate
  rw [hindex, mem_getD_groupPairs, List.mem_filterMap]
  constructor
  · rintro ⟨file', hfile', heq⟩
    obtain ⟨path', hpath', hpair⟩ := Option.map_eq_some_iff.mp heq
    cases hpair
    exact ⟨hfile', hpath'⟩
  · rintro ⟨hfile, hpath⟩
    exact ⟨file, hfile, by rw [hpath]; rfl⟩

/-! ### Waivers -/

theorem limit : waiverFactLimitExceeded input = false := by
  by_contra hlimit
  have hwaivers := h.waivers
  unfold validateCurrentWaivers at hwaivers
  rw [if_pos (Bool.not_eq_false _ ▸ hlimit)] at hwaivers
  cases hwaivers

/-- Every waiver of the current policy is valid. -/
theorem waiverError_eq_none (hwaiver : waiver ∈ input.policy.waivers) :
    waiverError libs input (waiverFacts input) waiver = none := by
  have hwaivers := h.waivers
  unfold validateCurrentWaivers at hwaivers
  rw [if_neg (by rw [h.limit]; exact Bool.false_ne_true)] at hwaivers
  dsimp only at hwaivers
  rw [noErrors_append] at hwaivers
  have hnil := eq_nil_of_noErrors (fun d hd => by
    obtain ⟨waiver', -, hmap⟩ := List.mem_filterMap.mp hd
    obtain ⟨message, -, rfl⟩ := Option.map_eq_some_iff.mp hmap
    rfl) hwaivers.1
  have hnone := List.filterMap_eq_nil_iff.mp hnil waiver hwaiver
  exact Option.map_eq_none_iff.mp hnone

theorem notMem_invalidWaivers (id : String) :
    id ∉ invalidWaivers libs input := by
  unfold invalidWaivers validateCurrentWaivers
  rw [if_neg (by rw [h.limit]; exact Bool.false_ne_true)]
  dsimp only
  rw [mem_treeSet_ofList]
  intro hmem
  obtain ⟨waiver, hwaiver, -⟩ := List.mem_map.mp hmem
  obtain ⟨hwaiver, herror⟩ := List.mem_filter.mp hwaiver
  rw [h.waiverError_eq_none hwaiver] at herror
  cases herror

end

end ScopePassed

/-- A waiver without an error is not expired, and its rule governs its path. -/
theorem waiverError_eq_none_imp {facts : ExtTreeMap String (List ExactCurrentPathFactV1)}
    (h : waiverError libs input facts waiver = none) :
    waiver.expires.before input.currentDate = false ∧
      ∃ rule, input.policy.classifyPath libs waiver.path = .ok (.governed rule) ∧
        rule.id = waiver.rule := by
  unfold waiverError at h
  dsimp only at h
  split at h
  · cases h
  next hexpires =>
    refine ⟨Bool.not_eq_true _ ▸ hexpires, ?_⟩
    split at h
    · cases h
    · cases h
    · split at h
      · split at h
        next rule hclassify =>
          split at h
          next hrule => exact ⟨rule, hclassify, hrule⟩
          · cases h
        · cases h
        · cases h
      · cases h
      · cases h
    · cases h

/-! ### Files -/

/-- A governed regular file of a passing evaluation is within its budget in both metrics. -/
theorem evaluateMetric_of_passed (h : (evaluateV1 libs input).passed = true)
    (hfile : file ∈ input.files) {rule : RuleV1}
    (hrule : input.policy.classifyPath libs file.currentPath = .ok (.governed rule))
    (hcurrent : file.current = .regular measurement) (metric : BudgetMetricV1) :
    noErrors (evaluateMetric file rule (input.policy.waiverFor rule.id file.currentPath) metric
      measurement).1 = true := by
  have hscope := scopePassed h
  have hround := (passed_iff.mp h).2 file hfile
  unfold evaluateFile at hround
  rw [if_neg (by rw [isDuplicate_eq_false hscope.paths hscope.baselines]; exact Bool.false_ne_true),
    hrule] at hround
  dsimp only at hround
  rw [hcurrent] at hround
  dsimp only at hround
  unfold evaluateRegular at hround
  split at hround
  · cases hround
  · dsimp only at hround
    -- no waiver is invalid
    have hwaiver : (input.policy.waiverFor rule.id file.currentPath).filter
        (fun waiver => !(invalidWaivers libs input).contains waiver.id) =
        input.policy.waiverFor rule.id file.currentPath := by
      cases input.policy.waiverFor rule.id file.currentPath with
      | none => rfl
      | some waiver =>
          rw [Option.filter_some, if_pos]
          rw [Bool.not_eq_true', ← Bool.not_eq_true, ← ExtTreeSet.mem_iff_contains]
          exact hscope.notMem_invalidWaivers _
    rw [hwaiver, noErrors_append, noErrors_append] at hround
    cases metric with
    | lines => exact hround.1.1
    | bytes => exact hround.1.2

/-- What a metric with a maximum is within: the ceiling of its waiver, or else the maximum, or else
the debt it had. -/
theorem evaluateMetric_noErrors {rule : RuleV1} {waiver : Option WaiverV1} {metric : BudgetMetricV1}
    {maximum : Nat} (hmaximum : rule.maximum metric = some maximum)
    (h : noErrors (evaluateMetric file rule waiver metric measurement).1 = true) :
    (∀ ceiling, waiver.bind (·.ceiling metric) = some ceiling →
        measurement.get metric ≤ ceiling) ∧
      (waiver.bind (·.ceiling metric) = none →
        measurement.get metric - maximum ≤
          (file.comparison.map fun comparison => comparison.get metric - maximum).getD 0) := by
  unfold evaluateMetric at h
  rw [hmaximum] at h
  dsimp only at h
  rw [noErrors_append] at h
  replace h := h.2
  unfold evaluateMaximum at h
  dsimp only at h
  constructor
  · intro ceiling hceiling
    rw [hceiling, Option.filter_some] at h
    by_contra hle
    rw [if_pos (decide_eq_true (Nat.lt_of_not_le hle))] at h
    cases h
  · intro hceiling
    rw [hceiling] at h
    dsimp only [Option.filter_none] at h
    split at h
    next hdebt => exact Nat.le_trans (Nat.le_of_eq hdebt) (Nat.zero_le _)
    · cases hcomparison : file.comparison with
      | none =>
          rw [hcomparison] at h
          cases h
      | some comparison =>
          rw [hcomparison] at h
          dsimp only [Option.map_some, Option.isSome_none] at h
          rw [if_neg Bool.false_ne_true] at h
          -- debt that grows is an error
          by_contra hgrowth
          have hlt : measurement.get metric - maximum > comparison.get metric - maximum :=
            Nat.lt_of_not_le hgrowth
          rw [if_pos hlt] at h
          cases h

end Evaluation

end Jig.FileBudget

import Jig.Lib.Fallible
import Jig.Lib.Paths
import Jig.Repository.Libraries

/-!
# Paths and patterns

The path rules of `jig-repository`, `affected.rs`, and `jig-context`, `repository_path.rs`: what an
authored pattern or component root may look like, which changed paths Git may report, and when a
component root contains a path.

`CompiledPattern` is a pattern that `globset` accepted. It keeps its text (`compileInput_pattern`),
and the rest of the development only asks which paths it matches.
-/

namespace Jig.Repository

open Jig.Contract Jig.Lib Std

/-! ## Authored texts -/

def validateAuthoredRepositoryRelativeText (kind value : String) : Except String Unit :=
  if value.isEmpty then
    .error s!"{kind} must not be empty"
  else if value != Text.trim value then
    .error s!"{kind} must not have surrounding whitespace"
  else if Text.startsWithChar '/' value || Text.containsChar '\\' value then
    .error s!"{kind} must use repository-relative forward-slash syntax"
  else if Text.secondByteIs ':' value then
    .error s!"{kind} must not use an absolute drive path"
  else if value.toList.any Text.isControl then
    .error s!"{kind} must not contain control characters"
  else
    (Text.split '/' value).forM fun segment =>
      if segment.isEmpty then
        .error s!"{kind} must not contain an empty path segment"
      else if segment == "." || segment == ".." then
        .error s!"{kind} must not contain '.' or '..' path segments"
      else
        .ok ()

def validateObservableSourceDeclaration (kind value : String) : Except String Unit :=
  if (Text.split '/' value).head? == some ".agent" then
    .error (s!"{kind} must not be inside .agent/** because that runtime and harness tree is " ++
      "excluded from source identity and affected selection")
  else
    .ok ()

def normalizePortableRepoPath (debug : String → String) (value label : String) :
    Except String String :=
  if value.isEmpty then
    .error s!"{label} must not be empty"
  else if Text.startsWithChar '/' value || Text.startsWithChar '\\' value ||
      (value.toList.head?.any Char.isAlpha && Text.secondByteIs ':' value) then
    .error s!"{label} must be a portable repository-relative path: {value}"
  else if Text.containsChar '\\' value then
    .error (s!"{label} must use portable '/' separators and stay repository-relative: " ++ value)
  else if value.toList.any Text.isControl then
    .error s!"{label} must not contain control characters: {debug value}"
  else if (Text.split '/' value).contains ".." then
    .error s!"{label} must not contain '..' and must stay inside the repository: {value}"
  else
    match (Text.split '/' value).filter fun segment => segment != "" && segment != "." with
    | [] => .ok "."
    | normalized => .ok (Text.join "/" normalized)

/-- `validate_runner_environment`, over the pairs in key order. -/
def validateRunnerEnvironment (debug : String → String) (environment : Environment) :
    Except String Unit :=
  environment.toList.forM fun (name, value) =>
    if name.isEmpty || Text.containsAnyOf ['=', '\x00'] name then
      .error s!"environment variable name {debug name} is invalid"
    else if Text.containsChar '\x00' value then
      .error s!"environment variable {debug name} contains a NUL byte"
    else
      .ok ()

/-! ## Changed paths -/

def validateGitChangedPath (path : String) : Except String Unit :=
  if path.isEmpty then
    .error "changed path must not be empty"
  else if Text.startsWithChar '/' path then
    .error "changed path must remain repository-relative"
  else if Text.containsChar '\x00' path then
    .error "changed path must not contain a NUL byte"
  else
    (Text.split '/' path).forM fun segment =>
      if segment.isEmpty then
        .error "changed path must not contain an empty path segment"
      else if segment == "." || segment == ".." then
        .error "changed path must not contain '.' or '..' path segments"
      else
        .ok ()

def ValidChangedPath (path : String) : Prop :=
  validateGitChangedPath path = .ok ()

/-! ## Roots -/

def rootContains (root path : String) : Bool :=
  root == "." || path == root || (Text.stripStart root path).any (Text.startsWithChar '/')

def rootDepth (root : String) : Nat :=
  if root = "." then 0 else (Text.split '/' root).length

/-- A root contains the paths whose first segments are its own. -/
theorem rootContains_iff {root path : String} :
    rootContains root path = true ↔ Paths.Within root path := by
  have hbelow : (Text.stripStart root path).any (Text.startsWithChar '/') = true ↔
      root.toList ++ ['/'] <+: path.toList := by
    simp only [Option.any_eq_true, Text.stripStart_eq_some, Text.startsWithChar, beq_iff_eq]
    constructor
    · rintro ⟨rest, hpath, hslash⟩
      obtain ⟨below, hrest⟩ := List.head?_eq_some_iff.mp hslash
      exact ⟨below, by simp [hpath, hrest]⟩
    · rintro ⟨below, hpath⟩
      exact ⟨String.ofList ('/' :: below), by simp [← hpath], by simp⟩
  rw [Paths.within_iff]
  simp only [rootContains, Bool.or_eq_true, beq_iff_eq, hbelow, or_assoc]

/-- Of two roots that contain a path the deeper one lies in the other. -/
theorem within_of_rootDepth_le {root other path : String} (hroot : Paths.Within root path)
    (hother : Paths.Within other path) (hdepth : rootDepth root ≤ rootDepth other) :
    Paths.Within root other := by
  unfold rootDepth at hdepth
  rcases hroot with htop | hroot
  · exact .inl htop
  have hsegments : (Text.split '/' root).length ≠ 0 := by
    simp [Text.split, List.splitOn_ne_nil]
  rcases hother with rfl | hother
  · by_cases htop : root = "."
    · exact .inl htop
    · rw [if_neg htop, if_pos rfl] at hdepth
      exact absurd (Nat.le_zero.mp hdepth) hsegments
  · by_cases htop : root = "."
    · exact .inl htop
    · rw [if_neg htop] at hdepth
      refine .inr (List.prefix_of_prefix_length_le hroot hother (hdepth.trans ?_))
      split
      · exact Nat.zero_le _
      · exact le_rfl

section Libraries

variable (libs : Libraries)

def validateComponentRoot (component : ComponentSpec) : Result Unit :=
  let root := component.root
  if root = "." then
    .ok ()
  else do
    (validateAuthoredRepositoryRelativeText "component root" root).mapError Failure.bail
    (validateObservableSourceDeclaration "component root" root).mapError fun e =>
      .bail s!"component '{component.id}' has invalid root {libs.debug root}: {e}"
    bailIf (Text.containsAnyOf ['*', '?', '[', ']', '\x7b', '\x7d'] root)
      (s!"component '{component.id}' has invalid root {libs.debug root}: component roots must " ++
        "be literal repository-relative directories")

/-! ## Patterns -/

/-- A compiled `GlobMatcher`: the pattern it was built from. -/
structure CompiledPattern where
  pattern : String
deriving DecidableEq

def CompiledPattern.isMatch (compiled : CompiledPattern) (path : String) : Bool :=
  libs.globIsMatch compiled.pattern path

def compilePathPattern (kind input : String) : Except String CompiledPattern := do
  (validateAuthoredRepositoryRelativeText kind input).mapError fun e =>
    s!"invalid {kind} pattern {libs.debug input}: {e}"
  (libs.globBuild input).mapError fun e => s!"invalid {kind} pattern {libs.debug input}: {e}"
  return ⟨input⟩

def compileInput (target : TargetId) (input : String) : Result CompiledPattern :=
  let invalid (e : String) : Failure :=
    .bail s!"target '{target}' has invalid input pattern {libs.debug input}: {e}"
  do
    (validateObservableSourceDeclaration "action input" input).mapError invalid
    (compilePathPattern libs "action input" input).mapError invalid

def normalizedChangedPaths (changedPaths : List String) : Result (ExtTreeSet String) := do
  changedPaths.forM fun path =>
    (validateGitChangedPath path).mapError fun e =>
      .bail s!"Git reported invalid changed path {libs.debug path}: {e}"
  return ExtTreeSet.ofList changedPaths

variable {libs : Libraries} {compiled : CompiledPattern}

/-- A compiled pattern is the pattern that was compiled. -/
theorem compilePathPattern_pattern {kind input : String}
    (h : compilePathPattern libs kind input = .ok compiled) : compiled = ⟨input⟩ := by
  unfold compilePathPattern at h
  simp only [bind_eq_ok, pure_eq_ok] at h
  obtain ⟨_, _, _, _, rfl⟩ := h
  rfl

theorem compileInput_pattern {target : TargetId} {input : String}
    (h : compileInput libs target input = .ok compiled) : compiled = ⟨input⟩ := by
  unfold compileInput at h
  simp only [bind_eq_ok, mapError_eq_ok] at h
  obtain ⟨_, _, hpattern⟩ := h
  exact compilePathPattern_pattern hpattern

theorem normalizedChangedPaths_eq_ok {changedPaths : List String} {paths : ExtTreeSet String} :
    normalizedChangedPaths libs changedPaths = .ok paths ↔
      (∀ path ∈ changedPaths, ValidChangedPath path) ∧
        paths = ExtTreeSet.ofList changedPaths := by
  unfold normalizedChangedPaths
  rw [then_eq_ok, forM_eq_ok, pure_eq_ok, eq_comm (a := paths)]
  simp only [mapError_eq_ok, ValidChangedPath]

end Libraries

end Jig.Repository

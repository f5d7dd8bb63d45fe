import Jig.Lib.Text

/-!
# Paths

Rust's `Path` on a Unix system, over texts: a path is read as its components, which leave out empty
parts and `.` parts behind the first. `Within` is the relation between a directory and what lies
below it, by the parts between slashes.
-/

namespace Jig.Lib.Paths

inductive Component where
  | rootDir
  | curDir
  | parentDir
  | normal (part : String)
deriving DecidableEq

/-- The component that a part behind the first stands for. -/
def innerComponent (part : String) : Option Component :=
  if part = "" ∨ part = "." then none
  else if part = ".." then some .parentDir
  else some (.normal part)

def components (path : String) : List Component :=
  match Text.split '/' path with
  | [] => []
  | first :: rest =>
      let leading :=
        if first = "" then if path = "" then [] else [.rootDir]
        else if first = "." then [.curDir]
        else (innerComponent first).toList
      leading ++ rest.filterMap innerComponent

def isAbsolute (path : String) : Bool :=
  Text.startsWithChar '/' path

def fileName (path : String) : Option String :=
  match (components path).getLast? with
  | some (.normal part) => some part
  | _ => none

/-- The components behind a base: `Path::strip_prefix`. -/
def componentsBelow (base path : String) : Option (List Component) :=
  if (components base).isPrefixOf (components path) then
    some ((components path).drop (components base).length)
  else
    none

/-- Parts from the last one on, without those that are no components. A `.` is one only in front. -/
def dropSilent : List String → List String
  | [] => []
  | [first] => if first = "" then [] else [first]
  | part :: rest => if part = "" ∨ part = "." then dropSilent rest else part :: rest

def parent (path : String) : Option String :=
  match dropSilent (Text.split '/' path).reverse with
  | [] => none
  | _ :: above => some (Text.join "/" (dropSilent above).reverse)

/-! ## Directories -/

/-- What lies in a directory, the directory itself included. -/
def Within (root path : String) : Prop :=
  root = "." ∨ Text.split '/' root <+: Text.split '/' path

instance (root path : String) : Decidable (Within root path) :=
  inferInstanceAs (Decidable (root = "." ∨ _ <+: _))

theorem intercalate_append {α : Type*} {separator : List α} {l₁ l₂ : List (List α)} (h₁ : l₁ ≠ [])
    (h₂ : l₂ ≠ []) :
    separator.intercalate (l₁ ++ l₂) =
      separator.intercalate l₁ ++ separator ++ separator.intercalate l₂ := by
  induction l₁ with
  | nil => exact absurd rfl h₁
  | cons a l ih =>
      by_cases hl : l = []
      · subst hl
        simp [List.intercalate_cons_of_ne_nil h₂]
      · rw [List.cons_append, List.intercalate_cons_of_ne_nil (by simp [hl]), ih hl,
          List.intercalate_cons_of_ne_nil hl]
        simp only [List.append_assoc]

/-- The parts of a root come first in a path exactly when its text does, up to a slash or the end.
-/
theorem split_prefix_iff {root path : String} :
    Text.split '/' root <+: Text.split '/' path ↔
      path = root ∨ root.toList ++ ['/'] <+: path.toList := by
  constructor
  · rintro ⟨rest, hrest⟩
    have hparts : root.toList.splitOn '/' ++ rest.map String.toList = path.toList.splitOn '/' := by
      have := congrArg (List.map String.toList) hrest
      simpa [Text.split, Function.comp_def] using this
    have hpath : ['/'].intercalate (path.toList.splitOn '/') = path.toList :=
      List.intercalate_splitOn '/'
    rw [← hparts] at hpath
    by_cases hempty : rest = []
    · left
      rw [hempty, List.map_nil, List.append_nil, List.intercalate_splitOn] at hpath
      exact String.toList_inj.mp hpath.symm
    · right
      rw [intercalate_append (List.splitOn_ne_nil _ _) (by simpa using hempty),
        List.intercalate_splitOn] at hpath
      exact ⟨_, hpath⟩
  · rintro (rfl | ⟨rest, hrest⟩)
    · exact List.prefix_refl _
    · refine ⟨(rest.splitOn '/').map String.ofList, ?_⟩
      unfold Text.split
      rw [← hrest, List.append_assoc, List.singleton_append, List.splitOn_append_cons_self,
        List.map_append]

/-- The text does not end in a slash. -/
def Unslashed (root : String) : Prop :=
  root.toList.getLast? ≠ some '/'

theorem unslashed_dot : Unslashed "." := by
  unfold Unslashed
  decide

theorem within_iff {root path : String} :
    Within root path ↔ root = "." ∨ path = root ∨ root.toList ++ ['/'] <+: path.toList := by
  rw [Within, split_prefix_iff]

theorem dropSilent_head_ne {parts : List String} {part : String} {rest : List String}
    (h : dropSilent parts = part :: rest) : part ≠ "" := by
  induction parts using dropSilent.induct with
  | case1 => cases h
  | case2 => simp [dropSilent] at h
  | case3 first hne =>
      simp only [dropSilent, if_neg hne, List.cons.injEq] at h
      exact h.1 ▸ hne
  | case4 first below _ hsilent ih =>
      rw [dropSilent, if_pos hsilent] at h
      · exact ih h
      · assumption
  | case5 first below _ hkept =>
      rw [dropSilent, if_neg hkept] at h
      · obtain ⟨rfl, -⟩ := List.cons.inj h
        exact fun hempty => hkept (.inl hempty)
      · assumption

theorem dropSilent_suffix (parts : List String) : dropSilent parts <:+ parts := by
  induction parts using dropSilent.induct with
  | case1 => exact List.suffix_refl _
  | case2 => simp [dropSilent]
  | case3 first hne => simp [dropSilent, hne]
  | case4 first below _ hsilent ih =>
      rw [dropSilent, if_pos hsilent]
      · exact ih.trans (List.suffix_cons _ _)
      · assumption
  | case5 first below _ hkept =>
      refine ⟨[], ?_⟩
      rw [List.nil_append, dropSilent, if_neg hkept]
      assumption

theorem notMem_of_mem_splitOn {α : Type*} [BEq α] [LawfulBEq α] {separator : α} {l part : List α}
    (h : part ∈ l.splitOn separator) : separator ∉ part := by
  by_cases hmem : separator ∈ l
  · obtain ⟨first, rest, hl, hfirst⟩ := List.eq_append_cons_of_mem hmem
    rw [hl, List.splitOn_append_cons_self_of_not_mem hfirst] at h
    rcases List.mem_cons.mp h with rfl | h
    · exact hfirst
    · exact notMem_of_mem_splitOn h
  · rw [List.splitOn_eq_singleton hmem, List.mem_singleton] at h
    exact h ▸ hmem
termination_by l.length
decreasing_by
  rw [hl, List.length_append, List.length_cons]
  omega

theorem notMem_of_mem_split {path part : String} (h : part ∈ Text.split '/' path) :
    '/' ∉ part.toList := by
  obtain ⟨chars, hchars, rfl⟩ := List.mem_map.mp h
  rw [String.toList_ofList]
  exact notMem_of_mem_splitOn hchars

/-- The parent of a path does not end in a slash. -/
theorem parent_unslashed {path directory : String} (h : parent path = some directory) :
    Unslashed directory := by
  unfold parent at h
  split at h
  · cases h
  · rename_i last above habove
    obtain rfl := Option.some.inj h
    unfold Unslashed Text.join
    rw [String.toList_intercalate]
    cases hkept : dropSilent above with
    | nil => simp
    | cons part rest =>
        have hne := dropSilent_head_ne hkept
        have hpart : part ∈ Text.split '/' path := by
          have hmem : part ∈ above := (dropSilent_suffix above).mem (hkept ▸ List.mem_cons_self)
          have hmem' : part ∈ dropSilent (Text.split '/' path).reverse :=
            habove ▸ List.mem_cons_of_mem _ hmem
          exact List.mem_reverse.mp ((dropSilent_suffix _).mem hmem')
        have hlast : ∀ before : List (List Char),
            ("/".toList.intercalate (before ++ [part.toList])).getLast? = part.toList.getLast? := by
          intro before
          by_cases hbefore : before = []
          · simp [hbefore]
          · have hchars : part.toList ≠ [] := by simpa using hne
            rw [intercalate_append hbefore (by simp), List.intercalate_singleton,
              List.getLast?_append_of_ne_nil _ hchars]
        rw [List.reverse_cons, List.map_append, List.map_cons, List.map_nil, hlast]
        intro hslash
        exact notMem_of_mem_split hpart (List.mem_of_getLast? hslash)

end Jig.Lib.Paths

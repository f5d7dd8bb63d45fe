import Jig.Loops.Ledger

/-!
# What each write leaves of the ledger

`Located self v files` says that the files hold the ledger `v`: in the protected file or, without
protected authority, in the public one (`Placed`), or in the public file before the cutover to the
protected one (`BeforeCutover`). Every state that a write of `w` goes through holds `w`, whatever
the files held before, as long as the write starts where it may (`Ready`): that is the reason why no
crash loses a ledger.
-/

namespace Jig.Loops

open Lib
open Lib.Durable (Spec)

structure IsLedger (store : ScheduleFile) : Prop where
  schema : store.schemaVersion = scheduleSchemaVersion
  migratedTo : store.migratedTo = none

/-- A file holds a ledger, perhaps in an older schema. -/
def HoldsIn (file : Option ScheduleFile) (store : ScheduleFile) : Prop :=
  ∃ found, file = some found ∧ found.migratedTo = none ∧ migrateScheduleSchema found = .ok store

theorem isLedger_empty : IsLedger .empty := ⟨rfl, rfl⟩

variable {store : ScheduleFile} {file : Option ScheduleFile}

theorem IsLedger.validate (h : IsLedger store) (path : String) :
    validateDurableSchedule store path = .ok ⟨⟩ := by
  have hschema : validateSchema store = .ok ⟨⟩ := if_neg (not_not.mpr h.schema)
  unfold validateDurableSchedule
  rw [hschema, h.migratedTo]
  rfl

theorem isLedger_of_validate {path : String} (h : validateDurableSchedule store path = .ok ⟨⟩) :
    IsLedger store := by
  obtain ⟨hschema, hmigrated⟩ := then_eq_ok.mp h
  refine ⟨?_, ?_⟩
  · by_contra hne
    rw [validateSchema, if_pos hne] at hschema
    cases hschema
  · by_contra hne
    rw [if_pos (Option.isSome_iff_ne_none.mpr hne)] at hmigrated
    cases hmigrated

theorem IsLedger.migrate (h : IsLedger store) :
    migrateScheduleSchema store = .ok store := if_pos h.schema

theorem IsLedger.holdsIn (h : IsLedger store) :
    HoldsIn (some store) store := ⟨store, rfl, h.migratedTo, h.migrate⟩

/-- Only the schema version of a file is migrated. -/
theorem migrateScheduleSchema_eq {found : ScheduleFile}
    (h : migrateScheduleSchema found = .ok store) :
    store = { found with schemaVersion := scheduleSchemaVersion } := by
  unfold migrateScheduleSchema at h
  split at h
  next heq =>
    cases h
    rw [← heq]
  next hne =>
    split at h
    · cases h
      rfl
    · rw [validateSchema, if_pos hne] at h
      cases h

theorem HoldsIn.isLedger (h : HoldsIn file store) : IsLedger store := by
  obtain ⟨found, -, hmigrated, hstore⟩ := h
  rw [migrateScheduleSchema_eq hstore]
  exact ⟨rfl, hmigrated⟩

theorem HoldsIn.isSome (h : HoldsIn file store) : file.isSome = true := by
  obtain ⟨found, rfl, -⟩ := h
  rfl

/-! ### Where the ledger is -/

structure NoDurable (files : ScheduleFiles) : Prop where
  publicState : files.publicState = none
  publicMarker : files.publicMarker = none
  protectedState : files.protectedState = none
  protectedMarker : files.protectedMarker = none

structure InProtected (store : ScheduleFile) (files : ScheduleFiles) : Prop where
  holds : HoldsIn files.protectedState store
  protectedMarker : files.protectedMarker = none ∨ files.protectedMarker = some .ofProtected
  publicMarker : files.publicMarker = some .ofCutover ∨ files.publicMarker = some .ofProtected

/-- The ledger is in the public file, and there is no protected authority. -/
structure InPublic (store : ScheduleFile) (files : ScheduleFiles) : Prop where
  holds : HoldsIn files.publicState store
  publicMarker : files.publicMarker = none ∨ files.publicMarker = some .ofPublic

/-- The ledger is in the public file, and its cutover to the protected one is not done. -/
structure BeforeCutover (store : ScheduleFile) (files : ScheduleFiles) : Prop where
  holds : HoldsIn files.publicState store
  publicMarker : files.publicMarker = none ∨ files.publicMarker = some .ofPublic ∨
    files.publicMarker = some .ofCutover
  protectedState : files.protectedState = none
  protectedMarker : files.protectedMarker = none

/-- The files fulfil `held` beside this legacy file. -/
abbrev Beside (legacy : Option ScheduleFile) (held : ScheduleFiles → Prop) (files : ScheduleFiles) :
    Prop :=
  files.legacy = legacy ∧ held files

namespace SchedulePersistence

variable (self : SchedulePersistence)

/-- The ledger is where this persistence keeps it. -/
def Placed (store : ScheduleFile) (files : ScheduleFiles) : Prop :=
  match self.protectedAuthority with
  | none => InPublic store files
  | some _ => InProtected store files

def Located (store : ScheduleFile) (files : ScheduleFiles) : Prop :=
  self.Placed store files ∨ self.protectedAuthority.isSome ∧ BeforeCutover store files

variable {self} {files : ScheduleFiles} {legacy : Option ScheduleFile}
  {fails : String → ScheduleFiles → Prop}

theorem Placed.isLedger (h : self.Placed store files) : IsLedger store := by
  unfold Placed at h
  split at h
  · exact h.holds.isLedger
  · exact h.holds.isLedger

/-- The legacy file is not looked at. -/
theorem Placed.withLegacy (h : self.Placed store files) (legacy : Option ScheduleFile) :
    self.Placed store { files with legacy := legacy } := by
  unfold Placed at h ⊢
  split at h
  · exact ⟨h.holds, h.publicMarker⟩
  · exact ⟨h.holds, h.protectedMarker, h.publicMarker⟩

theorem Located.isLedger (h : self.Located store files) : IsLedger store :=
  h.elim Placed.isLedger fun h => h.2.holds.isLedger

/-! ### What is read -/

theorem durableStateExpected_of_noDurable (h : NoDurable files) :
    self.durableStateExpected files = false := by
  simp [durableStateExpected, h.publicState, h.publicMarker, h.protectedState, h.protectedMarker]

theorem durableStateExpected_of_located (h : self.Located store files) :
    self.durableStateExpected files = true := by
  unfold Located Placed at h
  unfold durableStateExpected
  cases hauthority : self.protectedAuthority with
  | none =>
      rw [hauthority] at h
      rcases h with h | ⟨hsome, -⟩
      · simp [h.holds.isSome]
      · cases hsome
  | some authority =>
      rw [hauthority] at h
      rcases h with h | ⟨-, h⟩
      · simp [h.holds.isSome]
      · simp [h.holds.isSome]

theorem needsState_of_placed (h : self.Placed store files) :
    self.protectedAuthorityNeedsState files = false := by
  unfold Placed at h
  unfold protectedAuthorityNeedsState
  split at h
  next hauthority => simp [hauthority]
  next hauthority =>
    obtain ⟨found, hfound, -⟩ := h.holds
    simp [hfound]

theorem durableReadLocation_of_noDurable (h : NoDurable files) :
    self.durableReadLocation files = .ok (none, self.path) := by
  unfold durableReadLocation publicAuthorityWitness protectedMarkerRequiresAuthority
  rw [h.publicMarker, h.protectedMarker, h.protectedState, h.publicState]
  split <;> rfl

/-- Where there is a ledger, its file is the one that counts. -/
theorem durableReadLocation_of_located (h : self.Located store files) :
    ∃ found path, self.durableReadLocation files = .ok (found, path) ∧ HoldsIn found store := by
  unfold Located Placed at h
  unfold durableReadLocation
  cases hauthority : self.protectedAuthority with
  | none =>
      rw [hauthority] at h
      obtain h | ⟨hsome, -⟩ := h
      · refine ⟨files.publicState, self.path, ?_, h.holds⟩
        unfold publicAuthorityWitness
        rcases h.publicMarker with hmarker | hmarker
        · rw [hmarker]
          rfl
        · rw [hmarker]
          rfl
      · cases hsome
  | some authority =>
      rw [hauthority] at h
      obtain h | ⟨-, h⟩ := h
      · exact ⟨files.protectedState, authority.path, if_pos h.holds.isSome, h.holds⟩
      · -- neither marker says that the ledger has moved
        refine ⟨files.publicState, self.path, ?_, h.holds⟩
        unfold protectedMarkerRequiresAuthority publicAuthorityWitness
        rw [h.protectedState, h.protectedMarker]
        rcases h.publicMarker with hmarker | hmarker | hmarker
        · rw [hmarker]
          rfl
        · rw [hmarker]
          rfl
        · rw [hmarker]
          rfl

theorem readDurable_of_noDurable (h : NoDurable files) :
    self.readDurable false files = .ok none := by
  unfold readDurable
  rw [durableReadLocation_of_noDurable h, durableStateExpected_of_noDurable h]
  rfl

theorem readDurable_of_located (required : Bool) (h : self.Located store files) :
    self.readDurable required files = .ok (some store) := by
  obtain ⟨found, path, hlocation, held, rfl, hmigrated, hstore⟩ :=
    durableReadLocation_of_located h
  have hread (message : String) (expected : Bool) :
      readExpectedSchedule (some held) path expected message = .ok (some held) := by
    unfold readExpectedSchedule
    rw [if_neg (by simp)]
  unfold readDurable
  rw [hlocation]
  dsimp only [bind, Except.bind]
  rw [hread]
  dsimp only
  rw [hstore]
  dsimp only
  rw [h.isLedger.validate]

/-! ### What a write leaves -/

/-- The files on which `store` may be written: the first file that is replaced is then the one that
counts, or one that nothing looks at. -/
def Ready (self : SchedulePersistence) (store : ScheduleFile) (files : ScheduleFiles) : Prop :=
  NoDurable files ∨ self.Located store files ∨ ∃ before, self.Placed before files

section Marker

variable {file : MarkerFile} {path description : String} {expected : ScheduleInitializationMarker}
  {replaceExisting : Bool} {pre crash post : ScheduleFiles → Prop}
  (hcurrent : ∀ s, pre s → replaceExisting = true ∨ file.read s = none ∨
    file.read s = some expected)

include hcurrent

/-- A marker that is missing, or that may be replaced, is written. -/
theorem ensureInitializationMarkerAt_spec
    (hkept : ∀ s, pre s → file.read s = some expected → post s)
    (hcrash : ∀ s, pre s → crash (file.write expected s))
    (hwritten : ∀ s, pre s → post (file.write expected s)) :
    Spec pre
      (ensureInitializationMarkerAt file path description expected replaceExisting) crash
      (fun _ => post) fails := by
  refine .bind (fun current s => pre s ∧ file.read s = current)
    (Spec.look_ok fun s hs => ⟨_, rfl, hs, rfl⟩) fun current => ?_
  have hwrite : Spec (fun s => pre s ∧ file.read s = current)
      (Durable.change fun files => file.write expected files) crash (fun _ => post) fails :=
    Spec.change (fun s hs => hcrash s hs.1) fun s hs => hwritten s hs.1
  split_ifs with hexpected hreplace hinvalid
  · exact .pure fun s hs => hkept s hs.1 (hs.2.trans hexpected)
  · exact hwrite
  · refine .of_false fun s hs => ?_
    rcases hcurrent s hs.1 with h | h | h
    · exact hreplace h
    · rw [← hs.2, h] at hinvalid
      simp at hinvalid
    · exact hexpected (hs.2.symm.trans h)
  · exact hwrite

/-- A property that the write of a marker keeps is kept by the check and the write. -/
theorem ensureInitializationMarkerAt_keeps
    (hwritten : ∀ s, pre s → pre (file.write expected s)) :
    Spec pre
      (ensureInitializationMarkerAt file path description expected replaceExisting) pre
      (fun _ => pre) fails :=
  ensureInitializationMarkerAt_spec hcurrent (fun _ hs _ => hs) hwritten hwritten

end Marker

/-- With the protected file written, its marker only follows. -/
theorem InProtected.ensureProtectedMarker (authority : ProtectedScheduleAuthority) :
    Spec (Beside legacy (InProtected store))
      (SchedulePersistence.ensureProtectedMarker authority)
      (Beside legacy (InProtected store))
      (fun _ => Beside legacy (InProtected store)) fails :=
  ensureInitializationMarkerAt_keeps (fun _ hs => .inr hs.2.protectedMarker)
    fun _ hs => ⟨hs.1, hs.2.holds, .inr rfl, hs.2.publicMarker⟩

theorem InProtected.ensurePublicMarker (path description : String) :
    Spec (Beside legacy (InProtected store))
      (ensureInitializationMarkerAt .ofPublic path description .ofProtected true)
      (Beside legacy (InProtected store))
      (fun _ => Beside legacy (InProtected store)) fails :=
  ensureInitializationMarkerAt_keeps (fun _ _ => .inl rfl)
    fun _ hs => ⟨hs.1, hs.2.holds, hs.2.protectedMarker, .inr rfl⟩

/-- What follows the write of the protected file. -/
theorem InProtected.replicate (authority : ProtectedScheduleAuthority) (replica : ScheduleFile)
    (path description : String) :
    Spec (Beside legacy (InProtected store))
      (do
        SchedulePersistence.ensureProtectedMarker authority
        writePublic replica
        ensureInitializationMarkerAt .ofPublic path description .ofProtected true)
      (Beside legacy (InProtected store))
      (fun _ => Beside legacy (InProtected store)) fails := by
  have hwritten (s : ScheduleFiles) (hs : Beside legacy (InProtected store) s) :
      s.legacy = legacy ∧ InProtected store { s with publicState := some replica } :=
    ⟨hs.1, hs.2.holds, hs.2.protectedMarker, hs.2.publicMarker⟩
  refine .bind _ (InProtected.ensureProtectedMarker authority) fun _ => ?_
  exact .bind _ (Spec.change hwritten hwritten) fun _ =>
    InProtected.ensurePublicMarker _ _

/-- The markers of a placed ledger. -/
theorem ensureInitializationMarkers_spec :
    Spec (Beside legacy (self.Placed store))
      self.ensureInitializationMarkers (Beside legacy (self.Placed store))
      (fun _ => Beside legacy (self.Placed store)) fails := by
  unfold ensureInitializationMarkers Placed
  cases hauthority : self.protectedAuthority with
  | none =>
      refine .bind (fun found s => found = none ∧ s.legacy = legacy ∧ InPublic store s)
        (Spec.look_ok fun s hs => ⟨none, rfl, rfl, hs⟩) fun found => ?_
      refine .of_and fun hfound => ?_
      subst hfound
      exact ensureInitializationMarkerAt_keeps (fun _ hs => .inr hs.2.publicMarker)
        fun _ hs => ⟨hs.1, hs.2.holds, .inr rfl⟩
  | some authority =>
      refine .bind
        (fun found s => found = some authority ∧ s.legacy = legacy ∧ InProtected store s)
        (Spec.look_ok fun s hs => ⟨some authority, ?_, rfl, hs⟩) fun found => ?_
      · rw [Option.filter_some, if_pos hs.2.holds.isSome]
      refine .of_and fun hfound => ?_
      subst hfound
      exact .bind _ (InProtected.ensureProtectedMarker authority) fun _ =>
        InProtected.ensurePublicMarker _ _

def CutoverMarked (files : ScheduleFiles) : Prop :=
  (files.protectedMarker = none ∨ files.protectedMarker = some .ofProtected) ∧
    (files.publicMarker = some .ofCutover ∨ files.publicMarker = some .ofProtected)

/-- What a witness says of the files, where there is protected authority. -/
def Witnesses (witness : Option PublicScheduleAuthorityWitness) (files : ScheduleFiles) : Prop :=
  if PublicScheduleAuthorityWitness.requiresProtected witness then CutoverMarked files
  else files.protectedState = none ∧ files.protectedMarker = none ∧
    (files.publicMarker = none ∨ files.publicMarker = some .ofPublic)

/-- Every marker that there may be before a write is read. -/
theorem Ready.exists_witness (hauthority : self.protectedAuthority.isSome)
    (h : self.Ready store files) :
    ∃ witness, self.publicAuthorityWitness files = .ok witness ∧ Witnesses witness files := by
  obtain ⟨authority, hauthority⟩ := Option.isSome_iff_exists.mp hauthority
  unfold Ready Located Placed at h
  rw [hauthority] at h
  unfold publicAuthorityWitness
  have hprotected {before : ScheduleFile} (h : InProtected before files) :
      CutoverMarked files := ⟨h.protectedMarker, h.publicMarker⟩
  have hcases : CutoverMarked files ∨ files.protectedState = none ∧
      files.protectedMarker = none ∧
      (files.publicMarker = none ∨ files.publicMarker = some .ofPublic) := by
    rcases h with h | (h | ⟨-, h⟩) | ⟨before, h⟩
    · exact .inr ⟨h.protectedState, h.protectedMarker, .inl h.publicMarker⟩
    · exact .inl (hprotected h)
    · rcases h.publicMarker with hmarker | hmarker | hmarker
      · exact .inr ⟨h.protectedState, h.protectedMarker, .inl hmarker⟩
      · exact .inr ⟨h.protectedState, h.protectedMarker, .inr hmarker⟩
      · exact .inl ⟨.inl h.protectedMarker, .inl hmarker⟩
    · exact .inl (hprotected h)
  rcases hcases with h | h
  · rcases h.2 with hmarker | hmarker
    all_goals
      rw [hmarker]
      exact ⟨_, rfl, h⟩
  · rcases h.2.2 with hmarker | hmarker
    all_goals
      rw [hmarker]
      exact ⟨_, rfl, h⟩

/-- Up to the write of the protected file: nothing of it, or the new ledger, is in the files. -/
theorem cutover_spec (hauthority : self.protectedAuthority.isSome)
    (hstore : IsLedger store) (witness : Option PublicScheduleAuthorityWitness) :
    Spec (Beside legacy (Witnesses witness))
      (if PublicScheduleAuthorityWitness.requiresProtected witness then pure ⟨⟩
      else do
        writePublic store
        ensureInitializationMarkerAt .ofPublic self.initializedPath
          "loop schedule protected-authority cutover marker" .ofCutover true)
      (Beside legacy (self.Located store))
      (fun _ => Beside legacy CutoverMarked) fails := by
  have hlocated {s : ScheduleFiles} (h : BeforeCutover store s) : self.Located store s :=
    .inr ⟨hauthority, h⟩
  unfold Witnesses
  split_ifs with hrequires
  · exact .pure fun s hs => hs
  · -- the new ledger is put in the public file first
    have hbefore (s : ScheduleFiles) (h : s.protectedState = none ∧ s.protectedMarker = none ∧
        (s.publicMarker = none ∨ s.publicMarker = some .ofPublic)) :
        BeforeCutover store { s with publicState := some store } :=
      ⟨hstore.holdsIn, h.2.2.imp_right .inl, h.1, h.2.1⟩
    refine .bind (fun _ => Beside legacy (BeforeCutover store))
      (Spec.change (fun s hs => ⟨hs.1, hlocated (hbefore s hs.2)⟩)
        fun s hs => ⟨hs.1, hbefore s hs.2⟩) fun _ => ?_
    have hwritten (s : ScheduleFiles) (hs : Beside legacy (BeforeCutover store) s) :
        BeforeCutover store (MarkerFile.write .ofCutover s .ofPublic) :=
      ⟨hs.2.holds, .inr (.inr rfl), hs.2.protectedState, hs.2.protectedMarker⟩
    exact ensureInitializationMarkerAt_spec (fun _ _ => .inl rfl)
      (fun s hs hread => ⟨hs.1, .inl hs.2.protectedMarker, .inl hread⟩)
      (fun s hs => ⟨hs.1, hlocated (hwritten s hs)⟩)
      fun s hs => ⟨hs.1, .inl hs.2.protectedMarker, .inl rfl⟩

/-- **A write.** Every state it goes through holds the ledger that is written. -/
theorem writeDurableSchedule_spec (hstore : IsLedger store) :
    Spec (Beside legacy (self.Ready store))
      (self.writeDurableSchedule store) (Beside legacy (self.Located store))
      (fun _ => Beside legacy (self.Placed store)) fails := by
  unfold writeDurableSchedule
  split
  next hauthority =>
    have hwritten (s : ScheduleFiles) (hs : Beside legacy (self.Ready store) s) :
        s.legacy = legacy ∧ self.Placed store { s with publicState := some store } := by
      obtain ⟨hlegacy, hready⟩ := hs
      refine ⟨hlegacy, ?_⟩
      unfold Ready Located Placed at hready
      unfold Placed
      rw [hauthority] at hready ⊢
      refine ⟨hstore.holdsIn, ?_⟩
      rcases hready with h | (h | ⟨hsome, -⟩) | ⟨before, h⟩
      · exact .inl h.publicMarker
      · exact h.publicMarker
      · cases hsome
      · exact h.publicMarker
    exact .change (fun s hs => ⟨(hwritten s hs).1, .inl (hwritten s hs).2⟩) hwritten
  next authority hauthority =>
    have hsome : self.protectedAuthority.isSome := by rw [hauthority]; rfl
    have hplaced {s : ScheduleFiles} (h : InProtected store s) : self.Placed store s := by
      unfold Placed
      rw [hauthority]
      exact h
    refine .bind (fun witness => Beside legacy (Witnesses witness))
      (Spec.look_ok fun s hs => ?_) fun witness => ?_
    · obtain ⟨witness, hwitness, hsays⟩ := hs.2.exists_witness hsome
      exact ⟨witness, hwitness, hs.1, hsays⟩
    refine .bind _ (cutover_spec hsome hstore witness) fun _ => ?_
    -- the commit point, from which on the ledger is in the protected file
    refine .bind (fun _ => Beside legacy (InProtected store))
      (Spec.change (fun s hs => ⟨hs.1, .inl (hplaced ⟨hstore.holdsIn, hs.2.1, hs.2.2⟩)⟩)
        fun s hs => ⟨hs.1, hstore.holdsIn, hs.2.1, hs.2.2⟩) fun _ => ?_
    exact (InProtected.replicate authority _ _ _).conseq (fun _ hs => hs)
      (fun _ hs => ⟨hs.1, .inl (hplaced hs.2)⟩) (fun _ _ hs => ⟨hs.1, hplaced hs.2⟩)
      fun _ _ hs => hs

/-- A ledger that is held is placed where it is not. -/
theorem writeIfNeeded_spec :
    Spec (Beside legacy (self.Located store)) (self.writeIfNeeded store)
      (Beside legacy (self.Located store))
      (fun _ => Beside legacy (self.Placed store)) fails := by
  refine .bind
    (fun needsState s => (s.legacy = legacy ∧ self.Located store s) ∧
      self.protectedAuthorityNeedsState s = needsState)
    (Spec.look_ok fun s hs => ⟨_, rfl, hs, rfl⟩) fun needsState => ?_
  split_ifs with hneeds
  · have hwrite : Spec
        (fun s => IsLedger store ∧ s.legacy = legacy ∧ self.Ready store s)
        (self.writeDurableSchedule store) (Beside legacy (self.Located store))
        (fun _ => Beside legacy (self.Placed store)) fails :=
      Spec.of_and writeDurableSchedule_spec
    exact hwrite.conseq (fun s hs => ⟨hs.1.2.isLedger, hs.1.1, .inr (.inl hs.1.2)⟩)
      (fun _ hs => hs) (fun _ _ hs => hs) fun _ _ hs => hs
  · refine .pure fun s ⟨⟨hlegacy, hlocated⟩, hstate⟩ => ⟨hlegacy, ?_⟩
    rcases hlocated with h | ⟨hsome, h⟩
    · exact h
    · -- before the cutover the protected file is missing
      refine absurd ?_ hneeds
      rw [← hstate, protectedAuthorityNeedsState, hsome, h.protectedState]
      rfl

end SchedulePersistence

end Jig.Loops

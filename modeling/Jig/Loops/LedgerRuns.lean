import Jig.Loops.LedgerSteps

/-!
# The ledger never regresses

The operations on the ledger, the migration of a legacy file among them, keep `HoldsLedger`: the
files hold one ledger, and a legacy file that is no marker holds the same one. From it follows what
a run of operations and crashes leaves (`ledger_never_regresses`): the files always read as the
ledger that results when the completed operations, and some of those that crashed, are applied one
after the other.
-/

namespace Jig.Loops

open Lib
open Lib.Durable (Spec)

/-! ### The legacy file -/

def IsMarker (file : Option ScheduleFile) : Prop :=
  ∃ found, file = some found ∧ found.migratedTo = some scheduleStatePath ∧
    found.occurrences = ∅ ∧ ∃ store, migrateScheduleSchema found = .ok store

/-- The legacy file does not speak against the ledger. -/
def LegacyFits (file : Option ScheduleFile) (store : ScheduleFile) : Prop :=
  file = none ∨ IsMarker file ∨ HoldsIn file store

theorem isMarker_legacyMarker : IsMarker (some SchedulePersistence.legacyMarker) :=
  ⟨_, rfl, rfl, rfl, _, rfl⟩

variable {self : SchedulePersistence} {store found : ScheduleFile}

theorem legacyIsMigrationMarker_of_marker (path : String)
    (htarget : found.migratedTo = some scheduleStatePath) (hempty : found.occurrences = ∅)
    (hstore : migrateScheduleSchema found = .ok store) :
    legacyIsMigrationMarker found path = .ok (true, SchedulePersistence.legacyMarker) := by
  have hmarker : store = SchedulePersistence.legacyMarker := by
    rw [migrateScheduleSchema_eq hstore, htarget, hempty]
    rfl
  unfold legacyIsMigrationMarker
  rw [htarget]
  dsimp only
  rw [if_neg (not_not.mpr rfl), hstore, hmarker]
  rfl

theorem legacyIsMigrationMarker_of_ledger (path : String) (hmigrated : found.migratedTo = none) :
    legacyIsMigrationMarker found path = .ok (false, found) := by
  unfold legacyIsMigrationMarker
  rw [hmigrated]

variable {files : ScheduleFiles}

namespace SchedulePersistence

variable {untouched : Prop} {legacy : Option ScheduleFile} {fails : String → ScheduleFiles → Prop}

/-! ### The invariant -/

/-- **The files hold a ledger**: in a durable file, with a legacy file that does not speak against
it, or in the legacy file alone, or it is the empty one of a repository without any. The last two
are only possible while `untouched` holds. -/
def HoldsLedger (self : SchedulePersistence) (untouched : Prop) (store : ScheduleFile)
    (files : ScheduleFiles) : Prop :=
  self.Located store files ∧ LegacyFits files.legacy store ∨
    untouched ∧ NoDurable files ∧
      (files.legacy = none ∧ store = .empty ∨ HoldsIn files.legacy store)

/-- The ledger is published and the legacy file is a marker. -/
def Published (self : SchedulePersistence) (store : ScheduleFile) (files : ScheduleFiles) : Prop :=
  self.Placed store files ∧ IsMarker files.legacy

theorem Published.holdsLedger (h : self.Published store files) :
    self.HoldsLedger untouched store files :=
  .inl ⟨.inl h.1, .inr (.inl h.2)⟩

/-- What the migration of the legacy file leaves. -/
def Migrated (self : SchedulePersistence) (untouched : Prop) (store : ScheduleFile)
    (files : ScheduleFiles) : Prop :=
  self.Published store files ∨
    untouched ∧ NoDurable files ∧ files.legacy = none ∧ store = .empty

theorem Migrated.holdsLedger (h : self.Migrated untouched store files) :
    self.HoldsLedger untouched store files := by
  rcases h with h | ⟨huntouched, hnone, hlegacy, hempty⟩
  · exact h.holdsLedger
  · exact .inr ⟨huntouched, hnone, .inl ⟨hlegacy, hempty⟩⟩

/-- Files that hold a ledger read as it. -/
theorem HoldsLedger.readOnly (h : self.HoldsLedger untouched store files) :
    self.readOnly files = .ok store := by
  have hlegacyRead : readExpectedSchedule files.legacy self.legacyPath files.legacy.isSome
      "Legacy loop schedule state disappeared before it could be read" = .ok files.legacy := by
    unfold readExpectedSchedule
    rw [if_neg]
    cases files.legacy <;> simp
  unfold SchedulePersistence.readOnly
  rcases h with ⟨hlocated, hfits⟩ | ⟨-, hnone, hlegacy⟩
  · rw [readDurable_of_located _ hlocated, hlegacyRead]
    dsimp only [bind, Except.bind]
    rcases hfits with hlegacy | ⟨found, hfound, htarget, hempty, migrated, hmigrated⟩ |
      ⟨found, hfound, htarget, hmigrated⟩
    · rw [hlegacy]
      rfl
    · rw [hfound, resolveReadOnly,
        legacyIsMigrationMarker_of_marker _ htarget hempty hmigrated]
      rfl
    · rw [hfound, resolveReadOnly, legacyIsMigrationMarker_of_ledger _ htarget]
      dsimp only [bind, Except.bind]
      rw [if_neg Bool.false_ne_true, hmigrated]
      exact if_neg (not_not.mpr rfl)
  · rw [durableStateExpected_of_noDurable hnone, readDurable_of_noDurable hnone, hlegacyRead]
    dsimp only [bind, Except.bind]
    rcases hlegacy with ⟨hlegacy, rfl⟩ | ⟨found, hfound, htarget, hmigrated⟩
    · rw [hlegacy]
      rfl
    · rw [hfound, resolveReadOnly, legacyIsMigrationMarker_of_ledger _ htarget]
      exact hmigrated

/-! ### Programs -/

theorem writeLegacyMarker_spec (hfits : LegacyFits legacy store) :
    Spec (Beside legacy (self.Placed store)) self.writeLegacyMarker
      (self.HoldsLedger untouched store) (fun _ => self.Published store) fails := by
  have hwritten (s : ScheduleFiles) (h : self.Placed store s) :
      self.Published store { s with legacy := some legacyMarker } :=
    ⟨h.withLegacy _, isMarker_legacyMarker⟩
  -- the marker is written unless it is there
  refine .bind
    (fun written s => self.Placed store s ∧ (written = true → IsMarker s.legacy))
    (Spec.look_ok fun s ⟨hlegacy, hplaced⟩ => ?_) fun written => ?_
  · rw [hlegacy]
    rcases hfits with rfl | hmarker | ⟨found, rfl, htarget, hmigrated⟩
    · exact ⟨false, rfl, hplaced, fun h => by cases h⟩
    · obtain ⟨found, rfl, htarget, hempty, migrated, hmigrated⟩ := hmarker
      refine ⟨true, ?_, hplaced, fun _ => ⟨found, rfl, htarget, hempty, migrated, hmigrated⟩⟩
      dsimp only
      rw [legacyIsMigrationMarker_of_marker _ htarget hempty hmigrated]
      simp [bind, Except.bind]
    · refine ⟨false, ?_, hplaced, fun h => by cases h⟩
      dsimp only
      rw [legacyIsMigrationMarker_of_ledger _ htarget]
      rfl
  · split_ifs with h
    · exact .pure fun s hs => ⟨hs.1, hs.2 h⟩
    · exact .change (fun s hs => (hwritten s hs.1).holdsLedger)
        fun s hs => hwritten s hs.1

/-- The markers are written below the ledger that they announce. -/
theorem markers_spec (hfits : LegacyFits legacy store) :
    Spec (Beside legacy (self.Placed store))
      self.ensureInitializationMarkers (self.HoldsLedger untouched store)
      (fun _ => Beside legacy (self.Placed store)) fails :=
  ensureInitializationMarkers_spec.crash_mono fun _ hs => .inl ⟨.inl hs.2, hs.1 ▸ hfits⟩

/-- The common end of every way to publish a ledger. -/
theorem publish_spec (hfits : LegacyFits legacy store) :
    Spec (Beside legacy (self.Placed store))
      (do
        self.ensureInitializationMarkers
        self.writeLegacyMarker)
      (self.HoldsLedger untouched store) (fun _ => self.Published store) fails :=
  Spec.bind _ (markers_spec hfits) fun _ => writeLegacyMarker_spec hfits

/-- Writes of a ledger that the legacy file does not speak against. -/
theorem write_spec (hstore : IsLedger store) (hfits : LegacyFits legacy store) :
    Spec (Beside legacy (self.Ready store))
      (self.writeDurableSchedule store) (self.HoldsLedger untouched store)
      (fun _ => Beside legacy (self.Placed store)) fails :=
  (writeDurableSchedule_spec hstore).crash_mono fun _ hs => .inl ⟨hs.2, hs.1 ▸ hfits⟩

theorem place_spec (hfits : LegacyFits legacy store) :
    Spec (Beside legacy (self.Located store)) (self.writeIfNeeded store)
      (self.HoldsLedger untouched store)
      (fun _ => Beside legacy (self.Placed store)) fails :=
  writeIfNeeded_spec.crash_mono fun _ hs => .inl ⟨hs.2, hs.1 ▸ hfits⟩

/-- The ledger is read under the legacy file that there is. -/
theorem readDurable_spec (required : ScheduleFiles → Bool)
    (hrequired : ∀ s, required s = true → self.durableStateExpected s = true) :
    Spec (Beside legacy (self.HoldsLedger untouched store))
      (Durable.look fun s => self.readDurable (required s) s) (self.HoldsLedger untouched store)
      (fun durable s =>
        durable = some store ∧ LegacyFits legacy store ∧ s.legacy = legacy ∧
          self.Located store s ∨
        durable = none ∧ untouched ∧ NoDurable s ∧ s.legacy = legacy ∧
          (legacy = none ∧ store = .empty ∨ HoldsIn legacy store)) fails := by
  refine .look_ok fun s ⟨hlegacy, hs⟩ => ?_
  rcases hs with ⟨hlocated, hfits⟩ | ⟨huntouched, hnone, hheld⟩
  · exact ⟨_, readDurable_of_located _ hlocated, .inl ⟨rfl, hlegacy ▸ hfits, hlegacy, hlocated⟩⟩
  · have hfalse : required s = false := by
      by_contra h
      have := hrequired s (Bool.not_eq_false _ ▸ h)
      rw [durableStateExpected_of_noDurable hnone] at this
      cases this
    refine ⟨none, ?_, .inr ⟨rfl, huntouched, hnone, hlegacy, hlegacy ▸ hheld⟩⟩
    rw [hfalse]
    exact readDurable_of_noDurable hnone

theorem publishWithoutLegacy_spec :
    Spec (Beside none (self.HoldsLedger untouched store))
      self.publishWithoutLegacy (self.HoldsLedger untouched store)
      (fun _ => self.Migrated untouched store) fails := by
  refine .bind _ (readDurable_spec (fun _ => false) fun _ h => by cases h)
    fun durable => ?_
  refine .or (Spec.of_and fun hdurable => ?_)
    (Spec.of_and fun hdurable => ?_)
  · subst hdurable
    refine .of_and fun hfits => ?_
    refine .bind _ (place_spec hfits) fun _ => ?_
    exact (publish_spec hfits).post_mono fun _ _ hs => .inl hs
  · subst hdurable
    refine .pure fun s ⟨huntouched, hnone, hlegacy, hheld⟩ => ?_
    rcases hheld with ⟨-, hempty⟩ | ⟨found, hfound, -⟩
    · exact .inr ⟨huntouched, hnone, hlegacy, hempty⟩
    · cases hfound

theorem publishWithMarker_spec {markerSchema : Nat} (hmarker : IsMarker legacy) :
    Spec (Beside legacy (self.HoldsLedger untouched store))
      (self.publishWithMarker markerSchema legacyMarker) (self.HoldsLedger untouched store)
      (fun _ => self.Migrated untouched store) fails := by
  refine .bind _ (readDurable_spec self.durableStateExpected fun _ h => h)
    fun durable => ?_
  refine .or (Spec.of_and fun hdurable => ?_)
    (Spec.of_and fun hdurable => ?_)
  · subst hdurable
    refine .of_and fun hfits => ?_
    refine .bind _ (place_spec hfits) fun _ => ?_
    refine .bind _ (markers_spec hfits) fun _ => ?_
    have hwritten (s : ScheduleFiles) (hs : Beside legacy (self.Placed store) s) :
        self.Published store { s with legacy := some legacyMarker } :=
      ⟨hs.2.withLegacy _, isMarker_legacyMarker⟩
    split_ifs with h
    · exact .change (fun s hs => (hwritten s hs).holdsLedger)
        fun s hs => .inl (hwritten s hs)
    · exact .pure fun s hs => .inl ⟨hs.2, hs.1 ▸ hmarker⟩
  · -- a marker is only written beside a durable ledger
    refine .of_false fun s ⟨_, _, _, hheld⟩ => ?_
    obtain ⟨found, hfound, htarget, -⟩ := hmarker
    rcases hheld with ⟨hnone, -⟩ | ⟨found', hfound', htarget', -⟩
    · rw [hfound] at hnone
      cases hnone
    · rw [hfound] at hfound'
      cases hfound'
      rw [htarget] at htarget'
      cases htarget'

theorem migrateLegacy_spec (htarget : found.migratedTo = none)
    (hmigrated : migrateScheduleSchema found = .ok store) :
    Spec (Beside (some found) (self.HoldsLedger untouched store))
      (self.migrateLegacy found) (self.HoldsLedger untouched store)
      (fun _ => self.Migrated untouched store) fails := by
  have hheld : HoldsIn (some found) store := ⟨found, rfl, htarget, hmigrated⟩
  have hfits : LegacyFits (some found) store := .inr (.inr hheld)
  refine .look_then store (fun s hs => ⟨hmigrated, hs⟩) ?_
  refine .bind _ (readDurable_spec self.durableStateExpected fun _ h => h)
    fun durable => ?_
  refine .bind (fun _ => Beside (some found) (self.Placed store)) ?_
    fun _ => (publish_spec hfits).post_mono fun _ _ hs => .inl hs
  refine .or (Spec.of_and fun hdurable => ?_)
    (Spec.of_and fun hdurable => ?_)
  · subst hdurable
    refine .of_and fun _ => ?_
    dsimp only
    rw [if_neg (not_not.mpr rfl)]
    exact place_spec hfits
  · subst hdurable
    exact (write_spec hheld.isLedger hfits).pre_mono fun s hs => ⟨hs.2.2.1, .inl hs.2.1⟩

/-- **The legacy migration** keeps the ledger, whatever the legacy file is. -/
theorem ensureLegacyMigratedLocked_spec :
    Spec (self.HoldsLedger untouched store) self.ensureLegacyMigratedLocked
      (self.HoldsLedger untouched store) (fun _ => self.Migrated untouched store) fails := by
  refine .bind
    (fun found s => s.legacy = found ∧ self.HoldsLedger untouched store s)
    (Spec.look_ok fun s hs => ⟨s.legacy, ?_, rfl, hs⟩) fun found => ?_
  · unfold readExpectedSchedule
    rw [if_neg]
    cases s.legacy <;> simp
  cases found with
  | none => exact publishWithoutLegacy_spec
  | some found =>
      -- what the files hold says what the legacy file is
      have hcases (s : ScheduleFiles)
          (hs : s.legacy = some found ∧ self.HoldsLedger untouched store s) :
          IsMarker (some found) ∨ HoldsIn (some found) store := by
        obtain ⟨hlegacy, ⟨-, hnone | hfits⟩ | ⟨-, -, ⟨hnone, -⟩ | hheld⟩⟩ := hs
        · rw [hlegacy] at hnone
          cases hnone
        · exact hlegacy ▸ hfits
        · rw [hlegacy] at hnone
          cases hnone
        · exact .inr (hlegacy ▸ hheld)
      refine (Spec.of_and fun hfound => ?_).pre_mono fun s hs => ⟨hcases s hs, hs⟩
      rcases hfound with hmarker | hheld
      · obtain ⟨_, heq, htarget, hempty, migrated, hmigrated⟩ := id hmarker
        cases heq
        exact .look_then (true, legacyMarker) (fun s hs =>
          ⟨legacyIsMigrationMarker_of_marker _ htarget hempty hmigrated, hs⟩)
          (publishWithMarker_spec hmarker)
      · obtain ⟨_, heq, htarget, hmigrated⟩ := hheld
        cases heq
        exact .look_then (false, found) (fun s hs =>
          ⟨legacyIsMigrationMarker_of_ledger _ htarget, hs⟩) (migrateLegacy_spec htarget hmigrated)

/-- The end of `openLedger`. -/
theorem finishOpen_spec (hfits : LegacyFits legacy store) :
    Spec (Beside legacy (self.Placed store))
      (do
        self.ensureInitializationMarkers
        self.writeLegacyMarker
        pure store)
      (self.HoldsLedger untouched store) (fun found s => found = store ∧ self.Published store s)
      fails :=
  Spec.bind _ (markers_spec hfits) fun _ =>
    Spec.bind _ (writeLegacyMarker_spec hfits) fun _ =>
      Spec.pure fun _ hs => ⟨rfl, hs⟩

/-- The ledger is opened for an action: it is published by then. -/
theorem openLedger_spec :
    Spec (self.Migrated untouched store) self.openLedger
      (self.HoldsLedger untouched store)
      (fun found s => found = store ∧ self.Published store s) fails := by
  refine .or ?_ ?_
  · -- nothing is left to write
    refine .look_then true (fun s hs =>
      ⟨congrArg _ (durableStateExpected_of_located (.inl hs.1)), hs⟩) ?_
    refine .look_then (some store) (fun s hs =>
      ⟨readDurable_of_located _ (.inl hs.1), hs⟩) ?_
    refine .look_then false (fun s hs =>
      ⟨congrArg _ (needsState_of_placed hs.1), hs⟩) ?_
    refine .bind
      (fun _ s => ∃ legacy, IsMarker legacy ∧ s.legacy = legacy ∧ self.Placed store s)
      (Spec.pure fun s hs => ⟨s.legacy, hs.2, rfl, hs.1⟩) fun _ => ?_
    exact .of_exists fun legacy => Spec.of_and fun hmarker =>
      finishOpen_spec (.inr (.inl hmarker))
  · -- the empty ledger of a repository without one is published
    refine .of_and fun huntouched => ?_
    refine .look_then false (fun s hs =>
      ⟨congrArg _ (durableStateExpected_of_noDurable hs.1), hs⟩) ?_
    refine .bind
      (fun durable s => (durable = none ∧ store = .empty) ∧ NoDurable s ∧ s.legacy = none)
      (Spec.look_ok fun s hs =>
        ⟨_, readDurable_of_noDurable hs.1, ⟨rfl, hs.2.2⟩, hs.1, hs.2.1⟩) fun durable => ?_
    refine .of_and fun ⟨hdurable, hempty⟩ => ?_
    subst hdurable hempty
    refine .bind (fun _ s => NoDurable s ∧ s.legacy = none)
      (Spec.look_ok fun s hs => ⟨_, rfl, hs⟩) fun needs => ?_
    refine .bind (fun _ => Beside none (self.Placed .empty)) ?_
      fun _ => finishOpen_spec (.inl rfl)
    refine .bind (fun _ s => NoDurable s ∧ s.legacy = none)
      (Spec.look_ok fun s hs => ⟨_, isLedger_empty.validate _, hs⟩) fun _ => ?_
    exact (write_spec isLedger_empty (.inl rfl)).pre_mono fun s hs => ⟨hs.2, .inl hs.1⟩

end SchedulePersistence

/-! ### Operations -/

/-- What an operation computes from the ledger: its result and the ledger it leaves. -/
def LedgerOperation.apply {α : Type} (self : SchedulePersistence) (store : ScheduleFile) :
    LedgerOperation α → Except String (α × ScheduleFile)
  | withLocked action => do
      let (result, store) ← action store
      validateDurableSchedule store self.path
      .ok (result, store)
  | readLocked action => do
      let result ← action store
      .ok (result, store)

def LedgerOperation.writes {α : Type} : LedgerOperation α → Bool
  | withLocked _ => true
  | readLocked _ => false

namespace SchedulePersistence

variable {untouched : Prop} {α : Type}

theorem HoldsLedger.mono {weaker : Prop} (h : self.HoldsLedger untouched store files)
    (hweaker : untouched → weaker) :
    self.HoldsLedger weaker store files :=
  h.imp_right fun h => ⟨hweaker h.1, h.2⟩

theorem withLocked_spec (action : ScheduleFile → Except String (α × ScheduleFile)) :
    Spec (self.HoldsLedger untouched store) (self.withLocked action)
      (fun s => self.HoldsLedger untouched store s ∨
        ∃ result store', (LedgerOperation.withLocked action).apply self store =
          .ok (result, store') ∧ self.HoldsLedger False store' s)
      (fun result s => ∃ store', (LedgerOperation.withLocked action).apply self store =
        .ok (result, store') ∧ self.HoldsLedger False store' s)
      (fun e s => (LedgerOperation.withLocked action).apply self store = .error e ∧
        self.HoldsLedger untouched store s) := by
  refine .bind _ (ensureLegacyMigratedLocked_spec.crash_mono fun _ => .inl)
    fun _ => ?_
  refine .bind _ (openLedger_spec.crash_mono fun _ => .inl) fun found => ?_
  refine .of_and fun hfound => ?_
  subst hfound
  refine .bind
    (fun pair s => action found = .ok pair ∧ self.Published found s)
    (Spec.look (fun s pair hs hpair => ⟨hpair, hs⟩) fun s e hs he => ⟨?_, hs.holdsLedger⟩)
    fun pair => ?_
  · show (action found >>= _) = _
    rw [he]
    rfl
  refine .of_and fun hpair => ?_
  have happly : (LedgerOperation.withLocked action).apply self found =
      validateDurableSchedule pair.2 self.path >>= fun _ => .ok pair := by
    show (action found >>= _) = _
    rw [hpair]
    rfl
  refine .bind
    (fun _ s => validateDurableSchedule pair.2 self.path = .ok ⟨⟩ ∧ ∃ legacy, IsMarker legacy ∧
      s.legacy = legacy ∧ self.Ready pair.2 s)
    (Spec.look
      (fun s _ hs hvalid => ⟨hvalid, s.legacy, hs.2, rfl, .inr (.inr ⟨found, hs.1⟩)⟩)
      fun s e hs he => ⟨?_, hs.holdsLedger⟩) fun _ => ?_
  · rw [happly, he]
    rfl
  -- from here on every state holds the new ledger
  refine .of_and fun hvalid => Spec.of_exists fun legacy =>
    Spec.of_and fun hmarker => ?_
  have hledger := isLedger_of_validate hvalid
  rw [hvalid] at happly
  refine .bind (fun _ => Beside legacy (self.Placed pair.2)) ?_
    fun _ => Spec.pure fun s hs =>
      ⟨pair.2, happly, .inl ⟨.inl hs.2, .inr (.inl (hs.1 ▸ hmarker))⟩⟩
  exact (write_spec hledger (.inr (.inl hmarker))).crash_mono fun _ hs =>
    .inr ⟨pair.1, pair.2, happly, hs⟩

theorem readLocked_spec (action : ScheduleFile → Except String α) :
    Spec (self.HoldsLedger untouched store) (self.readLocked action)
      (self.HoldsLedger untouched store)
      (fun result s => (LedgerOperation.readLocked action).apply self store =
        .ok (result, store) ∧ self.HoldsLedger untouched store s)
      (fun e s => (LedgerOperation.readLocked action).apply self store = .error e ∧
        self.HoldsLedger untouched store s) := by
  have happly (result : α) (h : action store = .ok result) :
      (LedgerOperation.readLocked action).apply self store = .ok (result, store) := by
    show (action store >>= _) = _
    rw [h]
    rfl
  have hfails (e : String) (h : action store = .error e) :
      (LedgerOperation.readLocked action).apply self store = .error e := by
    show (action store >>= _) = _
    rw [h]
    rfl
  refine .bind _ ensureLegacyMigratedLocked_spec fun _ => ?_
  refine .bind
    (fun durable s =>
      durable = some store ∧ self.Published store s ∨
      durable = none ∧ store = .empty ∧ self.HoldsLedger untouched store s)
    (Spec.look_ok fun s hs => ?_) fun durable => ?_
  · rcases id hs with h | ⟨huntouched, hnone, hlegacy, hempty⟩
    · exact ⟨_, readDurable_of_located _ (.inl h.1), .inl ⟨rfl, h⟩⟩
    · refine ⟨none, ?_, .inr ⟨rfl, hempty, hs.holdsLedger⟩⟩
      rw [durableStateExpected_of_noDurable hnone]
      exact readDurable_of_noDurable hnone
  refine .or (Spec.of_and fun hdurable => ?_)
    (Spec.of_and fun hdurable => ?_)
  · subst hdurable
    have hlegacy : ∀ s, self.Published store s →
        ∃ legacy, IsMarker legacy ∧ s.legacy = legacy ∧ self.Located store s :=
      fun s hs => ⟨s.legacy, hs.2, rfl, .inl hs.1⟩
    refine .pre_mono (Spec.of_exists fun legacy => Spec.of_and
      fun hmarker => ?_) hlegacy
    have hfits : LegacyFits legacy store := .inr (.inl hmarker)
    refine .bind _ (place_spec hfits) fun _ => ?_
    refine .bind _ (markers_spec hfits) fun _ => ?_
    refine .bind
      (fun result s => action store = .ok result ∧ s.legacy = legacy ∧ self.Placed store s)
      (Spec.look (fun s result hs h => ⟨h, hs⟩) fun s e hs h =>
        ⟨hfails e h, .inl ⟨.inl hs.2, hs.1 ▸ hfits⟩⟩) fun result => ?_
    refine .of_and fun hresult => ?_
    exact .bind _ (writeLegacyMarker_spec hfits) fun _ =>
      Spec.pure fun s hs => ⟨happly result hresult, hs.holdsLedger⟩
  · -- there is no ledger yet: the action reads the empty one, and nothing is written
    subst hdurable
    refine .of_and fun hempty => ?_
    subst hempty
    exact .look (fun s result hs h => ⟨happly result h, hs⟩)
      fun s e hs h => ⟨hfails e h, hs⟩

/-- **Operations.** An operation has the result that its action computes from the ledger, and it
leaves the ledger that the action computes; where the action fails it leaves the one there was. A
crash leaves one of the two. -/
theorem program_spec (operation : LedgerOperation α) :
    Spec (self.HoldsLedger untouched store) (operation.program self)
      (fun s => self.HoldsLedger untouched store s ∨
        ∃ result store', operation.apply self store = .ok (result, store') ∧
          self.HoldsLedger False store' s)
      (fun result s => ∃ store', operation.apply self store = .ok (result, store') ∧
        self.HoldsLedger (untouched ∧ store' = store ∧ operation.writes = false) store' s)
      (fun e s => operation.apply self store = .error e ∧
        self.HoldsLedger untouched store s) := by
  cases operation with
  | withLocked action =>
      exact (withLocked_spec action).conseq (fun _ hs => hs) (fun _ hs => hs)
        (fun _ _ ⟨store', happly, hs⟩ => ⟨store', happly, hs.mono False.elim⟩) fun _ _ hs => hs
  | readLocked action =>
      exact (readLocked_spec action).conseq (fun _ hs => hs) (fun _ hs => .inl hs)
        (fun _ _ hs => ⟨store, hs.1, hs.2.mono fun h => ⟨h, rfl, rfl⟩⟩) fun _ _ hs => hs

end SchedulePersistence

/-! ### Runs -/

inductive LedgerOutcome (α : Type) where
  | completed (result : α)
  | failed (message : String)
  | crashed

structure LedgerEvent (α : Type) where
  operation : LedgerOperation α
  outcome : LedgerOutcome α

def LedgerEvent.IsCompletedWrite {α : Type} (event : LedgerEvent α) : Prop :=
  event.operation.writes = true ∧ ∃ result, event.outcome = .completed result

inductive LedgerRun {α : Type} (self : SchedulePersistence) (start : ScheduleFiles) :
    List (LedgerEvent α) → ScheduleFiles → Prop
  | start : LedgerRun self start [] start
  | completed {events : List (LedgerEvent α)} {files : ScheduleFiles}
      (hrun : LedgerRun self start events files) (operation : LedgerOperation α) {result : α}
      (hresult : (operation.program self files).result = .ok result) :
      LedgerRun self start (events ++ [⟨operation, .completed result⟩])
        (operation.program self files).final
  | failed {events : List (LedgerEvent α)} {files : ScheduleFiles}
      (hrun : LedgerRun self start events files) (operation : LedgerOperation α) {message : String}
      (hresult : (operation.program self files).result = .error message) :
      LedgerRun self start (events ++ [⟨operation, .failed message⟩])
        (operation.program self files).final
  | crashed {events : List (LedgerEvent α)} {files files' : ScheduleFiles}
      (hrun : LedgerRun self start events files) (operation : LedgerOperation α)
      (hcrash : files' ∈ (operation.program self).crashStates files) :
      LedgerRun self start (events ++ [⟨operation, .crashed⟩]) files'

/-- **What the ledger should be after a run.** Each completed operation was applied to the ledger
there was, with the result it returned; a failed one failed on that ledger and left it; and of a
crashed one, the ledger it was writing is there or it left no trace. -/
inductive LedgerExplains {α : Type} (self : SchedulePersistence) (initial : ScheduleFile) :
    List (LedgerEvent α) → ScheduleFile → Prop
  | start : LedgerExplains self initial [] initial
  | completed {events : List (LedgerEvent α)} {store store' : ScheduleFile}
      (h : LedgerExplains self initial events store) {operation : LedgerOperation α} {result : α}
      (happly : operation.apply self store = .ok (result, store')) :
      LedgerExplains self initial (events ++ [⟨operation, .completed result⟩]) store'
  | failed {events : List (LedgerEvent α)} {store : ScheduleFile}
      (h : LedgerExplains self initial events store) {operation : LedgerOperation α}
      {message : String} (happly : operation.apply self store = .error message) :
      LedgerExplains self initial (events ++ [⟨operation, .failed message⟩]) store
  | crashedBefore {events : List (LedgerEvent α)} {store : ScheduleFile}
      (h : LedgerExplains self initial events store) (operation : LedgerOperation α) :
      LedgerExplains self initial (events ++ [⟨operation, .crashed⟩]) store
  | crashedAfter {events : List (LedgerEvent α)} {store store' : ScheduleFile}
      (h : LedgerExplains self initial events store) {operation : LedgerOperation α} {result : α}
      (happly : operation.apply self store = .ok (result, store')) :
      LedgerExplains self initial (events ++ [⟨operation, .crashed⟩]) store'

/-- The states a repository starts from, with the ledger they stand for. -/
inductive LedgerStart : ScheduleFiles → ScheduleFile → Prop
  | fresh : LedgerStart ⟨none, none, none, none, none⟩ .empty
  | legacyOnly {found store : ScheduleFile} (htarget : found.migratedTo = none)
      (hmigrated : migrateScheduleSchema found = .ok store) :
      LedgerStart ⟨some found, none, none, none, none⟩ store
  | publicOnly {found store : ScheduleFile} {legacy : Option ScheduleFile}
      {marker : Option ScheduleInitializationMarker} (htarget : found.migratedTo = none)
      (hmigrated : migrateScheduleSchema found = .ok store)
      (hlegacy : legacy = none ∨ IsMarker legacy)
      (hmarker : marker = none ∨ marker = some .ofPublic) :
      LedgerStart ⟨legacy, some found, marker, none, none⟩ store

theorem LedgerStart.holdsLedger (self : SchedulePersistence) (h : LedgerStart files store) :
    self.HoldsLedger True store files := by
  cases h with
  | fresh => exact .inr ⟨trivial, ⟨rfl, rfl, rfl, rfl⟩, .inl ⟨rfl, rfl⟩⟩
  | legacyOnly htarget hmigrated =>
      exact .inr ⟨trivial, ⟨rfl, rfl, rfl, rfl⟩, .inr ⟨_, rfl, htarget, hmigrated⟩⟩
  | @publicOnly found store legacy marker htarget hmigrated hlegacy hmarker =>
      have hheld : HoldsIn (some found) store := ⟨found, rfl, htarget, hmigrated⟩
      refine .inl ⟨?_, hlegacy.elim .inl fun h => .inr (.inl h)⟩
      cases hauthority : self.protectedAuthority with
      | none =>
          refine .inl ?_
          unfold SchedulePersistence.Placed
          rw [hauthority]
          exact ⟨hheld, hmarker⟩
      | some authority =>
          refine .inr ⟨?_, hheld, hmarker.imp_right .inl, rfl, rfl⟩
          rw [hauthority]
          rfl

/-- The ledger of a run: while there is no durable file, nothing was written. -/
theorem exists_ledger_of_run {α : Type} {start : ScheduleFiles} {initial : ScheduleFile}
    (hstart : LedgerStart start initial) {events : List (LedgerEvent α)}
    (hrun : LedgerRun self start events files) :
    ∃ store, LedgerExplains self initial events store ∧
      self.HoldsLedger (store = initial ∧ ∀ event ∈ events, ¬event.IsCompletedWrite) store files := by
  induction hrun with
  | start =>
      exact ⟨initial, .start, (hstart.holdsLedger self).mono fun _ =>
        ⟨rfl, fun _ hmem => absurd hmem List.not_mem_nil⟩⟩
  | @completed events files hrun operation result hresult ih =>
      obtain ⟨store, hexplains, hholds⟩ := ih
      obtain ⟨store', happly, hholds'⟩ :=
        (SchedulePersistence.program_spec operation).ok _ _ hholds hresult
      refine ⟨store', hexplains.completed happly, hholds'.mono ?_⟩
      rintro ⟨⟨hinitial, hevents⟩, rfl, hwrites⟩
      refine ⟨hinitial, forall_mem_concat hevents ?_⟩
      rintro ⟨hwrites', -⟩
      rw [hwrites] at hwrites'
      cases hwrites'
  | @failed events files hrun operation message hresult ih =>
      obtain ⟨store, hexplains, hholds⟩ := ih
      obtain ⟨happly, hholds'⟩ :=
        (SchedulePersistence.program_spec operation).error _ _ hholds hresult
      refine ⟨store, hexplains.failed happly, hholds'.mono fun ⟨hinitial, hevents⟩ =>
        ⟨hinitial, forall_mem_concat hevents ?_⟩⟩
      rintro ⟨-, _, hcompleted⟩
      cases hcompleted
  | @crashed events files files' hrun operation hcrash ih =>
      obtain ⟨store, hexplains, hholds⟩ := ih
      rcases (SchedulePersistence.program_spec operation).crashStates (fun _ hs => .inl hs) hholds
        hcrash with hholds' | ⟨result, store', happly, hholds'⟩
      · refine ⟨store, hexplains.crashedBefore operation, hholds'.mono fun ⟨hinitial, hevents⟩ =>
          ⟨hinitial, forall_mem_concat hevents ?_⟩⟩
        rintro ⟨-, _, hcompleted⟩
        cases hcompleted
      · exact ⟨store', hexplains.crashedAfter happly, hholds'.mono False.elim⟩

/-- **The ledger never regresses.** From a repository with a legacy ledger, a public one or none,
with protected authority or without, after any run of operations and crashes: the files read as one
ledger, which the run explains. No operation failed but where its action did; and the durable ledger
is only missing while the ledger is the initial one and no write was completed. -/
theorem ledger_never_regresses {α : Type} (self : SchedulePersistence)
    {start files : ScheduleFiles} {initial : ScheduleFile} (hstart : LedgerStart start initial)
    {events : List (LedgerEvent α)} (hrun : LedgerRun self start events files) :
    ∃ store, LedgerExplains self initial events store ∧ self.readOnly files = .ok store ∧
      (self.readDurable (self.durableStateExpected files) files = .ok (some store) ∨
        self.readDurable (self.durableStateExpected files) files = .ok none ∧ store = initial ∧
          ∀ event ∈ events, ¬event.IsCompletedWrite) := by
  obtain ⟨store, hexplains, hholds⟩ := exists_ledger_of_run hstart hrun
  refine ⟨store, hexplains, hholds.readOnly, ?_⟩
  rcases hholds with ⟨hlocated, -⟩ | ⟨huntouched, hnone, -⟩
  · exact .inl (SchedulePersistence.readDurable_of_located _ hlocated)
  · refine .inr ⟨?_, huntouched⟩
    rw [SchedulePersistence.durableStateExpected_of_noDurable hnone]
    exact SchedulePersistence.readDurable_of_noDurable hnone

/-! ### A sample -/

namespace SampleLedger

def persistence : SchedulePersistence where
  path := "/repo/.agent/runtime/loop/schedule.json"
  initializedPath := "/repo/.agent/runtime/loop/schedule.initialized"
  legacyPath := "/repo/.agent/cache/loop/schedule.json"
  protectedAuthority := some ⟨"/repo/.git/jig/loop/schedule.json",
    "/repo/.git/jig/loop/schedule.initialized"⟩

def legacy : ScheduleFile := { ScheduleFile.empty with schemaVersion := 2 }

def record : ScheduleOccurrence where
  occurrenceId := "nightly@7"
  workflowId := "nightly"
  scheduledAtMs := 7
  owner := "dispatcher"
  claimExpiresAtMs := 9
  startedAtMs := 8
  usesSharedCheckout := none
  finishedAtMs := none
  acknowledgedAtMs := none
  status := .running
  workerInvoked := false
  legacyWorkerReceiptId := none
  worktree := none
  error := none

def operation : LedgerOperation Unit :=
  .withLocked fun store => .ok (⟨⟩, store.set "nightly@7" record)

def interrupted : ScheduleFiles where
  legacy := some legacy
  publicState := some .empty
  publicMarker := some .ofCutover
  protectedState := none
  protectedMarker := none

/-- A crash between the cutover marker and the protected file, and then the operation again. -/
theorem ledger_never_regresses_after_cutover :
    ∃ files, LedgerRun persistence ⟨some legacy, none, none, none, none⟩
        [⟨operation, .crashed⟩, ⟨operation, .completed ⟨⟩⟩] files ∧
      ∃ store, LedgerExplains persistence .empty
        [⟨operation, .crashed⟩, ⟨operation, .completed ⟨⟩⟩] store ∧
        persistence.readOnly files = .ok store := by
  have hcrash : LedgerRun persistence ⟨some legacy, none, none, none, none⟩
      [⟨operation, .crashed⟩] interrupted :=
    LedgerRun.crashed .start operation (by decide +kernel)
  have hrun : LedgerRun persistence ⟨some legacy, none, none, none, none⟩
      [⟨operation, .crashed⟩, ⟨operation, .completed ⟨⟩⟩]
      (operation.program persistence interrupted).final :=
    hcrash.completed operation (by decide +kernel)
  obtain ⟨store, hexplains, hread, -⟩ :=
    ledger_never_regresses persistence (LedgerStart.legacyOnly rfl rfl) hrun
  exact ⟨_, hrun, store, hexplains, hread⟩

end SampleLedger

end Jig.Loops

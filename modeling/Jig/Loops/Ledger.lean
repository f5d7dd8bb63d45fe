import Jig.Lib.Crash
import Jig.Loops.Occurrence

/-!
# Where the schedule ledger is kept

`SchedulePersistence` of `jig-loops` (`occurrence/persistence.rs` with its submodules
`initialization`, `authority` and `directory`). The ledger moved twice: from a legacy cache file to
a public file of the checkout, and from there to a protected file in the Git metadata. Which copy
counts is derived from which files there are and from what two initialization markers say.

A file is there with a value or missing, and a missing directory is one without files. Each single
file is replaced atomically, so an operation is a `Durable` program whose effects are replacements,
and a crash leaves the files between two of them. Operations run under both schedule locks, one
after the other. The protected authority is either resolved or absent; where resolving it fails,
every operation fails before it looks at a file.
-/

namespace Jig.Loops

open Lib
open Lib.Durable (look)

deriving instance DecidableEq for ScheduleFile

/-! ### Files -/

def scheduleStatePath : String := ".agent/runtime/loop/schedule.json"

def protectedScheduleStatePath : String := "jig/loop/schedule.json"

def scheduleInitializationSchemaVersion : Nat := 1

def protectedScheduleAuthoritySchemaVersion : Nat := 2

def legacyScheduleSchemaVersion : Nat := 1

def previousScheduleSchemaVersion : Nat := 3

structure ScheduleInitializationMarker where
  schemaVersion : Nat
  statePath : String
deriving DecidableEq, Repr

namespace ScheduleInitializationMarker

def ofPublic : ScheduleInitializationMarker :=
  ⟨scheduleInitializationSchemaVersion, scheduleStatePath⟩

/-- The marker of a ledger that is about to move to the protected file. -/
def ofCutover : ScheduleInitializationMarker :=
  ⟨protectedScheduleAuthoritySchemaVersion, scheduleStatePath⟩

def ofProtected : ScheduleInitializationMarker :=
  ⟨protectedScheduleAuthoritySchemaVersion, protectedScheduleStatePath⟩

end ScheduleInitializationMarker

structure ScheduleFiles where
  legacy : Option ScheduleFile
  publicState : Option ScheduleFile
  publicMarker : Option ScheduleInitializationMarker
  protectedState : Option ScheduleFile
  protectedMarker : Option ScheduleInitializationMarker
deriving DecidableEq

/-- A program over those files. -/
abbrev Txn (α : Type) := Durable ScheduleFiles String α

inductive MarkerFile where
  | ofPublic | ofProtected
deriving DecidableEq, Repr

def MarkerFile.read (files : ScheduleFiles) : MarkerFile → Option ScheduleInitializationMarker
  | ofPublic => files.publicMarker
  | ofProtected => files.protectedMarker

def MarkerFile.write (marker : ScheduleInitializationMarker) (files : ScheduleFiles) :
    MarkerFile → ScheduleFiles
  | ofPublic => { files with publicMarker := some marker }
  | ofProtected => { files with protectedMarker := some marker }

structure ProtectedScheduleAuthority where
  path : String
  initializedPath : String
deriving DecidableEq, Repr

structure SchedulePersistence where
  path : String
  initializedPath : String
  legacyPath : String
  protectedAuthority : Option ProtectedScheduleAuthority
deriving DecidableEq, Repr

/-! ### Checks of a file -/

section Checks

variable (store : ScheduleFile)

def migrateScheduleSchema : Except String ScheduleFile :=
  if store.schemaVersion = scheduleSchemaVersion then .ok store
  else if legacyScheduleSchemaVersion ≤ store.schemaVersion ∧
      store.schemaVersion ≤ previousScheduleSchemaVersion then
    .ok { store with schemaVersion := scheduleSchemaVersion }
  else (validateSchema store).map fun _ => store

def validateDurableSchedule (path : String) : Except String Unit := do
  validateSchema store
  if store.migratedTo.isSome then
    .error ("Invalid durable loop schedule migration marker at " ++ path ++
      ": migrated_to is reserved for the legacy cache path")
  else .ok ⟨⟩

/-- `legacy_is_migration_marker`: whether the file is a marker, and the file as it was migrated. -/
def legacyIsMigrationMarker (path : String) : Except String (Bool × ScheduleFile) :=
  match store.migratedTo with
  | none => .ok (false, store)
  | some target =>
      if target ≠ scheduleStatePath then
        .error ("Invalid legacy loop schedule migration marker at " ++ path ++
          ": unexpected target " ++ target)
      else do
        let store ← migrateScheduleSchema store
        validateSchema store
        if !store.occurrences.isEmpty then
          .error ("Invalid legacy loop schedule migration marker at " ++ path ++
            ": occurrences must be empty")
        else .ok (true, store)

def readExpectedSchedule (schedule : Option ScheduleFile) (path : String) (expected : Bool)
    (missingMessage : String) : Except String (Option ScheduleFile) :=
  if expected && schedule.isNone then .error (missingMessage ++ " at " ++ path) else .ok schedule

inductive PublicScheduleAuthorityWitness where
  | ofPublic | protectedCutoverPending | ofProtected
deriving DecidableEq, Repr

/-- Whether a witness says that the protected file counts or is about to. -/
def PublicScheduleAuthorityWitness.requiresProtected :
    Option PublicScheduleAuthorityWitness → Bool
  | some protectedCutoverPending | some ofProtected => true
  | some ofPublic | none => false

end Checks

namespace SchedulePersistence

variable (self : SchedulePersistence)

/-! ### Which copy counts -/

variable (files : ScheduleFiles)

def publicAuthorityWitness : Except String (Option PublicScheduleAuthorityWitness) :=
  match files.publicMarker with
  | none => .ok none
  | some marker =>
      if marker = .ofPublic then .ok (some .ofPublic)
      else if marker = .ofCutover then .ok (some .protectedCutoverPending)
      else if marker = .ofProtected then .ok (some .ofProtected)
      else .error ("Invalid loop schedule initialization marker at " ++ self.initializedPath)

/-- `protected_marker_requires_authority`, where there is a protected authority. -/
def protectedMarkerRequiresAuthority (authority : ProtectedScheduleAuthority)
    (files : ScheduleFiles) : Except String Bool :=
  match files.protectedMarker with
  | none => .ok false
  | some marker =>
      if marker = .ofPublic then .ok false
      else if marker = .ofProtected then .ok true
      else .error ("Invalid protected loop schedule initialization marker at " ++
        authority.initializedPath)

def durableStateExpected : Bool :=
  (self.protectedAuthority.isSome &&
      (files.protectedState.isSome || files.protectedMarker.isSome)) ||
    (files.publicMarker.isSome || files.publicState.isSome)

def protectedAuthorityNeedsState : Bool :=
  self.protectedAuthority.isSome && files.protectedState.isNone

/-- `durable_read_location`: what is in the file that counts, and its path. -/
def durableReadLocation : Except String (Option ScheduleFile × String) :=
  match self.protectedAuthority with
  | none => do
      let witness ← self.publicAuthorityWitness files
      if PublicScheduleAuthorityWitness.requiresProtected witness then
        .error ("Loop schedule initialization marker requires protected Git authority, but Git " ++
          "metadata is unavailable at " ++ self.initializedPath)
      else .ok (files.publicState, self.path)
  | some authority =>
      if files.protectedState.isSome then .ok (files.protectedState, authority.path)
      else do
        if ← protectedMarkerRequiresAuthority authority files then
          .ok (files.protectedState, authority.path)
        else
          let witness ← self.publicAuthorityWitness files
          if witness = some .ofProtected then .ok (files.protectedState, authority.path)
          else .ok (files.publicState, self.path)

def readDurable (required : Bool) (files : ScheduleFiles) :
    Except String (Option ScheduleFile) := do
  let required := required || self.durableStateExpected files
  let (found, path) ← self.durableReadLocation files
  match ← readExpectedSchedule found path required "Initialized loop schedule state is missing" with
  | none => .ok none
  | some store =>
      let store ← migrateScheduleSchema store
      validateDurableSchedule store path
      .ok (some store)

/-- The failure of `ensure_legacy_migrated_locked` and `resolve_read_only` where a legacy file that
is no marker differs from the durable one. -/
def existsAtBoth : String :=
  "Loop schedule state exists at both " ++ self.path ++ " and " ++ self.legacyPath ++
    "; stop older Jig runtimes and reconcile the files before dispatching"

/-- Their failure where there is only a marker. -/
def markerWithoutState : String :=
  "Loop schedule migration marker exists without durable state at " ++ self.path

def resolveReadOnly :
    Option ScheduleFile → Option ScheduleFile → Except String ScheduleFile
  | some durable, some legacy => do
      let (isMarker, legacy) ← legacyIsMigrationMarker legacy self.legacyPath
      if isMarker then .ok durable
      else
        let legacy ← migrateScheduleSchema legacy
        if legacy ≠ durable then .error self.existsAtBoth else .ok durable
  | some durable, none => .ok durable
  | none, some legacy => do
      let (isMarker, legacy) ← legacyIsMigrationMarker legacy self.legacyPath
      if isMarker then
        match ← self.readDurable (self.durableStateExpected files) files with
        | some durable => .ok durable
        | none => .error self.markerWithoutState
      else migrateScheduleSchema legacy
  | none, none => .ok .empty

def readOnly : Except String ScheduleFile := do
  let durable ← self.readDurable (self.durableStateExpected files) files
  let legacy ← readExpectedSchedule files.legacy self.legacyPath files.legacy.isSome
    "Legacy loop schedule state disappeared before it could be read"
  self.resolveReadOnly files durable legacy

/-! ### Writing -/

variable (store : ScheduleFile)

def writeLegacy : Txn PUnit :=
  .change fun files => { files with legacy := some store }

def writePublic : Txn PUnit :=
  .change fun files => { files with publicState := some store }

def writeProtected : Txn PUnit :=
  .change fun files => { files with protectedState := some store }

def ensureInitializationMarkerAt (file : MarkerFile) (path description : String)
    (expected : ScheduleInitializationMarker) (replaceExisting : Bool) : Txn PUnit := do
  let current ← look fun files => .ok (file.read files)
  if current = some expected then pure ⟨⟩
  else if replaceExisting then Durable.change fun files => file.write expected files
  else if current.isSome && !(expected.schemaVersion = protectedScheduleAuthoritySchemaVersion &&
      current = some .ofPublic) then
    Durable.fail ("Invalid " ++ description ++ " at " ++ path)
  else Durable.change fun files => file.write expected files

/-- The marker of the protected file is the one of a protected ledger. -/
def ensureProtectedMarker (authority : ProtectedScheduleAuthority) : Txn PUnit :=
  ensureInitializationMarkerAt .ofProtected authority.initializedPath
    "protected loop schedule initialization marker" .ofProtected false

def ensureInitializationMarkers : Txn PUnit := do
  let protectedExists ← look fun files =>
    .ok (self.protectedAuthority.filter fun _ => files.protectedState.isSome)
  match protectedExists with
  | some authority => do
      ensureProtectedMarker authority
      ensureInitializationMarkerAt .ofPublic self.initializedPath
        "loop schedule initialization marker" .ofProtected true
  | none =>
      ensureInitializationMarkerAt .ofPublic self.initializedPath
        "loop schedule initialization marker" .ofPublic false

def writeDurableSchedule : Txn PUnit :=
  match self.protectedAuthority with
  | none => writePublic store
  | some authority => do
      let witness ← look self.publicAuthorityWitness
      (if PublicScheduleAuthorityWitness.requiresProtected witness then pure ⟨⟩
      else do
        writePublic store
        ensureInitializationMarkerAt .ofPublic self.initializedPath
          "loop schedule protected-authority cutover marker" .ofCutover true)
      -- the commit point; the public file is only a replica from here on
      writeProtected store
      ensureProtectedMarker authority
      writePublic store
      ensureInitializationMarkerAt .ofPublic self.initializedPath
        "loop schedule initialization marker" .ofProtected true

/-- `write_durable_schedule` where the protected file is still missing. -/
def writeIfNeeded : Txn PUnit := do
  let needsState ← look fun files => .ok (self.protectedAuthorityNeedsState files)
  if needsState then self.writeDurableSchedule store else pure ⟨⟩

def legacyMarker : ScheduleFile where
  schemaVersion := scheduleSchemaVersion
  migratedTo := some scheduleStatePath
  occurrences := ∅

def writeLegacyMarker : Txn PUnit := do
  let written ← look fun files =>
    match files.legacy with
    | none => .ok false
    | some existing => do
        let (isMarker, existing) ← legacyIsMigrationMarker existing self.legacyPath
        .ok (isMarker && existing = legacyMarker)
  if written then pure ⟨⟩ else writeLegacy legacyMarker

/-- `ensure_legacy_migrated_locked` where there is no legacy file. -/
def publishWithoutLegacy : Txn PUnit := do
  match ← look (self.readDurable false) with
  | none => pure ⟨⟩
  | some store =>
      self.writeIfNeeded store
      self.ensureInitializationMarkers
      self.writeLegacyMarker

/-- `ensure_legacy_migrated_locked` where the legacy file is a marker, here as it was migrated from
the schema `markerSchema`. -/
def publishWithMarker (markerSchema : Nat) (legacy : ScheduleFile) : Txn PUnit := do
  match ← look fun files => self.readDurable (self.durableStateExpected files) files with
  | none => Durable.fail self.markerWithoutState
  | some store =>
      self.writeIfNeeded store
      self.ensureInitializationMarkers
      if markerSchema ≠ legacy.schemaVersion then writeLegacy legacy else pure ⟨⟩

/-- `ensure_legacy_migrated_locked` where the legacy file holds a ledger. -/
def migrateLegacy (legacy : ScheduleFile) : Txn PUnit := do
  let legacy ← look fun _ => migrateScheduleSchema legacy
  let durable ← look fun files =>
    self.readDurable (self.durableStateExpected files) files
  (match durable with
  | some current =>
      if current ≠ legacy then Durable.fail self.existsAtBoth else self.writeIfNeeded current
  | none => self.writeDurableSchedule legacy)
  self.ensureInitializationMarkers
  self.writeLegacyMarker

def ensureLegacyMigratedLocked : Txn PUnit := do
  match ← look fun files => readExpectedSchedule files.legacy self.legacyPath
      files.legacy.isSome "Legacy loop schedule state disappeared before migration" with
  | none => self.publishWithoutLegacy
  | some legacy =>
      let (isMarker, migrated) ←
        look fun _ => legacyIsMigrationMarker legacy self.legacyPath
      if isMarker then self.publishWithMarker legacy.schemaVersion migrated
      else self.migrateLegacy migrated

/-! ### Operations -/

variable {α : Type}

/-- The part of `with_locked_until_with_cancellation` before the action: the ledger is read, and
published where it is not. -/
def openLedger : Txn ScheduleFile := do
  let durableRequired ← look fun files => .ok (self.durableStateExpected files)
  let durable ← look (self.readDurable durableRequired)
  let store := durable.getD .empty
  let needsState ← look fun files => .ok (self.protectedAuthorityNeedsState files)
  (if !durableRequired || needsState then do
    look fun _ => validateDurableSchedule store self.path
    self.writeDurableSchedule store
  else pure ⟨⟩)
  self.ensureInitializationMarkers
  self.writeLegacyMarker
  pure store

/-- `with_locked_until_with_cancellation`. -/
def withLocked (action : ScheduleFile → Except String (α × ScheduleFile)) : Txn α := do
  self.ensureLegacyMigratedLocked
  let store ← self.openLedger
  let (result, store) ← look fun _ => action store
  look fun _ => validateDurableSchedule store self.path
  self.writeDurableSchedule store
  pure result

def readLocked (action : ScheduleFile → Except String α) : Txn α := do
  self.ensureLegacyMigratedLocked
  match ← look fun files => self.readDurable (self.durableStateExpected files) files with
  | none => look fun _ => action .empty
  | some store =>
      self.writeIfNeeded store
      self.ensureInitializationMarkers
      let result ← look fun _ => action store
      self.writeLegacyMarker
      pure result

end SchedulePersistence

inductive LedgerOperation (α : Type) where
  | withLocked (action : ScheduleFile → Except String (α × ScheduleFile))
  | readLocked (action : ScheduleFile → Except String α)

def LedgerOperation.program {α : Type} (self : SchedulePersistence) :
    LedgerOperation α → Txn α
  | withLocked action => self.withLocked action
  | readLocked action => self.readLocked action

end Jig.Loops

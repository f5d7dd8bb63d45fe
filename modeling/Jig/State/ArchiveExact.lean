import Jig.Contract.Json
import Jig.Lib.BigEndian
import Jig.State.Archive
import Jig.State.FoldAgrees

/-!
# Archiving loses nothing

For every journal that `validate_run_stream` accepts, archiving partitions its records by run:

* `scanRunArchiveLifecycles_eq_ok`: a scan reads the records as events and validates the stream;
* `selectRuns_ok`: the selection is the set of runs that completed before the cutoff and whose lease
  is idle, and it counts their events;
* `runsArchive_exact`: the archive holds the records of those runs and the journal keeps the rest,
  both in their old order, and both are accepted again. The archive is written by another parser
  than the validation uses, which does not read arrays: with one in the journal nothing is archived.
-/

namespace Jig.State

open Contract Lib Std

/-! ## Counting events -/

variable {entries : List (String × RunLifecycleValidator)} {v : RunStreamValidator}
  {event : RunEventRecord}

section Counting

theorem observe_eventCount {v v' : RunLifecycleValidator} (h : v.observe event = .ok v') :
    v'.eventCount = saturatingSucc v.eventCount := by
  obtain ⟨-, v₁, v₂, hqueued, hpayload, -, hcount⟩ := observe_eq_ok h
  rw [hcount, (observePayload_keeps hpayload).1, (observeQueued_keeps hqueued).2]

/-- The number of events, as far as a counter goes. -/
theorem observeAll_eventCount {events : List RunEventRecord} {v : RunLifecycleValidator}
    (h : RunLifecycleValidator.observeAll events = .ok v) :
    v.eventCount = min events.length (2 ^ 64 - 1) := by
  refine foldlM_ok_induction (fun done (v : RunLifecycleValidator) =>
    v.eventCount = min done.length (2 ^ 64 - 1)) h rfl ?_
  intro done event v v' _ hcount hstep
  rw [observe_eventCount hstep, hcount, saturatingSucc, List.length_append, List.length_singleton]
  omega

/-- Events counted run by run. -/
theorem sum_length_eventsOf {runIds : List String} (hnodup : runIds.Nodup)
    (events : List RunEventRecord) :
    (runIds.map fun runId => (eventsOf runId events).length).sum =
      (events.filter fun event => decide (event.runId ∈ runIds)).length := by
  induction runIds with
  | nil => simp
  | cons runId runIds ih =>
      rw [List.nodup_cons] at hnodup
      rw [List.map_cons, List.sum_cons, ih hnodup.2]
      simp only [eventsOf, ← List.countP_eq_length_filter]
      rw [List.countP_eq_countP_filter_add events (·.runId ∈ runId :: runIds) (·.runId = runId),
        List.countP_filter, List.countP_filter]
      congr 1
      · refine List.countP_congr fun event _ => ?_
        simp +contextual
      · -- an event of another run is not of this one
        refine List.countP_congr fun event _ => ?_
        have hne (hmem : event.runId ∈ runIds) : event.runId ≠ runId :=
          ne_of_mem_of_not_mem hmem hnodup.1
        grind

variable {events : List RunEventRecord}

/-- The runs of some entries have the events of those runs. -/
theorem sum_eventCount (h : v.Holds events) (hsmall : events.length < 2 ^ 64)
    (hentries : entries.Sublist v.lifecycles.toList) :
    (entries.map (·.2.eventCount)).sum =
      (events.filter fun event => decide (event.runId ∈ entries.map Prod.fst)).length := by
  have hnodup : (entries.map Prod.fst).Nodup := (hentries.map Prod.fst).nodup nodup_map_fst_toList
  rw [← sum_length_eventsOf hnodup, List.map_map]
  congr 1
  apply List.map_congr_left
  rintro ⟨runId, lifecycle⟩ hentry
  have hget := ExtTreeMap.mem_toList_iff_getElem?_eq_some.mp (hentries.subset hentry)
  show lifecycle.eventCount = (eventsOf runId events).length
  rw [observeAll_eventCount (h.observeAll_eq_ok hget)]
  have hle : (eventsOf runId events).length ≤ events.length := List.length_filter_le _ _
  omega

/-- Every event belongs to a run of the stream. -/
theorem sum_eventCount_toList (h : v.Holds events) (hsmall : events.length < 2 ^ 64) :
    (v.lifecycles.toList.map (·.2.eventCount)).sum = events.length := by
  rw [sum_eventCount h hsmall (List.Sublist.refl _), ExtTreeMap.map_fst_toList_eq_keys]
  congr 1
  rw [List.filter_eq_self]
  intro event hevent
  rw [decide_eq_true_iff, ExtTreeMap.mem_keys, h.present]
  apply List.ne_nil_of_mem (a := event)
  simp [eventsOf, hevent]

end Counting

/-! ## Reading a journal -/

section Archive

variable {libs : JournalLibraries} {path : String} {bytes : Bytes}
  {events : List RunEventRecord}

structure Reads (libs : JournalLibraries) (bytes : Bytes) (events : List RunEventRecord)
    (v : RunStreamValidator) : Prop where
  terminated : unterminatedFinalRecord bytes = false
  parsed : (recordsOf bytes).mapM libs.parseRunEvent = .ok events
  observed : RunStreamValidator.observeAll events = .ok v
  finished : v.finish = .ok v.lifecycles

theorem scanRunArchiveLifecycles_eq_ok {lifecycles : ExtTreeMap String RunLifecycleValidator} :
    scanRunArchiveLifecycles libs path bytes = .ok lifecycles ↔
      ∃ events v, Reads libs bytes events v ∧ lifecycles = v.lifecycles := by
  have hscan : ∀ v, scanJsonlRaw (fun (validator : RunStreamValidator) raw =>
      parseRunEvent libs path raw >>= validator.observe) {} bytes = .ok v ↔
        ∃ events, (recordsOf bytes).mapM libs.parseRunEvent = .ok events ∧
          RunStreamValidator.observeAll events = .ok v := by
    intro v
    rw [scanJsonlRaw_eq_ok (g := fun v record => libs.parseRunEvent record >>= v.observe),
      foldlM_parse_eq_ok]
    · rfl
    · intro v raw v'
      simp only [bind_eq_ok, parseRunEvent, mapError_eq_ok]
  unfold scanRunArchiveLifecycles
  rw [bind_eq_ok]
  constructor
  · rintro ⟨v, hv, hrest⟩
    obtain ⟨events, hparsed, hobserved⟩ := (hscan v).mp hv
    replace hrest : (if unterminatedFinalRecord bytes = true then .error _ else v.finish) =
      Except.ok lifecycles := hrest
    obtain ⟨hterminated, hfinish⟩ := ite_error_eq_ok.mp hrest
    obtain ⟨rfl, -⟩ := RunStreamValidator.finish_eq_ok.mp hfinish
    exact ⟨events, v, ⟨by simpa using hterminated, hparsed, hobserved, hfinish⟩, rfl⟩
  · rintro ⟨events, v, hreads, rfl⟩
    refine ⟨v, (hscan v).mpr ⟨events, hreads.parsed, hreads.observed⟩, ?_⟩
    show (if unterminatedFinalRecord bytes = true then .error _ else v.finish) = .ok v.lifecycles
    rw [hreads.terminated]
    exact hreads.finished

theorem validateRunStream_eq_ok :
    validateRunStream libs path bytes = .ok () ↔ ∃ events v, Reads libs bytes events v := by
  unfold validateRunStream
  rw [bind_eq_ok]
  simp only [pure_eq_ok, and_true, scanRunArchiveLifecycles_eq_ok]
  constructor
  · rintro ⟨_, events, v, hreads, -⟩
    exact ⟨events, v, hreads⟩
  · rintro ⟨events, v, hreads⟩
    exact ⟨_, events, v, hreads, rfl⟩

section

variable (h : Reads libs bytes events v)

include h

theorem Reads.scan_eq :
    scanRunArchiveLifecycles libs path bytes = .ok v.lifecycles :=
  scanRunArchiveLifecycles_eq_ok.mpr ⟨events, v, h, rfl⟩

theorem Reads.accepted : Accepted events :=
  ⟨v, v.lifecycles, h.observed, h.finished⟩

theorem Reads.holds : v.Holds events :=
  RunStreamValidator.holds_of_observeAll h.observed

theorem Reads.length_eq :
    events.length = (recordsOf bytes).length :=
  (mapM_eq_ok.mp h.parsed).length_eq.symm

end

/-- A file of accepted events is a valid stream. -/
theorem reads_of_accepted (hterminated : NewlineTerminated bytes)
    (hparsed : (recordsOf bytes).mapM libs.parseRunEvent = .ok events)
    (haccepted : Accepted events) : ∃ v, Reads libs bytes events v := by
  obtain ⟨v, lifecycles, hobserved, hfinish⟩ := haccepted
  obtain ⟨rfl, -⟩ := RunStreamValidator.finish_eq_ok.mp hfinish
  exact ⟨v, unterminatedFinalRecord_eq_false hterminated, hparsed, hobserved, hfinish⟩

/-! ## Records of runs -/

def belongsTo (libs : JournalLibraries) (runIds : ExtTreeSet String) (record : Bytes) :
    Bool :=
  match libs.parseRunEvent record with
  | .ok event => runIds.contains event.runId
  | .error _ => false

theorem belongsTo_eq {runIds : ExtTreeSet String} {record : Bytes}
    (h : libs.parseRunEvent record = .ok event) :
    belongsTo libs runIds record = runIds.contains event.runId := by
  unfold belongsTo
  rw [h]

/-- **Both parts of a journal are journals.** -/
theorem Reads.part (h : Reads libs bytes events v) (runIds : ExtTreeSet String)
    (side : Bool) {part : Bytes} (hterminated : NewlineTerminated part)
    (hrecords : recordsOf part = (recordsOf bytes).filter fun record =>
      belongsTo libs runIds record == side) :
    ∃ v', Reads libs part (events.filter fun event => runIds.contains event.runId == side) v' := by
  apply reads_of_accepted hterminated
  · rw [hrecords]
    refine mapM_filter_eq_ok ?_ h.parsed
    intro record event hevent
    rw [belongsTo_eq hevent]
  · exact h.accepted.filter fun runId => runIds.contains runId == side

/-! ## The selection -/

def archives (held : String → Bool) (beforeMs : Nat) (entry : String × RunLifecycleValidator) :
    Bool :=
  entry.2.completedAtMs.any (· < beforeMs) && !held entry.1

variable {held : String → Bool} {beforeMs : Nat}

theorem selectRun_ok {entry : String × RunLifecycleValidator}
    (hid : entry.2.completedAtMs ≠ none → validateRunIdForLease entry.1 = .ok ())
    (selection : ArchiveSelection) :
    ∃ selection', selectRun held beforeMs selection entry = .ok selection' ∧
      (∀ runId, runId ∈ selection'.archivedRunIds ↔
        runId ∈ selection.archivedRunIds ∨
          archives held beforeMs entry = true ∧ runId = entry.1) ∧
      selection'.runEventsArchived = if archives held beforeMs entry then
        saturatingAdd selection.runEventsArchived entry.2.eventCount
          else selection.runEventsArchived := by
  obtain ⟨runId, lifecycle⟩ := entry
  unfold selectRun archives
  by_cases hold : lifecycle.completedAtMs.any (· < beforeMs) = true
  · have hcompleted : lifecycle.completedAtMs ≠ none := by
      rintro hnone
      simp [hnone] at hold
    have hidle : runLeaseIsIdle held runId = .ok (!held runId) := by
      unfold runLeaseIsIdle
      rw [hid hcompleted]
      rfl
    simp only [hold, if_true, hidle]
    cases hheld : held runId with
    | true => exact ⟨_, rfl, by simp, by simp⟩
    | false =>
        refine ⟨_, rfl, ?_, by simp⟩
        intro runId'
        simp only [mem_treeSet_insert, Bool.not_false, Bool.and_self, true_and]
        rw [or_comm, eq_comm]
  · simp only [hold]
    exact ⟨selection, rfl, by simp, by simp⟩

/-- **The loop of the selection.** -/
theorem selectRuns_ok (hids : ∀ entry ∈ entries, entry.2.completedAtMs ≠ none →
      validateRunIdForLease entry.1 = .ok ()) :
    ∃ selection, entries.foldlM (selectRun held beforeMs) {} = .ok selection ∧
      (∀ runId, runId ∈ selection.archivedRunIds ↔
        runId ∈ (entries.filter (archives held beforeMs)).map Prod.fst) ∧
      selection.runEventsArchived =
        min ((entries.filter (archives held beforeMs)).map (·.2.eventCount)).sum (2 ^ 64 - 1) := by
  refine foldlM_ok_progress (fun done (selection : ArchiveSelection) =>
    (∀ runId, runId ∈ selection.archivedRunIds ↔
        runId ∈ (done.filter (archives held beforeMs)).map Prod.fst) ∧
      selection.runEventsArchived =
        min ((done.filter (archives held beforeMs)).map (·.2.eventCount)).sum (2 ^ 64 - 1))
    ⟨by simp, rfl⟩ ?_
  rintro done entry selection hdone ⟨hruns, hcount⟩
  have hentry : entry ∈ entries := hdone.subset (by simp)
  obtain ⟨selection', hok, hruns', hcount'⟩ :=
    selectRun_ok (hids entry hentry) selection
  refine ⟨selection', hok, ?_, ?_⟩
  · intro runId
    rw [hruns', hruns, List.filter_append, List.map_append, List.mem_append]
    cases harchives : archives held beforeMs entry <;> simp [harchives]
  · rw [hcount', hcount, List.filter_append, List.map_append, List.sum_append]
    cases harchives : archives held beforeMs entry with
    | false => simp [harchives]
    | true =>
        simp only [harchives, if_true, saturatingAdd, List.filter_cons_of_pos, List.filter_nil,
          List.map_cons, List.map_nil, List.sum_cons, List.sum_nil]
        omega

/-- The identifiers of completed runs were checked. -/
theorem validateRunIdForLease_of_completed (h : v.Holds events)
    {runId : String} {lifecycle : RunLifecycleValidator}
    (hget : v.lifecycles[runId]? = some lifecycle) (hcompleted : lifecycle.completedAtMs ≠ none) :
    validateRunIdForLease runId = .ok () := by
  have hobserved := h.observeAll_eq_ok hget
  obtain ⟨timestampMs, htimestamp⟩ := Option.ne_none_iff_exists'.mp hcompleted
  obtain ⟨event, hevent, hkind, -⟩ := (observeAll_completedAtMs hobserved timestampMs).mp htimestamp
  have hvalid := (observeAll_usable hobserved event hevent).id (by simp [hkind])
  have hid : event.runId = runId := by simpa [eventsOf] using (List.mem_filter.mp hevent).2
  exact hid ▸ hvalid

/-- The events say that the run completed before the cutoff, and its lease is idle. -/
def Archivable (held : String → Bool) (beforeMs : Nat) (events : List RunEventRecord)
    (runId : String) : Prop :=
  (∃ event ∈ events, event.runId = runId ∧ event.kind = some .completed ∧
    event.timestampMs < beforeMs) ∧ held runId = false

theorem mem_filter_archives (h : v.Holds events) {runId : String} :
    runId ∈ (v.lifecycles.toList.filter (archives held beforeMs)).map Prod.fst ↔
      Archivable held beforeMs events runId := by
  have hof : ∀ lifecycle, v.lifecycles[runId]? = some lifecycle →
      (lifecycle.completedAtMs.any (· < beforeMs) = true ↔
        ∃ event ∈ events, event.runId = runId ∧ event.kind = some .completed ∧
          event.timestampMs < beforeMs) := by
    intro lifecycle hget
    have hcompleted := observeAll_completedAtMs (h.observeAll_eq_ok hget)
    simp only [Option.any_eq_true, decide_eq_true_eq, hcompleted, eventsOf,
      List.mem_filter]
    grind
  simp only [List.mem_map, List.mem_filter, Prod.exists, exists_and_right, exists_eq_right,
    ExtTreeMap.mem_toList_iff_getElem?_eq_some, archives, Bool.and_eq_true, Bool.not_eq_true']
  constructor
  · rintro ⟨lifecycle, hget, hold, hheld⟩
    exact ⟨(hof lifecycle hget).mp hold, hheld⟩
  · rintro ⟨hevent, hheld⟩
    have hpresent : runId ∈ v.lifecycles := by
      obtain ⟨event, hmem, hid, -⟩ := hevent
      rw [h.present]
      apply List.ne_nil_of_mem (a := event)
      simp [eventsOf, hmem, hid]
    obtain ⟨lifecycle, hget⟩ := exists_getElem?_of_mem hpresent
    exact ⟨lifecycle, hget, (hof lifecycle hget).mpr hevent, hheld⟩

/-! ## Writing the archive and the journal -/

section Writing

variable {runIds : ExtTreeSet String}

/-- What one record adds to the archive. -/
def appendArchived (libs : JournalLibraries) (runIds : ExtTreeSet String)
    (output record : Bytes) : Except String Bytes := do
  let identity ← libs.parseRunEventIdentity record
  return if runIds.contains identity.runId then output ++ record ++ [newline] else output

theorem archivedRecords_eq_ok {output : Bytes} :
    archivedRecords libs path runIds bytes = .ok output ↔
      (recordsOf bytes).foldlM (appendArchived libs runIds) [] = .ok output ∧
        unterminatedFinalRecord bytes = false := by
  refine bind_eq_ok.trans ((exists_congr fun scanned => and_congr_left'
    (scanJsonlRaw_eq_ok (g := appendArchived libs runIds) fun output raw output' => ?_)).trans ?_)
  · simp only [appendArchived, bind_eq_ok, parseRunEventIdentity, mapError_eq_ok]
  · cases unterminatedFinalRecord bytes with
    | true => simp [bind, Except.bind]
    | false => simp [pure_eq_ok]

variable (hlibs : libs.Lawful) (h : Reads libs bytes events v)

include hlibs h

theorem validateRunArchiveArtifact_ok (hsmall : events.length < 2 ^ 64) (path : String) :
    validateRunArchiveArtifact libs path (libs.gzip bytes) bytes events.length = .ok () := by
  have hsum := sum_eventCount_toList h.holds hsmall
  have hloop : ∃ count, v.lifecycles.toList.foldlM
      (fun count (entry : String × RunLifecycleValidator) =>
        checkedAdd count entry.2.eventCount) 0 = .ok count ∧
      count = (v.lifecycles.toList.map (·.2.eventCount)).sum := by
    refine foldlM_ok_progress (fun (done : List (String × RunLifecycleValidator)) count =>
      count = (done.map (·.2.eventCount)).sum) rfl ?_
    rintro done entry _ ⟨rest, hrest⟩ rfl
    -- a partial sum is at most the number of events
    have hle : ((done ++ [entry]).map (·.2.eventCount)).sum ≤ events.length := by
      rw [← hsum, ← hrest]
      simp only [List.map_append, List.sum_append]
      exact Nat.le_add_right _ _
    rw [List.map_append, List.sum_append, List.map_singleton, List.sum_singleton] at hle ⊢
    unfold checkedAdd
    rw [if_pos (by omega)]
    exact ⟨_, rfl, rfl⟩
  obtain ⟨_, hcount, rfl⟩ := hloop
  rw [hsum] at hcount
  unfold validateRunArchiveArtifact
  rw [hlibs.roundTrip]
  simp [h.scan_eq, hcount, Except.mapError, bind, Except.bind]

/-- The scan for the archive stops at an array, which has no identity. -/
theorem archivedRecords_eq_error {record : Bytes} (hrecord : record ∈ recordsOf bytes)
    (harray : isObject record = false) (path : String) (runIds : ExtTreeSet String) :
    ∃ error, archivedRecords libs path runIds bytes = .error error := by
  obtain ⟨event, -, hevent⟩ := exists_of_mem_of_mapM h.parsed hrecord
  obtain ⟨error, herror⟩ := hlibs.array harray hevent
  cases hok : archivedRecords libs path runIds bytes with
  | error error => exact ⟨error, rfl⟩
  | ok output =>
      obtain ⟨hloop, -⟩ := archivedRecords_eq_ok.mp hok
      -- a scan that ends has seen the identity of every record
      have hall := foldlM_ok_induction (fun done _ => ∀ record ∈ done, ∃ identity,
        libs.parseRunEventIdentity record = .ok identity) hloop (by simp) (by
          intro done record output output' _ hdone hstep
          obtain ⟨identity, hidentity, -⟩ := bind_eq_ok.mp hstep
          intro other hother
          obtain hother | hother := List.mem_append.mp hother
          · exact hdone other hother
          · rw [List.mem_singleton.mp hother]
            exact ⟨identity, hidentity⟩)
      obtain ⟨identity, hidentity⟩ := hall record hrecord
      rw [herror] at hidentity
      cases hidentity

variable (hobjects : ∀ record ∈ recordsOf bytes, isObject record = true)

include hobjects

/-- The records of the archived runs, in their old order. -/
theorem archivedRecords_ok (path : String) (runIds : ExtTreeSet String) :
    archivedRecords libs path runIds bytes =
      .ok (joinLines newline ((recordsOf bytes).filter (belongsTo libs runIds))) := by
  refine archivedRecords_eq_ok.mpr ⟨?_, h.terminated⟩
  have hloop : ∃ output, (recordsOf bytes).foldlM (appendArchived libs runIds) [] = .ok output ∧
      output = joinLines newline ((recordsOf bytes).filter (belongsTo libs runIds)) := by
    refine foldlM_ok_progress (fun done output =>
      output = joinLines newline (done.filter (belongsTo libs runIds))) rfl ?_
    rintro done record _ hdone rfl
    have hrecord : record ∈ recordsOf bytes := hdone.subset (by simp)
    obtain ⟨event, -, hevent⟩ := exists_of_mem_of_mapM h.parsed hrecord
    unfold appendArchived
    rw [hlibs.identity (hobjects record hrecord) hevent]
    refine ⟨_, rfl, ?_⟩
    rw [List.filter_append, List.filter_cons, belongsTo_eq hevent]
    split
    · simp [joinLines]
    · simp
  obtain ⟨_, houtput, rfl⟩ := hloop
  exact houtput

/-- The journal is rewritten without the records of the archived runs. -/
theorem rewriteWithoutRuns_ok (hbytes : NewlineTerminated bytes) (path : String)
    (runIds : ExtTreeSet String) :
    ∃ rewrite, rewriteJsonlRawLocked libs.parseIgnored (fun raw => do
        let identity ← parseRunEventIdentity libs path raw
        return if runIds.contains identity.runId then .drop else .keep)
          (validateRunStream libs path) path bytes = .ok rewrite ∧
      rewrite.output = joinLines newline (keptLines (belongsTo libs runIds) (linesOf bytes)) ∧
      rewrite.droppedRecords = (recordsOf bytes).countP (belongsTo libs runIds) := by
  apply rewriteJsonlRawLocked_ok path hbytes
  · intro record hrecord
    obtain ⟨event, -, hevent⟩ := exists_of_mem_of_mapM h.parsed hrecord
    exact hlibs.ignored hevent
  · intro raw hraw
    obtain ⟨event, -, hevent⟩ := exists_of_mem_of_mapM h.parsed hraw
    rw [belongsTo_eq hevent]
    simp only [parseRunEventIdentity, hlibs.identity (hobjects _ hraw) hevent]
    rfl
  · have hrecords := recordsOf_joinLines_keptLines (belongsTo libs runIds) bytes
    obtain ⟨rest, hrest⟩ := h.part runIds false (newlineTerminated_joinLines _)
      (hrecords.trans (by simp))
    exact validateRunStream_eq_ok.mpr ⟨_, rest, hrest⟩

end Writing

/-! ## The command -/

def NoNonterminal (v : RunStreamValidator) : Prop :=
  nonterminalRunIds v.lifecycles = []

theorem noNonterminal_iff : NoNonterminal v ↔
    ∀ (runId : String) (lifecycle : RunLifecycleValidator),
      v.lifecycles[runId]? = some lifecycle →
        ¬(lifecycle.knownEventCount > 0 && !lifecycle.completed) = true := by
  unfold NoNonterminal nonterminalRunIds
  simp only [List.map_eq_nil_iff, List.filter_eq_nil_iff, Prod.forall,
    ExtTreeMap.mem_toList_iff_getElem?_eq_some]

/-- Dropping runs leaves no run open. -/
theorem NoNonterminal.filter {kept : RunStreamValidator} (h : NoNonterminal v)
    (keep : String → Bool) (hv : v.Holds events)
    (hkept : kept.Holds (events.filter fun event => keep event.runId)) : NoNonterminal kept := by
  rw [noNonterminal_iff] at h ⊢
  intro runId lifecycle hget
  exact h runId lifecycle (hv.getElem?_filter hkept hget).2

/-- What the published file holds; nothing when none was published. -/
def ArchiveOutcome.written (libs : JournalLibraries) (outcome : ArchiveOutcome) :
    Except String Bytes :=
  match outcome.archive with
  | none => .ok []
  | some artifact => libs.gunzip artifact

/-- The records of a journal, cut in two by run. -/
structure Partitions (libs : JournalLibraries) (runIds : ExtTreeSet String)
    (bytes written kept : Bytes) : Prop where
  written_terminated : NewlineTerminated written
  kept_terminated : NewlineTerminated kept
  written_records : recordsOf written =
    (recordsOf bytes).filter fun record => belongsTo libs runIds record == true
  kept_records : recordsOf kept =
    (recordsOf bytes).filter fun record => belongsTo libs runIds record == false

section Closed

variable (h : Reads libs bytes events v) (hclosed : NoNonterminal v)
  (reconcile : String → Bytes → Except String (Bytes × Bool)) (path archivePath : String)

include h hclosed

/-- Nothing is open, so that reconciliation has nothing to do. -/
theorem reconcileAbandonedRunsBeforeArchive_eq :
    reconcileAbandonedRunsBeforeArchive libs reconcile path bytes = .ok (bytes, 0) := by
  unfold reconcileAbandonedRunsBeforeArchive
  rw [h.scan_eq]
  show (nonterminalRunIds v.lifecycles).foldlM _ _ = _
  rw [hclosed]
  rfl

variable {selection : ArchiveSelection}
  (hselection : v.lifecycles.toList.foldlM (selectRun held beforeMs) {} = .ok selection)

include hselection

/-- What the command does once the runs are selected. -/
theorem runsArchive_eq :
    runsArchive libs reconcile path archivePath held beforeMs false bytes =
      if selection.archivedRunIds.isEmpty then
        .ok { selection, archive := none, journal := bytes }
      else do
        let output ← archivedRecords libs path selection.archivedRunIds bytes
        validateRunArchiveArtifact libs archivePath (libs.gzip output) output
          selection.runEventsArchived
        let rewrite ← rewriteJsonlRawLocked libs.parseIgnored (fun raw => do
          let identity ← parseRunEventIdentity libs path raw
          return if selection.archivedRunIds.contains identity.runId then .drop else .keep)
          (validateRunStream libs path) path bytes
        if rewrite.droppedRecords ≠ selection.runEventsArchived then
          .error (s!"Run archive selected {selection.runEventsArchived} events but rewrote " ++
            s!"{rewrite.droppedRecords}")
        return { selection, archive := some (libs.gzip output), journal := rewrite.output } := by
  unfold runsArchive
  rw [if_neg (by simp), reconcileAbandonedRunsBeforeArchive_eq h hclosed]
  show archiveLocked libs path archivePath held beforeMs false bytes = _
  unfold archiveLocked
  rw [h.scan_eq]
  show (if (nonterminalRunIds v.lifecycles).length > 0 then _ else _) = _
  rw [hclosed, if_neg (by simp)]
  show (v.lifecycles.toList.foldlM (selectRun held beforeMs) {} >>= _) = _
  rw [hselection]
  rfl

/-- **A selection that holds the runs of some events is carried out**, if it is empty or if all
records are objects. -/
theorem runsArchive_partitions (hlibs : libs.Lawful) (hbytes : NewlineTerminated bytes)
    (hobjects : (∀ record ∈ recordsOf bytes, isObject record = true) ∨
      selection.archivedRunIds = ∅) (hsmall : events.length < 2 ^ 64)
    (hcount : selection.runEventsArchived =
      (events.filter fun event => selection.archivedRunIds.contains event.runId == true).length) :
    ∃ outcome written,
      runsArchive libs reconcile path archivePath held beforeMs false bytes = .ok outcome ∧
      outcome.selection = selection ∧ outcome.written libs = .ok written ∧
      Partitions libs selection.archivedRunIds bytes written outcome.journal := by
  rw [runsArchive_eq h hclosed reconcile path archivePath hselection]
  set runIds := selection.archivedRunIds with hrunIds
  by_cases hempty : runIds.isEmpty = true
  · -- no record belongs to a run that is archived
    have hnone : ∀ record, belongsTo libs runIds record = false := by
      intro record
      unfold belongsTo
      split
      · rw [ExtTreeSet.isEmpty_iff.mp hempty]
        simp
      · rfl
    rw [if_pos hempty]
    refine ⟨_, [], rfl, rfl, rfl, .inl rfl, hbytes, ?_, ?_⟩
    · simp [hnone, recordsOf, linesOf, splitLines]
    · simp [hnone]
  · replace hobjects := hobjects.resolve_right (mt ExtTreeSet.isEmpty_iff.mpr hempty)
    rw [if_neg hempty, archivedRecords_ok hlibs h hobjects]
    have hwritten := recordsOf_joinLines_filter bytes (belongsTo libs runIds)
    have hkept := recordsOf_joinLines_keptLines (belongsTo libs runIds) bytes
    obtain ⟨archived, harchived⟩ := h.part runIds true
      (newlineTerminated_joinLines ((recordsOf bytes).filter (belongsTo libs runIds)))
      (hwritten.trans (by simp))
    have hle : (events.filter fun event => runIds.contains event.runId == true).length ≤
        events.length := List.length_filter_le _ _
    have hverified := validateRunArchiveArtifact_ok hlibs harchived (by omega) archivePath
    obtain ⟨rewrite, hok, houtput, hdropped⟩ :=
      rewriteWithoutRuns_ok hlibs h hobjects hbytes path runIds
    -- the two parsers count the same records
    have hsame : rewrite.droppedRecords = selection.runEventsArchived := by
      rw [hdropped, hcount, harchived.length_eq, hwritten, List.countP_eq_length_filter]
    refine ⟨⟨selection, some (libs.gzip (joinLines newline ((recordsOf bytes).filter
      (belongsTo libs runIds)))), rewrite.output⟩, _, ?_, rfl, hlibs.roundTrip _, ?_⟩
    · show (validateRunArchiveArtifact libs archivePath _ _ selection.runEventsArchived >>= _) = _
      rw [hcount, hverified]
      show (rewriteJsonlRawLocked _ _ _ _ _ >>= _) = _
      rw [hok]
      show (if rewrite.droppedRecords ≠ _ then _ else _) = _
      rw [if_neg (by rw [hsame, hcount]; simp)]
      rfl
    · exact
        { written_terminated := newlineTerminated_joinLines _
          kept_terminated := houtput ▸ newlineTerminated_joinLines _
          written_records := hwritten.trans (by simp)
          kept_records := houtput ▸ hkept.trans (by simp) }

/-- An array among the records stops the command, if there is a run to archive. -/
theorem runsArchive_eq_error (hlibs : libs.Lawful)
    (hsome : selection.archivedRunIds ≠ ∅) {record : Bytes}
    (hrecord : record ∈ recordsOf bytes) (harray : isObject record = false) :
    ∃ error, runsArchive libs reconcile path archivePath held beforeMs false bytes =
      .error error := by
  obtain ⟨error, herror⟩ :=
    archivedRecords_eq_error hlibs h hrecord harray path selection.archivedRunIds
  rw [runsArchive_eq h hclosed reconcile path archivePath hselection,
    if_neg (mt ExtTreeSet.isEmpty_iff.mp hsome), herror]
  exact ⟨error, rfl⟩

end Closed

/-- The selection of a valid journal, with its runs and the number of their events. -/
theorem selection_ok (h : Reads libs bytes events v) (hsmall : events.length < 2 ^ 64)
    (held : String → Bool) (beforeMs : Nat) :
    ∃ selection, v.lifecycles.toList.foldlM (selectRun held beforeMs) {} = .ok selection ∧
      (∀ runId, runId ∈ selection.archivedRunIds ↔ Archivable held beforeMs events runId) ∧
      selection.runEventsArchived =
        (events.filter fun event => selection.archivedRunIds.contains event.runId == true).length := by
  have hloop : ∃ selection, v.lifecycles.toList.foldlM (selectRun held beforeMs) {} =
      .ok selection ∧ _ ∧ _ := selectRuns_ok (by
    rintro ⟨runId, lifecycle⟩ hentry hcompleted
    rw [ExtTreeMap.mem_toList_iff_getElem?_eq_some] at hentry
    exact validateRunIdForLease_of_completed h.holds hentry hcompleted)
  obtain ⟨selection, hok, hruns, hcount⟩ := hloop
  refine ⟨selection, hok, fun runId => (hruns runId).trans (mem_filter_archives h.holds), ?_⟩
  rw [hcount, sum_eventCount h.holds hsmall List.filter_sublist]
  have hle : (events.filter fun event => decide (event.runId ∈
      (v.lifecycles.toList.filter (archives held beforeMs)).map Prod.fst)).length ≤
        events.length := List.length_filter_le _ _
  rw [Nat.min_eq_left (by omega)]
  congr 1
  apply List.filter_congr
  intro event _
  rw [Bool.eq_iff_iff, decide_eq_true_iff, ← hruns, beq_iff_eq, ExtTreeSet.contains_iff_mem]

/-- **Archiving again does nothing.** Every run that may be archived is in the archive already. -/
theorem runsArchive_again (h : Reads libs bytes events v) (hclosed : NoNonterminal v)
    (hsmall : events.length < 2 ^ 64) {runIds : ExtTreeSet String} {kept : Bytes}
    {rest : RunStreamValidator}
    (hrest : Reads libs kept (events.filter fun event => runIds.contains event.runId == false) rest)
    (hruns : ∀ runId, runId ∈ runIds ↔ Archivable held beforeMs events runId)
    (reconcile : String → Bytes → Except String (Bytes × Bool))
    (path archivePath : String) :
    ∃ again, runsArchive libs reconcile path archivePath held beforeMs false kept = .ok again ∧
      again.selection.archivedRunIds = ∅ ∧ again.archive = none ∧ again.journal = kept := by
  have hlength : (events.filter fun event => runIds.contains event.runId == false).length <
      2 ^ 64 := Nat.lt_of_le_of_lt (List.length_filter_le _ _) hsmall
  obtain ⟨again, hagain, hnothing, -⟩ := selection_ok hrest hlength held beforeMs
  have hempty : again.archivedRunIds = ∅ := by
    apply ExtTreeSet.ext_mem
    intro runId
    refine iff_of_false ?_ (by simp)
    rw [hnothing]
    rintro ⟨⟨event, hevent, hid, hcompleted, hbefore⟩, hheld⟩
    obtain ⟨hevent, hkept⟩ := List.mem_filter.mp hevent
    have hmem : runId ∈ runIds := (hruns runId).mpr
      ⟨⟨event, hevent, hid, hcompleted, hbefore⟩, hheld⟩
    rw [beq_iff_eq, hid] at hkept
    exact absurd (ExtTreeSet.contains_iff_mem.mpr hmem) (by simp [hkept])
  have hstill : NoNonterminal rest :=
    hclosed.filter (fun runId => runIds.contains runId == false) h.holds hrest.holds
  have hok := runsArchive_eq hrest hstill reconcile path archivePath hagain
  rw [hempty, if_pos (by simp)] at hok
  exact ⟨_, hok, hempty, rfl, rfl⟩

/-- **Archiving partitions the journal.** Every record goes to the archive or stays, whole runs at a
time; both files are valid streams; and archiving again does nothing. This needs that all records
are objects, or that no run is archived: with an array among the records nothing can be archived. -/
theorem runsArchive_exact (hlibs : libs.Lawful)
    (reconcile : String → Bytes → Except String (Bytes × Bool))
    (path archivePath : String) (held : String → Bool) (beforeMs : Nat) (journal : StateFile)
    (hterminated : NewlineTerminated journal.bytes)
    (hvalid : validateRunStream libs path journal.bytes = .ok ())
    (hclosed : ∀ lifecycles, scanRunArchiveLifecycles libs path journal.bytes = .ok lifecycles →
      nonterminalRunIds lifecycles = []) :
    ∃ events, (recordsOf journal.bytes).mapM libs.parseRunEvent = .ok events ∧
      ((∀ record ∈ recordsOf journal.bytes, isObject record = true) ∨
          (∀ runId, ¬Archivable held beforeMs events runId) →
        ∃ outcome written,
          runsArchive libs reconcile path archivePath held beforeMs false journal.bytes =
            .ok outcome ∧
          outcome.written libs = .ok written ∧
          recordsOf written = (recordsOf journal.bytes).filter
            (belongsTo libs outcome.selection.archivedRunIds) ∧
          recordsOf outcome.journal = (recordsOf journal.bytes).filter
            (!belongsTo libs outcome.selection.archivedRunIds ·) ∧
          (∀ runId, runId ∈ outcome.selection.archivedRunIds ↔
            Archivable held beforeMs events runId) ∧
          validateRunStream libs archivePath written = .ok () ∧
          validateRunStream libs path outcome.journal = .ok () ∧
          ∃ again, runsArchive libs reconcile path archivePath held beforeMs false
              outcome.journal = .ok again ∧
            again.selection.archivedRunIds = ∅ ∧ again.archive = none ∧
            again.journal = outcome.journal) ∧
      ∀ record ∈ recordsOf journal.bytes, isObject record = false →
        ∀ runId, Archivable held beforeMs events runId →
          ∃ error, runsArchive libs reconcile path archivePath held beforeMs false
            journal.bytes = .error error := by
  obtain ⟨events, v, hreads⟩ := validateRunStream_eq_ok.mp hvalid
  have hnone : NoNonterminal v := hclosed _ hreads.scan_eq
  have hsmall : events.length < 2 ^ 64 := by
    calc events.length = (recordsOf journal.bytes).length := hreads.length_eq
      _ ≤ journal.bytes.length := length_recordsOf_le journal.bytes
      _ < 2 ^ 64 := journal.length_lt
  obtain ⟨selection, hselection, hruns, hcount⟩ := selection_ok hreads hsmall held beforeMs
  refine ⟨events, hreads.parsed, fun hobjects => ?_, fun record hrecord harray runId hrun => ?_⟩
  · -- without a run to archive, arrays do no harm
    have hobjects : (∀ record ∈ recordsOf journal.bytes, isObject record = true) ∨
        selection.archivedRunIds = ∅ := by
      refine hobjects.imp_right fun hnever => ?_
      rw [ExtTreeSet.eq_empty_iff_forall_not_mem]
      exact fun runId hmem => hnever runId ((hruns runId).mp hmem)
    obtain ⟨outcome, written, hok, rfl, hwritten, hparts⟩ := runsArchive_partitions hreads hnone
      reconcile path archivePath hselection hlibs hterminated hobjects hsmall hcount
    obtain ⟨archived, harchived⟩ :=
      hreads.part _ true hparts.written_terminated hparts.written_records
    obtain ⟨rest, hrest⟩ := hreads.part _ false hparts.kept_terminated hparts.kept_records
    refine ⟨outcome, written, hok, hwritten, ?_, ?_, hruns,
      validateRunStream_eq_ok.mpr ⟨_, archived, harchived⟩,
      validateRunStream_eq_ok.mpr ⟨_, rest, hrest⟩, ?_⟩
    · simpa only [beq_true] using hparts.written_records
    · simpa only [beq_false] using hparts.kept_records
    · exact runsArchive_again hreads hnone hsmall hrest hruns reconcile path archivePath
  · have hmem := (hruns runId).mpr hrun
    exact runsArchive_eq_error hreads hnone reconcile path archivePath hselection hlibs
      (ExtTreeSet.ne_empty_of_mem hmem) hrecord harray

end Archive

/-! ## Two runs -/

namespace TwoRuns

/-- An event of a run with nothing to do. -/
def eventOf (runId kind : String) (timestampMs : Nat) : RunEventRecord :=
  { id := s!"run_event_{timestampMs}", runId, event := kind, timestampMs
    plan := if kind = "queued" then some
      { id := "run-plan_empty", configDigest := "sha256:config"
        source := ⟨some "abc", "sha256:worktree"⟩, targets := [], executionLayers := [] } else none
    conclusion := if kind = "completed" then some .success else none }

/-- Two runs whose events alternate; the second one completes ten milliseconds later. -/
def events : List RunEventRecord :=
  [eventOf "run-1" "queued" 1, eventOf "run-2" "queued" 11, eventOf "run-1" "running" 2,
    eventOf "run-2" "running" 12, eventOf "run-1" "completed" 3, eventOf "run-2" "completed" 13]

/-- The record of such an event. It has no target and no result. -/
def record (event : RunEventRecord) : Bytes :=
  Json.object ([("id", Json.string event.id), ("run_id", Json.string event.runId),
      ("event", Json.string event.event), ("timestamp_ms", Json.number event.timestampMs)] ++
    Json.optional "plan" (event.plan.map RunPlan.json) ++
    Json.optional "conclusion" (event.conclusion.map fun _ => Json.string "success"))

/-- An event of a later version, as an array of its fields. -/
def arrayRecord : Bytes :=
  Text.bytes "[\"e9\",\"run-9\",\"note\",5]"

/-- The event that a record is read as. -/
def parse (bytes : Bytes) : Except String RunEventRecord :=
  if bytes = arrayRecord then
    .ok { id := "e9", runId := "run-9", event := "note", timestampMs := 5 }
  else match events.find? fun event => record event = bytes with
    | some event => .ok event
    | none => .error "expected value at line 1 column 1"

/-- The parsers differ at an array only; compression adds a header, and a check value stands for the
hash. -/
def libs : JournalLibraries where
  parseIgnored bytes := (parse bytes).map fun _ => ()
  parseRunEvent := parse
  parseRunEventIdentity bytes := do
    let event ← parse bytes
    if isObject bytes then .ok ⟨event.runId, event.event⟩
    else .error "trailing characters at line 1 column 15"
  gzip bytes := 31 :: 139 :: 8 :: bytes
  gunzip
    | 31 :: 139 :: 8 :: bytes => .ok bytes
    | _ => .error "invalid gzip header"
  sha256 bytes := Text.lowerHex (BigEndian.checksum bytes)

theorem libs_lawful : libs.Lawful where
  ignored h := by
    show (parse _).map _ = _
    rw [show parse _ = _ from h]
    rfl
  identity hobject h := by
    show (parse _ >>= _) = _
    rw [show parse _ = _ from h]
    show (if isObject _ = true then _ else _) = _
    rw [if_pos hobject]
  array harray h := by
    refine ⟨"trailing characters at line 1 column 15", ?_⟩
    show (parse _ >>= _) = _
    rw [show parse _ = _ from h]
    show (if isObject _ = true then _ else _) = _
    rw [if_neg (by rw [harray]; simp)]
  roundTrip _ := rfl

/-- One record a line, with a blank line. -/
def journal : StateFile where
  bytes := joinLines newline ([] :: events.map record)
  length_lt := by decide +kernel

def arrayJournal : Bytes :=
  joinLines newline ([] :: (events.map record ++ [arrayRecord]))

end TwoRuns

theorem runsArchive_exact_twoRuns :
    ∃ outcome, runsArchive TwoRuns.libs (fun _ bytes => .ok (bytes, true)) "runs.jsonl" "a.gz"
        (fun _ => false) 10 false TwoRuns.journal.bytes = .ok outcome ∧
      "run-1" ∈ outcome.selection.archivedRunIds ∧ "run-2" ∉ outcome.selection.archivedRunIds := by
  have hterminated : NewlineTerminated TwoRuns.journal.bytes := newlineTerminated_joinLines _
  have hsample : validateRunStream TwoRuns.libs "runs.jsonl" TwoRuns.journal.bytes = .ok () ∧
      (scanRunArchiveLifecycles TwoRuns.libs "runs.jsonl" TwoRuns.journal.bytes).map
        nonterminalRunIds = .ok [] ∧
      (recordsOf TwoRuns.journal.bytes).mapM TwoRuns.libs.parseRunEvent = .ok TwoRuns.events ∧
      ∀ record ∈ recordsOf TwoRuns.journal.bytes, isObject record = true := by
    decide +kernel
  obtain ⟨hvalid, hclosed, hevents, hobjects⟩ := hsample
  obtain ⟨events, hparsed, hexact, -⟩ := runsArchive_exact
    TwoRuns.libs_lawful (fun _ bytes => .ok (bytes, true)) "runs.jsonl" "a.gz" (fun _ => false) 10
    TwoRuns.journal hterminated hvalid (by
      intro lifecycles hscan
      rw [hscan] at hclosed
      exact Except.ok.inj hclosed)
  obtain rfl : TwoRuns.events = events := Except.ok.inj (hevents.symm.trans hparsed)
  obtain ⟨outcome, -, hok, -, -, -, hruns, -⟩ := hexact (.inl hobjects)
  refine ⟨outcome, hok, ?_, ?_⟩
  · rw [hruns]
    unfold Archivable
    decide +kernel
  · rw [hruns]
    unfold Archivable
    decide +kernel

/-- Behind an event of a later version that is written as an array, nothing is archived. -/
theorem runsArchive_stops_at_array :
    NewlineTerminated TwoRuns.arrayJournal ∧
      validateRunStream TwoRuns.libs "runs.jsonl" TwoRuns.arrayJournal = .ok () ∧
      nonterminalRunIds <$> scanRunArchiveLifecycles TwoRuns.libs "runs.jsonl"
        TwoRuns.arrayJournal = .ok [] ∧
      runsArchive TwoRuns.libs (fun _ bytes => .ok (bytes, true)) "runs.jsonl" "a.gz"
          (fun _ => false) 10 false TwoRuns.arrayJournal =
        .error ("Failed to parse run event identity at line 8 in runs.jsonl: " ++
          "trailing characters at line 1 column 15") := by
  refine ⟨newlineTerminated_joinLines _, ?_⟩
  rw [← map_eq_error (f := ArchiveOutcome.journal)]
  decide +kernel

end Jig.State

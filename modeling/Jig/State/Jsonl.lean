import Jig.Lib.Fallible
import Jig.Lib.Lines
import Jig.Lib.Text

/-!
# JSONL files

Scanning and rewriting the records of a JSONL file (`jig-state`, `jsonl.rs` and
`jsonl/snapshot.rs`). A file is a list of bytes; blank lines are not records. Reading happens in
chunks and may be cancelled in the source, which changes no line; the size limit of the dashboard
readers is not set here, and neither are the counters that only reports print.
-/

namespace Jig.State

open Lib

/-- The contents of a file. Offsets into a file are `u64`. -/
structure StateFile where
  bytes : Bytes
  length_lt : bytes.length < 2 ^ 64

/-- `b'\n'`. -/
def newline : UInt8 := 10

def isAsciiWhitespace (b : UInt8) : Bool :=
  b == 32 || b == 9 || b == 10 || b == 12 || b == 13

variable (bytes : Bytes)

def isBlank : Bool :=
  bytes.all isAsciiWhitespace

structure RawJsonlRecord where
  lineNumber : Nat
  bytes : Bytes
  terminated : Bool

def rawLines : List RawJsonlRecord :=
  ((splitLines newline [] bytes).zipIdx 1).map fun ((line, terminated), lineNumber) =>
    { lineNumber, bytes := line, terminated }

def unterminatedFinalRecord : Bool :=
  (rawLines bytes).any fun record => !isBlank record.bytes && !record.terminated

/-- `scan_jsonl_reader_all`: visit every line, blank or not. -/
def scanJsonlReaderAll {σ : Type} (visitor : σ → RawJsonlRecord → Bool → Except String σ) (s : σ)
    (bytes : Bytes) : Except String σ :=
  (rawLines bytes).foldlM (fun s record => visitor s record (isBlank record.bytes)) s

def scanJsonlRaw {σ : Type} (visitor : σ → RawJsonlRecord → Except String σ) (s : σ)
    (bytes : Bytes) : Except String σ :=
  scanJsonlReaderAll (fun s record blank => if blank then .ok s else visitor s record) s bytes

inductive RawJsonlRewrite where
  | keep
  | replace (bytes : Bytes)
  | drop

/-- The output of a rewrite so far, and its counters. -/
structure JsonlRewrite where
  output : Bytes := []
  keptRecords : Nat := 0
  replacedRecords : Nat := 0
  droppedRecords : Nat := 0

/-- Write a line, with its newline when it had one. -/
def JsonlRewrite.write (rewrite : JsonlRewrite) (bytes : Bytes) (terminated : Bool) :
    JsonlRewrite :=
  { rewrite with output := rewrite.output ++ bytes ++ if terminated then [newline] else [] }

def validateReplacementRecord (lineNumber : Nat) (path : String) : Except String Unit :=
  if bytes.contains newline then
    .error s!"Replacement for JSONL record {lineNumber} in {path} contains a newline"
  else if isBlank bytes then
    .error s!"Replacement for JSONL record {lineNumber} in {path} is blank"
  else
    .ok ()

section Rewrite

-- `parseIgnored` is `serde_json::from_slice::<IgnoredAny>`: the bytes are a JSON value
variable (parseIgnored : Bytes → Except String Unit)
  (transform : RawJsonlRecord → Except String RawJsonlRewrite)

/-- One line of `rewrite_jsonl_raw_locked`. -/
def rewriteLine (path : String) (rewrite : JsonlRewrite) (record : RawJsonlRecord)
    (blank : Bool) : Except String JsonlRewrite :=
  if blank then
    .ok (rewrite.write record.bytes record.terminated)
  else do
    (parseIgnored record.bytes).mapError fun error =>
      s!"Failed to parse source JSONL record {record.lineNumber} in {path}: " ++ error
    match ← transform record with
    | .keep =>
        let rewrite := rewrite.write record.bytes record.terminated
        return { rewrite with keptRecords := rewrite.keptRecords + 1 }
    | .replace bytes =>
        validateReplacementRecord bytes record.lineNumber path
        let rewrite := rewrite.write bytes record.terminated
        return { rewrite with replacedRecords := rewrite.replacedRecords + 1 }
    | .drop => return { rewrite with droppedRecords := rewrite.droppedRecords + 1 }

/-- `rewrite_jsonl_raw_locked`: the new contents of the file and the counters. -/
def rewriteJsonlRawLocked (validate : Bytes → Except String Unit) (path : String)
    (bytes : Bytes) : Except String JsonlRewrite := do
  let rewrite ← scanJsonlReaderAll (rewriteLine parseIgnored transform path) {} bytes
  if unterminatedFinalRecord bytes then
    .error s!"Refusing to rewrite {path} because its final JSONL record is not newline-terminated"
  scanJsonlRaw (fun _ record => (parseIgnored record.bytes).mapError fun error =>
    s!"Failed to validate rewritten JSONL record {record.lineNumber} in {path}: " ++ error)
      () rewrite.output
  (validate rewrite.output).mapError fun error =>
    s!"Rewritten JSONL validation failed for {path}: " ++ error
  return rewrite

end Rewrite

/-! ## Records -/

def linesOf : List Bytes :=
  (splitLines newline [] bytes).map Prod.fst

/-- The records of a file: its lines that are not blank. -/
def recordsOf : List Bytes :=
  (linesOf bytes).filter (!isBlank ·)

/-- Every line of the file ends with a newline. -/
def NewlineTerminated : Prop :=
  bytes = [] ∨ bytes.getLast? = some newline

theorem map_bytes_rawLines : (rawLines bytes).map RawJsonlRecord.bytes = linesOf bytes := by
  unfold rawLines linesOf
  rw [List.map_map]
  show ((splitLines newline [] bytes).zipIdx 1).map (Prod.fst ∘ Prod.fst) = _
  rw [← List.map_map, List.zipIdx_map_fst]

variable {bytes}

theorem newline_notMem_of_mem_linesOf {line : Bytes} (h : line ∈ linesOf bytes) :
    newline ∉ line := by
  obtain ⟨entry, hentry, rfl⟩ := List.mem_map.mp h
  exact notMem_of_mem_splitLines bytes List.not_mem_nil entry hentry

theorem terminated_of_mem_rawLines {record : RawJsonlRecord} (h : NewlineTerminated bytes)
    (hrecord : record ∈ rawLines bytes) : record.terminated = true := by
  obtain ⟨⟨entry, lineNumber⟩, hentry, rfl⟩ := List.mem_map.mp hrecord
  apply terminated_of_getLast? (h.imp (fun hnil => ⟨rfl, hnil⟩) id)
  exact List.fst_mem_of_mem_zipIdx hentry

theorem unterminatedFinalRecord_eq_false (h : NewlineTerminated bytes) :
    unterminatedFinalRecord bytes = false := by
  unfold unterminatedFinalRecord
  rw [List.any_eq_false]
  intro record hrecord
  simp [terminated_of_mem_rawLines h hrecord]

/-- A file that is written line by line. -/
theorem linesOf_joinLines {lines : List Bytes} (h : ∀ line ∈ lines, newline ∉ line) :
    linesOf (joinLines newline lines) = lines := by
  unfold linesOf
  rw [splitLines_joinLines h, List.map_map]
  simp [Function.comp_def]

theorem newlineTerminated_joinLines (lines : List Bytes) :
    NewlineTerminated (joinLines newline lines) := by
  cases lines using List.reverseRecOn with
  | nil => exact .inl rfl
  | append_singleton lines line =>
      right
      simp [joinLines]

/-- Some records of a file, written line by line. -/
theorem recordsOf_joinLines_filter (bytes : Bytes) (p : Bytes → Bool) :
    recordsOf (joinLines newline ((recordsOf bytes).filter p)) = (recordsOf bytes).filter p := by
  have hlines : ∀ record ∈ (recordsOf bytes).filter p, newline ∉ record := by
    intro record hrecord
    exact newline_notMem_of_mem_linesOf (List.mem_of_mem_filter (List.mem_of_mem_filter hrecord))
  show (linesOf (joinLines newline ((recordsOf bytes).filter p))).filter (!isBlank ·) = _
  rw [linesOf_joinLines hlines, List.filter_eq_self]
  intro record hrecord
  exact (List.mem_filter.mp (List.mem_of_mem_filter hrecord)).2

/-- There are no more records than bytes. -/
theorem length_recordsOf_le (bytes : Bytes) : (recordsOf bytes).length ≤ bytes.length := by
  unfold recordsOf linesOf
  calc _ ≤ ((splitLines newline [] bytes).map Prod.fst).length := List.length_filter_le _ _
    _ ≤ bytes.length := by
      rw [List.length_map]
      have hle : (splitLines newline [] bytes).length ≤ _ := length_splitLines_le [] bytes
      simpa using hle

/-! ## Scans -/

section Scans

variable {σ : Type} {visitor : σ → RawJsonlRecord → Except String σ}
  {g : σ → Bytes → Except String σ}

/-- **A scan** whose visitor looks at the bytes of a record folds over the records. -/
theorem scanJsonlRaw_eq_ok (h : ∀ s raw s', visitor s raw = .ok s' ↔ g s raw.bytes = .ok s')
    {s s' : σ} :
    scanJsonlRaw visitor s bytes = .ok s' ↔ (recordsOf bytes).foldlM g s = .ok s' := by
  have hfold : ∀ (l : List RawJsonlRecord) (s : σ),
      l.foldlM (fun s record => if isBlank record.bytes then .ok s else visitor s record) s =
          .ok s' ↔
        ((l.map RawJsonlRecord.bytes).filter (!isBlank ·)).foldlM g s = .ok s' := by
    intro l
    induction l with
    | nil => exact fun _ => Iff.rfl
    | cons record l ih =>
        intro s
        rw [List.foldlM_cons, List.map_cons]
        by_cases hblank : isBlank record.bytes = true
        · rw [if_pos hblank, List.filter_cons_of_neg (by simp [hblank])]
          exact ih s
        · rw [if_neg hblank, List.filter_cons_of_pos (by simpa using hblank), List.foldlM_cons,
            bind_eq_ok, bind_eq_ok]
          simp only [h, ih]
  unfold recordsOf
  rw [← map_bytes_rawLines]
  exact hfold (rawLines bytes) s

end Scans

/-! ## Rewrites -/

section Rewrites

variable {parseIgnored : Bytes → Except String Unit}
  {transform : RawJsonlRecord → Except String RawJsonlRewrite} {dropped : Bytes → Bool}

/-- The lines a rewrite keeps: blank lines, and records that are not dropped. -/
def keptLines (dropped : Bytes → Bool) (lines : List Bytes) : List Bytes :=
  lines.filter fun line => isBlank line || !dropped line

theorem rewriteLine_eq_ok {record : RawJsonlRecord} (path : String)
    (hterminated : record.terminated = true)
    (hrecord : isBlank record.bytes = false → parseIgnored record.bytes = .ok () ∧
      transform record = .ok (if dropped record.bytes then .drop else .keep))
    (rewrite : JsonlRewrite) :
    ∃ rewrite', rewriteLine parseIgnored transform path rewrite record (isBlank record.bytes) =
        .ok rewrite' ∧
      rewrite'.output = rewrite.output ++ joinLines newline (keptLines dropped [record.bytes]) ∧
      rewrite'.droppedRecords = rewrite.droppedRecords +
        ([record.bytes].filter (!isBlank ·)).countP dropped := by
  unfold rewriteLine keptLines
  cases hblank : isBlank record.bytes with
  | true => exact ⟨_, rfl, by simp [JsonlRewrite.write, hterminated, hblank, joinLines],
      by simp [JsonlRewrite.write, hblank]⟩
  | false =>
      obtain ⟨hparse, htransform⟩ := hrecord hblank
      rw [hparse, htransform]
      cases hdropped : dropped record.bytes with
      | true => exact ⟨_, rfl, by simp [hblank, hdropped, joinLines], by simp [hblank, hdropped]⟩
      | false =>
          exact ⟨_, rfl, by simp [JsonlRewrite.write, hterminated, hblank, hdropped, joinLines],
            by simp [JsonlRewrite.write, hblank, hdropped]⟩

/-- The loop over the lines. -/
theorem foldlM_rewriteLine (path : String) {lines : List RawJsonlRecord}
    (hterminated : ∀ record ∈ lines, record.terminated = true)
    (hrecords : ∀ record ∈ lines, isBlank record.bytes = false →
      parseIgnored record.bytes = .ok () ∧
        transform record = .ok (if dropped record.bytes then .drop else .keep)) :
    ∃ rewrite, lines.foldlM (fun rewrite record => rewriteLine parseIgnored transform path rewrite
        record (isBlank record.bytes)) {} = .ok rewrite ∧
      rewrite.output =
        joinLines newline (keptLines dropped (lines.map RawJsonlRecord.bytes)) ∧
      rewrite.droppedRecords =
        ((lines.map RawJsonlRecord.bytes).filter (!isBlank ·)).countP dropped := by
  refine foldlM_ok_progress (fun done (rewrite : JsonlRewrite) =>
    rewrite.output = joinLines newline (keptLines dropped (done.map RawJsonlRecord.bytes)) ∧
      rewrite.droppedRecords =
        ((done.map RawJsonlRecord.bytes).filter (!isBlank ·)).countP dropped) ⟨rfl, rfl⟩ ?_
  intro done record rewrite hdone hmotive
  have hmem : record ∈ lines := hdone.subset (by simp)
  obtain ⟨rewrite', hok, houtput, hcount⟩ := rewriteLine_eq_ok path
    (hterminated record hmem) (hrecords record hmem) rewrite
  refine ⟨rewrite', hok, ?_, ?_⟩
  · rw [houtput, hmotive.1, List.map_append, keptLines, keptLines, keptLines, List.filter_append]
    exact (List.flatMap_append ..).symm
  · rw [hcount, hmotive.2, List.map_append, List.filter_append, List.countP_append]
    rfl

theorem recordsOf_joinLines_keptLines (dropped : Bytes → Bool) (bytes : Bytes) :
    recordsOf (joinLines newline (keptLines dropped (linesOf bytes))) =
      (recordsOf bytes).filter (!dropped ·) := by
  have hlines : ∀ line ∈ keptLines dropped (linesOf bytes), newline ∉ line := fun line hline =>
    newline_notMem_of_mem_linesOf (List.mem_of_mem_filter hline)
  unfold recordsOf
  rw [linesOf_joinLines hlines, keptLines, List.filter_filter, List.filter_filter]
  apply List.filter_congr
  intro line _
  cases isBlank line <;> simp

/-- **A rewrite** of a file whose records all parse keeps what it does not drop. -/
theorem rewriteJsonlRawLocked_ok (path : String) {validate : Bytes → Except String Unit}
    (hbytes : NewlineTerminated bytes)
    (hparse : ∀ record ∈ recordsOf bytes, parseIgnored record = .ok ())
    (htransform : ∀ raw : RawJsonlRecord, raw.bytes ∈ recordsOf bytes →
      transform raw = .ok (if dropped raw.bytes then .drop else .keep))
    (hvalidate : validate (joinLines newline (keptLines dropped (linesOf bytes))) = .ok ()) :
    ∃ rewrite, rewriteJsonlRawLocked parseIgnored transform validate path bytes = .ok rewrite ∧
      rewrite.output = joinLines newline (keptLines dropped (linesOf bytes)) ∧
      rewrite.droppedRecords = (recordsOf bytes).countP dropped := by
  have hloop : ∃ rewrite, scanJsonlReaderAll (rewriteLine parseIgnored transform path) {} bytes =
      .ok rewrite ∧ rewrite.output = joinLines newline (keptLines dropped (linesOf bytes)) ∧
        rewrite.droppedRecords = (recordsOf bytes).countP dropped := by
    unfold recordsOf
    rw [← map_bytes_rawLines]
    apply foldlM_rewriteLine
    · exact fun record hrecord => terminated_of_mem_rawLines hbytes hrecord
    · intro record hrecord hblank
      have hmem : record.bytes ∈ recordsOf bytes := by
        unfold recordsOf
        rw [← map_bytes_rawLines, List.mem_filter]
        exact ⟨List.mem_map_of_mem hrecord, by simp [hblank]⟩
      exact ⟨hparse _ hmem, htransform record hmem⟩
  obtain ⟨rewrite, hscan, houtput, hdropped⟩ := hloop
  refine ⟨rewrite, ?_, houtput, hdropped⟩
  -- the output is scanned once more before it is written
  have hreparse : scanJsonlRaw (fun (_ : Unit) record => (parseIgnored record.bytes).mapError
      fun error => s!"Failed to validate rewritten JSONL record {record.lineNumber} in {path}: " ++
        error) () rewrite.output = .ok () := by
    rw [scanJsonlRaw_eq_ok (g := fun _ record => parseIgnored record) fun _ _ _ =>
      mapError_eq_ok, houtput, recordsOf_joinLines_keptLines]
    have hall : ∃ u : Unit, ((recordsOf bytes).filter (!dropped ·)).foldlM
        (fun _ record => parseIgnored record) () = .ok u := by
      apply foldlM_ok_exists
      intro _ record hrecord
      exact ⟨(), hparse record (List.mem_of_mem_filter hrecord)⟩
    exact hall.elim fun _ h => h
  unfold rewriteJsonlRawLocked
  rw [hscan]
  show (if unterminatedFinalRecord bytes then _ else _) = _
  rw [unterminatedFinalRecord_eq_false hbytes, hreparse]
  show ((validate rewrite.output).mapError _ >>= fun _ => .ok rewrite) = .ok rewrite
  rw [houtput, hvalidate]
  rfl

end Rewrites

end Jig.State

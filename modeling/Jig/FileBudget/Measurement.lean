import Jig.FileBudget.Policy
import Jig.Lib.ByteStream

/-!
# Bounded measurement of a stream

`measure_stream_v1` of `jig-file-budget`, `measurement.rs`: count the lines and bytes of a stream,
with one limit for the file and one for all files together. No call of the reader asks for more than
one byte beyond a limit.

The answers of the cancellation callback are given by the number of the call. A loop that runs out
of rounds gives `none`.
-/

namespace Jig.FileBudget

open Jig.Lib

/-! ## The code -/

/-- `u64::MAX`. -/
def u64Max : Nat := 2 ^ 64 - 1

def readBufferBytes : Nat := 16 * 1024

def saturatingAdd (m n : Nat) : Nat :=
  min (m + n) u64Max

def checkedAdd (m n : Nat) : Option Nat :=
  if m + n ≤ u64Max then some (m + n) else none

structure MeasurementBudgetV1 where
  maxFileBytes : Nat
  maxTotalBytes : Nat
  totalBytesRead : Nat
  maxFileBytes_le : maxFileBytes ≤ u64Max
  maxTotalBytes_le : maxTotalBytes ≤ u64Max
  totalBytesRead_le : totalBytesRead ≤ u64Max
deriving DecidableEq

/-- `MeasurementErrorKindV1`, over the kinds of I/O errors. -/
inductive MeasurementErrorKindV1 (ε : Type) where
  | cancelled
  | invalidReadLength
  | perFileLimit
  | totalLimit
  | counterOverflow
  | read (kind : ε)
deriving DecidableEq

structure MeasurementErrorV1 (ε : Type) where
  kind : MeasurementErrorKindV1 ε
  observedBytes : Nat
  limitBytes : Option Nat
deriving DecidableEq

structure Progress where
  bytes : Nat := 0
  lfCount : Nat := 0
  finalByteWasLf : Bool := false
deriving DecidableEq

variable {σ ε : Type}

def readBound (budget : MeasurementBudgetV1) (bytes : Nat) : Nat :=
  let fileProbe := saturatingAdd (budget.maxFileBytes - bytes) 1
  let totalProbe := saturatingAdd (budget.maxTotalBytes - budget.totalBytesRead) 1
  min (min fileProbe totalProbe) readBufferBytes

def overflow (bytes : Nat) : MeasurementErrorV1 ε where
  kind := .counterOverflow
  observedBytes := bytes
  limitBytes := none

/-- What a round does with a report of a positive number of bytes. -/
def countRead (budget : MeasurementBudgetV1) (progress : Progress) (bound read : Nat)
    (buffer : Bytes) : Except (MeasurementErrorV1 ε) Progress × MeasurementBudgetV1 :=
  if bound < read then
    (.error { kind := .invalidReadLength, observedBytes := min read u64Max
              limitBytes := some bound }, budget)
  else
    match checkedAdd progress.bytes read with
    | none => (.error (overflow progress.bytes), budget)
    | some bytes =>
        if htotal : budget.totalBytesRead + read ≤ u64Max then
          let budget := { budget with
            totalBytesRead := budget.totalBytesRead + read, totalBytesRead_le := htotal }
          if budget.maxFileBytes < bytes then
            (.error { kind := .perFileLimit, observedBytes := bytes
                      limitBytes := some budget.maxFileBytes }, budget)
          else if budget.maxTotalBytes < budget.totalBytesRead then
            (.error { kind := .totalLimit, observedBytes := budget.totalBytesRead
                      limitBytes := some budget.maxTotalBytes }, budget)
          else
            let chunk := buffer.take read
            match checkedAdd progress.lfCount (chunk.count 10) with
            | none => (.error (overflow bytes), budget)
            | some lfCount =>
                (.ok { bytes, lfCount, finalByteWasLf := chunk.getLast? == some 10 }, budget)
        else
          (.error (overflow bytes), budget)

def finishMeasurement (progress : Progress) : Except (MeasurementErrorV1 ε) MeasurementV1 :=
  if progress.bytes = 0 ∨ progress.finalByteWasLf = true then
    .ok { lines := progress.lfCount, bytes := progress.bytes }
  else
    match checkedAdd progress.lfCount 1 with
    | none => .error (overflow progress.bytes)
    | some lines => .ok { lines, bytes := progress.bytes }

/-- What a measurement ends with: its result, the budget and the reader. -/
structure Measured (σ ε : Type) where
  result : Except (MeasurementErrorV1 ε) MeasurementV1
  budget : MeasurementBudgetV1
  reader : σ

def measureRounds (read : Reader σ ε) (isCancelled : Nat → Bool) :
    Nat → Nat → σ → MeasurementBudgetV1 → Progress → Option (Measured σ ε)
  | 0, _, _, _, _ => none
  | rounds + 1, calls, reader, budget, progress =>
      if isCancelled calls then
        some { result := .error { kind := .cancelled, observedBytes := progress.bytes
                                  limitBytes := none }
               budget, reader }
      else
        let bound := readBound budget progress.bytes
        let (outcome, reader) := read bound reader
        match outcome with
        | .interrupted => measureRounds read isCancelled rounds (calls + 1) reader budget progress
        | .failed kind =>
            some { result := .error { kind := .read kind, observedBytes := progress.bytes
                                      limitBytes := none }
                   budget, reader }
        | .read length buffer =>
            if length = 0 then
              some { result := finishMeasurement progress, budget, reader }
            else
              match countRead budget progress bound length buffer with
              | (.error error, budget) => some { result := .error error, budget, reader }
              | (.ok progress, budget) =>
                  measureRounds read isCancelled rounds (calls + 1) reader budget progress

def measureStreamV1 (read : Reader σ ε) (isCancelled : Nat → Bool) (rounds : Nat) (reader : σ)
    (budget : MeasurementBudgetV1) : Option (Measured σ ε) :=
  measureRounds read isCancelled rounds 0 reader budget {}

/-! ## What the counters say -/

def MeasurementBudgetV1.limit (budget : MeasurementBudgetV1) : Nat :=
  min budget.maxFileBytes (budget.maxTotalBytes - budget.totalBytesRead)

/-- The error of a file that is longer: the counter of a limit that is the greatest number overflows
before the limit is compared. -/
def MeasurementBudgetV1.limitKind (budget : MeasurementBudgetV1) : MeasurementErrorKindV1 ε :=
  let left := budget.maxTotalBytes - budget.totalBytesRead
  if budget.maxFileBytes ≤ left ∧ budget.maxFileBytes = u64Max ∨
      left ≤ budget.maxFileBytes ∧ budget.maxTotalBytes = u64Max then
    .counterOverflow
  else if budget.maxFileBytes ≤ left then
    .perFileLimit
  else
    .totalLimit

/-- The lines of a stream: its LF bytes, and one for a last line without any. -/
def lineCount (stream : Bytes) : Nat :=
  stream.count 10 + if stream ≠ [] ∧ stream.getLast? ≠ some 10 then 1 else 0

/-- The counters after the bytes that have been read so far, within the limits. -/
structure Counted (start : MeasurementBudgetV1) (done : Bytes) (budget : MeasurementBudgetV1)
    (progress : Progress) : Prop where
  bytes : progress.bytes = done.length
  lfCount : progress.lfCount = done.count 10
  final : progress.finalByteWasLf = (done.getLast? == some 10)
  maxFileBytes : budget.maxFileBytes = start.maxFileBytes
  maxTotalBytes : budget.maxTotalBytes = start.maxTotalBytes
  total : budget.totalBytesRead = start.totalBytesRead + done.length
  within : done.length ≤ start.limit

section Rounds

variable {start budget : MeasurementBudgetV1} {progress : Progress} {done : Bytes}
  {chunk : Bytes}

theorem readBound_pos (budget : MeasurementBudgetV1) (bytes : Nat) : 0 < readBound budget bytes := by
  simp only [readBound, saturatingAdd, u64Max, readBufferBytes]
  omega

theorem checkedAdd_eq_some {m n : Nat} (h : m + n ≤ u64Max) : checkedAdd m n = some (m + n) :=
  if_pos h

variable (h : Counted start done budget progress)

include h

/-- A round asks for at most one byte beyond the limit. -/
theorem Counted.readBound_le :
    done.length + readBound budget progress.bytes ≤ start.limit + 1 := by
  have hwithin := h.within
  simp only [readBound, saturatingAdd, h.bytes, h.maxFileBytes, h.maxTotalBytes, h.total,
    MeasurementBudgetV1.limit] at hwithin ⊢
  omega

/-- A chunk that stays within the limits is counted. -/
theorem Counted.countRead_within (hstart : start.totalBytesRead ≤ start.maxTotalBytes) {bound : Nat}
    (hne : chunk ≠ []) (hbound : chunk.length ≤ bound)
    (hwithin : (done ++ chunk).length ≤ start.limit) :
    ∃ budget' progress', countRead (ε := ε) budget progress bound chunk.length chunk =
        (.ok progress', budget') ∧ Counted start (done ++ chunk) budget' progress' := by
  have hfile := start.maxFileBytes_le
  have htotal := start.maxTotalBytes_le
  have hlimit := hwithin
  rw [MeasurementBudgetV1.limit, List.length_append] at hlimit
  have hcount : done.count 10 + chunk.count 10 ≤ done.length + chunk.length :=
    Nat.add_le_add List.count_le_length List.count_le_length
  have hroom : budget.totalBytesRead + chunk.length ≤ u64Max := by
    rw [h.total]
    omega
  unfold countRead
  rw [if_neg (Nat.not_lt.mpr hbound), checkedAdd_eq_some (by rw [h.bytes]; omega)]
  dsimp only
  rw [dif_pos hroom, if_neg (by rw [h.maxFileBytes, h.bytes]; omega),
    if_neg (by rw [h.maxTotalBytes, h.total]; omega), List.take_length,
    checkedAdd_eq_some (by rw [h.lfCount]; omega)]
  refine ⟨_, _, rfl, ?_⟩
  exact
    { bytes := by rw [h.bytes, List.length_append]
      lfCount := by rw [h.lfCount, List.count_append]
      final := by rw [List.getLast?_append_of_ne_nil _ hne]
      maxFileBytes := h.maxFileBytes
      maxTotalBytes := h.maxTotalBytes
      total := by
        show budget.totalBytesRead + chunk.length = _
        rw [h.total, List.length_append, Nat.add_assoc]
      within := hwithin }

/-- A chunk that ends one byte beyond the limit is refused. -/
theorem Counted.countRead_beyond (hstart : start.totalBytesRead ≤ start.maxTotalBytes) {bound : Nat}
    (hbound : chunk.length ≤ bound) (hbeyond : (done ++ chunk).length = start.limit + 1) :
    ∃ budget' error, countRead (ε := ε) budget progress bound chunk.length chunk =
        (.error error, budget') ∧ error.kind = start.limitKind := by
  have hfile := start.maxFileBytes_le
  have htotal := start.maxTotalBytes_le
  rw [MeasurementBudgetV1.limit, List.length_append] at hbeyond
  unfold countRead
  rw [if_neg (Nat.not_lt.mpr hbound)]
  by_cases hbytes : progress.bytes + chunk.length ≤ u64Max
  · rw [checkedAdd_eq_some hbytes]
    dsimp only
    by_cases hroom : budget.totalBytesRead + chunk.length ≤ u64Max
    · rw [dif_pos hroom]
      rw [h.bytes] at hbytes ⊢
      rw [h.total] at hroom
      by_cases hlonger : budget.maxFileBytes < done.length + chunk.length
      · rw [if_pos hlonger]
        refine ⟨_, _, rfl, ?_⟩
        rw [h.maxFileBytes] at hlonger
        unfold MeasurementBudgetV1.limitKind
        dsimp only
        rw [if_neg (by omega), if_pos (by omega)]
      · have hshort := hlonger
        rw [h.maxFileBytes] at hshort
        rw [if_neg hlonger, if_pos (by rw [h.maxTotalBytes, h.total]; omega)]
        refine ⟨_, _, rfl, ?_⟩
        unfold MeasurementBudgetV1.limitKind
        dsimp only
        rw [if_neg (by omega), if_neg (by omega)]
    · rw [dif_neg hroom]
      refine ⟨_, _, rfl, ?_⟩
      rw [h.total] at hroom
      unfold MeasurementBudgetV1.limitKind
      rw [if_pos (by omega)]
      rfl
  · rw [checkedAdd, if_neg hbytes]
    refine ⟨_, _, rfl, ?_⟩
    rw [h.bytes] at hbytes
    unfold MeasurementBudgetV1.limitKind
    rw [if_pos (by omega)]
    rfl

/-- The end of a stream that stays within the limits. -/
theorem Counted.finishMeasurement_eq :
    finishMeasurement (ε := ε) progress =
      .ok { lines := lineCount done, bytes := done.length } := by
  have hfile := start.maxFileBytes_le
  have hwithin := h.within
  rw [MeasurementBudgetV1.limit] at hwithin
  unfold finishMeasurement lineCount
  rw [h.bytes, h.lfCount, h.final]
  by_cases hlast : done = [] ∨ done.getLast? = some 10
  · rw [if_pos (by simpa using hlast), if_neg (by tauto)]
    rfl
  · rw [not_or] at hlast
    -- the last byte is none of the LF bytes
    have hcount : done.count 10 < done.length := by
      refine lt_of_le_of_ne List.count_le_length fun heq => hlast.2 ?_
      rw [List.count_eq_length] at heq
      rw [List.getLast?_eq_some_getLast hlast.1]
      exact congrArg some (heq _ (List.getLast_mem hlast.1)).symm
    rw [if_neg (by simpa using hlast), if_pos hlast, checkedAdd_eq_some (by omega)]

/-! ### Exactness -/

/-- What a measurement of a whole stream comes to. -/
structure Measured.Exact (read : Reader σ ε) (start : MeasurementBudgetV1) (stream : Bytes)
    (measured : Measured σ ε) : Prop where
  within : stream.length ≤ start.limit →
    measured.result = .ok { lines := lineCount stream, bytes := stream.length } ∧
      measured.budget.totalBytesRead = start.totalBytesRead + stream.length
  beyond : start.limit < stream.length →
    (∃ error, measured.result = .error error ∧ error.kind = start.limitKind) ∧
      ∃ taken rest, stream = taken ++ rest ∧ taken.length = start.limit + 1 ∧
        Delivers read measured.reader rest

/-- **The loop.** It ends, and what has been read and what the reader has left make up the stream.
-/
theorem Counted.measureRounds_exact {read : Reader σ ε} {isCancelled : Nat → Bool}
    (hcancelled : ∀ calls, isCancelled calls = false)
    (hstart : start.totalBytesRead ≤ start.maxTotalBytes) {reader : σ} {rest : Bytes}
    (hread : Delivers read reader rest) (calls : Nat) :
    ∃ rounds measured, measureRounds read isCancelled rounds calls reader budget progress =
        some measured ∧ measured.Exact read start (done ++ rest) := by
  -- on the answers of the reader: `done` grows by what each of them brings
  induction hread generalizing calls done budget progress with
  | @intro reader stream fits continues ih =>
      have hpos := readBound_pos budget progress.bytes
      have hle := h.readBound_le
      have hfits := fits _ hpos
      have hnext := continues _ hpos
      have ih := ih _ hpos
      have hround (rounds : Nat) : measureRounds read isCancelled (rounds + 1) calls reader budget
          progress = _ := if_neg (ne_true_of_eq_false (hcancelled calls))
      dsimp only at hround
      generalize read (readBound budget progress.bytes) reader = answer at hfits hnext ih hround
      obtain ⟨outcome, reader'⟩ := answer
      cases outcome with
      | failed kind => exact hfits.elim
      | interrupted =>
          obtain ⟨rounds, measured, hrun, hexact⟩ := ih rfl h (calls + 1)
          exact ⟨rounds + 1, measured, (hround rounds).trans hrun, hexact⟩
      | read length front =>
          obtain ⟨rfl, hbound, ⟨rest, rfl⟩, hend⟩ := hfits
          cases front with
          | nil =>
              obtain rfl : rest = [] := hend rfl
              refine ⟨1, _, hround 0, ?_⟩
              rw [List.append_nil, List.append_nil]
              have hlimit := h.within
              exact
                { within := fun _ => ⟨h.finishMeasurement_eq, h.total⟩
                  beyond := fun hlt => absurd hlimit (Nat.not_le.mpr hlt) }
          | cons first front =>
              rw [show ReadOutcome.taken (.read (first :: front).length (first :: front) :
                ReadOutcome ε) = (first :: front).length from rfl, List.drop_left] at hnext ih
              rw [← List.append_assoc]
              by_cases hwithin : (done ++ first :: front).length ≤ start.limit
              · obtain ⟨budget', progress', hcount, hcounted⟩ :=
                  h.countRead_within (ε := ε) hstart (List.cons_ne_nil first front) hbound hwithin
                obtain ⟨rounds, measured, hrun, hexact⟩ := ih rfl hcounted (calls + 1)
                refine ⟨rounds + 1, measured, (hround rounds).trans ?_, hexact⟩
                dsimp only
                rw [if_neg (List.length_pos_iff.mpr (List.cons_ne_nil first front)).ne', hcount]
                exact hrun
              · -- a read asks for one byte beyond the limit at most
                have hlength : (done ++ first :: front).length = start.limit + 1 := by
                  rw [List.length_append] at hwithin ⊢
                  omega
                obtain ⟨budget', error, hcount, hkind⟩ :=
                  h.countRead_beyond (ε := ε) hstart hbound hlength
                refine ⟨1, { result := .error error, budget := budget', reader := reader' }, ?_, ?_⟩
                · rw [hround 0]
                  dsimp only
                  rw [if_neg (List.length_pos_iff.mpr (List.cons_ne_nil first front)).ne', hcount]
                · refine ⟨fun hle => ?_, fun _ => ⟨⟨error, rfl, hkind⟩, _, rest, rfl, hlength,
                    hnext rfl⟩⟩
                  rw [List.length_append] at hle
                  omega

end Rounds

/-- **Measurement is exact.** However the reader cuts the stream, the measurement ends. A stream
within both limits is measured; for a longer one no more than the first byte beyond the smaller
limit has been taken from the reader. -/
theorem measurement_exact (read : Reader σ ε) (isCancelled : Nat → Bool)
    (hcancelled : ∀ calls, isCancelled calls = false) (budget : MeasurementBudgetV1)
    (hbudget : budget.totalBytesRead ≤ budget.maxTotalBytes) (reader : σ) (stream : Bytes)
    (hread : Delivers read reader stream) :
    ∃ rounds measured, measureStreamV1 read isCancelled rounds reader budget = some measured ∧
      measured.Exact read budget stream := by
  have hstart : Counted budget [] budget {} :=
    { bytes := rfl, lfCount := rfl, final := rfl, maxFileBytes := rfl, maxTotalBytes := rfl
      total := rfl, within := Nat.zero_le _ }
  exact hstart.measureRounds_exact hcancelled hbudget hread 0

namespace SampleStream

/-- A reader that hands out at most three bytes at a time, after one interruption. -/
def read : Reader (Bool × Bytes) Empty
  | _, (true, stream) => (.interrupted, (false, stream))
  | bound, (false, stream) =>
      let front := stream.take (min bound 3)
      (.read front.length front, (false, stream.drop front.length))

theorem delivers_false (stream : Bytes) : Delivers read (false, stream) stream := by
  induction hlength : stream.length using Nat.strongRecOn generalizing stream with
  | _ n ih =>
      constructor
      · intro bound hbound
        refine ⟨rfl, ?_, List.take_prefix _ _, ?_⟩
        · rw [List.length_take]
          omega
        · intro hzero
          rw [List.length_take] at hzero
          exact List.eq_nil_of_length_eq_zero (by omega)
      · intro bound hbound hmore
        refine ih _ ?_ _ rfl
        -- no bytes are the end, so that some bytes are gone
        have hpos : (stream.take (min bound 3)).length ≠ 0 := by
          intro hzero
          simp only [read, hzero, ReadOutcome.isEnd, Bool.true_eq_false] at hmore
        show (stream.drop (stream.take (min bound 3)).length).length < n
        rw [List.length_drop, ← hlength]
        rw [List.length_take] at hpos ⊢
        omega

theorem delivers (stream : Bytes) : Delivers read (true, stream) stream :=
  .intro (fun _ _ => trivial) fun _ _ _ => delivers_false stream

def budget : MeasurementBudgetV1 where
  maxFileBytes := 5
  maxTotalBytes := 8
  totalBytesRead := 2
  maxFileBytes_le := by decide
  maxTotalBytes_le := by decide
  totalBytesRead_le := by decide

theorem measurement_exact_at_limit :
    budget.limit = 5 ∧ ∃ rounds measured,
      measureStreamV1 read (fun _ => false) rounds
        (true, [97, 10, 98, 10, 99]) budget = some measured ∧
        measured.result = .ok { lines := 3, bytes := 5 } := by
  obtain ⟨rounds, measured, hrun, hexact⟩ := measurement_exact read (fun _ => false) (fun _ => rfl)
    budget (by decide) (true, [97, 10, 98, 10, 99]) _ (delivers _)
  exact ⟨rfl, rounds, measured, hrun, (hexact.within (by decide)).1⟩

def almostSpent : MeasurementBudgetV1 where
  maxFileBytes := 100
  maxTotalBytes := u64Max
  totalBytesRead := u64Max - 2
  maxFileBytes_le := by decide
  maxTotalBytes_le := by decide
  totalBytesRead_le := by decide

/-- A stream that is too long for a total of `u64::MAX` is not refused with a limit. -/
theorem total_counter_overflows :
    almostSpent.totalBytesRead ≤ almostSpent.maxTotalBytes ∧
      Delivers read (true, [97, 98, 99, 100]) [97, 98, 99, 100] ∧
      (measureStreamV1 read (fun _ => false) 3 (true, [97, 98, 99, 100]) almostSpent).map
        Measured.result =
          some (.error { kind := .counterOverflow, observedBytes := 3, limitBytes := none }) :=
  ⟨by decide, delivers _, by decide⟩

end SampleStream

end Jig.FileBudget

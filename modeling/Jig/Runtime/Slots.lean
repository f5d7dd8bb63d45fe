import Mathlib.Algebra.Ring.Nat
import Mathlib.Logic.Relation

/-!
# Execution slots and the resource reservation

The capacity shared by ordinary workers and admitted resource wave members (`parallel/slots.rs`),
and the protocol in which the ready coordinator and the resource worker use it. The two are separate
threads; every operation of `ExecutionSlots` is atomic, so a run is an interleaving of
`CoordinatorStep`s (`parallel/ready.rs`) and `WorkerStep`s (`parallel/resource_waves.rs`).

Candidates are counted and not named: nothing here depends on which target a candidate is. A
coordinator pass that dispatches candidates has requested admission first
(`resource_admission_needed` looks at the queue the pass then walks through), which takes the
answers of the cancellation probe to be stable during a pass.
-/

namespace Jig.Runtime

/-! ## The slots -/

def maxParallelLayerTargets : Nat := 8

structure ResourcePreference where
  demand : Bool := false
  waveActive : Bool := false
  dispatching : Bool := false
  generation : Nat := 0
deriving DecidableEq, Repr

structure AdmissionSnapshot where
  generation : Nat
  dispatching : Bool
deriving DecidableEq, Repr

/-- `ExecutionSlots`: what the two `Arc`s point to. -/
structure ExecutionSlots where
  available : Nat
  preference : ResourcePreference
deriving DecidableEq, Repr

namespace ExecutionSlots

def new : ExecutionSlots :=
  ⟨maxParallelLayerTargets, {}⟩

variable (s : ExecutionSlots)

@[grind =]
def requestResourceAdmission : ExecutionSlots :=
  { s with preference :=
    { s.preference with
      generation := (s.preference.generation + 1) % 2 ^ 64
      dispatching := true
      demand := if s.preference.waveActive then s.preference.demand else true } }

@[grind =]
def finishResourceDispatch : ExecutionSlots :=
  { s with preference := { s.preference with dispatching := false } }

@[grind =]
def admissionSnapshot : AdmissionSnapshot :=
  ⟨s.preference.generation, s.preference.dispatching⟩

@[grind =]
def finishAdmission (snapshot : AdmissionSnapshot) (waitingForSlot : Bool) : ExecutionSlots :=
  if waitingForSlot then
    { s with preference := { s.preference with demand := true } }
  else if !snapshot.dispatching && !s.preference.dispatching &&
      s.preference.generation == snapshot.generation then
    { s with preference := { s.preference with demand := false } }
  else
    s

@[grind =]
def beginWave : ExecutionSlots :=
  { s with preference := { s.preference with waveActive := true, demand := false } }

@[grind =]
def endWave : ExecutionSlots :=
  { s with preference := { s.preference with waveActive := false, demand := true } }

@[grind =]
def setResourceDemand (demanded : Bool) : ExecutionSlots :=
  { s with preference := { s.preference with demand := demanded } }

def acquireWithMinimum (minimum : Nat) : Option ExecutionSlots :=
  if s.available > minimum then some { s with available := s.available - 1 } else none

@[grind =]
def tryAcquire : Option ExecutionSlots :=
  s.acquireWithMinimum 0

@[grind =]
def tryAcquireOrdinary : Option ExecutionSlots :=
  s.acquireWithMinimum s.preference.demand.toNat

/-- `drop` of an `ExecutionSlot`. -/
@[grind =]
def release : ExecutionSlots :=
  { s with available := s.available + 1 }

@[grind =]
theorem acquireWithMinimum_eq_some {slots slots' : ExecutionSlots} {minimum : Nat} :
    slots.acquireWithMinimum minimum = some slots' ↔
      minimum < slots.available ∧ slots' = { slots with available := slots.available - 1 } := by
  unfold acquireWithMinimum
  split
  · simp [eq_comm, *]
  · simp [*]

@[simp]
theorem finishAdmission_available (slots : ExecutionSlots) (snapshot : AdmissionSnapshot)
    (waiting : Bool) : (slots.finishAdmission snapshot waiting).available = slots.available := by
  unfold finishAdmission
  split
  · rfl
  · split <;> rfl

end ExecutionSlots

/-! ## The two processes -/

inductive CoordinatorPhase where
  | top
  /-- In the pass over the ready targets: whether admission was requested, and whether a resource
  target has been dispatched or accounted for since. -/
  | dispatch (requested accounted : Bool)
  | launch
  | receive
  /-- The loop has been left. -/
  | stopped
deriving DecidableEq, Repr

/-- Where the resource worker is in its loop. -/
inductive WorkerPhase where
  | scan
  | drain (snapshot : AdmissionSnapshot)
  | admission (snapshot : AdmissionSnapshot)
  /-- In `recv_timeout`. -/
  | await
  | formed
  | wave
  | release
  /-- The loop has returned. -/
  | exited (failed : Bool)
deriving DecidableEq, Repr

structure SlotSystem where
  slots : ExecutionSlots
  phase : CoordinatorPhase
  /-- Resource targets that are neither dispatched nor accounted for (`unsent_resources`). -/
  unsent : Nat
  /-- Candidates kept for a worker that is yet to be spawned. -/
  kept : Nat
  /-- Candidates sent and not drained. -/
  channel : Nat
  senderOpen : Bool
  worker : Option WorkerPhase
  /-- Candidates the worker has drained and not concluded. -/
  pending : Nat
  /-- Slots of ordinary workers. -/
  ordinary : Nat
  /-- Slots of wave members. -/
  members : Nat

namespace SlotSystem

def start (unsent : Nat) : SlotSystem :=
  { slots := .new, phase := .top, unsent, kept := 0, channel := 0, senderOpen := false,
    worker := none, pending := 0, ordinary := 0, members := 0 }

def live (s : SlotSystem) : Nat :=
  s.ordinary + s.members

/-- Does the resource worker still take arrivals? -/
@[grind =]
def Running (s : SlotSystem) : Prop :=
  ∃ phase, s.worker = some phase ∧ ∀ failed, phase ≠ .exited failed

end SlotSystem

inductive CoordinatorStep (s : SlotSystem) : SlotSystem → Prop where
  /-- `resource_admission_needed`: a ready resource target waits, so one is unsent. -/
  | request (hphase : s.phase = .top) (hunsent : 0 < s.unsent) :
      CoordinatorStep s
        { s with slots := s.slots.requestResourceAdmission, phase := .dispatch true false }
  | plainPass (hphase : s.phase = .top) :
      CoordinatorStep s { s with phase := .dispatch false false }
  | acquireOrdinary {slots : ExecutionSlots} {requested accounted : Bool}
      (hphase : s.phase = .dispatch requested accounted)
      (hslot : s.slots.tryAcquireOrdinary = some slots) :
      CoordinatorStep s { s with slots, ordinary := s.ordinary + 1 }
  /-- `dispatch_resource_candidate` with a sender. -/
  | send {unsent : Nat} {accounted : Bool}
      (hphase : s.phase = .dispatch true accounted) (hunsent : s.unsent = unsent + 1)
      (hsender : s.senderOpen = true) :
      CoordinatorStep s
        { s with channel := s.channel + 1, unsent, phase := .dispatch true true }
  /-- `dispatch_resource_candidate` without a sender. -/
  | keep {unsent : Nat} {accounted : Bool}
      (hphase : s.phase = .dispatch true accounted) (hunsent : s.unsent = unsent + 1)
      (hsender : s.senderOpen = false) :
      CoordinatorStep s { s with kept := s.kept + 1, unsent, phase := .dispatch true true }
  /-- A resource target is published without a start. -/
  | account {unsent : Nat} {requested accounted : Bool}
      (hphase : s.phase = .dispatch requested accounted) (hunsent : s.unsent = unsent + 1) :
      CoordinatorStep s { s with unsent, phase := .dispatch requested true }
  /-- A pass that requested admission dispatches or publishes what it requested it for. -/
  | finishDispatch {requested accounted : Bool}
      (hphase : s.phase = .dispatch requested accounted) (haccounted : requested → accounted) :
      CoordinatorStep s { s with slots := s.slots.finishResourceDispatch, phase := .launch }
  /-- A failed precondition blocks what the pass has admitted. -/
  | blockAdmitted (hphase : s.phase = .launch) :
      CoordinatorStep s { s with kept := 0, phase := .top }
  | spawn (hphase : s.phase = .launch) (hkept : 0 < s.kept) :
      CoordinatorStep s
        { s with
          worker := some .scan, pending := s.kept, kept := 0, channel := 0
          senderOpen := s.unsent != 0, phase := .receive }
  | launch (hphase : s.phase = .launch) (hkept : s.kept = 0) :
      CoordinatorStep s
        { s with
          slots := if s.worker.isNone then s.slots.setResourceDemand false else s.slots
          senderOpen := s.senderOpen && s.unsent != 0, phase := .receive }
  /-- `ResourcesFinished`, sent when all wave members are gone; an error of the worker ends the
  loop. -/
  | resourcesFinished {failed : Bool} (hphase : s.phase = .receive)
      (hworker : s.worker = some (.exited failed)) (hmembers : s.members = 0) :
      CoordinatorStep s
        { s with
          slots := s.slots.setResourceDemand false, senderOpen := false, worker := none
          phase := if failed then .stopped else .receive }
  | iterate (hphase : s.phase = .receive) :
      CoordinatorStep s { s with phase := .top }
  /-- The loop ends, normally or with an error, and drops its end of the arrivals. -/
  | stop :
      CoordinatorStep s { s with kept := 0, senderOpen := false, phase := .stopped }
  /-- The slot of an ordinary worker is dropped. -/
  | releaseOrdinary {ordinary : Nat} (hordinary : s.ordinary = ordinary + 1) :
      CoordinatorStep s { s with slots := s.slots.release, ordinary }

inductive WorkerStep (s : SlotSystem) : SlotSystem → Prop where
  | snapshot (hworker : s.worker = some .scan) :
      WorkerStep s { s with worker := some (.drain s.slots.admissionSnapshot) }
  | drainOne {snapshot : AdmissionSnapshot} {channel : Nat}
      (hworker : s.worker = some (.drain snapshot)) (hchannel : s.channel = channel + 1) :
      WorkerStep s { s with channel, pending := s.pending + 1 }
  | drainEnd {snapshot : AdmissionSnapshot}
      (hworker : s.worker = some (.drain snapshot)) (hchannel : s.channel = 0) :
      WorkerStep s { s with worker := some (.admission snapshot) }
  /-- Nothing is pending. -/
  | idle {snapshot : AdmissionSnapshot}
      (hworker : s.worker = some (.admission snapshot)) (hpending : s.pending = 0) :
      WorkerStep s
        { s with slots := s.slots.finishAdmission snapshot false, worker := some .await }
  | receiveOne {channel : Nat} (hworker : s.worker = some .await)
      (hchannel : s.channel = channel + 1) :
      WorkerStep s { s with channel, pending := s.pending + 1, worker := some .scan }
  | timeout (hworker : s.worker = some .await) :
      WorkerStep s { s with worker := some .scan }
  | disconnected (hworker : s.worker = some .await) (hchannel : s.channel = 0)
      (hsender : s.senderOpen = false) :
      WorkerStep s { s with worker := some (.exited false) }
  /-- A candidate is concluded, before or after it was admitted. -/
  | conclude {phase : WorkerPhase} {pending : Nat}
      (hworker : s.worker = some phase) (hrunning : ∀ failed, phase ≠ .exited failed)
      (hpending : s.pending = pending + 1) :
      WorkerStep s { s with pending }
  | acquire {snapshot : AdmissionSnapshot} {slots : ExecutionSlots}
      (hworker : s.worker = some (.admission snapshot)) (hslot : s.slots.tryAcquire = some slots) :
      WorkerStep s { s with slots, members := s.members + 1 }
  /-- The end of `admit_wave`. -/
  | finishAdmission {snapshot : AdmissionSnapshot} (waitingForSlot : Bool)
      (hworker : s.worker = some (.admission snapshot)) :
      WorkerStep s
        { s with slots := s.slots.finishAdmission snapshot waitingForSlot, worker := some .formed }
  | noWave (hworker : s.worker = some .formed) (hmembers : s.members = 0) :
      WorkerStep s { s with worker := some .scan }
  | beginWave (hworker : s.worker = some .formed) (hmembers : 0 < s.members) :
      WorkerStep s { s with slots := s.slots.beginWave, worker := some .wave }
  | endWave (hworker : s.worker = some .wave) :
      WorkerStep s { s with slots := s.slots.endWave, worker := some .release }
  | releaseMember {members : Nat} (hworker : s.worker = some .release)
      (hmembers : s.members = members + 1) :
      WorkerStep s { s with slots := s.slots.release, members }
  | waveDone (hworker : s.worker = some .release) (hmembers : s.members = 0) :
      WorkerStep s { s with worker := some .scan }
  /-- An error: the loop returns from anywhere, possibly inside a wave. -/
  | fail {phase : WorkerPhase} (hworker : s.worker = some phase)
      (hrunning : ∀ failed, phase ≠ .exited failed) :
      WorkerStep s { s with worker := some (.exited true) }
  /-- The members of an abandoned wave are dropped. -/
  | unwind {failed : Bool} {members : Nat}
      (hworker : s.worker = some (.exited failed)) (hmembers : s.members = members + 1) :
      WorkerStep s { s with slots := s.slots.release, members }

inductive SlotStep (s s' : SlotSystem) : Prop where
  | coordinator (h : CoordinatorStep s s')
  | worker (h : WorkerStep s s')

end Jig.Runtime

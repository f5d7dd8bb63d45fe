import Jig.Runtime.Slots

/-!
# No resource reservation is lost

The invariant of all interleavings of the coordinator and the resource worker. Its core is
`Reserved.fresh`: while the worker holds a snapshot, a dispatch it may have missed either was in its
window when the snapshot was taken or has moved the generation since. `finish_admission` then leaves
`demand` alone.
-/

namespace Jig.Runtime

variable (s : SlotSystem)

namespace SlotSystem

/-- Is the coordinator between `request_resource_admission` and `finish_resource_dispatch`? -/
@[grind =]
def inWindow : Prop :=
  ∃ accounted, s.phase = .dispatch true accounted

@[grind =]
def snapshot? : Option AdmissionSnapshot :=
  match s.worker with
  | some (.drain snapshot) => some snapshot
  | some (.admission snapshot) => some snapshot
  | _ => none

/-- A dispatch that the snapshot may have missed blocks the worker from clearing `demand`. -/
@[grind =]
def Blocks (snapshot : AdmissionSnapshot) : Prop :=
  snapshot.dispatching = true ∨ snapshot.generation < s.slots.preference.generation

end SlotSystem

/-- Slots are neither lost nor made. -/
def SlotSystem.Conserved : Prop :=
  s.slots.available + s.live = maxParallelLayerTargets

/-- The bookkeeping of the two processes, in interleavings that start with `total` resource
targets. -/
structure Accounted (total : Nat) (s : SlotSystem) : Prop where
  /-- Every request is for a target that is then dispatched or accounted for. -/
  generation : s.slots.preference.generation + s.unsent ≤
    total + if s.phase = .dispatch true false ∨ s.phase = .stopped then 1 else 0
  kept_worker : 0 < s.kept → s.worker = none
  kept_phase : 0 < s.kept → s.inWindow ∨ s.phase = .launch
  channel_worker : s.worker = none → s.phase ≠ .stopped → s.channel = 0
  sender : s.senderOpen = true → s.worker ≠ none
  closed : s.phase ≠ .stopped → s.worker ≠ none → s.senderOpen = false → s.unsent = 0
  finished : s.worker = some (.exited false) → s.channel = 0 ∧ s.senderOpen = false

/-- What keeps `demand` set. -/
structure Reserved (s : SlotSystem) : Prop where
  dispatching : s.inWindow → s.slots.preference.dispatching = true
  window : s.inWindow → s.slots.preference.waveActive = false → s.slots.preference.demand = true
  undrained : s.phase ≠ .stopped ∨ s.Running → 0 < s.channel →
    s.slots.preference.waveActive = false → s.slots.preference.demand = true
  kept : 0 < s.kept → s.slots.preference.waveActive = false → s.slots.preference.demand = true
  snapshot_le : ∀ snapshot ∈ s.snapshot?, snapshot.generation ≤ s.slots.preference.generation
  fresh : ∀ snapshot ∈ s.snapshot?, s.inWindow → s.Blocks snapshot
  drained : ∀ snapshot, s.worker = some (.admission snapshot) → 0 < s.channel → s.Blocks snapshot

variable {s}

section Steps

variable {total : Nat} {s' : SlotSystem} {snapshot : AdmissionSnapshot}

theorem SlotSystem.Conserved.step (h : s.Conserved) (hstep : SlotStep s s') : s'.Conserved := by
  cases hstep with
  | coordinator hstep =>
      cases hstep with
      | acquireOrdinary _ hslot =>
          obtain ⟨hmin, rfl⟩ := ExecutionSlots.acquireWithMinimum_eq_some.mp hslot
          simp only [SlotSystem.Conserved, SlotSystem.live] at h ⊢
          omega
      | releaseOrdinary hordinary =>
          simp only [SlotSystem.Conserved, SlotSystem.live, ExecutionSlots.release] at h ⊢
          omega
      | launch _ _ =>
          simp only [SlotSystem.Conserved]
          split
          · exact h
          · exact h
      | _ => exact h
  | worker hstep =>
      cases hstep with
      | acquire _ hslot =>
          obtain ⟨hmin, rfl⟩ := ExecutionSlots.acquireWithMinimum_eq_some.mp hslot
          simp only [SlotSystem.Conserved, SlotSystem.live] at h ⊢
          omega
      | releaseMember _ hmembers | unwind _ hmembers =>
          simp only [SlotSystem.Conserved, SlotSystem.live, ExecutionSlots.release] at h ⊢
          omega
      | idle _ _ | finishAdmission _ _ =>
          rw [SlotSystem.Conserved, ExecutionSlots.finishAdmission_available]
          exact h
      | _ => exact h

theorem Accounted.step (htotal : total < 2 ^ 64) (h : Accounted total s) (hstep : SlotStep s s') :
    Accounted total s' := by
  obtain ⟨hgeneration, hkeptWorker, hkeptPhase, hchannel, hsender, hclosed, hfinished⟩ := h
  cases hstep with
  | coordinator hstep =>
      cases hstep with
      | request hphase hunsent =>
          -- `unsent` bounds the requests still to come, so the generation does not wrap around
          have hnowrap : s.slots.preference.generation + 1 < 2 ^ 64 := by
            simp only [hphase, reduceCtorEq, or_self, if_false] at hgeneration
            omega
          constructor <;> grind -ring -linarith
      | keep hphase hunsent hclosedSender =>
          -- a worker whose arrivals are closed has no target left to wait for
          have hnone : s.worker = none := by
            cases hworker : s.worker with
            | none => rfl
            | some phase =>
                have hzero := hclosed (by simp [hphase]) (by simp [hworker]) hclosedSender
                omega
          constructor <;> grind -ring -linarith
      | _ => constructor <;> grind -ring -linarith
  | worker hstep => cases hstep <;> constructor <;> grind -ring -linarith

/-- The worker cannot clear `demand` behind a dispatch its snapshot may have missed. -/
theorem demand_finishAdmission (hblocks : s.Blocks snapshot)
    (hdemand : s.slots.preference.demand = true) (waiting : Bool) :
    (s.slots.finishAdmission snapshot waiting).preference.demand = true := by
  grind

/-- The end of an admission scan. -/
theorem Reserved.finishAdmission (ha : Accounted total s) (h : Reserved s)
    (hworker : s.worker = some (.admission snapshot)) (waiting : Bool) {next : WorkerPhase}
    (hnext : next = .await ∨ next = .formed) :
    Reserved
      { s with slots := s.slots.finishAdmission snapshot waiting, worker := some next } := by
  have hsnapshot : snapshot ∈ s.snapshot? := by simp [SlotSystem.snapshot?, hworker]
  have hrunning : s.Running := ⟨_, hworker, by simp⟩
  constructor
  case window =>
    intro hwindow hwave
    apply demand_finishAdmission (h.fresh snapshot hsnapshot hwindow)
    exact h.window hwindow (by grind)
  case undrained =>
    intro _ hchannel hwave
    apply demand_finishAdmission (h.drained snapshot hworker hchannel)
    exact h.undrained (Or.inr hrunning) hchannel (by grind)
  case kept =>
    intro hkept
    rw [ha.kept_worker hkept] at hworker
    cases hworker
  case dispatching =>
    have := h.dispatching
    grind
  all_goals rcases hnext with rfl | rfl <;> grind

theorem Reserved.coordinator (htotal : total < 2 ^ 64) (ha : Accounted total s) (h : Reserved s)
    (hstep : CoordinatorStep s s') : Reserved s' := by
  obtain ⟨hgeneration, hkeptWorker, hkeptPhase, hchannel, _, _, hfinished⟩ := ha
  obtain ⟨hdispatching, hwindow, hundrained, hkept, hle, hfresh, hdrained⟩ := h
  cases hstep with
  | request hphase hunsent =>
      have hnowrap : s.slots.preference.generation + 1 < 2 ^ 64 := by
        simp only [hphase, reduceCtorEq, or_self, if_false] at hgeneration
        omega
      constructor <;> grind -ring -linarith
  | launch hphase hnone =>
      -- `demand` is cleared only without a worker, and then nothing waits in a channel
      cases hworker : s.worker <;> constructor <;> grind -ring -linarith
  | _ => constructor <;> grind -ring -linarith

theorem Reserved.worker (ha : Accounted total s) (h : Reserved s) (hstep : WorkerStep s s') :
    Reserved s' := by
  cases hstep with
  | idle hworker _ => exact h.finishAdmission ha hworker false (Or.inl rfl)
  | finishAdmission waiting hworker => exact h.finishAdmission ha hworker waiting (Or.inr rfl)
  | _ =>
      obtain ⟨hdispatching, hwindow, hundrained, hkept, hle, hfresh, hdrained⟩ := h
      constructor <;> grind -ring -linarith

end Steps

/-! ## Every interleaving -/

/-- What holds in every state of every interleaving. -/
structure Reservation (s : SlotSystem) : Prop where
  /-- A candidate that is dispatched and not drained has its reservation, unless a wave is active. Only
  when the coordinator has stopped and the worker takes no arrivals is it given up. -/
  demand : 0 < s.kept ∨ (0 < s.channel ∧ (s.phase ≠ .stopped ∨ s.Running)) →
    s.slots.preference.waveActive = false → s.slots.preference.demand = true
  /-- Then the coordinator leaves the last slot alone, also when the worker has just returned. -/
  last_slot : ∀ requested accounted, s.phase = .dispatch requested accounted →
    0 < s.kept ∨ 0 < s.channel → s.slots.preference.waveActive = false →
    ∀ slots, s.slots.tryAcquireOrdinary = some slots → 0 < slots.available
  capacity : s.slots.available + s.live = maxParallelLayerTargets

theorem reservation (hconserved : s.Conserved) (h : Reserved s) :
    Reservation s where
  demand hundrained hwave := by
    rcases hundrained with hkept | ⟨hchannel, hactive⟩
    · exact h.kept hkept hwave
    · exact h.undrained hactive hchannel hwave
  last_slot requested accounted hphase hundrained hwave slots hslot := by
    have hdemand : s.slots.preference.demand = true := by
      rcases hundrained with hkept | hchannel
      · exact h.kept hkept hwave
      · exact h.undrained (Or.inl (by simp [hphase])) hchannel hwave
    obtain ⟨hmore, rfl⟩ := ExecutionSlots.acquireWithMinimum_eq_some.mp hslot
    rw [hdemand, Bool.toNat_true] at hmore
    exact Nat.sub_pos_of_lt hmore
  capacity := hconserved

theorem reserved_start (total : Nat) :
    (SlotSystem.start total).Conserved ∧ Accounted total (.start total) ∧
      Reserved (.start total) := by
  refine ⟨rfl, ?_, ?_⟩
  · constructor <;> simp [SlotSystem.start, ExecutionSlots.new]
  · constructor <;> simp [SlotSystem.start, SlotSystem.inWindow, SlotSystem.snapshot?]

/-- **Run lemma.** -/
theorem slots_run {total : Nat} (htotal : total < 2 ^ 64)
    (hrun : Relation.ReflTransGen SlotStep (.start total) s) :
    s.Conserved ∧ Accounted total s ∧ Reserved s := by
  induction hrun with
  | refl => exact reserved_start total
  | tail _ hstep ih =>
      obtain ⟨hconserved, ha, h⟩ := ih
      refine ⟨hconserved.step hstep, ha.step htotal hstep, ?_⟩
      cases hstep with
      | coordinator hstep => exact h.coordinator htotal ha hstep
      | worker hstep => exact h.worker ha hstep

/-- **No reservation is lost.** In every interleaving of the coordinator and the resource worker,
for any number of resource targets a `usize` can count. -/
theorem no_lost_reservation {total : Nat} (htotal : total < 2 ^ 64) {s : SlotSystem}
    (hrun : Relation.ReflTransGen SlotStep (.start total) s) : Reservation s := by
  obtain ⟨hconserved, _, h⟩ := slots_run htotal hrun
  exact reservation hconserved h

/-- A second candidate is sent between the worker's snapshot and the end of its scan. -/
def missedDispatch : SlotSystem :=
  { slots := ⟨8, { demand := true, dispatching := true, generation := 2 }⟩
    phase := .dispatch true true, unsent := 0, kept := 0, channel := 1, senderOpen := true
    worker := some (.admission ⟨1, false⟩), pending := 1, ordinary := 0, members := 0 }

theorem missedDispatch_reachable :
    Relation.ReflTransGen SlotStep (.start 2) missedDispatch := by
  refine .tail (.tail (.tail (.tail (.tail (.tail (.tail (.tail (.tail .refl
    (.coordinator (.request rfl (by decide))))
    (.coordinator (.keep rfl rfl rfl)))
    (.coordinator (.finishDispatch rfl (by decide))))
    (.coordinator (.spawn rfl (by decide))))
    (.worker (.snapshot rfl)))
    (.worker (.drainEnd rfl rfl)))
    (.coordinator (.iterate rfl)))
    (.coordinator (.request rfl (by decide))))
    (.coordinator (.send rfl rfl rfl))

theorem no_lost_reservation_missedDispatch : Reservation missedDispatch :=
  no_lost_reservation (by decide) missedDispatch_reachable

end Jig.Runtime

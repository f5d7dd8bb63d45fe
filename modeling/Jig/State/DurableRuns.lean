import Jig.State.JournalStage

/-!
# Durable runs stay readable

The invariant of the processes in `RunProtocol`, and what it gives in every interleaving.

A run goes through three stages. Before the queued event (`Fresh`) only the worker acts. While the
run is open (`Opened`) there is a single lease file, so that the processes that hold a lease are one
process: whoever records results knows which targets remain. Once the run has completed (`Settled`)
nobody appends a lifecycle event any more, since every process reads the journal before it would;
the lease file may be removed and created again, and the whole run may leave the journal.

The one record that needs neither the lease nor an open run is the cancellation:
`request_run_cancel` reads the run and appends without the lock in between. `CancelsInTime` excludes
that the run has left the journal by then.
-/

namespace Jig.State

open Contract Lib RunSystem

/-! ## Invariants -/

/-- A worker that appends nothing before it has read an open run. -/
def RunWorker.Settled : RunWorker → Prop
  | .holding _ .terminal | .holding _ (.failing _) | .holding _ .leaving | .finished | .crashed =>
      True
  | _ => False

/-- What the worker knows about the completed targets of an open run. -/
def RunWorker.Knows (plan : RunPlan) (done : List TargetId) : RunWorker → Prop
  | .idle | .opened _ | .holding _ .starting => False
  | .holding _ .queued => done = []
  | .holding _ (.running recorded) => recorded = done
  | .holding _ (.blocking _ loop) => loop.Remaining plan done
  | _ => True

/-- What an inspector knows about the completed targets of an open run. -/
def Inspector.Knows (plan : RunPlan) (done : List TargetId) : Inspector → Prop
  | .holding _ (.blocking loop) => loop.Remaining plan done
  | .holding _ .reread | .returned _ true | .failed true => False
  | _ => True

/-- An inspector once the run has completed. -/
def Inspector.Settled : Inspector → Prop
  | .holding _ (.blocking _) => False
  | .returned run true => run.result.status = .completed
  | _ => True

/-- No two processes hold the same lease file. -/
structure Exclusive (s : RunSystem) : Prop where
  worker : ∀ n lease, s.worker.lease = some lease → (s.inspectors n).lease ≠ some lease
  inspectors : ∀ n m lease, (s.inspectors n).lease = some lease →
    (s.inspectors m).lease = some lease → n = m

structure Fresh (plan : RunPlan) (s : RunSystem) : Prop where
  journal : s.journal = []
  archive : s.archive = []
  worker : s.worker = .idle ∨ s.worker = .crashed ∨
    (validateRunPlanStructure plan = .ok () ∧
      ∃ lease, s.leasePath = some lease ∧
        (s.worker = .opened lease ∨ s.worker = .holding lease .starting))
  inspectors : ∀ n, s.inspectors n = .idle ∨ s.inspectors n = .failed false ∨
    s.inspectors n = .crashed
  archivers : ∀ n, (s.archivers n).chosen = false

structure Opened (runId : String) (plan : RunPlan) (lease : Nat) (done : List TargetId)
    (s : RunSystem) : Prop where
  journal : JournalOpen runId plan s.journal done
  archive : s.archive = []
  leasePath : s.leasePath = some lease
  worker_lease : ∀ l, s.worker.lease = some l → l = lease
  inspector_handle : ∀ n l, (s.inspectors n).handle = some l → l = lease
  worker : s.worker.Knows plan done
  inspectors : ∀ n, (s.inspectors n).Knows plan done
  archivers : ∀ n, (s.archivers n).chosen = false

/-- The run has completed, and is in the journal or has left it as a whole. -/
structure Settled (runId : String) (plan : RunPlan) (s : RunSystem) : Prop where
  journal : (s.archive = [] ∧ JournalClosed runId plan s.journal) ∨
    (s.journal = [] ∧ JournalClosed runId plan s.archive)
  worker : s.worker.Settled
  inspectors : ∀ n, (s.inspectors n).Settled

inductive Stage (runId : String) (plan : RunPlan) (s : RunSystem) : Prop
  | fresh (h : Fresh plan s)
  | opened {lease : Nat} {done : List TargetId} (h : Opened runId plan lease done s)
  | settled (h : Settled runId plan s)

section

variable {runId : String} {plan : RunPlan} {s s' : RunSystem} {lease : Nat} {done : List TargetId}
  {task : WorkerTask} {n : Nat} {inspector : Inspector}

/-- A property of every inspector, once one has moved. -/
@[elab_as_elim]
theorem RunSystem.setInspector_cases {motive : Nat → Inspector → Prop} (moved : motive n inspector)
    (other : ∀ m, m ≠ n → motive m (s.inspectors m)) (m : Nat) :
    motive m ((s.setInspector n inspector).inspectors m) :=
  (Function.forall_update_iff s.inspectors motive).mpr ⟨moved, other⟩ m

/-- As long as no archiver has chosen the run and the journal does not show its completion, an
archiver only moves on. -/
theorem ArchiverStep.unchosen (hstep : ArchiverStep n s s')
    (hchosen : ∀ m, (s.archivers m).chosen = false)
    (hopen : ∀ {v}, RunLifecycleValidator.observeAll s.journal = .ok v → v.completedAtMs = none) :
    ∃ archivers, (∀ m, (archivers m).chosen = false) ∧ s' = { s with archivers } := by
  have hmove : ∀ archiver : Archiver, archiver.chosen = false →
      ∀ m, ((s.setArchiver n archiver).archivers m).chosen = false := fun _ hnew =>
    (Function.forall_update_iff s.archivers fun _ archiver => archiver.chosen = false).mpr
      ⟨hnew, fun m _ => hchosen m⟩
  cases hstep with
  | lockJournal | leave | crash => exact ⟨_, hmove _ rfl, rfl⟩
  | select _ _ hscan hended =>
      rw [hopen hscan] at hended
      cases hended
  | noLease hplace | probe hplace | unlock hplace | prune hplace | rewrite hplace =>
      cases hplace ▸ hchosen n

/-! ## Mutual exclusion -/

variable {l : Nat}

theorem Inspector.handle_of_lease (h : inspector.lease = some l) : inspector.handle = some l := by
  cases inspector <;> simp_all [Inspector.lease, Inspector.handle]

variable {worker : RunWorker}

/-- A process that locks a lease finds it free. -/
theorem Exclusive.setWorker (h : Exclusive s)
    (hlock : ∀ l, worker.lease = some l → s.worker.lease = some l ∨ s.LeaseFree l) :
    Exclusive (s.setWorker worker) where
  worker := by
    intro n l hl
    rcases hlock l hl with hold | hfree
    · exact h.worker n l hold
    · exact hfree.2.1 n
  inspectors := h.inspectors

theorem Exclusive.setInspector (h : Exclusive s) (hlock : ∀ l, inspector.lease = some l →
      (s.inspectors n).lease = some l ∨ s.LeaseFree l) :
    Exclusive (s.setInspector n inspector) where
  worker := by
    refine setInspector_cases ?_ fun m _ => h.worker m
    intro l hl hnew
    rcases hlock l hnew with hold | hfree
    · exact h.worker n l hl hold
    · exact hfree.1 hl
  inspectors := by
    have hother : ∀ j l, j ≠ n → (s.inspectors j).lease = some l → inspector.lease ≠ some l := by
      intro j l hj hlease hnew
      rcases hlock l hnew with hold | hfree
      · exact hj (h.inspectors j n l hlease hold)
      · exact hfree.2.1 j hlease
    intro m k l
    by_cases hm : m = n <;> by_cases hk : k = n
    · intro _ _
      rw [hm, hk]
    · subst hm
      simp only [setInspector, Function.update_self, Function.update_of_ne hk]
      intro hnew hold
      exact absurd hnew (hother k l hk hold)
    · subst hk
      simp only [setInspector, Function.update_self, Function.update_of_ne hm]
      intro hold hnew
      exact absurd hnew (hother m l hm hold)
    · simp only [RunSystem.setInspector, Function.update_of_ne hm, Function.update_of_ne hk]
      exact h.inspectors m k l

/-- The locks depend only on where the worker and the inspectors are. -/
theorem Exclusive.congr (h : Exclusive s) (hworker : s'.worker = s.worker)
    (hinspectors : s'.inspectors = s.inspectors) : Exclusive s' where
  worker := by
    rw [hworker, hinspectors]
    exact h.worker
  inspectors := by
    rw [hinspectors]
    exact h.inspectors

theorem Exclusive.workerStep (h : Exclusive s) (hstep : WorkerStep runId plan s s') :
    Exclusive s' := by
  -- Only `lockLease` takes a lease; every other step keeps it or releases it.
  have hkeep : ∀ {t : RunSystem} {l : Nat} {task task' : WorkerTask}, Exclusive t →
      t.worker = .holding l task → Exclusive (t.setWorker (.holding l task')) := by
    intro t l task task' ht hworker
    apply ht.setWorker
    intro l' hl'
    rw [hworker]
    exact Or.inl hl'
  have hrelease : ∀ {t : RunSystem} {worker : RunWorker}, Exclusive t → worker.lease = none →
      Exclusive (t.setWorker worker) := by
    intro t worker ht hnone
    apply ht.setWorker
    intro l hl
    rw [hnone] at hl
    cases hl
  cases hstep with
  | openLease => exact hrelease (h.congr rfl rfl) rfl
  | lockLease _ hfree =>
      apply h.setWorker
      intro l hl
      cases hl
      exact Or.inr hfree
  | queue _ hworker | run _ hworker => exact hkeep (h.congr rfl rfl) hworker
  | startTarget => exact h.congr rfl rfl
  | recordTarget _ hworker | complete _ _ hworker => exact hkeep (h.congr rfl rfl) hworker
  | fail _ hworker | blockRead hworker => exact hkeep h hworker
  | blockTarget _ _ hworker | blockComplete _ hworker => exact hkeep (h.congr rfl rfl) hworker
  | finish | crash => exact hrelease h rfl

theorem Exclusive.inspectorStep (h : Exclusive s) (hstep : InspectorStep runId n s s') :
    Exclusive s' := by
  have hkeep : ∀ {t : RunSystem} {inspector : Inspector}, Exclusive t →
      (inspector.lease = (t.inspectors n).lease ∨ inspector.lease = none) →
      Exclusive (t.setInspector n inspector) := by
    intro t inspector ht hlease
    apply ht.setInspector
    intro l hl
    rcases hlease with hsame | hnone
    · exact Or.inl (hsame.symm.trans hl)
    · cases hnone.symm.trans hl
  cases hstep with
  | observe =>
      refine hkeep h (Or.inr ?_)
      unfold Inspector.afterObserve
      split
      · rfl
      · split <;> rfl
  | openLease => exact hkeep (h.congr rfl rfl) (Or.inr rfl)
  | lockLease _ hfree =>
      apply h.setInspector
      intro l hl
      cases hl
      exact Or.inr hfree
  | wouldBlock | crash => exact hkeep h (Or.inr rfl)
  | recheck hplace =>
      apply hkeep h
      rw [hplace]
      unfold Inspector.afterRecheck
      split
      · exact Or.inr rfl
      · exact Or.inl rfl
  | blockRead hplace =>
      apply hkeep h
      rw [hplace]
      unfold Inspector.afterBlockRead
      split
      · exact Or.inr rfl
      · exact Or.inl rfl
  | blockTarget _ _ hplace | blockComplete _ hplace =>
      exact hkeep (h.congr rfl rfl) (Or.inl (congrArg Inspector.lease hplace).symm)
  | reread =>
      refine hkeep h (Or.inr ?_)
      unfold Inspector.afterReread
      split <;> rfl

theorem Exclusive.step (h : Exclusive s) (hstep : RunStep runId plan s s') : Exclusive s' := by
  cases hstep with
  | worker hstep => exact h.workerStep hstep
  | inspector n hstep => exact h.inspectorStep hstep
  | requester n hstep | archiver n hstep => cases hstep <;> exact h.congr rfl rfl

/-! ## The open stage -/

theorem BlockLoop.Remaining.cons {target : TargetRunResult} {pending : List TargetRunResult}
    {conclusions conclusions' : List RunConclusion}
    (h : BlockLoop.Remaining ⟨target :: pending, conclusions⟩ plan done) :
    (target.target ∈ plan.targets.map (·.target) ∧ target.target ∉ done) ∧
      BlockLoop.Remaining ⟨pending, conclusions'⟩ plan (done ++ [target.target]) := by
  obtain ⟨hnodup, hmem⟩ := h
  simp only [List.map_cons, List.nodup_cons, List.mem_cons] at hnodup hmem
  refine ⟨(hmem _).mp (Or.inl rfl), hnodup.2, ?_⟩
  intro t
  rw [List.mem_append, List.mem_singleton, not_or, ← and_assoc, ← hmem]
  constructor
  · intro ht
    exact ⟨Or.inr ht, fun heq => hnodup.1 (heq ▸ ht)⟩
  · intro ht
    exact ht.1.resolve_left ht.2

theorem BlockLoop.Remaining.all {conclusions : List RunConclusion}
    (h : BlockLoop.Remaining ⟨[], conclusions⟩ plan done) :
    ∀ t ∈ plan.targets.map (·.target), t ∈ done := by
  intro t ht
  by_contra hnew
  exact absurd ((h.mem t).mpr ⟨ht, hnew⟩) List.not_mem_nil

/-- Without a lease a process knows nothing about the completed targets. -/
theorem RunWorker.Knows.of_unleased (h : worker.Knows plan done) (hlease : worker.lease = none)
    (done' : List TargetId) : worker.Knows plan done' := by
  cases worker with
  | holding => cases hlease
  | _ => exact h

theorem RunWorker.Knows.settled (h : worker.Knows plan done) (hlease : worker.lease = none) :
    worker.Settled := by
  cases worker with
  | holding => cases hlease
  | _ => exact h

theorem Inspector.Knows.of_unleased (h : inspector.Knows plan done)
    (hlease : inspector.lease = none) (done' : List TargetId) : inspector.Knows plan done' := by
  cases inspector with
  | holding => cases hlease
  | returned run held | failed held => cases held <;> exact h
  | _ => exact h

theorem Inspector.Knows.settled (h : inspector.Knows plan done) (hlease : inspector.lease = none) :
    inspector.Settled := by
  cases inspector with
  | holding => cases hlease
  | returned run held =>
      cases held with
      | true => exact h.elim
      | false => trivial
  | _ => trivial

section Opened

variable {event : RunEventRecord} (h : Opened runId plan lease done s)

include h

/-- While the run is open, no inspector holds a lease next to the worker. -/
theorem Opened.inspector_unleased (hex : Exclusive s)
    (hworker : s.worker.lease = some l) (n : Nat) : (s.inspectors n).lease = none := by
  cases hn : (s.inspectors n).lease with
  | none => rfl
  | some l' =>
      have hl := h.worker_lease l hworker
      have hl' := h.inspector_handle n l' (Inspector.handle_of_lease hn)
      exact absurd (hl' ▸ hn) (hex.worker n lease (hl ▸ hworker))

theorem Opened.other_unleased (hex : Exclusive s)
    (hn : (s.inspectors n).lease = some l) {m : Nat} (hm : m ≠ n) :
    (s.inspectors m).lease = none := by
  cases hlease : (s.inspectors m).lease with
  | none => rfl
  | some l' =>
      have hl := h.inspector_handle n l (Inspector.handle_of_lease hn)
      have hl' := h.inspector_handle m l' (Inspector.handle_of_lease hlease)
      exact absurd (hex.inspectors m n lease (hl' ▸ hlease) (hl ▸ hn)) hm

theorem Opened.worker_unleased (hex : Exclusive s)
    (hn : (s.inspectors n).lease = some l) : s.worker.lease = none := by
  cases hworker : s.worker.lease with
  | none => rfl
  | some l' =>
      rw [h.inspector_unleased hex hworker n] at hn
      cases hn

/-- The worker moves on. -/
theorem Opened.setWorker (hlease : ∀ l, worker.lease = some l → s.worker.lease = some l)
    (hknows : worker.Knows plan done) : Opened runId plan lease done (s.setWorker worker) :=
  { h with worker_lease := fun l hl => h.worker_lease l (hlease l hl), worker := hknows }

/-- An inspector moves on. -/
theorem Opened.setInspector (hhandle : ∀ l, inspector.handle = some l → l = lease)
    (hknows : inspector.Knows plan done) :
    Opened runId plan lease done (s.setInspector n inspector) :=
  { h with
    inspector_handle := setInspector_cases hhandle fun m _ => h.inspector_handle m
    inspectors := setInspector_cases hknows fun m _ => h.inspectors m }

/-- A record that completes no target. -/
theorem Opened.append (hjournal : JournalOpen runId plan (s.journal ++ [event]) done) :
    Opened runId plan lease done (s.append event) :=
  { h with journal := hjournal }

section

variable (hex : Exclusive s) {done' : List TargetId}

include hex

/-- The worker records the result of a target. -/
theorem Opened.workerRecords (hworker : s.worker = .holding l task)
    (hjournal : JournalOpen runId plan (s.journal ++ [event]) done') {task' : WorkerTask}
    (hknows : (RunWorker.holding l task').Knows plan done') :
    Opened runId plan lease done' ((s.append event).setWorker (.holding l task')) :=
  { h with
    journal := hjournal
    worker_lease := fun l' hl' => h.worker_lease l' (by rw [hworker]; exact hl')
    worker := hknows
    inspectors := fun n =>
      (h.inspectors n).of_unleased (h.inspector_unleased hex (by rw [hworker]; rfl) n) done' }

/-- An inspector records the result of a target. -/
theorem Opened.inspectorRecords {task : InspectorTask} (hplace : s.inspectors n = .holding l task)
    (hjournal : JournalOpen runId plan (s.journal ++ [event]) done') {task' : InspectorTask}
    (hknows : (Inspector.holding l task').Knows plan done') :
    Opened runId plan lease done' ((s.append event).setInspector n (.holding l task')) := by
  have hlease : (s.inspectors n).lease = some l := by
    rw [hplace]
    rfl
  exact { h with
    journal := hjournal
    inspector_handle := setInspector_cases
      (fun l' hl' => h.inspector_handle n l' (hplace ▸ hl')) fun m _ => h.inspector_handle m
    worker := h.worker.of_unleased (h.worker_unleased hex hlease) done'
    inspectors := setInspector_cases hknows fun m hm =>
      (h.inspectors m).of_unleased (h.other_unleased hex hlease hm) done' }

/-- The worker appends the completed event. -/
theorem Opened.workerCompletes (hworker : s.worker = .holding l task)
    (hjournal : JournalClosed runId plan (s.journal ++ [event])) (hsettled : worker.Settled) :
    Settled runId plan ((s.append event).setWorker worker) where
  journal := Or.inl ⟨h.archive, hjournal⟩
  worker := hsettled
  inspectors := fun n =>
    (h.inspectors n).settled (h.inspector_unleased hex (by rw [hworker]; rfl) n)

/-- An inspector appends the completed event. -/
theorem Opened.inspectorCompletes {task : InspectorTask} (hplace : s.inspectors n = .holding l task)
    (hjournal : JournalClosed runId plan (s.journal ++ [event])) (hsettled : inspector.Settled) :
    Settled runId plan ((s.append event).setInspector n inspector) := by
  have hlease : (s.inspectors n).lease = some l := by
    rw [hplace]
    rfl
  exact ⟨Or.inl ⟨h.archive, hjournal⟩, h.worker.settled (h.worker_unleased hex hlease),
    setInspector_cases hsettled fun m hm =>
      (h.inspectors m).settled (h.other_unleased hex hlease hm)⟩

theorem Opened.workerStep (hstep : WorkerStep runId plan s s') : Stage runId plan s' := by
  have hknows := h.worker
  cases hstep with
  | openLease hworker | lockLease hworker | queue _ hworker => exact (hworker ▸ hknows).elim
  | run _ hworker =>
      rw [hworker] at hknows
      exact .opened (h.workerRecords hex hworker h.journal.running hknows.symm)
  | startTarget _ hworker _ hplanned hnew =>
      rw [hworker] at hknows
      exact .opened (h.append (h.journal.started hplanned (hknows ▸ hnew)))
  | recordTarget _ hworker _ hplanned hnew hstatus hconclusion =>
      rw [hworker] at hknows
      subst hknows
      exact .opened (h.workerRecords hex hworker
        (h.journal.recorded hplanned hnew hstatus hconclusion) rfl)
  | complete _ _ hworker _ hall =>
      rw [hworker] at hknows
      subst hknows
      exact .settled (h.workerCompletes hex hworker (h.journal.completed hall) trivial)
  | fail _ hworker =>
      refine .opened (h.setWorker ?_ trivial)
      intro l hl
      rw [hworker]
      exact hl
  | @blockRead l message hworker =>
      -- the run that is read is open, so its targets are blocked one by one
      obtain ⟨run, hread, hstatus, hremaining⟩ := h.journal.foldEvents
      have htask : WorkerTask.afterBlockRead message (s.runById runId) =
          .blocking message (.start run) := by
        unfold WorkerTask.afterBlockRead runById
        rw [hread]
        exact if_neg hstatus
      rw [htask]
      refine .opened (h.setWorker ?_ hremaining)
      intro l hl
      rw [hworker]
      exact hl
  | blockTarget nowMs _ hworker =>
      rw [hworker] at hknows
      obtain ⟨⟨hplanned, hnew⟩, hremaining⟩ := hknows.cons
      exact .opened (h.workerRecords hex hworker (h.journal.blocked nowMs hplanned hnew) hremaining)
  | blockComplete _ hworker =>
      rw [hworker] at hknows
      exact .settled (h.workerCompletes hex hworker (h.journal.completed hknows.all) trivial)
  | finish | crash => exact .opened (h.setWorker nofun trivial)

theorem Opened.inspectorStep (hstep : InspectorStep runId n s s') : Stage runId plan s' := by
  have hknows := h.inspectors n
  have hhandle := h.inspector_handle n
  obtain ⟨run, hread, hstatus, hremaining⟩ := h.journal.foldEvents
  cases hstep with
  | observe =>
      have hplace : Inspector.afterObserve (s.runById runId) = .observed run := by
        unfold Inspector.afterObserve runById
        rw [hread]
        exact if_neg hstatus
      rw [hplace]
      exact .opened (h.setInspector nofun trivial)
  | openLease =>
      -- The file exists, so that it is opened and not created.
      have hsame : s.leaseHandle = lease := by simp [leaseHandle, h.leasePath]
      have hopen : Opened runId plan lease done s.openRunLease :=
        { h with leasePath := congrArg some hsame }
      refine .opened (hopen.setInspector ?_ trivial)
      intro l hl
      cases hl
      exact hsame
  | lockLease hplace =>
      refine .opened (h.setInspector ?_ trivial)
      intro l hl
      exact hhandle l (hplace ▸ hl)
  | wouldBlock => exact .opened (h.setInspector nofun trivial)
  | @recheck l hplace =>
      have hnext : Inspector.afterRecheck l (s.runById runId) = .holding l .confirmed := by
        unfold Inspector.afterRecheck runById
        rw [hread]
        exact congrArg _ (if_neg hstatus)
      rw [hnext]
      refine .opened (h.setInspector ?_ trivial)
      intro l' hl'
      exact hhandle l' (hplace ▸ hl')
  | @blockRead l hplace =>
      have hnext : Inspector.afterBlockRead l (s.runById runId) =
          .holding l (.blocking (.start run)) := by
        unfold Inspector.afterBlockRead runById
        rw [hread]
        exact congrArg _ (if_neg hstatus)
      rw [hnext]
      refine .opened (h.setInspector ?_ hremaining)
      intro l' hl'
      exact hhandle l' (hplace ▸ hl')
  | blockTarget nowMs _ hplace =>
      rw [hplace] at hknows
      obtain ⟨⟨hplanned, hnew⟩, hremaining⟩ := hknows.cons
      exact .opened (h.inspectorRecords hex hplace (h.journal.blocked nowMs hplanned hnew)
        hremaining)
  | blockComplete _ hplace =>
      rw [hplace] at hknows
      exact .settled (h.inspectorCompletes hex hplace (h.journal.completed hknows.all) trivial)
  | reread hplace => exact (hplace ▸ hknows).elim
  | crash => exact .opened (h.setInspector nofun trivial)

end

theorem Opened.requesterStep (hstep : RequesterStep runId n s s') : Stage runId plan s' := by
  have hmove : ∀ {t : RunSystem} {requester : CancelRequester}, Opened runId plan lease done t →
      Stage runId plan (t.setRequester n requester) := fun ht => .opened { ht with }
  cases hstep with
  | read => exact hmove h
  | append => exact hmove (h.append h.journal.cancelled)
  | reread | crash => exact hmove h

theorem Opened.archiverStep (hstep : ArchiverStep n s s') :
    Stage runId plan s' := by
  obtain ⟨_, hchosen, rfl⟩ := hstep.unchosen h.archivers h.journal.completedAtMs_eq_none
  exact .opened { h with archivers := hchosen }

end Opened

/-! ## Before the queued event -/

section

variable (h : Fresh plan s)

include h

theorem Fresh.setInspector (hplace : inspector = .failed false ∨ inspector = .crashed) :
    Fresh plan (s.setInspector n inspector) :=
  { h with
    inspectors := setInspector_cases (Or.inr hplace) fun m _ => h.inspectors m }

/-- A worker with the lease has a valid plan, and has not started it. -/
theorem Fresh.holding (hworker : s.worker = .holding l task) :
    task = .starting ∧ validateRunPlanStructure plan = .ok () ∧ s.leasePath = some l := by
  obtain hidle | hcrashed | ⟨hplan, l', hpath, hopened | hholding⟩ := h.worker
  · simp [hworker] at hidle
  · simp [hworker] at hcrashed
  · simp [hworker] at hopened
  · rw [hworker, RunWorker.holding.injEq] at hholding
    exact ⟨hholding.2, hplan, hholding.1 ▸ hpath⟩

/-- The queued event opens the run under the lease of the worker. -/
theorem Fresh.queue (hworker : s.worker = .holding l .starting) (stamp : Stamp) :
    Opened runId plan l []
      ((s.append (queuedEvent runId plan stamp)).setWorker (.holding l .queued)) := by
  obtain ⟨-, hplan, hpath⟩ := h.holding hworker
  refine ⟨?_, h.archive, hpath, ?_, ?_, rfl, ?_, h.archivers⟩
  · simp only [append, setWorker, h.journal, List.nil_append]
    exact journalOpen_queued hplan
  · intro l' hl'
    cases hl'
    rfl
  · intro n l' hl'
    simp only [append, setWorker] at hl'
    rcases h.inspectors n with hplace | hplace | hplace <;> rw [hplace] at hl' <;> cases hl'
  · intro n
    simp only [append, setWorker]
    rcases h.inspectors n with hplace | hplace | hplace <;> rw [hplace] <;> trivial

theorem Fresh.workerStep (hstep : WorkerStep runId plan s s') :
    Stage runId plan s' := by
  cases hstep with
  | openLease _ hplan =>
      exact .fresh ⟨h.journal, h.archive, Or.inr (Or.inr ⟨hplan, _, rfl, Or.inl rfl⟩),
        h.inspectors, h.archivers⟩
  | @lockLease l hworker =>
      obtain hidle | hcrashed | ⟨hplan, l', hpath, hopened | hholding⟩ := h.worker
      · simp [hworker] at hidle
      · simp [hworker] at hcrashed
      · rw [hworker, RunWorker.opened.injEq] at hopened
        exact .fresh ⟨h.journal, h.archive,
          Or.inr (Or.inr ⟨hplan, l, hopened ▸ hpath, Or.inr rfl⟩), h.inspectors, h.archivers⟩
      · simp [hworker] at hholding
  | queue stamp hworker => exact .opened (h.queue hworker stamp)
  | crash =>
      exact .fresh ⟨h.journal, h.archive, Or.inr (Or.inl rfl), h.inspectors, h.archivers⟩
  | fail _ hworker htask | finish hworker htask =>
      cases (h.holding hworker).1
      simp at htask
  | run _ hworker | startTarget _ hworker | recordTarget _ hworker | complete _ _ hworker
  | blockRead hworker | blockTarget _ _ hworker | blockComplete _ hworker =>
      cases (h.holding hworker).1

theorem Fresh.inspectorStep (hstep : InspectorStep runId n s s') :
    Stage runId plan s' := by
  have hplaces := h.inspectors n
  cases hstep with
  | observe =>
      have hread : Inspector.afterObserve (s.runById runId) = .failed false := by
        unfold runById
        rw [h.journal]
        rfl
      exact .fresh (h.setInspector (Or.inl hread))
  | crash => exact .fresh (h.setInspector (Or.inr rfl))
  | openLease hplace | lockLease hplace | wouldBlock hplace | recheck hplace | blockRead hplace
  | blockTarget _ _ hplace | blockComplete _ hplace | reread hplace => simp [hplace] at hplaces

theorem Fresh.archiverStep (hstep : ArchiverStep n s s') :
    Stage runId plan s' := by
  obtain ⟨_, hchosen, rfl⟩ := hstep.unchosen h.archivers fun hscan => by
    rw [h.journal] at hscan
    cases hscan
    rfl
  exact .fresh { h with archivers := hchosen }

end

/-! ## After the completion -/

section

variable (h : Settled runId plan s)

include h

theorem Settled.setWorker (hworker : worker.Settled) :
    Stage runId plan (s.setWorker worker) :=
  .settled ⟨h.journal, hworker, h.inspectors⟩

theorem Settled.setInspector (hinspector : inspector.Settled) :
    Stage runId plan (s.setInspector n inspector) :=
  .settled ⟨h.journal, h.worker,
    setInspector_cases hinspector fun m _ => h.inspectors m⟩

/-- A read finds a completed run or no run at all. -/
theorem Settled.runById :
    (∃ run, s.runById runId = .ok run ∧ run.result.status = .completed) ∨
      ∃ message, s.runById runId = .error message := by
  rcases h.journal with ⟨-, hclosed⟩ | ⟨hempty, -⟩
  · exact Or.inl hclosed.foldEvents
  · refine Or.inr ⟨s!"run '{runId}' was not found", ?_⟩
    unfold RunSystem.runById
    rw [hempty]
    rfl

theorem Settled.workerStep (hstep : WorkerStep runId plan s s') :
    Stage runId plan s' := by
  have hworker' := h.worker
  cases hstep with
  | openLease hworker | lockLease hworker | queue _ hworker | run _ hworker | startTarget _ hworker
  | recordTarget _ hworker | complete _ _ hworker | blockTarget _ _ hworker
  | blockComplete _ hworker => exact (hworker ▸ hworker').elim
  | fail => exact h.setWorker trivial
  | blockRead =>
      apply h.setWorker
      obtain ⟨run, hread, hstatus⟩ | ⟨message, hread⟩ := h.runById
      · simp only [hread, WorkerTask.afterBlockRead, hstatus, if_true]
        trivial
      · rw [hread]
        trivial
  | finish | crash => exact h.setWorker trivial

theorem Settled.inspectorStep (hstep : InspectorStep runId n s s') :
    Stage runId plan s' := by
  have hplaces := h.inspectors n
  cases hstep with
  | observe =>
      apply h.setInspector
      unfold Inspector.afterObserve
      split
      · trivial
      · split <;> trivial
  | openLease =>
      have hopen : Settled runId plan s.openRunLease := ⟨h.journal, h.worker, h.inspectors⟩
      exact hopen.setInspector trivial
  | lockLease | wouldBlock => exact h.setInspector trivial
  | recheck =>
      apply h.setInspector
      unfold Inspector.afterRecheck
      split
      · trivial
      · split <;> trivial
  | blockRead =>
      apply h.setInspector
      obtain ⟨run, hread, hstatus⟩ | ⟨message, hread⟩ := h.runById
      · simp only [hread, Inspector.afterBlockRead, hstatus, if_true]
        trivial
      · rw [hread]
        trivial
  | blockTarget _ _ hplace | blockComplete _ hplace => exact (hplace ▸ hplaces).elim
  | reread =>
      apply h.setInspector
      obtain ⟨run, hread, hstatus⟩ | ⟨message, hread⟩ := h.runById
      · rw [hread]
        exact hstatus
      · rw [hread]
        trivial
  | crash => exact h.setInspector trivial

theorem Settled.archiverStep (hstep : ArchiverStep n s s') :
    Stage runId plan s' := by
  cases hstep with
  | rewrite =>
      refine .settled ⟨Or.inr ⟨rfl, ?_⟩, h.worker, h.inspectors⟩
      rcases h.journal with ⟨harchive, hclosed⟩ | ⟨hjournal, hclosed⟩
      · simpa [setArchiver, harchive] using hclosed
      · simpa [setArchiver, hjournal] using hclosed
  | _ => exact .settled ⟨h.journal, h.worker, h.inspectors⟩

end

/-! ## Every interleaving -/

/-- A cancel requester appends its event while the run is still in the journal. -/
def CancelsInTime (s s' : RunSystem) : Prop :=
  ∀ n, s.requesters n = .requested → s'.requesters n = .appended → s.journal ≠ []

theorem Fresh.requesterStep (h : Fresh plan s) (hstep : RequesterStep runId n s s')
    (hcancels : CancelsInTime s s') : Stage runId plan s' := by
  have hmove : ∀ requester, Stage runId plan (s.setRequester n requester) := fun _ =>
    .fresh ⟨h.1, h.2, h.3, h.4, h.5⟩
  cases hstep with
  | append _ hplace => exact absurd h.journal (hcancels n hplace (Function.update_self ..))
  | read | reread | crash => exact hmove _

theorem Settled.requesterStep (h : Settled runId plan s) (hstep : RequesterStep runId n s s')
    (hcancels : CancelsInTime s s') :
    Stage runId plan s' := by
  have hmove : ∀ requester, Stage runId plan (s.setRequester n requester) := fun _ =>
    .settled ⟨h.1, h.2, h.3⟩
  cases hstep with
  | append _ hplace =>
      have hpresent := hcancels n hplace (Function.update_self ..)
      rcases h.journal with ⟨harchive, hclosed⟩ | ⟨hjournal, -⟩
      · exact .settled ⟨Or.inl ⟨harchive, hclosed.cancelled⟩, h.worker, h.inspectors⟩
      · exact absurd hjournal hpresent
  | read | reread | crash => exact hmove _

/-- **One step.** -/
theorem Stage.step (h : Stage runId plan s) (hex : Exclusive s) (hstep : RunStep runId plan s s')
    (hcancels : CancelsInTime s s') : Stage runId plan s' := by
  cases h with
  | fresh h =>
      cases hstep with
      | worker hstep => exact h.workerStep hstep
      | inspector n hstep => exact h.inspectorStep hstep
      | requester n hstep => exact h.requesterStep hstep hcancels
      | archiver n hstep => exact h.archiverStep hstep
  | opened h =>
      cases hstep with
      | worker hstep => exact h.workerStep hex hstep
      | inspector n hstep => exact h.inspectorStep hex hstep
      | requester n hstep => exact h.requesterStep hstep
      | archiver n hstep => exact h.archiverStep hstep
  | settled h =>
      cases hstep with
      | worker hstep => exact h.workerStep hstep
      | inspector n hstep => exact h.inspectorStep hstep
      | requester n hstep => exact h.requesterStep hstep hcancels
      | archiver n hstep => exact h.archiverStep hstep

/-- A run of the processes in which every cancellation comes in time. -/
abbrev TimelyRun (runId : String) (plan : RunPlan) : RunSystem → RunSystem → Prop :=
  Relation.ReflTransGen fun s s' => RunStep runId plan s s' ∧ CancelsInTime s s'

/-- **Every run.** -/
theorem stage_of_timelyRun (h : TimelyRun runId plan {} s) : Exclusive s ∧ Stage runId plan s := by
  induction h with
  | refl =>
      refine ⟨⟨nofun, nofun⟩, .fresh ⟨rfl, rfl, Or.inl rfl, fun _ => Or.inl rfl, fun _ => rfl⟩⟩
  | tail _ hstep ih =>
      obtain ⟨hex, hstage⟩ := ih
      exact ⟨hex.step hstep.1, hstage.step hex hstep.1 hstep.2⟩

/-- What the run journal keeps of a run. -/
structure Durable (runId : String) (s : RunSystem) : Prop where
  /-- The events of the run fold, unless there are none: the run has not been queued, or it has
  completed and an archiver has taken it out as a whole. -/
  readable : (∃ run, foldEvents runId s.journal = .ok run) ∨
    (s.journal = [] ∧ (s.archive = [] ∨
      ∃ run, foldEvents runId s.archive = .ok run ∧ run.result.status = .completed))
  completed_once : s.journal.countP (·.completesRun) ≤ 1
  target_completed_once : ∀ t, s.journal.countP (·.completesTarget t) ≤ 1
  /-- An inspector that comes to its end with the lease leaves the run completed. -/
  inspected : ∀ n, ((∃ run, s.inspectors n = .returned run true) ∨
      s.inspectors n = .failed true) →
    ∃ run, foldEvents runId (s.archive ++ s.journal) = .ok run ∧ run.result.status = .completed
  returned : ∀ n run, s.inspectors n = .returned run true → run.result.status = .completed

theorem TargetsOnce.le_one {events : List RunEventRecord} (h : TargetsOnce events done)
    (t : TargetId) : events.countP (·.completesTarget t) ≤ 1 := by
  rw [h t]
  split <;> omega

theorem Fresh.durable (h : Fresh plan s) : Durable runId s := by
  have hplace : ∀ n, ¬((∃ run, s.inspectors n = .returned run true) ∨
      s.inspectors n = .failed true) := by
    intro n hheld
    rcases h.inspectors n with hn | hn | hn <;> simp [hn] at hheld
  refine ⟨Or.inr ⟨h.journal, Or.inl h.archive⟩, ?_, ?_, ?_, ?_⟩
  · simp [h.journal]
  · simp [h.journal]
  · intro n hheld
    exact absurd hheld (hplace n)
  · intro n run hn
    exact absurd (Or.inl ⟨run, hn⟩) (hplace n)

theorem Opened.durable (h : Opened runId plan lease done s) : Durable runId s := by
  have hplace : ∀ n, ¬((∃ run, s.inspectors n = .returned run true) ∨
      s.inspectors n = .failed true) := by
    intro n hheld
    have hknows := h.inspectors n
    rcases hheld with ⟨run, hn⟩ | hn <;> exact (hn ▸ hknows).elim
  obtain ⟨run, hread, -⟩ := h.journal.foldEvents
  obtain ⟨_, -, -, -, honce, hcount⟩ := h.journal
  refine ⟨Or.inl ⟨run, hread⟩, ?_, honce.le_one, ?_, ?_⟩
  · rw [hcount]
    omega
  · intro n hheld
    exact absurd hheld (hplace n)
  · intro n run hn
    exact absurd (Or.inl ⟨run, hn⟩) (hplace n)

theorem Settled.durable (h : Settled runId plan s) : Durable runId s := by
  have hreturned : ∀ n run, s.inspectors n = .returned run true →
      run.result.status = .completed := by
    intro n run hn
    have hsettled := h.inspectors n
    rw [hn] at hsettled
    exact hsettled
  rcases h.journal with ⟨harchive, hclosed⟩ | ⟨hjournal, hclosed⟩
  · obtain ⟨run, hread, hstatus⟩ := hclosed.foldEvents
    obtain ⟨_, -, -, ⟨done, honce⟩, hcount⟩ := hclosed
    refine ⟨Or.inl ⟨run, hread⟩, by rw [hcount], honce.le_one, ?_, hreturned⟩
    intro n _
    exact ⟨run, by simpa [harchive] using hread, hstatus⟩
  · have hread := hclosed.foldEvents
    refine ⟨Or.inr ⟨hjournal, Or.inr hread⟩, by simp [hjournal], by simp [hjournal], ?_, hreturned⟩
    intro n _
    simpa [hjournal] using hread

theorem Stage.durable (h : Stage runId plan s) : Durable runId s := by
  cases h with
  | fresh h | opened h | settled h => exact h.durable

/-- A cancellation that comes too late is the only event of the run. -/
theorem journal_of_late_cancel (hstep : RunStep runId plan s s') (hlate : ¬CancelsInTime s s') :
    ∃ stamp, s'.journal = [simpleEvent runId .cancelRequested none none stamp] := by
  obtain ⟨n, hlate⟩ := not_forall.mp hlate
  obtain ⟨hrequested, hlate⟩ := Classical.not_imp.mp hlate
  obtain ⟨happended, hlate⟩ := Classical.not_imp.mp hlate
  have hjournal := not_not.mp hlate
  have hmoved : s'.requesters n ≠ s.requesters n := by
    rw [hrequested, happended]
    nofun
  cases hstep with
  | worker hstep | inspector m hstep | archiver m hstep => cases hstep <;> exact absurd rfl hmoved
  | requester m hstep =>
      by_cases hm : n = m
      · subst hm
        cases hstep with
        | read hplace => simp [hrequested] at hplace
        | append stamp =>
            refine ⟨stamp, ?_⟩
            simp [setRequester, append, hjournal]
        | reread hplace => simp [hrequested] at hplace
        | crash => simp [setRequester] at happended
      · refine absurd ?_ hmoved
        cases hstep <;> exact Function.update_of_ne hm ..

/-- **A run is durable as long as cancellations come in time**, and the first that comes too late
ends that. -/
theorem durable_iff_cancels_in_time (runId : String) (plan : RunPlan) :
    (∀ s, TimelyRun runId plan {} s → Durable runId s) ∧
      ∀ s s', TimelyRun runId plan {} s → RunStep runId plan s s' →
        (Durable runId s' ↔ CancelsInTime s s') := by
  refine ⟨fun s hrun => (stage_of_timelyRun hrun).2.durable, ?_⟩
  intro s s' hrun hstep
  constructor
  · intro hdurable
    by_contra hlate
    obtain ⟨stamp, hjournal⟩ := journal_of_late_cancel hstep hlate
    have hunread : ¬∃ run, foldEvents runId s'.journal = .ok run := by
      intro hread
      obtain ⟨run, hread⟩ := hread
      rw [foldEvents_eq_ok, hjournal] at hread
      simp [foldEvent, simpleEvent_kind, requireRun, bind, Except.bind] at hread
    rcases hdurable.readable with hread | ⟨hempty, -⟩
    · exact hunread hread
    · simp [hjournal] at hempty
  · intro hcancels
    exact (stage_of_timelyRun (hrun.tail ⟨hstep, hcancels⟩)).2.durable

end

/-- The plan of an affected run with nothing to do. -/
def emptyPlan : RunPlan :=
  { id := "run-plan_empty"
    configDigest := "sha256:config"
    source := ⟨some "abc", "sha256:worktree"⟩
    targets := []
    executionLayers := [] }

def emptyRunEvents (stamp : Stamp) : List RunEventRecord :=
  [queuedEvent "run-1" emptyPlan stamp, simpleEvent "run-1" .running none none stamp,
    simpleEvent "run-1" .completed none (some .success) stamp]

theorem observeAll_emptyRunEvents :
    ∃ v, RunLifecycleValidator.observeAll (emptyRunEvents ⟨"run_event_1", 1⟩) = .ok v ∧
      v.completedAtMs = some 1 := by
  have hrun : isOkAnd (RunLifecycleValidator.observeAll (emptyRunEvents ⟨"run_event_1", 1⟩))
      (·.completedAtMs = some 1) = true := by decide
  obtain ⟨v, hv, hended⟩ := exists_of_isOkAnd hrun
  exact ⟨v, hv, of_decide_eq_true hended⟩

/-- A requester reads the queued run; before it appends, the run completes and is archived. -/
theorem late_cancellation_unreadable :
    ∃ s, Relation.ReflTransGen (RunStep "run-1" emptyPlan) {} s ∧ s.journal ≠ [] ∧
      foldEvents "run-1" s.journal =
        .error "run 'run-1' has a cancel_requested event before queued" := by
  let stamp : Stamp := ⟨"run_event_1", 1⟩
  obtain ⟨v, hscan, hended⟩ := observeAll_emptyRunEvents
  have hstart : Relation.ReflTransGen (RunStep "run-1" emptyPlan) {} {} := .refl
  -- The worker queues the run.
  have hopened := hstart.tail (.worker (.openLease rfl (by decide) (by decide)))
  have hlocked := hopened.tail (.worker (.lockLease rfl ⟨nofun, nofun, nofun⟩))
  have hqueued := hlocked.tail (.worker (.queue stamp rfl fun _ => rfl))
  -- The requester finds it neither completed nor cancelled.
  have hrequested := hqueued.tail (.requester 0 (.read rfl fun _ => rfl))
  -- The worker completes the run and releases the lease.
  have hrunning := hrequested.tail (.worker (.run stamp rfl fun _ => rfl))
  have hcompleted := hrunning.tail (.worker (.complete .success stamp rfl (fun _ => rfl) nofun))
  have hfinished := hcompleted.tail (.worker (.finish rfl (Or.inl rfl)))
  -- An archiver takes it out of the journal.
  have hscanning := hfinished.tail (.archiver 0 (.lockJournal rfl fun _ => rfl))
  have hselected := hscanning.tail (.archiver 0 (.select 2 rfl hscan hended (by decide)))
  have hprobing := hselected.tail (.archiver 0 (.probe rfl rfl ⟨nofun, nofun, ?_⟩))
  have hunleased := hprobing.tail (.archiver 0 (.unlock rfl))
  have hpruned := hunleased.tail (.archiver 0 (.prune rfl))
  have harchived := hpruned.tail (.archiver 0 (.rewrite rfl))
  -- The requester appends to a journal that no longer has the run.
  have happended := harchived.tail (.requester 0 (.append stamp rfl ?_))
  · refine ⟨_, happended, nofun, rfl⟩
  · intro n
    cases n <;> rfl
  · intro n
    cases n <;> simp [setArchiver, Archiver.lease, setWorker,
      setRequester, append, openRunLease]

end Jig.State

import Jig.Runtime.LayeredLoop
import Jig.State.Lifecycle

/-!
# The source epoch of a run

`ExecutionSourceEpoch` (`run_execution/source_epoch.rs`) holds the worktree fingerprint a run
trusts. Before a target starts the worktree is observed and compared with it; after a target ended
the worktree is observed again. A target that declares the `worktree` effect may change the
worktree, and then what is observed afterwards is trusted.

An observation is the fingerprint it returned or the error it failed with. The metrics keep the
number of observations; how long they took is left out.
-/

namespace Jig.Runtime

open Contract State

/-- A worktree fingerprint, or why there is none. -/
abbrev Fingerprint := Except String String

/-- `TargetCapture`, with the fields the effect policy reads or writes. -/
structure TargetCapture where
  conclusion : RunConclusion
  envelopeExitStatus : Int := 0
  stderr : String := ""
  findings : List Finding := []
  mayHaveExecuted : Bool := true
deriving DecidableEq

def finding (message source : String) : Finding :=
  { severity := .error, message, source }

section Policy

variable (planned : PlannedTarget)

def allowsWorktreeMutation : Bool :=
  planned.effects.contains .worktree

/-! ## The effect policy -/

/-- Report a violation of the effect policy. A success becomes the given conclusion. -/
def TargetCapture.violates (capture : TargetCapture) (message : String)
    (conclusion : RunConclusion) : TargetCapture :=
  let capture := { capture with
    stderr := capture.stderr ++ message ++ "\n"
    findings := capture.findings ++ [finding message "effect_policy"] }
  if capture.conclusion = .success then
    { capture with conclusion, envelopeExitStatus := max capture.envelopeExitStatus 1 }
  else
    capture

def blockForUnverifiableEffectPolicy (error : String) (capture : TargetCapture) : TargetCapture :=
  capture.violates
    (s!"could not verify the worktree effect invariant for target '{planned.target}': " ++ error)
    .blocked

/-- The comparison both policies for targets without a `worktree` effect make. -/
def enforceUnchanged (message : String → String) (planned : PlannedTarget) (expected : String)
    (current : Fingerprint) (capture : TargetCapture) : TargetCapture :=
  match current with
  | .ok actual =>
      if actual = expected then capture else capture.violates (message actual) .failure
  | .error error => blockForUnverifiableEffectPolicy planned error capture

def enforceDeclaredWorktreeEffect (expected : String) :
    Fingerprint → TargetCapture → TargetCapture :=
  enforceUnchanged (fun actual =>
    s!"the worktree fingerprint changed while target '{planned.target}' was running without a " ++
      s!"declared worktree effect (before {expected}, after {actual})") planned expected

def enforceReadOnlyLayerWorktreeEffect (expected : String) :
    Fingerprint → TargetCapture → TargetCapture :=
  enforceUnchanged (fun actual =>
    "the worktree fingerprint changed while a parallel read-only layer was running without a " ++
      s!"declared worktree effect (before {expected}, after {actual})") planned expected

end Policy

/-! ## The epoch -/

structure ExecutionSourceEpoch where
  trustedFingerprint : Fingerprint
  observedFingerprint : Fingerprint
  reuseObservationBeforeNextTarget : Bool
  observationCount : Nat

namespace ExecutionSourceEpoch

def fromPlan (fingerprint : String) : ExecutionSourceEpoch where
  trustedFingerprint := .ok fingerprint
  observedFingerprint := .ok fingerprint
  reuseObservationBeforeNextTarget := false
  observationCount := 0

variable (epoch : ExecutionSourceEpoch)

/-- `observe_with`, and the assignment that follows each of its calls. -/
def observeWith (observation : Fingerprint) : ExecutionSourceEpoch :=
  { epoch with
    observedFingerprint := observation
    observationCount := saturatingSucc epoch.observationCount }

def discardReusableObservation : ExecutionSourceEpoch :=
  { epoch with reuseObservationBeforeNextTarget := false }

/-- Compare what was observed before a start with the trusted fingerprint. -/
def startCheck (trusted : String) (current : Fingerprint) (changed : String → String)
    (unreadable : String → String) : Except String Unit :=
  match current with
  | .ok actual => if actual = trusted then .ok () else .error (changed actual)
  | .error error => .error (unreadable error)

variable (planned : PlannedTarget)

def targetStartCheck (trusted : String) (current : Fingerprint) : Except String Unit :=
  startCheck trusted current
    (fun actual => s!"target '{planned.target}' could not start because the worktree changed " ++
      "after plan validation or the last declared worktree effect " ++
      s!"(expected {trusted}, current {actual}); plan again")
    (fun error => "could not establish the worktree effect invariant before target " ++
      s!"'{planned.target}': {error}")

/-- The last observation serves as the precondition of the target. -/
def reuses : Bool :=
  epoch.reuseObservationBeforeNextTarget && !allowsWorktreeMutation planned

variable (observation : Fingerprint)

def prepareTargetWith : ExecutionSourceEpoch × Except String Unit :=
  match epoch.trustedFingerprint with
  | .error error => (epoch, .error error)
  | .ok trusted =>
      let reuse := epoch.reuses planned
      let epoch := epoch.discardReusableObservation
      let epoch := if reuse then epoch else epoch.observeWith observation
      (epoch, targetStartCheck planned trusted epoch.observedFingerprint)

def prepareQueuedReadOnlyTarget : ExecutionSourceEpoch × Except String Unit :=
  let epoch := epoch.discardReusableObservation.observeWith observation
  (epoch, epoch.trustedFingerprint >>= fun trusted => targetStartCheck planned trusted observation)

def prepareReadOnlyLayerWith (targetCount : Nat) (observation : Fingerprint) :
    ExecutionSourceEpoch × Except String Unit :=
  match epoch.trustedFingerprint with
  | .error error => (epoch, .error error)
  | .ok trusted =>
      (epoch.observeWith observation, startCheck trusted observation
        (fun actual => s!"parallel read-only layer of {targetCount} targets could not start " ++
          "because the worktree changed after plan validation or the last declared worktree " ++
          s!"effect (expected {trusted}, current {actual}); plan again")
        (fun error => "could not establish the worktree effect invariant before a parallel " ++
          s!"read-only layer of {targetCount} targets: {error}"))

def observeReadOnlyLayerPostconditionWith : ExecutionSourceEpoch :=
  (epoch.observeWith observation).discardReusableObservation

variable (current : Fingerprint)

def readOnlyPostconditionMatches : Bool :=
  match epoch.trustedFingerprint, current with
  | .ok expected, .ok actual => expected = actual
  | _, _ => false

def observeReadyReadOnlyPostconditionWith : ExecutionSourceEpoch :=
  let epoch := epoch.observeReadOnlyLayerPostconditionWith observation
  { epoch with
    reuseObservationBeforeNextTarget := epoch.readOnlyPostconditionMatches observation }

/-- Apply a policy that needs the trusted fingerprint. -/
def enforce (policy : String → Fingerprint → TargetCapture → TargetCapture)
    (capture : TargetCapture) : TargetCapture :=
  match epoch.trustedFingerprint with
  | .ok expected => policy expected current capture
  | .error error => blockForUnverifiableEffectPolicy planned error capture

variable (capture : TargetCapture)

def finishReadOnlyCompletion : TargetCapture :=
  epoch.enforce planned current (enforceDeclaredWorktreeEffect planned) capture

def finishStartedReadOnlyLayerTarget : TargetCapture :=
  epoch.enforce planned current (enforceReadOnlyLayerWorktreeEffect planned) capture

def finishTargetWith (observation : Fingerprint) : ExecutionSourceEpoch × TargetCapture :=
  if allowsWorktreeMutation planned && !capture.mayHaveExecuted then
    -- execution never began, so nobody's changes are adopted
    (epoch.discardReusableObservation, capture)
  else
    let epoch := { epoch.observeWith observation with
      reuseObservationBeforeNextTarget := observation.isOk }
    if allowsWorktreeMutation planned then
      ({ epoch with trustedFingerprint := observation },
        match observation with
        | .ok _ => capture
        | .error error => blockForUnverifiableEffectPolicy planned error capture)
    else
      (epoch, epoch.enforce planned observation (enforceDeclaredWorktreeEffect planned) capture)

end ExecutionSourceEpoch

/-! ## The executors

The three executors differ in when they call the epoch. `Execution` is what they have in common: the
epoch, the targets that were allowed to start and have no result yet, and a history of what
happened, which no code reads. -/

inductive TargetStop where
  | cancelled
  | timedOut
  | blocked (message : String)

def TargetStop.conclusion : TargetStop → RunConclusion
  | cancelled => .cancelled
  | timedOut => .timedOut
  | blocked _ => .blocked

/-- A target that was allowed to start, with the fingerprint trusted then and, once it has ended,
its capture. -/
structure RunningTarget where
  id : Nat
  planned : PlannedTarget
  trusted : String
  capture : Option TargetCapture := none

/-- What happens in a run. -/
inductive Event where
  /-- The worktree was observed; the result may be trusted from then on. -/
  | observed (observation : Fingerprint) (adopted : Bool)
  | discarded
  /-- The target may start; the fingerprint is the trusted one. -/
  | allowed (id : Nat) (planned : PlannedTarget) (trusted : String)
  | ended (id : Nat)
  | finished (id : Nat) (planned : PlannedTarget) (conclusion : RunConclusion)

inductive ExecutorPhase where
  | sequential
  /-- A read-only layer or a wave runs. Some targets wait for a worker, and some have observed the
  worktree for themselves and wait for the lock of the epoch. -/
  | layer (queued : List PlannedTarget) (claims : List (PlannedTarget × Fingerprint))
  /-- The layer has ended and its postcondition was observed. -/
  | publishing (fingerprint : Fingerprint)
  | ready

structure Execution where
  epoch : ExecutionSourceEpoch
  phase : ExecutorPhase
  running : List RunningTarget := []
  nextId : Nat := 0
  history : List Event := []

namespace Execution

/-- An executor begins with the fingerprint of the plan. A plan whose targets are all read-only and
depend on each other goes to the ready executor; the other plans, and the resource worker of the
ready executor, go layer by layer. -/
def start (fingerprint : String) (ready : Bool) : Execution where
  epoch := .fromPlan fingerprint
  phase := if ready then .ready else .sequential

section Moves

variable (s : Execution)

def AtRest : Prop :=
  s.phase = .sequential ∧ s.running = []

def allow (planned : PlannedTarget) : Execution :=
  match s.epoch.trustedFingerprint with
  | .error _ => s
  | .ok trusted =>
      { s with
        running := s.running ++ [{ id := s.nextId, planned, trusted }]
        nextId := s.nextId + 1
        history := s.history ++ [.allowed s.nextId planned trusted] }

def allowAll (targets : List PlannedTarget) : Except String Unit → Execution
  | .ok () => targets.foldl allow s
  | .error _ => s

def publish (target : RunningTarget) (conclusion : RunConclusion) : Execution :=
  { s with
    running := s.running.filter (·.id ≠ target.id)
    history := s.history ++ [.finished target.id target.planned conclusion] }

/-- The conclusion a coordinated target keeps when its budget ran out meanwhile. -/
def stoppedConclusion (conclusion : RunConclusion) (stop : Option TargetStop) : RunConclusion :=
  match stop with
  | some stop =>
      if conclusion = .success ∨ conclusion = .blocked then stop.conclusion else conclusion
  | none => conclusion

/-- The epoch forgets a reusable observation: a target is skipped or blocked, or waits. -/
def discard : Execution :=
  { s with
    epoch := s.epoch.discardReusableObservation
    history := s.history ++ [.discarded] }

/-- Prepare a target, and let it and its batch start. -/
def prepare (planned : PlannedTarget) (batch : List PlannedTarget)
    (observation : Fingerprint) : Execution :=
  let observes := s.epoch.trustedFingerprint.isOk && !s.epoch.reuses planned
  let (epoch, precondition) := s.epoch.prepareTargetWith planned observation
  let observed := if observes then [Event.observed observation false] else []
  { s with epoch, history := s.history ++ observed }.allowAll (planned :: batch) precondition

def prepareLayer (cohort queued : List PlannedTarget) (observation : Fingerprint) :
    Execution :=
  let s := s.discard
  let observes := s.epoch.trustedFingerprint.isOk
  let (epoch, precondition) :=
    s.epoch.prepareReadOnlyLayerWith (cohort.length + queued.length) observation
  let observed := if observes then [Event.observed observation false] else []
  { s with
    epoch
    phase := if precondition.isOk then .layer queued [] else .sequential
    history := s.history ++ observed }.allowAll cohort precondition

/-- A worker observes the worktree for a queued target. -/
def claim (queued : List PlannedTarget)
    (claims : List (PlannedTarget × Fingerprint)) (planned : PlannedTarget)
    (observation : Fingerprint) : Execution :=
  { s with
    phase := .layer (queued.erase planned) ((planned, observation) :: claims)
    history := s.history ++ [.observed observation false] }

/-- The worker has the lock of the epoch. The discard of `prepare_queued_read_only_target` is not
recorded: `Execution.Reachable.discard_layer` says that it changes nothing. -/
def prepareQueued (queued : List PlannedTarget)
    (claims : List (PlannedTarget × Fingerprint)) (planned : PlannedTarget)
    (observation : Fingerprint) : Execution :=
  let (epoch, precondition) := s.epoch.prepareQueuedReadOnlyTarget planned observation
  { s with epoch, phase := .layer queued (claims.erase (planned, observation)) }.allowAll [planned]
    precondition

/-- A target that was allowed to start does not, because of a cancellation, the authority of the
repository or its budget. -/
def leaveUnstarted (id : Nat) : Execution :=
  { s with running := s.running.filter (·.id ≠ id) }

def endTarget (id : Nat) (capture : TargetCapture) : Execution :=
  { s with
    running := s.running.map fun target =>
      if target.id = id then { target with capture } else target
    history := s.history ++ [.ended id] }

def finishTarget (target : RunningTarget) (capture : TargetCapture)
    (observation : Fingerprint) (stop : Option TargetStop) : Execution :=
  let (epoch, finished) := s.epoch.finishTargetWith target.planned capture observation
  let event :=
    if allowsWorktreeMutation target.planned && !capture.mayHaveExecuted then Event.discarded
    else .observed observation (allowsWorktreeMutation target.planned)
  { s with epoch, history := s.history ++ [event] }.publish target
    (stoppedConclusion finished.conclusion stop)

/-- The postcondition of a layer or of a wave, or an observation the ready executor makes for a
wave. -/
def observeLayerPostcondition (phase : ExecutorPhase) (observation : Fingerprint) :
    Execution :=
  { s with
    epoch := s.epoch.observeReadOnlyLayerPostconditionWith observation
    phase
    history := s.history ++ [.observed observation false, .discarded] }

def finishLayerTarget (target : RunningTarget) (capture : TargetCapture)
    (fingerprint : Fingerprint) (stop : Option TargetStop) : Execution :=
  let finished := s.epoch.finishStartedReadOnlyLayerTarget target.planned fingerprint capture
  s.publish target (stoppedConclusion finished.conclusion stop)

/-- The ready executor observes the worktree once for a batch of completions and publishes them.
When the source has failed before, that failure takes the place of the observation. -/
def finishReadyBatch (batch : List (RunningTarget × TargetCapture))
    (observation : Fingerprint) (sourceFailure : Option String) : Execution :=
  let fingerprint := match sourceFailure with
    | some error => .error error
    | none => observation
  let epoch := s.epoch.observeReadyReadOnlyPostconditionWith observation
  batch.foldl (fun s (target, capture) =>
      s.publish target (epoch.finishReadOnlyCompletion target.planned fingerprint capture).conclusion)
    { s with epoch, history := s.history ++ [.observed observation false] }

end Moves

inductive Step : Execution → Execution → Prop where
  | discard {s} (h : s.AtRest ∨ s.phase = .ready) : Step s s.discard
  | prepareTarget {s} (planned observation) (h : s.AtRest) :
      Step s (s.prepare planned [] observation)
  | finishTarget {s} (target capture observation stop) (hphase : s.phase = .sequential)
      (htarget : target ∈ s.running) (hcapture : target.capture = some capture) :
      Step s (s.finishTarget target capture observation stop)
  | prepareLayer {s} (cohort queued observation) (h : s.AtRest)
      (hreadOnly : ∀ planned ∈ cohort ++ queued, isParallelReadOnlyCheck planned = true) :
      Step s (s.prepareLayer cohort queued observation)
  | claim {s queued claims} (planned observation) (hphase : s.phase = .layer queued claims)
      (hqueued : planned ∈ queued) : Step s (s.claim queued claims planned observation)
  | prepareQueued {s queued claims} (planned observation) (hphase : s.phase = .layer queued claims)
      (hclaim : (planned, observation) ∈ claims) :
      Step s (s.prepareQueued queued claims planned observation)
  | endLayer {s queued claims} (observation) (hphase : s.phase = .layer queued claims)
      (hended : ∀ target ∈ s.running, target.capture ≠ none) :
      Step s (s.observeLayerPostcondition (.publishing observation) observation)
  | observePostcondition {s} (observation) (h : s.AtRest ∨ s.phase = .ready) :
      Step s (s.observeLayerPostcondition s.phase observation)
  | finishLayerTarget {s fingerprint} (target capture stop)
      (hphase : s.phase = .publishing fingerprint) (htarget : target ∈ s.running)
      (hcapture : target.capture = some capture) :
      Step s (s.finishLayerTarget target capture fingerprint stop)
  | leaveLayer {s fingerprint} (hphase : s.phase = .publishing fingerprint)
      (hdone : s.running = []) : Step s { s with phase := .sequential }
  | prepareReady {s} (planned batch observation) (hphase : s.phase = .ready)
      (hreadOnly : ∀ target ∈ planned :: batch, isParallelReadOnlyCheck target = true) :
      Step s (s.prepare planned batch observation)
  | finishReadyBatch {s} (batch observation sourceFailure) (hphase : s.phase = .ready)
      (hbatch : ∀ entry ∈ batch, entry.1 ∈ s.running ∧ entry.1.capture = some entry.2) :
      Step s (s.finishReadyBatch batch observation sourceFailure)
  | leaveUnstarted {s} (target) (htarget : target ∈ s.running) (hcapture : target.capture = none) :
      Step s (s.leaveUnstarted target.id)
  | endTarget {s} (target capture) (htarget : target ∈ s.running)
      (hcapture : target.capture = none) : Step s (s.endTarget target.id capture)

def Reachable (fingerprint : String) (s : Execution) : Prop :=
  ∃ ready, Relation.ReflTransGen Step (start fingerprint ready) s

end Execution

end Jig.Runtime

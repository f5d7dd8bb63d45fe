import Jig.State.PlanStructure

/-!
# The ready queue

The counter-based queue of the ready dispatcher (`run_execution/parallel/ready/queue.rs`). Targets
are numbered by their place in the flattened execution layers. For every target the queue counts the
`depends_on` entries that are not yet published and remembers whether a published one failed; a
target whose count drops to zero becomes ready.

Vector indexing, checked subtraction and `expect` panic in the source. They are failures of the
model, so a result that says an operation returns also says that none of them fires.
-/

namespace Jig.Runtime

open Contract Lib State Std

/-- How runtime code stops early: with an error it raises itself, with an error of something it
calls, or by a panic. -/
inductive RunFailure where
  | bail (message : String)
  | propagated (message : String)
  | panic (message : String)
deriving DecidableEq, Repr

/-- The place of one phase among all phases (`jig-execution`). -/
structure PhasePosition where
  current : Nat
  total : Nat
  current_pos : 0 < current
  current_le : current ≤ total
deriving DecidableEq

def PhasePosition.new (current total : Nat) : Option PhasePosition :=
  if h : 0 < current ∧ current ≤ total then some ⟨current, total, h.1, h.2⟩ else none

variable (plan : RunPlan)

def plannedTarget (target : TargetId) : Except RunFailure PlannedTarget :=
  match plan.targets.find? (fun planned => planned.target = target) with
  | some planned => .ok planned
  | none => .error (.bail s!"run plan references missing target '{target}'")

/-- A planned target with its position, as the dispatchers number them. -/
abbrev PositionedTarget := PlannedTarget × PhasePosition

structure ReadyQueue where
  targets : List PositionedTarget
  ready : ExtTreeSet Nat
  failedDependency : List Bool
  unfinished : Nat
  dependents : List (List Nat)
  remainingDependencies : List Nat

/-! ## Construction -/

/-- The target at `index` of the flattened layers, with its position among all planned targets. -/
def positionedTarget (entry : TargetId × Nat) :
    Except RunFailure PositionedTarget := do
  let (target, index) := entry
  let planned ← plannedTarget plan target
  match PhasePosition.new (index + 1) plan.targets.length with
  | some position => .ok (planned, position)
  | none => .error (.panic "planned position is valid")

def targetIndices (targets : List PositionedTarget) : ExtTreeMap TargetId Nat :=
  insertAll (fun entry => entry.1.1.target) Prod.snd ∅ targets.zipIdx

/-- The tables that `ReadyQueue::new` fills in one pass. -/
structure DependencyTables where
  dependents : List (List Nat)
  remaining : List Nat
  ready : ExtTreeSet Nat

/-- One `depends_on` entry of target `index`. -/
def addDependency (indices : ExtTreeMap TargetId Nat) (index : Nat) (tables : DependencyTables)
    (dependency : TargetId) : Except RunFailure DependencyTables :=
  match indices[dependency]? with
  | none => .error (.bail s!"ready target has an unplanned dependency '{dependency}'")
  | some parent =>
      .ok { tables with
        dependents := tables.dependents.modify parent (· ++ [index])
        remaining := tables.remaining.modify index (· + 1) }

/-- All entries of one target; a target without any starts out ready. -/
def addTarget (indices : ExtTreeMap TargetId Nat) (tables : DependencyTables)
    (entry : PositionedTarget × Nat) : Except RunFailure DependencyTables := do
  let (target, index) := entry
  let tables ← target.1.dependsOn.foldlM (addDependency indices index) tables
  if tables.remaining[index]? = some 0 then
    .ok { tables with ready := tables.ready.insert index }
  else
    .ok tables

namespace ReadyQueue

def new : Except RunFailure ReadyQueue := do
  let targets ← plan.executionLayers.flatten.zipIdx.mapM (positionedTarget plan)
  let indices := targetIndices targets
  let tables ← targets.zipIdx.foldlM (addTarget indices)
    { dependents := List.replicate targets.length []
      remaining := List.replicate targets.length 0
      ready := ∅ }
  .ok
    { targets
      ready := tables.ready
      failedDependency := List.replicate targets.length false
      unfinished := targets.length
      dependents := tables.dependents
      remainingDependencies := tables.remaining }

/-! ## Publication -/

def releaseChild (conclusion : RunConclusion) (queue : ReadyQueue) (child : Nat) :
    Except RunFailure ReadyQueue :=
  match queue.failedDependency[child]?, queue.remainingDependencies[child]? with
  | some failed, some (remaining + 1) =>
      .ok { queue with
        failedDependency :=
          queue.failedDependency.set child (failed || conclusion ≠ .success)
        remainingDependencies := queue.remainingDependencies.set child remaining
        ready := if remaining = 0 then queue.ready.insert child else queue.ready }
  | some _, some 0 => .error (.panic "attempt to subtract with overflow")
  | _, _ => .error (.panic "index out of bounds")

/-- `ReadyQueue::publish`, after the result has been recorded durably. -/
def publish (queue : ReadyQueue) (index : Nat) (conclusion : RunConclusion) :
    Except RunFailure ReadyQueue :=
  match queue.unfinished, queue.dependents[index]? with
  | unfinished + 1, some children =>
      children.foldlM (releaseChild conclusion)
        { queue with ready := queue.ready.erase index, unfinished }
  | 0, _ => .error (.panic "attempt to subtract with overflow")
  | _, none => .error (.panic "index out of bounds")

/-- Taking a target for execution: `queue.ready.remove(&index)`. -/
def dispatch (queue : ReadyQueue) (index : Nat) : ReadyQueue :=
  { queue with ready := queue.ready.erase index }

end ReadyQueue

end Jig.Runtime

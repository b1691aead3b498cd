import Mathlib.Data.List.FinRange
import Exasphere.Lib.Select
import Exasphere.Sim.Types

/-!
# Runtime tasks and scheduling policies (`policies/*.zig`)

`RuntimeTask` of `engine.zig` and the four policies behind `SchedulerClass`. The part of a task that no step changes is
`TaskInfo`; `RuntimeTask` extends it with the counters. A slice of `n` runtime tasks is a function on `Fin n`, so a
stored task index is always in range. The selection loops of the policies are `firstBest` scans: over all tasks for
the chooser policies on one core, over a ready queue on several cores.
-/

namespace Exasphere.Sim

open Exasphere.Lib

/-- The fields of a runtime task that are fixed when it is created. -/
structure TaskInfo where
  id : Bytes
  arrivalTick : Nat
  burstTicks : Nat
  weight : Nat
  effectiveWeight : Nat
  groupId : Option Bytes
  groupIndex : Option Nat
  groupWeight : Nat
  groupQuotaTicks : Nat
  sleepAfterTicks : Option Nat
  sleepDuration : Nat
  phases : Option (List TaskPhase)
  deadlineTick : Option Nat
  inputOrder : Nat
  deriving DecidableEq

structure RuntimeTask extends TaskInfo where
  assignedCore : CoreId := 0
  remainingTicks : Nat
  totalExecuted : Nat := 0
  blockedTime : Nat := 0
  firstDispatchTick : Option Nat := none
  completionTime : Option Nat := none
  wakeTick : Option Nat := none
  lastExecutionTick : Option Nat := none
  vruntime : Nat := 0
  phaseIndex : Nat := 0
  phaseRemainingTicks : Nat
  state : TaskState := .pending
  deriving DecidableEq

/-- The errors of `simulate`, and the safety panics of the language. -/
inductive SimError
  | emptyScenario
  | taskExecutedTwiceInSameTick
  | invalidTaskPhaseTransition
  | incompleteSimulation
  | neverDispatchedTask
  | integerOverflow
  | indexOutOfBounds
  deriving DecidableEq, Repr

/-- `u32` addition. -/
abbrev addU32 (a b : Nat) : Except SimError Nat := addChecked .integerOverflow 32 a b

/-- `u64` addition. -/
abbrev addU64 (a b : Nat) : Except SimError Nat := addChecked .integerOverflow 64 a b

/-- `u32` subtraction. -/
abbrev subU32 (a b : Nat) : Except SimError Nat := subChecked .integerOverflow a b

/-! ## `fcfs.zig`, `round_robin.zig` -/

variable {n : Nat}

/-- `selectNext` of `fcfs.zig` and of `round_robin.zig`: the head of the queue and the queue without it. -/
def selectNext : List (Fin n) → Option (Fin n × List (Fin n))
  | [] => none
  | i :: rest => some (i, rest)

namespace RoundRobin

def shouldPreempt (currentQuantum quantum readyLen : Nat) : Bool :=
  decide (readyLen > 0 ∧ currentQuantum ≥ quantum)

end RoundRobin

/-! ## `cfs_like.zig` -/

namespace CfsLike

def vruntimeScale : Nat := 4096

def vruntimeDelta (weight : Nat) : Nat := (vruntimeScale + weight - 1) / weight

def betterCandidate (vruntimeA orderA vruntimeB orderB : Nat) : Bool :=
  decide (vruntimeA < vruntimeB ∨ (vruntimeA = vruntimeB ∧ orderA < orderB))

/-- `betterCandidate` on the keys of two tasks. -/
def better (a b : RuntimeTask) : Bool := betterCandidate a.vruntime a.inputOrder b.vruntime b.inputOrder

def onTaskTick (task : RuntimeTask) : Except SimError RuntimeTask := do
  let vruntime ← addU64 task.vruntime (vruntimeDelta task.effectiveWeight)
  .ok { task with vruntime }

end CfsLike

/-! ## `deadline.zig` -/

namespace Deadline

def betterCandidate (deadlineA : Option Nat) (orderA : Nat) (deadlineB : Option Nat) (orderB : Nat) : Bool :=
  let lhs := deadlineA.getD (2 ^ 32 - 1)
  let rhs := deadlineB.getD (2 ^ 32 - 1)
  decide (lhs < rhs ∨ (lhs = rhs ∧ orderA < orderB))

/-- `betterCandidate` on the keys of two tasks. -/
def better (a b : RuntimeTask) : Bool := betterCandidate a.deadlineTick a.inputOrder b.deadlineTick b.inputOrder

end Deadline

/-! ## `class.zig`, `extension.zig` -/

/-- A task the chooser policies consider. -/
def runnable (task : RuntimeTask) : Bool := decide (task.state = .ready ∨ task.state = .running)

/-- The loop shared by `chooseRunnable` and its variants: the first best task among the eligible ones. -/
def chooseFrom (better : RuntimeTask → RuntimeTask → Bool) (eligible : RuntimeTask → Bool)
    (runtimes : Fin n → RuntimeTask) : Option (Fin n) :=
  firstBest (fun i j => better (runtimes i) (runtimes j)) ((List.finRange n).filter (fun i => eligible (runtimes i)))

def CfsLike.chooseRunnable (runtimes : Fin n → RuntimeTask) : Option (Fin n) :=
  chooseFrom CfsLike.better runnable runtimes

def Deadline.chooseRunnable (runtimes : Fin n → RuntimeTask) : Option (Fin n) :=
  chooseFrom Deadline.better runnable runtimes

def chooseRunnableByVruntimeExcludingGroup (runtimes : Fin n → RuntimeTask) (excluded : Nat) : Option (Fin n) :=
  chooseFrom CfsLike.better (fun task => runnable task && !decide (task.groupIndex = some excluded)) runtimes

def chooseRunnableByDeadlineExcludingGroup (runtimes : Fin n → RuntimeTask) (excluded : Nat) : Option (Fin n) :=
  chooseFrom Deadline.better (fun task => runnable task && !decide (task.groupIndex = some excluded)) runtimes

structure ReadyChoice (n : Nat) where
  queueIndex : Nat
  taskIndex : Fin n

/-- The loop shared by `chooseBestReadyTaskByVruntime` and `chooseBestReadyTaskByDeadline`. -/
def chooseBestReadyTask (better : RuntimeTask → RuntimeTask → Bool) (runtimes : Fin n → RuntimeTask)
    (readyQueue : List (Fin n)) : Option (ReadyChoice n) :=
  (firstBest (fun a b => better (runtimes a.1) (runtimes b.1)) readyQueue.zipIdx).map
    (fun choice => ⟨choice.2, choice.1⟩)

def chooseBestReadyTaskByVruntime (runtimes : Fin n → RuntimeTask) (readyQueue : List (Fin n)) :
    Option (ReadyChoice n) :=
  chooseBestReadyTask CfsLike.better runtimes readyQueue

def chooseBestReadyTaskByDeadline (runtimes : Fin n → RuntimeTask) (readyQueue : List (Fin n)) :
    Option (ReadyChoice n) :=
  chooseBestReadyTask Deadline.better runtimes readyQueue

/-- `orderedRemove` of a choice: the task and the queue without its entry. -/
def removeChoice (readyQueue : List (Fin n)) (choice : ReadyChoice n) : Fin n × List (Fin n) :=
  (choice.taskIndex, readyQueue.eraseIdx choice.queueIndex)

namespace PolicyKind

/-- Whether the policy module declares `selectNext`. -/
def useSingleCoreReadyQueue : PolicyKind → Bool
  | .fcfs => true
  | .roundRobin => true
  | .cfsLike => false
  | .deadline => false

/-- Whether the policy module keeps a selected task that is already running. -/
def keepsRunningSelection (policy : PolicyKind) (task : RuntimeTask) : Bool :=
  match policy with
  | .fcfs => false
  | .roundRobin => false
  | .cfsLike => decide (task.state = .running)
  | .deadline => decide (task.state = .running)

/-- The selected task and the ready queue after the selection. -/
def selectNextSingle (policy : PolicyKind) (readyQueue : List (Fin n)) (runtimes : Fin n → RuntimeTask) :
    Option (Fin n × List (Fin n)) :=
  match policy with
  | .fcfs => selectNext readyQueue
  | .roundRobin => selectNext readyQueue
  | .cfsLike => (CfsLike.chooseRunnable runtimes).map (·, readyQueue)
  | .deadline => (Deadline.chooseRunnable runtimes).map (·, readyQueue)

def selectNextSingleExcludingGroup (policy : PolicyKind) (readyQueue : List (Fin n)) (runtimes : Fin n → RuntimeTask)
    (excluded : Nat) : Option (Fin n × List (Fin n)) :=
  match policy with
  | .fcfs => policy.selectNextSingle readyQueue runtimes
  | .roundRobin => policy.selectNextSingle readyQueue runtimes
  | .cfsLike => (chooseRunnableByVruntimeExcludingGroup runtimes excluded).map (·, readyQueue)
  | .deadline => (chooseRunnableByDeadlineExcludingGroup runtimes excluded).map (·, readyQueue)

def selectNextCore (policy : PolicyKind) (readyQueue : List (Fin n)) (runtimes : Fin n → RuntimeTask) :
    Option (Fin n × List (Fin n)) :=
  match policy with
  | .fcfs => selectNext readyQueue
  | .roundRobin => selectNext readyQueue
  | .cfsLike => (chooseBestReadyTaskByVruntime runtimes readyQueue).map (removeChoice readyQueue)
  | .deadline => (chooseBestReadyTaskByDeadline runtimes readyQueue).map (removeChoice readyQueue)

def shouldPreemptSingle (policy : PolicyKind) (current : Option (Fin n)) (currentQuantum quantum readyLen : Nat)
    (runtimes : Fin n → RuntimeTask) : Bool :=
  match current with
  | none => false
  | some i =>
    match policy with
    | .fcfs => false
    | .roundRobin => RoundRobin.shouldPreempt currentQuantum quantum readyLen
    | .cfsLike => (CfsLike.chooseRunnable runtimes).any (fun best => decide (best ≠ i))
    | .deadline => (Deadline.chooseRunnable runtimes).any (fun best => decide (best ≠ i))

def shouldPreemptCore (policy : PolicyKind) (current : Option (Fin n)) (currentQuantum quantum : Nat)
    (readyQueue : List (Fin n)) (runtimes : Fin n → RuntimeTask) : Bool :=
  match current with
  | none => false
  | some i =>
    match policy with
    | .fcfs => false
    | .roundRobin => RoundRobin.shouldPreempt currentQuantum quantum readyQueue.length
    | .cfsLike => (chooseBestReadyTaskByVruntime runtimes readyQueue).any
        (fun choice => CfsLike.better (runtimes choice.taskIndex) (runtimes i))
    | .deadline => (chooseBestReadyTaskByDeadline runtimes readyQueue).any
        (fun choice => Deadline.better (runtimes choice.taskIndex) (runtimes i))

def onTaskTick (policy : PolicyKind) (task : RuntimeTask) : Except SimError RuntimeTask :=
  match policy with
  | .fcfs => .ok task
  | .roundRobin => .ok task
  | .cfsLike => CfsLike.onTaskTick task
  | .deadline => .ok task

end PolicyKind

end Exasphere.Sim

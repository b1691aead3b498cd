import Mathlib.Logic.Function.Basic
import Exasphere.Sim.Policies

/-!
# The two engines (`sim/engine.zig`)

`simulateSingleCore` and `simulateMulticore`, one definition per source function. The mutable locals of both engines
are an `Engine n m`: `n` runtime tasks, `m` cores, the trace, the completion order, the number of completed tasks and
the tick. The single-core engine keeps its queue, current task and counters in the one core of an `Engine n 1`.

A `for` loop over tasks or cores is a `foldlM` of its body over the indices. The main loop counts `tick` in a `u32`,
so it ends or overflows within `2 ^ 32` iterations (`maxTicks`). What the two engines do alike to a dispatched or an
executing task is stated once (`dispatchTask`, `executeCurrent`).
-/

namespace Exasphere.Sim

open Exasphere.Lib

structure CoreState (n : Nat) where
  readyQueue : List (Fin n) := []
  current : Option (Fin n) := none
  currentQuantum : Nat := 0
  currentGroupIndex : Option Nat := none
  currentGroupRunTicks : Nat := 0

/-- The variables of a simulation with `n` tasks on `m` cores. -/
structure Engine (n m : Nat) where
  runtimes : Fin n → RuntimeTask
  cores : Fin m → CoreState n
  traceEntries : List TraceEntry := []
  completionOrder : List (Fin n) := []
  completed : Nat := 0
  tick : Nat := 0

variable {n m : Nat}

/-! ## Initial state -/

def combineWeight (taskWeight groupWeight : Nat) : Nat :=
  max 1 (min (taskWeight * groupWeight / defaultGroupWeight) maxTaskWeight)

/-- The index of a group and the group. -/
def findGroupInfo (scenario : ScenarioOwned) (id : Bytes) : Option (Nat × GroupSpec) :=
  (scenario.groups.zipIdx.find? (fun g => g.1.id = id)).map (fun g => (g.2, g.1))

/-- The first phase; an accepted phase list is not empty. -/
def initialPhaseTicks (task : TaskSpec) : Nat :=
  match task.phases with
  | some (phase :: _) => phase.ticks
  | some [] => 0
  | none => task.burstTicks

def initRuntime (scenario : ScenarioOwned) (task : TaskSpec) : RuntimeTask :=
  let info := task.groupId.bind (findGroupInfo scenario)
  { id := task.id
    arrivalTick := task.arrivalTick
    burstTicks := task.burstTicks
    weight := task.weight
    effectiveWeight := combineWeight task.weight (info.elim defaultGroupWeight (·.2.weight))
    groupId := task.groupId
    groupIndex := info.map (·.1)
    groupWeight := info.elim defaultGroupWeight (·.2.weight)
    groupQuotaTicks := info.elim 0 (·.2.quotaTicks)
    sleepAfterTicks := task.sleepAfterTicks
    sleepDuration := task.sleepDuration
    phases := task.phases
    deadlineTick := task.deadlineTick
    inputOrder := task.inputOrder
    remainingTicks := task.burstTicks
    phaseRemainingTicks := initialPhaseTicks task }

def initRuntimes (scenario : ScenarioOwned) : Fin scenario.tasks.length → RuntimeTask :=
  fun i => initRuntime scenario (scenario.tasks.get i)

def initEngine (scenario : ScenarioOwned) (m : Nat) : Engine scenario.tasks.length m :=
  { runtimes := initRuntimes scenario, cores := fun _ => {} }

/-! ## Trace entries -/

def domainIdForCore (scenario : ScenarioOwned) (core : CoreId) : Option Bytes :=
  (domainByCore scenario core).map DomainSpec.id

def taskEntry (scenario : ScenarioOwned) (tick : Nat) (kind : TraceEventKind) (task : RuntimeTask) (core : CoreId) :
    TraceEntry :=
  { tick, kind, taskId := some task.id, groupId := task.groupId, domainId := domainIdForCore scenario core,
    coreId := some core }

def idleEntry (tick : Nat) (core : CoreId) : TraceEntry :=
  { tick, kind := .idle, taskId := none, coreId := some core }

namespace Engine

def setTask (s : Engine n m) (i : Fin n) (task : RuntimeTask) : Engine n m :=
  { s with runtimes := Function.update s.runtimes i task }

def setCore (s : Engine n m) (c : Fin m) (core : CoreState n) : Engine n m :=
  { s with cores := Function.update s.cores c core }

def emit (s : Engine n m) (entry : TraceEntry) : Engine n m :=
  { s with traceEntries := s.traceEntries ++ [entry] }

/-- Append a task to the ready queue of a core. -/
def pushReady (s : Engine n m) (c : Fin m) (i : Fin n) : Engine n m :=
  s.setCore c { s.cores c with readyQueue := (s.cores c).readyQueue ++ [i] }

end Engine

/-! ## Phases -/

def advancePhaseAfterWake (task : RuntimeTask) : Except SimError RuntimeTask :=
  match task.phases with
  | none => .ok { task with phaseRemainingTicks := task.remainingTicks }
  | some phases =>
    match phases[task.phaseIndex + 1]? with
    | none => .error .invalidTaskPhaseTransition
    | some phase =>
      if phase.kind ≠ .cpu then .error .invalidTaskPhaseTransition
      else .ok { task with phaseIndex := task.phaseIndex + 1, phaseRemainingTicks := phase.ticks }

/-- The answer, and the task with its phase advanced when the answer is yes. -/
def shouldBlockAfterExecution (task : RuntimeTask) : Except SimError (Bool × RuntimeTask) :=
  match task.phases with
  | none => .ok (false, task)
  | some phases =>
    if task.phaseRemainingTicks ≠ 0 then .ok (false, task)
    else match phases[task.phaseIndex + 1]? with
      | none => .ok (false, task)
      | some phase =>
        if phase.kind ≠ .wait then .error .invalidTaskPhaseTransition
        else .ok (true, { task with phaseIndex := task.phaseIndex + 1, phaseRemainingTicks := phase.ticks })

/-! ## Dispatching and executing one task -/

/-- What both engines do when core `c` takes task `i`, leaving `queue` as its ready queue. -/
def dispatchTask (scenario : ScenarioOwned) (c : Fin m) (i : Fin n) (queue : List (Fin n)) (s : Engine n m) :
    Engine n m :=
  let task := s.runtimes i
  let core := s.cores c
  let task' : RuntimeTask :=
    { task with
      state := .running
      assignedCore := c
      firstDispatchTick := if task.firstDispatchTick = none then some s.tick else task.firstDispatchTick }
  let core' : CoreState n :=
    { readyQueue := queue
      current := some i
      currentQuantum := 0
      currentGroupIndex := task.groupIndex
      currentGroupRunTicks := if core.currentGroupIndex ≠ task.groupIndex then 0 else core.currentGroupRunTicks }
  ((s.setTask i task').setCore c core').emit (taskEntry scenario s.tick .dispatch task c)

/-- The counters of the executing task. -/
def chargeTick (tick : Nat) (task : RuntimeTask) : Except SimError RuntimeTask :=
  if task.lastExecutionTick = some tick then .error .taskExecutedTwiceInSameTick
  else do
    let remainingTicks ← subU32 task.remainingTicks 1
    let totalExecuted ← addU32 task.totalExecuted 1
    let phaseRemainingTicks ← subU32 task.phaseRemainingTicks 1
    .ok { task with remainingTicks, totalExecuted, phaseRemainingTicks, lastExecutionTick := some tick }

inductive Outcome
  | running
  | complete
  | block
  deriving DecidableEq, Repr

/-- Completion or blocking after the tick has been charged. -/
def settleTask (tick : Nat) (task : RuntimeTask) : Except SimError (Outcome × RuntimeTask) :=
  if task.remainingTicks = 0 then do
    let next ← addU32 tick 1
    .ok (.complete, { task with completionTime := some next, state := .complete })
  else do
    let (blocks, task) ← shouldBlockAfterExecution task
    if blocks then do
      let next ← addU32 tick 1
      let wake ← addU32 next task.phaseRemainingTicks
      .ok (.block, { task with state := .blocked, wakeTick := some wake })
    else .ok (.running, task)

/-- What both engines do with the current task `i` of core `c`, except for recording a completion. -/
def executeCurrent (scenario : ScenarioOwned) (policy : PolicyKind) (c : Fin m) (i : Fin n) (s : Engine n m) :
    Except SimError (Outcome × Engine n m) := do
  let core := s.cores c
  let charged ← chargeTick s.tick (s.runtimes i)
  let currentQuantum ← addU32 core.currentQuantum 1
  let currentGroupRunTicks ← addU32 core.currentGroupRunTicks 1
  let ticked ← policy.onTaskTick charged
  let (outcome, task) ← settleTask s.tick ticked
  let s := (s.emit (taskEntry scenario s.tick .tick (s.runtimes i) c)).setTask i task
  match outcome with
  | .running => .ok (.running, s.setCore c { core with currentQuantum, currentGroupRunTicks })
  | .complete =>
    .ok (.complete, { s.setCore c { readyQueue := core.readyQueue } with completed := s.completed + 1 })
  | .block =>
    .ok (.block, (s.setCore c { readyQueue := core.readyQueue }).emit
      (taskEntry scenario (s.tick + 1) .block task c))

/-! ## The single-core engine -/

section SingleCore

variable (scenario : ScenarioOwned) (policy : PolicyKind)

/-- A single-core machine has a core 0. -/
instance neZeroOne : NeZero 1 := ⟨Nat.one_ne_zero⟩

/-- Append to the single ready queue, for the policies that use it. -/
def pushSingle (i : Fin n) (s : Engine n 1) : Engine n 1 :=
  if policy.useSingleCoreReadyQueue then s.pushReady 0 i else s

def processBlockedSingleCoreAt (s : Engine n 1) (i : Fin n) : Except SimError (Engine n 1) :=
  let task := s.runtimes i
  if task.state ≠ .blocked then .ok s
  else if task.wakeTick = some s.tick then do
    let task ← advancePhaseAfterWake task
    .ok ((pushSingle policy i (s.setTask i { task with state := .ready, assignedCore := 0, wakeTick := none })).emit
      (taskEntry scenario s.tick .wakeup task 0))
  else do
    let blockedTime ← addU32 task.blockedTime 1
    .ok (s.setTask i { task with blockedTime })

def processBlockedSingleCore (s : Engine n 1) : Except SimError (Engine n 1) :=
  (List.finRange n).foldlM (processBlockedSingleCoreAt scenario policy) s

def enqueueArrivalsSingleCoreAt (s : Engine n 1) (i : Fin n) : Except SimError (Engine n 1) :=
  let task := s.runtimes i
  if task.state = .pending ∧ task.arrivalTick = s.tick then
    .ok ((pushSingle policy i (s.setTask i { task with assignedCore := 0, state := .ready })).emit
      (taskEntry scenario s.tick .arrival task 0))
  else .ok s

def enqueueArrivalsSingleCore (s : Engine n 1) : Except SimError (Engine n 1) :=
  (List.finRange n).foldlM (enqueueArrivalsSingleCoreAt scenario policy) s

def hasReadyTaskInOtherGroup (runtimes : Fin n → RuntimeTask) (group : Option Nat) : Bool :=
  (List.finRange n).any (fun i => decide ((runtimes i).state = .ready ∧ (runtimes i).groupIndex ≠ group))

def shouldPreemptForGroupQuota (current : Option (Fin n)) (runTicks : Nat) (runtimes : Fin n → RuntimeTask) : Bool :=
  match current with
  | none => false
  | some i =>
    if policy ≠ .cfsLike then false
    else if (runtimes i).groupQuotaTicks = 0 ∨ runTicks < (runtimes i).groupQuotaTicks then false
    else hasReadyTaskInOtherGroup runtimes (runtimes i).groupIndex

/-- The preemption step; the second component is `excluded_group_index`. -/
def preemptSingleCore (s : Engine n 1) : Engine n 1 × Option Nat :=
  let core := s.cores 0
  match core.current with
  | none => (s, none)
  | some i =>
    if policy.shouldPreemptSingle core.current core.currentQuantum scenario.roundRobinQuantum core.readyQueue.length
        s.runtimes || shouldPreemptForGroupQuota policy core.current core.currentGroupRunTicks s.runtimes then
      let s' := s.setTask i { s.runtimes i with state := .ready }
      let readyQueue := if policy.useSingleCoreReadyQueue then core.readyQueue ++ [i] else core.readyQueue
      let excluded :=
        if policy = .cfsLike ∧ shouldPreemptForGroupQuota policy core.current core.currentGroupRunTicks s'.runtimes
        then (s'.runtimes i).groupIndex else none
      ((s'.setCore 0 { readyQueue }).emit (taskEntry scenario s.tick .preempt (s.runtimes i) 0), excluded)
    else (s, none)

def dispatchSingleCore (excluded : Option Nat) (s : Engine n 1) : Engine n 1 :=
  let core := s.cores 0
  match core.current with
  | some _ => s
  | none =>
    let next :=
      match excluded with
      | some group => policy.selectNextSingleExcludingGroup core.readyQueue s.runtimes group
      | none => policy.selectNextSingle core.readyQueue s.runtimes
    match next with
    | none => s
    | some (i, queue) =>
      if policy.keepsRunningSelection (s.runtimes i) then
        s.setCore 0 { core with readyQueue := queue, current := some i }
      else dispatchTask scenario 0 i queue s

def executeSingleCore (s : Engine n 1) : Except SimError (Engine n 1) :=
  match (s.cores 0).current with
  | none => .ok (s.emit (idleEntry s.tick 0))
  | some i => do
    let task := s.runtimes i
    let s := s.setTask i
      { task with firstDispatchTick := if task.firstDispatchTick = none then some s.tick else task.firstDispatchTick }
    let (outcome, s') ← executeCurrent scenario policy 0 i s
    if outcome = .complete then
      .ok ({ s' with completionOrder := s'.completionOrder ++ [i] }.emit
        (taskEntry scenario (s'.tick + 1) .complete (s'.runtimes i) 0))
    else .ok s'

/-- Wakeups, arrivals, preemption and dispatch of one tick. -/
def scheduleSingleCore (s : Engine n 1) : Except SimError (Engine n 1) := do
  let s ← processBlockedSingleCore scenario policy s
  let s ← enqueueArrivalsSingleCore scenario policy s
  let (s, excluded) := preemptSingleCore scenario policy s
  .ok (dispatchSingleCore scenario policy excluded s)

end SingleCore

/-- The continue expression of both main loops. -/
def advanceTick (s : Engine n m) : Except SimError (Engine n m) := do
  let tick ← addU32 s.tick 1
  .ok { s with tick }

/-- One iteration of the loop of `simulateSingleCore`. -/
def stepSingleCore (scenario : ScenarioOwned) (policy : PolicyKind) (s : Engine n 1) :
    Except SimError (Engine n 1) := do
  let s ← scheduleSingleCore scenario policy s
  let s ← executeSingleCore scenario policy s
  advanceTick s

/-! ## Choosing cores -/

def coreLoad (core : CoreState n) : Nat := core.readyQueue.length + if core.current = none then 0 else 1

/-- An index into the slice of cores. -/
def coreIndex (m : Nat) (core : CoreId) : Except SimError (Fin m) :=
  if h : core < m then .ok ⟨core, h⟩ else .error .indexOutOfBounds

def domainCores (m : Nat) (domain : DomainSpec) : Except SimError (List (Fin m)) :=
  domain.cores.mapM (coreIndex m)

def domainLoad (cores : Fin m → CoreState n) (members : List (Fin m)) : Nat :=
  (members.map (fun c => coreLoad (cores c))).sum

/-- The first core of least load, of a slice that must not be empty. -/
def leastLoaded (cores : Fin m → CoreState n) (members : List (Fin m)) : Except SimError (Fin m) :=
  match firstBest (fun c d => decide (coreLoad (cores c) < coreLoad (cores d))) members with
  | some c => .ok c
  | none => .error .indexOutOfBounds

def chooseArrivalCore (scenario : ScenarioOwned) (cores : Fin m → CoreState n) : Except SimError (Fin m) := do
  if scenario.domains = [] then leastLoaded cores (List.finRange m)
  else
    let domains ← scenario.domains.mapM (domainCores m)
    match firstBest (fun a b => decide (domainLoad cores a < domainLoad cores b)) domains with
    | some members => leastLoaded cores members
    | none => .error .indexOutOfBounds

def firstIdleCore (cores : Fin m → CoreState n) : Option (Fin m) :=
  (List.finRange m).find? (fun c => decide ((cores c).current = none ∧ (cores c).readyQueue = []))

/-- The loop shared by `busiestReadyCore` and `busiestReadyCoreInDomain`. -/
def busiestReadyAmong (cores : Fin m → CoreState n) (exclude : Fin m) (members : List (Fin m)) : Option (Fin m) :=
  firstBest (fun c d => decide ((cores c).readyQueue.length > (cores d).readyQueue.length))
    (members.filter (fun c => decide (c ≠ exclude ∧ (cores c).readyQueue ≠ [])))

def busiestReadyCore (cores : Fin m → CoreState n) (exclude : Fin m) : Option (Fin m) :=
  busiestReadyAmong cores exclude (List.finRange m)

def busiestReadyCoreInDomain (cores : Fin m → CoreState n) (domain : DomainSpec) (exclude : Fin m) :
    Except SimError (Option (Fin m)) := do
  let members ← domainCores m domain
  .ok (busiestReadyAmong cores exclude members)

def chooseDonorCore (scenario : ScenarioOwned) (cores : Fin m → CoreState n) (recipient : Fin m) :
    Except SimError (Option (Fin m)) :=
  match domainByCore scenario recipient with
  | some domain => do
    match ← busiestReadyCoreInDomain cores domain recipient with
    | some donor => .ok (some donor)
    | none => .ok (busiestReadyCore cores recipient)
  | none => .ok (busiestReadyCore cores recipient)

/-! ## The multicore engine -/

section Multicore

variable (scenario : ScenarioOwned) (policy : PolicyKind)

def processBlockedMulticoreAt (s : Engine n m) (i : Fin n) : Except SimError (Engine n m) :=
  let task := s.runtimes i
  if task.state ≠ .blocked then .ok s
  else if task.wakeTick = some s.tick then do
    let task ← advancePhaseAfterWake task
    let c ← coreIndex m (if task.assignedCore < m then task.assignedCore else 0)
    .ok (((s.setTask i { task with state := .ready, wakeTick := none }).pushReady c i).emit
      (taskEntry scenario s.tick .wakeup task c))
  else do
    let blockedTime ← addU32 task.blockedTime 1
    .ok (s.setTask i { task with blockedTime })

def processBlockedMulticore (s : Engine n m) : Except SimError (Engine n m) :=
  (List.finRange n).foldlM (processBlockedMulticoreAt scenario) s

def enqueueArrivalsMulticoreAt (s : Engine n m) (i : Fin n) : Except SimError (Engine n m) :=
  let task := s.runtimes i
  if task.state = .pending ∧ task.arrivalTick = s.tick then do
    let c ← chooseArrivalCore scenario s.cores
    .ok (((s.setTask i { task with assignedCore := c, state := .ready }).pushReady c i).emit
      (taskEntry scenario s.tick .arrival task c))
  else .ok s

def enqueueArrivalsMulticore (s : Engine n m) : Except SimError (Engine n m) :=
  (List.finRange n).foldlM (enqueueArrivalsMulticoreAt scenario) s

def preemptMulticoreAt (s : Engine n m) (c : Fin m) : Engine n m :=
  let core := s.cores c
  match core.current with
  | none => s
  | some i =>
    if policy.shouldPreemptCore core.current core.currentQuantum scenario.roundRobinQuantum
        core.readyQueue s.runtimes then
      ((s.setTask i { s.runtimes i with state := .ready }).setCore c
        { core with readyQueue := core.readyQueue ++ [i], current := none, currentQuantum := 0 }).emit
        (taskEntry scenario s.tick .preempt (s.runtimes i) c)
    else s

def preemptMulticore (s : Engine n m) : Engine n m :=
  (List.finRange m).foldl (preemptMulticoreAt scenario policy) s

/-- Move the head of the donor's queue to the recipient's queue. -/
def migrateHead (recipient donor : Fin m) (s : Engine n m) : Engine n m :=
  match (s.cores donor).readyQueue with
  | [] => s
  | i :: rest =>
    ((s.setCore donor { s.cores donor with readyQueue := rest }).setTask i
      { s.runtimes i with assignedCore := recipient }).pushReady recipient i

/-- One iteration of `rebalanceReadyQueues`; `none` leaves the loop. -/
def rebalanceStep (s : Engine n m) : Except SimError (Option (Engine n m)) :=
  match firstIdleCore s.cores with
  | none => .ok none
  | some recipient => do
    match ← chooseDonorCore scenario s.cores recipient with
    | none => .ok none
    | some donor =>
      if (s.cores donor).readyQueue = [] ∨ coreLoad (s.cores donor) ≤ 1 then .ok none
      else .ok (some (migrateHead recipient donor s))

/-- At most `fuel` iterations. -/
def rebalanceLoop : Nat → Engine n m → Except SimError (Engine n m)
  | 0, s => .ok s
  | fuel + 1, s => do
    match ← rebalanceStep scenario s with
    | none => .ok s
    | some s' => rebalanceLoop fuel s'

/-- Every iteration fills an idle core and empties none, so `m` iterations are enough. -/
def rebalanceReadyQueues (s : Engine n m) : Except SimError (Engine n m) := rebalanceLoop scenario m s

def dispatchMulticoreAt (s : Engine n m) (c : Fin m) : Engine n m :=
  let core := s.cores c
  match core.current with
  | some _ => s
  | none =>
    match policy.selectNextCore core.readyQueue s.runtimes with
    | none => s
    | some (i, queue) => dispatchTask scenario c i queue s

def dispatchMulticore (s : Engine n m) : Engine n m :=
  (List.finRange m).foldl (dispatchMulticoreAt scenario policy) s

/-- One core of `executeMulticore`, with the list `completed_this_tick`. -/
def executeMulticoreAt (x : Engine n m × List (Fin n)) (c : Fin m) : Except SimError (Engine n m × List (Fin n)) :=
  match (x.1.cores c).current with
  | none => .ok (x.1.emit (idleEntry x.1.tick c), x.2)
  | some i => do
    let (outcome, s') ← executeCurrent scenario policy c i x.1
    .ok (s', if outcome = .complete then x.2 ++ [i] else x.2)

/-- The deferred completion entries. -/
def recordCompletion (s : Engine n m) (i : Fin n) : Engine n m :=
  { s with completionOrder := s.completionOrder ++ [i] }.emit
    (taskEntry scenario (s.tick + 1) .complete (s.runtimes i) (s.runtimes i).assignedCore)

def executeMulticore (s : Engine n m) : Except SimError (Engine n m) := do
  let (s, completedThisTick) ← (List.finRange m).foldlM (executeMulticoreAt scenario policy) (s, [])
  .ok (completedThisTick.foldl (recordCompletion scenario) s)

/-- Wakeups, arrivals, preemption, rebalancing and dispatch of one tick. -/
def scheduleMulticore (s : Engine n m) : Except SimError (Engine n m) := do
  let s ← processBlockedMulticore scenario s
  let s ← enqueueArrivalsMulticore scenario s
  let s ← rebalanceReadyQueues scenario (preemptMulticore scenario policy s)
  .ok (dispatchMulticore scenario policy s)

/-- One iteration of the loop of `simulateMulticore`. -/
def stepMulticore (s : Engine n m) : Except SimError (Engine n m) := do
  let s ← scheduleMulticore scenario policy s
  let s ← executeMulticore scenario policy s
  advanceTick s

end Multicore

/-! ## Results -/

def phaseCount (task : RuntimeTask) : Nat := task.phases.elim 1 List.length

def taskMetrics (task : RuntimeTask) : Except SimError TaskMetrics :=
  match task.completionTime with
  | none => .error .incompleteSimulation
  | some completionTime =>
    match task.firstDispatchTick with
    | none => .error .neverDispatchedTask
    | some firstDispatchTick => do
      let turnaround ← subU32 completionTime task.arrivalTick
      let response ← subU32 firstDispatchTick task.arrivalTick
      let afterBurst ← subU32 turnaround task.burstTicks
      let waitingTime ← subU32 afterBurst task.blockedTime
      .ok { id := task.id, arrivalTick := task.arrivalTick, burstTicks := task.burstTicks, weight := task.weight,
            groupId := task.groupId, sleepAfterTicks := task.sleepAfterTicks, sleepDuration := task.sleepDuration,
            phaseCount := phaseCount task, deadlineTick := task.deadlineTick, inputOrder := task.inputOrder,
            firstDispatchTick, completionTime, turnaroundTime := turnaround, waitingTime,
            blockedTime := task.blockedTime, responseTime := response, totalExecuted := task.totalExecuted }

/-- Smallest and largest value of a field, `0` for no tasks. -/
def minOf (f : TaskMetrics → Nat) (tasks : List TaskMetrics) : Nat := (tasks.map f).min?.getD 0
def maxOf (f : TaskMetrics → Nat) (tasks : List TaskMetrics) : Nat := (tasks.map f).max?.getD 0

def floatFromInt (k : Nat) : Float := (UInt64.ofNat k).toFloat

def computeAggregate (tasks : List TaskMetrics) : Except SimError AggregateMetrics := do
  let waitingSum ← tasks.foldlM (fun sum task => addU64 sum task.waitingTime) 0
  let responseSum ← tasks.foldlM (fun sum task => addU64 sum task.responseTime) 0
  let throughputDenominator ← subU32 (maxOf (·.completionTime) tasks) (minOf (·.arrivalTick) tasks)
  let waitingTimeSpread ← subU32 (maxOf (·.waitingTime) tasks) (minOf (·.waitingTime) tasks)
  let responseTimeSpread ← subU32 (maxOf (·.responseTime) tasks) (minOf (·.responseTime) tasks)
  .ok { averageWaitingTime := floatFromInt waitingSum / floatFromInt tasks.length
        averageResponseTime := floatFromInt responseSum / floatFromInt tasks.length
        throughput := if throughputDenominator = 0 then 0.0
          else floatFromInt tasks.length / floatFromInt throughputDenominator
        throughputNumerator := tasks.length
        throughputDenominator
        waitingTimeSpread
        maxWaitingTime := maxOf (·.waitingTime) tasks
        maxResponseTime := maxOf (·.responseTime) tasks
        responseTimeSpread }

def finalizeResult (scenario : ScenarioOwned) (policy : PolicyKind) (s : Engine n m) :
    Except SimError SimulationResult := do
  let tasks ← (List.finRange n).mapM (fun i => taskMetrics (s.runtimes i))
  let aggregate ← computeAggregate tasks
  .ok { scenarioName := scenario.name
        policy
        quantum := scenario.roundRobinQuantum
        coreCount := scenario.coreCount
        domains := scenario.domains
        groups := scenario.groups
        trace := s.traceEntries
        tasks
        completionOrder := s.completionOrder.map Fin.val
        aggregate
        finalTick := s.tick }

/-! ## The main loops -/

/-- The main loop, at most `fuel` tests of its condition. -/
def runTicks (step : Engine n m → Except SimError (Engine n m)) : Nat → Engine n m → Except SimError (Engine n m)
  | 0, _ => .error .integerOverflow
  | fuel + 1, s => if s.completed < n then step s >>= runTicks step fuel else .ok s

/-- A `u32` tick overflows before the condition is tested once more. -/
def maxTicks : Nat := 2 ^ 32

def simulateSingleCore (scenario : ScenarioOwned) (policy : PolicyKind) : Except SimError SimulationResult := do
  let s ← runTicks (stepSingleCore scenario policy) maxTicks (initEngine scenario 1)
  finalizeResult scenario policy s

def simulateMulticore (scenario : ScenarioOwned) (policy : PolicyKind) : Except SimError SimulationResult := do
  let s ← runTicks (stepMulticore scenario policy) maxTicks (initEngine scenario scenario.coreCount)
  finalizeResult scenario policy s

def simulate (scenario : ScenarioOwned) (policy : PolicyKind) : Except SimError SimulationResult :=
  if scenario.tasks = [] then .error .emptyScenario
  else if scenario.coreCount ≤ 1 then simulateSingleCore scenario policy
  else simulateMulticore scenario policy

end Exasphere.Sim

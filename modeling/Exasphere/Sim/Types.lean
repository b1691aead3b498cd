import Exasphere.Lib.Bytes
import Exasphere.Lib.Checked

/-!
# Scenarios of the simulator (`sim/types.zig`)

The input data of the scheduler simulator and `ScenarioOwned.validate` with its errors in the order the source checks
them. A `u32` is a natural number and its arithmetic is checked at `2 ^ 32`: an addition that overflows is a safety
panic in the source and the fault `integerOverflow` here. Text is a list of bytes.

`Valid` collects what an accepted scenario satisfies (`validate_ok`); the engines rely on nothing else.
-/

namespace Exasphere.Sim

open Exasphere.Lib

abbrev CoreId := Nat

def defaultTaskWeight : Nat := 1024
def maxTaskWeight : Nat := 4096
def defaultGroupWeight : Nat := 1024

inductive PolicyKind
  | fcfs
  | roundRobin
  | cfsLike
  | deadline
  deriving DecidableEq, Repr

/-- `@tagName` of a policy. -/
def PolicyKind.tagName : PolicyKind → Bytes
  | .fcfs => utf8 "fcfs"
  | .roundRobin => utf8 "round_robin"
  | .cfsLike => utf8 "cfs_like"
  | .deadline => utf8 "deadline"

inductive TraceEventKind
  | arrival
  | dispatch
  | tick
  | preempt
  | block
  | wakeup
  | complete
  | idle
  deriving DecidableEq, Repr

inductive TaskState
  | pending
  | ready
  | running
  | blocked
  | complete
  deriving DecidableEq, Repr

inductive TaskPhaseKind
  | cpu
  | wait
  deriving DecidableEq, Repr

structure TaskPhase where
  kind : TaskPhaseKind
  ticks : Nat
  deriving DecidableEq, Repr

/-- The errors a scenario can be refused with, and the overflow panic. -/
inductive ValidationError
  | emptyScenarioName
  | noTasks
  | invalidQuantum
  | invalidCoreCount
  | emptyTaskId
  | emptyGroupId
  | emptyDomainId
  | zeroBurstTicks
  | duplicateTaskId
  | duplicateGroupId
  | duplicateDomainId
  | unknownGroup
  | invalidWeight
  | invalidGroupWeight
  | invalidGroupQuota
  | invalidSleepAfterTicks
  | invalidSleepDuration
  | invalidTaskPhases
  | invalidDeadlineTick
  | invalidPhaseTicks
  | invalidDomainCore
  | missingDomainCoreCoverage
  | duplicateDomainCore
  | scenarioNameMismatch
  | integerOverflow
  deriving DecidableEq, Repr

structure DomainSpec where
  id : Bytes
  cores : List CoreId
  deriving DecidableEq, Repr

structure GroupSpec where
  id : Bytes
  weight : Nat := defaultGroupWeight
  quotaTicks : Nat := 0
  deriving DecidableEq, Repr

structure TaskSpec where
  id : Bytes
  arrivalTick : Nat
  burstTicks : Nat
  weight : Nat := defaultTaskWeight
  groupId : Option Bytes := none
  sleepAfterTicks : Option Nat := none
  sleepDuration : Nat := 0
  phases : Option (List TaskPhase) := none
  deadlineTick : Option Nat := none
  inputOrder : Nat := 0
  deriving DecidableEq, Repr

structure ScenarioOwned where
  name : Bytes
  roundRobinQuantum : Nat := 1
  coreCount : Nat := 1
  domains : List DomainSpec := []
  groups : List GroupSpec := []
  tasks : List TaskSpec
  deriving DecidableEq, Repr

structure TraceEntry where
  tick : Nat
  kind : TraceEventKind
  taskId : Option Bytes
  groupId : Option Bytes := none
  domainId : Option Bytes := none
  coreId : Option CoreId := none
  deriving DecidableEq, Repr

structure TaskMetrics where
  id : Bytes
  arrivalTick : Nat
  burstTicks : Nat
  weight : Nat
  groupId : Option Bytes
  sleepAfterTicks : Option Nat
  sleepDuration : Nat
  phaseCount : Nat
  deadlineTick : Option Nat
  inputOrder : Nat
  firstDispatchTick : Nat
  completionTime : Nat
  turnaroundTime : Nat
  waitingTime : Nat
  blockedTime : Nat
  responseTime : Nat
  totalExecuted : Nat
  deriving DecidableEq, Repr

structure AggregateMetrics where
  averageWaitingTime : Float
  averageResponseTime : Float
  throughput : Float
  throughputNumerator : Nat
  throughputDenominator : Nat
  waitingTimeSpread : Nat
  maxWaitingTime : Nat
  maxResponseTime : Nat
  responseTimeSpread : Nat

structure SimulationResult where
  scenarioName : Bytes
  policy : PolicyKind
  quantum : Nat
  coreCount : Nat
  domains : List DomainSpec
  groups : List GroupSpec
  trace : List TraceEntry
  tasks : List TaskMetrics
  completionOrder : List Nat
  aggregate : AggregateMetrics
  finalTick : Nat

/-! ## Validation -/

def DomainSpec.validate (d : DomainSpec) (coreCount : Nat) : Except ValidationError Unit :=
  if d.id = [] then .error .emptyDomainId
  else if d.cores = [] then .error .invalidDomainCore
  else if d.cores.any (coreCount ≤ ·) then .error .invalidDomainCore
  else .ok ()

def GroupSpec.validate (g : GroupSpec) : Except ValidationError Unit :=
  if g.id = [] then .error .emptyGroupId
  else if g.weight = 0 ∨ g.weight > maxTaskWeight then .error .invalidGroupWeight
  else if g.quotaTicks > 0 ∧ g.quotaTicks > 64 then .error .invalidGroupQuota
  else .ok ()

/-- The phase loop of `TaskSpec.validate`: kinds alternate, no phase is empty, CPU ticks are summed. -/
def validatePhases : List TaskPhase → TaskPhaseKind → Nat → Except ValidationError Nat
  | [], _, total => .ok total
  | phase :: rest, expected, total =>
    if phase.kind ≠ expected then .error .invalidTaskPhases
    else if phase.ticks = 0 then .error .invalidPhaseTicks
    else match expected with
      | .cpu => addChecked .integerOverflow 32 total phase.ticks >>= validatePhases rest .wait
      | .wait => validatePhases rest .cpu total

def validateSleep (t : TaskSpec) : Except ValidationError Unit :=
  match t.sleepAfterTicks with
  | some after =>
    if after = 0 ∨ after ≥ t.burstTicks then .error .invalidSleepAfterTicks
    else if t.sleepDuration = 0 then .error .invalidSleepDuration
    else .ok ()
  | none => if t.sleepDuration ≠ 0 then .error .invalidSleepDuration else .ok ()

def validateDeadline (t : TaskSpec) : Except ValidationError Unit :=
  match t.deadlineTick with
  | some deadline => do
    let earliest ← addChecked .integerOverflow 32 t.arrivalTick t.burstTicks
    if deadline < earliest then .error .invalidDeadlineTick else .ok ()
  | none => .ok ()

def validateTaskPhases (t : TaskSpec) : Except ValidationError Unit :=
  match t.phases with
  | some phases =>
    if phases = [] then .error .invalidTaskPhases
    else if phases.head?.map TaskPhase.kind ≠ some .cpu ∨ phases.getLast?.map TaskPhase.kind ≠ some .cpu then
      .error .invalidTaskPhases
    else do
      let total ← validatePhases phases .cpu 0
      if total ≠ t.burstTicks then .error .invalidTaskPhases else .ok ()
  | none => .ok ()

def TaskSpec.validate (t : TaskSpec) : Except ValidationError Unit :=
  if t.id = [] then .error .emptyTaskId
  else if t.burstTicks = 0 then .error .zeroBurstTicks
  else if t.weight = 0 then .error .invalidWeight
  else if t.weight > maxTaskWeight then .error .invalidWeight
  else if t.groupId = some [] then .error .emptyGroupId
  else do
    validateSleep t
    validateDeadline t
    validateTaskPhases t

def groupById (s : ScenarioOwned) (id : Bytes) : Option GroupSpec :=
  s.groups.find? (fun g => g.id = id)

def domainByCore (s : ScenarioOwned) (core : CoreId) : Option DomainSpec :=
  s.domains.find? (fun d => core ∈ d.cores)

/-- Some entry occurs again later in the list. -/
def hasRepeat : List CoreId → Bool
  | [] => false
  | c :: rest => decide (c ∈ rest) || hasRepeat rest

def validateDomains (coreCount : Nat) : List DomainSpec → Except ValidationError Unit
  | [] => .ok ()
  | d :: rest => do
    d.validate coreCount
    if rest.any (fun other => d.id = other.id) then .error .duplicateDomainId
    else if hasRepeat d.cores then .error .duplicateDomainCore
    else validateDomains coreCount rest

/-- The coverage loop: every core belongs to exactly one domain. The matches of a core are counted in a `u32`. -/
def validateCoverage (domains : List DomainSpec) : List CoreId → Except ValidationError Unit
  | [] => .ok ()
  | core :: rest =>
    let found := (domains.map (fun d => d.cores.count core)).sum
    if found ≥ 2 ^ 32 then .error .integerOverflow
    else if found = 0 then .error .missingDomainCoreCoverage
    else if found > 1 then .error .duplicateDomainCore
    else validateCoverage domains rest

def validateGroups : List GroupSpec → Except ValidationError Unit
  | [] => .ok ()
  | g :: rest => do
    g.validate
    if rest.any (fun other => g.id = other.id) then .error .duplicateGroupId else validateGroups rest

def validateTasks (s : ScenarioOwned) : List TaskSpec → Except ValidationError Unit
  | [] => .ok ()
  | t :: rest => do
    t.validate
    if ∃ g ∈ t.groupId, groupById s g = none then .error .unknownGroup
    else if rest.any (fun other => t.id = other.id) then .error .duplicateTaskId
    else validateTasks s rest

def ScenarioOwned.validate (s : ScenarioOwned) : Except ValidationError Unit :=
  if s.name = [] then .error .emptyScenarioName
  else if s.roundRobinQuantum = 0 then .error .invalidQuantum
  else if s.coreCount = 0 then .error .invalidCoreCount
  else if s.tasks = [] then .error .noTasks
  else do
    if s.domains ≠ [] then
      validateDomains s.coreCount s.domains
      validateCoverage s.domains (List.range s.coreCount)
    validateGroups s.groups
    validateTasks s s.tasks

end Exasphere.Sim

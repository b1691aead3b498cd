import Exasphere.Lib.Erasure
import Exasphere.Sim.Engine

/-!
# What the policies do not read

All policies share the engine and its bookkeeping. `PolicyKind.erase` takes out of a task what the policy has no
business with: weights and quotas under all policies but `cfs_like`, the deadline under all but `deadline`. Every step
of both engines is blind to it, and to the quantum under all policies but `round_robin`. So two scenarios that differ
only there have the same outcome (`policy_noninterference`).
-/

namespace Exasphere.Sim

open Exasphere.Lib

variable {n m : Nat} {scenario : ScenarioOwned} {policy : PolicyKind}

/-! ## Erasure -/

def PolicyKind.readsWeights : PolicyKind → Bool
  | .cfsLike => true
  | _ => false

def PolicyKind.readsDeadlines : PolicyKind → Bool
  | .deadline => true
  | _ => false

def PolicyKind.readsQuantum : PolicyKind → Bool
  | .roundRobin => true
  | _ => false

/-- A task without what the policy does not read. -/
def PolicyKind.erase (policy : PolicyKind) (x : RuntimeTask) : RuntimeTask :=
  { x with
    weight := if policy.readsWeights then x.weight else 0
    effectiveWeight := if policy.readsWeights then x.effectiveWeight else 0
    groupWeight := if policy.readsWeights then x.groupWeight else 0
    groupQuotaTicks := if policy.readsWeights then x.groupQuotaTicks else 0
    deadlineTick := if policy.readsDeadlines then x.deadlineTick else none }

def Engine.erase (policy : PolicyKind) (s : Engine n m) : Engine n m :=
  { s with runtimes := fun i => policy.erase (s.runtimes i) }

section Lemmas

theorem Engine.erase_setTask (s : Engine n m) (i : Fin n) (x : RuntimeTask) :
    (s.setTask i x).erase policy = (s.erase policy).setTask i (policy.erase x) := by
  unfold Engine.erase Engine.setTask
  congr 1
  funext j
  by_cases h : j = i
  · subst h
    simp
  · simp [Function.update_of_ne h]

theorem Engine.erase_setCore (s : Engine n m) (c : Fin m) (core : CoreState n) :
    (s.setCore c core).erase policy = (s.erase policy).setCore c core := rfl

theorem Engine.erase_emit (s : Engine n m) (entry : TraceEntry) :
    (s.emit entry).erase policy = (s.erase policy).emit entry := rfl

theorem Engine.erase_pushReady (s : Engine n m) (c : Fin m) (i : Fin n) :
    (s.pushReady c i).erase policy = (s.erase policy).pushReady c i := rfl

theorem Engine.erase_completed (s : Engine n m) (k : Nat) :
    ({ s with completed := k } : Engine n m).erase policy = { s.erase policy with completed := k } := rfl

@[simp] theorem erase_phases (x : RuntimeTask) : (policy.erase x).phases = x.phases := rfl
@[simp] theorem erase_remainingTicks (x : RuntimeTask) : (policy.erase x).remainingTicks = x.remainingTicks := rfl
@[simp] theorem erase_completionTime (x : RuntimeTask) : (policy.erase x).completionTime = x.completionTime := rfl
@[simp] theorem erase_firstDispatchTick (x : RuntimeTask) :
    (policy.erase x).firstDispatchTick = x.firstDispatchTick := rfl
@[simp] theorem erase_phaseIndex (x : RuntimeTask) : (policy.erase x).phaseIndex = x.phaseIndex := rfl

end Lemmas

/-! ## One task -/

section Task

theorem advancePhaseAfterWake_blind : Blind policy.erase policy.erase advancePhaseAfterWake := by
  intro x
  unfold advancePhaseAfterWake
  rw [erase_phases, erase_phaseIndex]
  cases x.phases with
  | none => rfl
  | some ps =>
    simp only
    cases ps[x.phaseIndex + 1]? with
    | none => rfl
    | some phase =>
      simp only
      rw [except_map_ite]
      rfl

theorem chargeTick_blind (policy : PolicyKind) (t : Nat) : Blind policy.erase policy.erase (chargeTick t) := by
  intro x
  unfold chargeTick
  rw [except_map_ite]
  simp only [except_map_bind]
  rfl

theorem shouldBlockAfterExecution_blind :
    Blind policy.erase (Prod.map id policy.erase) shouldBlockAfterExecution := by
  intro x
  unfold shouldBlockAfterExecution
  rw [erase_phases, erase_phaseIndex]
  cases x.phases with
  | none => rfl
  | some ps =>
    simp only
    rw [except_map_ite]
    cases ps[x.phaseIndex + 1]? with
    | none => rfl
    | some phase =>
      simp only
      rw [except_map_ite]
      rfl

theorem settleTask_blind (t : Nat) : Blind policy.erase (Prod.map id policy.erase) (settleTask t) := by
  intro x
  unfold settleTask
  rw [except_map_ite, erase_remainingTicks]
  by_cases h : x.remainingTicks = 0
  · rw [if_pos h, if_pos h]
    simp only [except_map_bind]
    rfl
  · rw [if_neg h, if_neg h]
    refine shouldBlockAfterExecution_blind.bind ?_ x
    rintro ⟨blocks, task⟩
    cases blocks with
    | true =>
      simp only [Prod.map, if_true, except_map_bind]
      rfl
    | false => rfl

theorem onTaskTick_blind : Blind policy.erase policy.erase policy.onTaskTick := by
  intro x
  cases policy with
  | cfsLike =>
    simp only [PolicyKind.onTaskTick, CfsLike.onTaskTick, except_map_bind]
    rfl
  | fcfs | roundRobin | deadline => rfl

end Task

/-! ## Dispatching and executing one task -/

section Current

theorem dispatchTask_erase (c : Fin m) (i : Fin n) (queue : List (Fin n)) (s : Engine n m) :
    dispatchTask scenario c i queue (s.erase policy) = (dispatchTask scenario c i queue s).erase policy := by
  unfold dispatchTask
  simp only [Engine.erase_emit, Engine.erase_setCore, Engine.erase_setTask]
  rfl

theorem executeCurrent_blind (c : Fin m) (i : Fin n) : Blind (Engine.erase policy) (Prod.map id (Engine.erase policy))
    (executeCurrent scenario policy c i) := by
  intro s
  have hcharge := chargeTick_blind policy s.tick (s.runtimes i)
  have htick : ∀ y, policy.onTaskTick (policy.erase y) = (policy.onTaskTick y).map policy.erase := onTaskTick_blind
  have hsettle : ∀ y, settleTask s.tick (policy.erase y) = (settleTask s.tick y).map (Prod.map id policy.erase) :=
    settleTask_blind s.tick
  unfold executeCurrent
  show chargeTick s.tick (policy.erase (s.runtimes i)) >>= _ = _
  rw [hcharge, except_bind_map, except_map_bind]
  refine bind_congr (fun charged => ?_)
  rw [except_map_bind]
  refine bind_congr (fun quantum => ?_)
  rw [except_map_bind]
  refine bind_congr (fun ticks => ?_)
  rw [htick, except_bind_map, except_map_bind]
  refine bind_congr (fun ticked => ?_)
  show settleTask s.tick (policy.erase ticked) >>= _ = _
  rw [hsettle, except_bind_map, except_map_bind]
  refine bind_congr ?_
  rintro ⟨outcome, task⟩
  cases outcome with
  | running => simp only [Except.map, Prod.map, id, Engine.erase_setCore, Engine.erase_setTask]; rfl
  | complete =>
    simp only [Except.map, Prod.map, id, Engine.erase_completed, Engine.erase_setCore, Engine.erase_setTask]
    rfl
  | block => simp only [Except.map, Prod.map, id, Engine.erase_emit, Engine.erase_setCore, Engine.erase_setTask]; rfl

end Current

/-! ## The single-core engine -/

section SingleCore

theorem pushSingle_erase (i : Fin n) (s : Engine n 1) :
    pushSingle policy i (s.erase policy) = (pushSingle policy i s).erase policy := by
  unfold pushSingle
  split <;> rfl

theorem processBlockedSingleCore_blind :
    Blind (Engine.erase policy) (Engine.erase policy) (processBlockedSingleCore (n := n) scenario policy) := by
  refine Blind.foldlM (fun i s => ?_) _
  unfold processBlockedSingleCoreAt
  show (if (s.runtimes i).state ≠ .blocked then _ else if (s.runtimes i).wakeTick = some s.tick then _ else _) =
    Except.map _ (if (s.runtimes i).state ≠ .blocked then _ else if (s.runtimes i).wakeTick = some s.tick then _ else _)
  split
  · rfl
  · split
    · show advancePhaseAfterWake (policy.erase (s.runtimes i)) >>= _ = _
      rw [advancePhaseAfterWake_blind, except_bind_map, except_map_bind]
      refine bind_congr (fun task => ?_)
      simp only [Except.map, Engine.erase_emit, ← pushSingle_erase, Engine.erase_setTask]
      rfl
    · rw [except_map_bind]
      refine bind_congr (fun time => ?_)
      simp only [Except.map, Engine.erase_setTask]
      rfl

theorem enqueueArrivalsSingleCore_blind :
    Blind (Engine.erase policy) (Engine.erase policy) (enqueueArrivalsSingleCore (n := n) scenario policy) := by
  refine Blind.foldlM (fun i s => ?_) _
  unfold enqueueArrivalsSingleCoreAt
  show (if (s.runtimes i).state = .pending ∧ (s.runtimes i).arrivalTick = s.tick then _ else _) =
    Except.map _ (if (s.runtimes i).state = .pending ∧ (s.runtimes i).arrivalTick = s.tick then _ else _)
  split
  · simp only [Except.map, Engine.erase_emit, ← pushSingle_erase, Engine.erase_setTask]
    rfl
  · rfl

theorem shouldPreemptSingle_erase (policy : PolicyKind) (current : Option (Fin n)) (x q k : Nat)
    (rt : Fin n → RuntimeTask) :
    policy.shouldPreemptSingle current x q k (fun i => policy.erase (rt i)) =
      policy.shouldPreemptSingle current x q k rt := by
  cases policy <;> rfl

theorem shouldPreemptForGroupQuota_erase (policy : PolicyKind) (current : Option (Fin n)) (k : Nat)
    (rt : Fin n → RuntimeTask) :
    shouldPreemptForGroupQuota policy current k (fun i => policy.erase (rt i)) =
      shouldPreemptForGroupQuota policy current k rt := by
  cases policy <;> rfl

theorem selectNextSingle_erase (queue : List (Fin n)) (rt : Fin n → RuntimeTask) :
    policy.selectNextSingle queue (fun i => policy.erase (rt i)) = policy.selectNextSingle queue rt := by
  cases policy <;> rfl

theorem selectNextSingleExcludingGroup_erase (queue : List (Fin n)) (rt : Fin n → RuntimeTask) (g : Nat) :
    policy.selectNextSingleExcludingGroup queue (fun i => policy.erase (rt i)) g =
      policy.selectNextSingleExcludingGroup queue rt g := by
  cases policy <;> rfl

theorem keepsRunningSelection_erase (x : RuntimeTask) :
    policy.keepsRunningSelection (policy.erase x) = policy.keepsRunningSelection x := by
  cases policy <;> rfl

theorem preemptSingleCore_erase (s : Engine n 1) : preemptSingleCore scenario policy (s.erase policy) =
    ((preemptSingleCore scenario policy s).1.erase policy, (preemptSingleCore scenario policy s).2) := by
  unfold preemptSingleCore
  have hcore : (s.erase policy).cores = s.cores := rfl
  simp only [hcore]
  cases (s.cores 0).current with
  | none => rfl
  | some i =>
    simp only
    have hp := shouldPreemptSingle_erase policy (some i) (s.cores 0).currentQuantum
      scenario.roundRobinQuantum (s.cores 0).readyQueue.length s.runtimes
    have hq := shouldPreemptForGroupQuota_erase policy (some i) (s.cores 0).currentGroupRunTicks s.runtimes
    have hset : (s.erase policy).setTask i { (s.erase policy).runtimes i with state := .ready } =
        (s.setTask i { s.runtimes i with state := .ready }).erase policy := by
      rw [Engine.erase_setTask]
      rfl
    have hq' := shouldPreemptForGroupQuota_erase policy (some i) (s.cores 0).currentGroupRunTicks
      (s.setTask i { s.runtimes i with state := .ready }).runtimes
    have hrt : ∀ a : Engine n 1, (a.erase policy).runtimes = fun i => policy.erase (a.runtimes i) := fun _ => rfl
    rw [hset]
    simp only [hrt, hp, hq, hq']
    split <;> rfl

theorem dispatchSingleCore_erase (excluded : Option Nat) (s : Engine n 1) :
    dispatchSingleCore scenario policy excluded (s.erase policy) =
      (dispatchSingleCore scenario policy excluded s).erase policy := by
  unfold dispatchSingleCore
  have hcore : (s.erase policy).cores = s.cores := rfl
  have hrt : (s.erase policy).runtimes = fun i => policy.erase (s.runtimes i) := rfl
  simp only [hcore, hrt, selectNextSingle_erase, selectNextSingleExcludingGroup_erase, keepsRunningSelection_erase,
    dispatchTask_erase]
  split
  · rfl
  · split
    · rfl
    · split <;> rfl

theorem executeSingleCore_blind :
    Blind (Engine.erase policy) (Engine.erase policy) (executeSingleCore (n := n) scenario policy) := by
  intro s
  unfold executeSingleCore
  have hcore : (s.erase policy).cores = s.cores := rfl
  simp only [hcore]
  cases (s.cores 0).current with
  | none => rfl
  | some i =>
    simp only
    have hset : (s.erase policy).setTask i { (s.erase policy).runtimes i with
          firstDispatchTick := if ((s.erase policy).runtimes i).firstDispatchTick = none then some (s.erase policy).tick
            else ((s.erase policy).runtimes i).firstDispatchTick } =
        (s.setTask i { s.runtimes i with
          firstDispatchTick := if (s.runtimes i).firstDispatchTick = none then some s.tick
            else (s.runtimes i).firstDispatchTick }).erase policy := by
      rw [Engine.erase_setTask]
      rfl
    rw [hset, executeCurrent_blind, except_bind_map, except_map_bind]
    refine bind_congr ?_
    rintro ⟨outcome, s'⟩
    simp only [Prod.map, id]
    split <;> rfl

theorem stepSingleCore_blind :
    Blind (Engine.erase policy) (Engine.erase policy) (stepSingleCore (n := n) scenario policy) := by
  have hschedule : Blind (Engine.erase policy) (Engine.erase policy) (scheduleSingleCore (n := n) scenario policy) := by
    refine processBlockedSingleCore_blind.bind (enqueueArrivalsSingleCore_blind.bind (fun s => ?_))
    simp only [preemptSingleCore_erase, dispatchSingleCore_erase]
    rfl
  refine hschedule.bind (executeSingleCore_blind.bind (fun s => ?_))
  unfold advanceTick
  rw [except_map_bind]
  rfl

end SingleCore

/-! ## The multicore engine -/

section Multicore

theorem processBlockedMulticore_blind : Blind (Engine.erase policy) (Engine.erase policy)
    (processBlockedMulticore (n := n) (m := m) scenario) := by
  refine Blind.foldlM (fun i s => ?_) _
  unfold processBlockedMulticoreAt
  show (if (s.runtimes i).state ≠ .blocked then _ else if (s.runtimes i).wakeTick = some s.tick then _ else _) =
    Except.map _ (if (s.runtimes i).state ≠ .blocked then _ else if (s.runtimes i).wakeTick = some s.tick then _ else _)
  split
  · rfl
  · split
    · show advancePhaseAfterWake (policy.erase (s.runtimes i)) >>= _ = _
      rw [advancePhaseAfterWake_blind, except_bind_map, except_map_bind]
      refine bind_congr (fun task => ?_)
      rw [except_map_bind]
      refine bind_congr (fun c => ?_)
      simp only [Except.map, Engine.erase_emit, Engine.erase_pushReady, Engine.erase_setTask]
      rfl
    · rw [except_map_bind]
      refine bind_congr (fun time => ?_)
      simp only [Except.map, Engine.erase_setTask]
      rfl

theorem enqueueArrivalsMulticore_blind : Blind (Engine.erase policy) (Engine.erase policy)
    (enqueueArrivalsMulticore (n := n) (m := m) scenario) := by
  refine Blind.foldlM (fun i s => ?_) _
  unfold enqueueArrivalsMulticoreAt
  show (if (s.runtimes i).state = .pending ∧ (s.runtimes i).arrivalTick = s.tick then _ else _) =
    Except.map _ (if (s.runtimes i).state = .pending ∧ (s.runtimes i).arrivalTick = s.tick then _ else _)
  split
  · rw [except_map_bind]
    refine bind_congr (fun c => ?_)
    simp only [Except.map, Engine.erase_emit, Engine.erase_pushReady, Engine.erase_setTask]
    rfl
  · rfl

theorem shouldPreemptCore_erase (policy : PolicyKind) (current : Option (Fin n)) (x q : Nat) (queue : List (Fin n))
    (rt : Fin n → RuntimeTask) : policy.shouldPreemptCore current x q queue (fun i => policy.erase (rt i)) =
      policy.shouldPreemptCore current x q queue rt := by
  cases policy <;> rfl

theorem selectNextCore_erase (queue : List (Fin n)) (rt : Fin n → RuntimeTask) :
    policy.selectNextCore queue (fun i => policy.erase (rt i)) = policy.selectNextCore queue rt := by
  cases policy <;> rfl

theorem preemptMulticore_erase (s : Engine n m) :
    preemptMulticore scenario policy (s.erase policy) = (preemptMulticore scenario policy s).erase policy := by
  refine foldl_blind (fun s c => ?_) _ s
  unfold preemptMulticoreAt
  have hcore : (s.erase policy).cores = s.cores := rfl
  simp only [hcore]
  cases (s.cores c).current with
  | none => rfl
  | some i =>
    have hp := shouldPreemptCore_erase policy (some i) (s.cores c).currentQuantum
      scenario.roundRobinQuantum (s.cores c).readyQueue s.runtimes
    have hrt : (s.erase policy).runtimes = fun i => policy.erase (s.runtimes i) := rfl
    simp only [hrt, hp]
    split
    · simp only [Engine.erase_emit, Engine.erase_setCore, Engine.erase_setTask]
      rfl
    · rfl

theorem migrateHead_erase (recipient donor : Fin m) (s : Engine n m) :
    migrateHead recipient donor (s.erase policy) = (migrateHead recipient donor s).erase policy := by
  unfold migrateHead
  have hcore : (s.erase policy).cores = s.cores := rfl
  simp only [hcore]
  cases (s.cores donor).readyQueue with
  | nil => rfl
  | cons i rest =>
    simp only [Engine.erase_pushReady, Engine.erase_setTask, Engine.erase_setCore]
    rfl

theorem rebalanceStep_blind : Blind (Engine.erase policy) (Option.map (Engine.erase policy))
    (rebalanceStep (n := n) (m := m) scenario) := by
  intro s
  unfold rebalanceStep
  have hcore : (s.erase policy).cores = s.cores := rfl
  simp only [hcore]
  cases firstIdleCore s.cores with
  | none => rfl
  | some recipient =>
    simp only
    rw [except_map_bind]
    refine bind_congr (fun donor => ?_)
    cases donor with
    | none => rfl
    | some donor =>
      simp only
      rw [except_map_ite, migrateHead_erase]
      rfl

theorem rebalanceLoop_blind (fuel : Nat) : Blind (Engine.erase policy) (Engine.erase policy)
    (rebalanceLoop (n := n) (m := m) scenario fuel) := by
  induction fuel with
  | zero => exact fun _ => rfl
  | succ fuel ih =>
    intro s
    unfold rebalanceLoop
    rw [rebalanceStep_blind, except_bind_map, except_map_bind]
    refine bind_congr (fun next => ?_)
    cases next with
    | none => rfl
    | some s' => exact ih s'

theorem dispatchMulticore_erase (s : Engine n m) :
    dispatchMulticore scenario policy (s.erase policy) = (dispatchMulticore scenario policy s).erase policy := by
  refine foldl_blind (fun s c => ?_) _ s
  unfold dispatchMulticoreAt
  have hcore : (s.erase policy).cores = s.cores := rfl
  have hrt : (s.erase policy).runtimes = fun i => policy.erase (s.runtimes i) := rfl
  simp only [hcore, hrt, selectNextCore_erase, dispatchTask_erase]
  split
  · rfl
  · split <;> rfl

theorem executeMulticoreAt_blind (c : Fin m) : Blind (Prod.map (Engine.erase policy) id)
    (Prod.map (Engine.erase policy) id) (fun x => executeMulticoreAt (n := n) scenario policy x c) := by
  rintro ⟨s, l⟩
  unfold executeMulticoreAt
  have hcore : (s.erase policy).cores = s.cores := rfl
  simp only [Prod.map, id, hcore]
  cases (s.cores c).current with
  | none => rfl
  | some i =>
    simp only
    rw [executeCurrent_blind, except_bind_map, except_map_bind]
    rfl

theorem recordCompletions_erase (l : List (Fin n)) (s : Engine n m) :
    l.foldl (recordCompletion scenario) (s.erase policy) = (l.foldl (recordCompletion scenario) s).erase policy :=
  foldl_blind (g := Engine.erase policy) (f := recordCompletion scenario) (fun _ _ => rfl) l s

theorem executeMulticore_blind : Blind (Engine.erase policy) (Engine.erase policy)
    (executeMulticore (n := n) (m := m) scenario policy) := by
  intro s
  unfold executeMulticore
  have hloop : (List.finRange m).foldlM (executeMulticoreAt scenario policy)
    (Prod.map (Engine.erase policy) id (s, [])) =
      ((List.finRange m).foldlM (executeMulticoreAt scenario policy) (s, [])).map (Prod.map (Engine.erase policy) id) :=
    Blind.foldlM executeMulticoreAt_blind (List.finRange m) (s, [])
  show (List.finRange m).foldlM (executeMulticoreAt scenario policy)
    (Prod.map (Engine.erase policy) id (s, [])) >>= _ = _
  rw [hloop, except_bind_map, except_map_bind]
  refine bind_congr ?_
  rintro ⟨s', l⟩
  simp only [Prod.map, id, recordCompletions_erase]
  rfl

theorem stepMulticore_blind : Blind (Engine.erase policy) (Engine.erase policy)
    (stepMulticore (n := n) (m := m) scenario policy) := by
  have hschedule : Blind (Engine.erase policy) (Engine.erase policy)
      (scheduleMulticore (n := n) (m := m) scenario policy) := by
    refine processBlockedMulticore_blind.bind (enqueueArrivalsMulticore_blind.bind (fun s => ?_))
    simp only [preemptMulticore_erase]
    refine (rebalanceLoop_blind m).bind (fun s => ?_) _
    simp only [dispatchMulticore_erase]
    rfl
  refine hschedule.bind (executeMulticore_blind.bind (fun s => ?_))
  unfold advanceTick
  rw [except_map_bind]
  rfl

end Multicore

/-! ## Whole simulations -/

section Simulate

/-- The times of a task. -/
structure TaskTimes where
  id : Bytes
  arrivalTick : Nat
  burstTicks : Nat
  firstDispatchTick : Nat
  completionTime : Nat
  turnaroundTime : Nat
  waitingTime : Nat
  blockedTime : Nat
  responseTime : Nat
  totalExecuted : Nat
  deriving DecidableEq, Repr

def TaskMetrics.times (t : TaskMetrics) : TaskTimes where
  id := t.id
  arrivalTick := t.arrivalTick
  burstTicks := t.burstTicks
  firstDispatchTick := t.firstDispatchTick
  completionTime := t.completionTime
  turnaroundTime := t.turnaroundTime
  waitingTime := t.waitingTime
  blockedTime := t.blockedTime
  responseTime := t.responseTime
  totalExecuted := t.totalExecuted

/-- What happened in a simulation, without the scenario's own data. -/
@[ext]
structure Observed where
  trace : List TraceEntry
  completionOrder : List Nat
  tasks : List TaskTimes
  finalTick : Nat
  deriving DecidableEq, Repr

def SimulationResult.observed (r : SimulationResult) : Observed :=
  ⟨r.trace, r.completionOrder, r.tasks.map TaskMetrics.times, r.finalTick⟩

/-- The aggregate is computed from the times. -/
theorem computeAggregate_times {l l' : List TaskMetrics} (h : l.map TaskMetrics.times = l'.map TaskMetrics.times) :
    computeAggregate l = computeAggregate l' := by
  have hlen : l.length = l'.length := by simpa using congrArg List.length h
  have hmap : ∀ (f : TaskMetrics → Nat) (k : TaskTimes → Nat), (∀ t, f t = k t.times) → l.map f = l'.map f := by
    intro f k hfk
    have hf : f = k ∘ TaskMetrics.times := funext hfk
    rw [hf, ← List.map_map, ← List.map_map, h]
  have hsum : ∀ (f : TaskMetrics → Nat) (k : TaskTimes → Nat), (∀ t, f t = k t.times) →
      l.foldlM (fun sum t => addU64 sum (f t)) 0 = l'.foldlM (fun sum t => addU64 sum (f t)) 0 := by
    intro f k hfk
    have hfold : ∀ l : List TaskMetrics, l.foldlM (fun sum t => addU64 sum (f t)) 0 = (l.map f).foldlM addU64 0 :=
      fun l => List.foldlM_map.symm
    rw [hfold, hfold, hmap f k hfk]
  have hmax : ∀ (f : TaskMetrics → Nat) (k : TaskTimes → Nat), (∀ t, f t = k t.times) → maxOf f l = maxOf f l' :=
    fun f k hfk => by rw [maxOf, maxOf, hmap f k hfk]
  have hmin : ∀ (f : TaskMetrics → Nat) (k : TaskTimes → Nat), (∀ t, f t = k t.times) → minOf f l = minOf f l' :=
    fun f k hfk => by rw [minOf, minOf, hmap f k hfk]
  have hw := hsum (·.waitingTime) (·.waitingTime) (fun _ => rfl)
  have hr := hsum (·.responseTime) (·.responseTime) (fun _ => rfl)
  unfold computeAggregate
  rw [hlen, hw, hr, hmax (·.completionTime) (·.completionTime) (fun _ => rfl),
    hmin (·.arrivalTick) (·.arrivalTick) (fun _ => rfl), hmax (·.waitingTime) (·.waitingTime) (fun _ => rfl),
    hmin (·.waitingTime) (·.waitingTime) (fun _ => rfl), hmax (·.responseTime) (·.responseTime) (fun _ => rfl),
    hmin (·.responseTime) (·.responseTime) (fun _ => rfl)]

theorem taskMetrics_erase (policy : PolicyKind) (x : RuntimeTask) :
    (taskMetrics (policy.erase x)).map TaskMetrics.times = (taskMetrics x).map TaskMetrics.times := by
  unfold taskMetrics
  rw [erase_completionTime, erase_firstDispatchTick]
  cases x.completionTime with
  | none => rfl
  | some completion =>
    cases x.firstDispatchTick with
    | none => rfl
    | some first =>
      simp only [except_map_bind]
      rfl

/-- The result of a final state shows nothing that is erased from it, and nothing of the scenario. -/
theorem finalizeResult_observed {A B : ScenarioOwned} {a b : Engine n m} (h : a.erase policy = b.erase policy) :
    (finalizeResult A policy a).map SimulationResult.observed =
      (finalizeResult B policy b).map SimulationResult.observed := by
  have htasks : ((List.finRange n).mapM (fun i => taskMetrics (a.runtimes i))).map (List.map TaskMetrics.times) =
      ((List.finRange n).mapM (fun i => taskMetrics (b.runtimes i))).map (List.map TaskMetrics.times) := by
    rw [except_map_mapM, except_map_mapM]
    congr 1
    funext i
    rw [← taskMetrics_erase policy (a.runtimes i), ← taskMetrics_erase policy (b.runtimes i)]
    exact congrArg (fun s : Engine n m => (taskMetrics (s.runtimes i)).map TaskMetrics.times) h
  have htrace : (a.erase policy).traceEntries = (b.erase policy).traceEntries := by rw [h]
  have horder : (a.erase policy).completionOrder = (b.erase policy).completionOrder := by rw [h]
  have htick : (a.erase policy).tick = (b.erase policy).tick := by rw [h]
  unfold finalizeResult
  rw [except_map_bind, except_map_bind]
  refine except_bind_congr htasks (fun l l' hl => ?_)
  rw [computeAggregate_times hl, except_map_bind, except_map_bind]
  refine bind_congr (fun aggregate => ?_)
  show Except.ok (Observed.mk a.traceEntries (a.completionOrder.map Fin.val) (l.map TaskMetrics.times) a.tick) =
    Except.ok (Observed.mk b.traceEntries (b.completionOrder.map Fin.val) (l'.map TaskMetrics.times) b.tick)
  rw [hl]
  exact congrArg Except.ok (Observed.ext htrace (congrArg (List.map Fin.val) horder) rfl htick)

/-- The main loop is blind if its iterations are. -/
theorem runTicks_blind {step : Engine n m → Except SimError (Engine n m)}
    (h : Blind (Engine.erase policy) (Engine.erase policy) step) (fuel : Nat) :
    Blind (Engine.erase policy) (Engine.erase policy) (runTicks step fuel) := by
  induction fuel with
  | zero => exact fun _ => rfl
  | succ fuel ih =>
    intro s
    unfold runTicks
    rw [except_map_ite]
    show (if s.completed < n then _ else _) = _
    split
    · exact h.bind ih s
    · rfl

/-- Runs of one loop from states that differ in what is erased only. -/
theorem runTicks_observed {A B : ScenarioOwned} {step : Engine n m → Except SimError (Engine n m)}
    (h : Blind (Engine.erase policy) (Engine.erase policy) step) {a b : Engine n m}
    (hab : a.erase policy = b.erase policy) (fuel : Nat) :
    (runTicks step fuel a >>= finalizeResult A policy).map SimulationResult.observed =
      (runTicks step fuel b >>= finalizeResult B policy).map SimulationResult.observed := by
  rw [except_map_bind, except_map_bind]
  exact except_bind_congr ((runTicks_blind h fuel).eq hab) (fun a' b' hab' => finalizeResult_observed hab')

end Simulate

/-! ## Scenarios that differ in what a policy does not read -/

section Scenarios

def TaskSpec.without (weights deadlines : Bool) (t : TaskSpec) : TaskSpec :=
  { t with
    weight := if weights then 0 else t.weight
    deadlineTick := if deadlines then none else t.deadlineTick }

def GroupSpec.without (weights : Bool) (g : GroupSpec) : GroupSpec :=
  { g with
    weight := if weights then 0 else g.weight
    quotaTicks := if weights then 0 else g.quotaTicks }

/-- A scenario without its name and without what is chosen: the weights and quotas, the deadlines, the quantum. -/
def ScenarioOwned.without (weights deadlines quantum : Bool) (s : ScenarioOwned) : ScenarioOwned :=
  { s with
    name := []
    roundRobinQuantum := if quantum then 0 else s.roundRobinQuantum
    groups := s.groups.map (GroupSpec.without weights)
    tasks := s.tasks.map (TaskSpec.without weights deadlines) }

/-- The part of a scenario that the steps of the engines read. -/
def ScenarioOwned.frame (scenario : ScenarioOwned) (policy : PolicyKind) : ScenarioOwned :=
  { name := [], domains := scenario.domains, tasks := [],
    roundRobinQuantum := if policy.readsQuantum then scenario.roundRobinQuantum else 0 }

theorem stepSingleCore_frame (scenario : ScenarioOwned) (policy : PolicyKind) :
    stepSingleCore (n := n) scenario policy = stepSingleCore (scenario.frame policy) policy := by
  cases policy <;> rfl

theorem rebalanceLoop_frame (scenario : ScenarioOwned) (policy : PolicyKind) (fuel : Nat) :
    rebalanceLoop (n := n) (m := m) scenario fuel = rebalanceLoop (scenario.frame policy) fuel := by
  induction fuel with
  | zero => rfl
  | succ fuel ih =>
    funext s
    unfold rebalanceLoop
    rw [ih]
    rfl

theorem stepMulticore_frame (scenario : ScenarioOwned) (policy : PolicyKind) :
    stepMulticore (n := n) (m := m) scenario policy = stepMulticore (scenario.frame policy) policy := by
  funext s
  unfold stepMulticore scheduleMulticore rebalanceReadyQueues
  rw [rebalanceLoop_frame scenario policy]
  cases policy <;> rfl

/-- The initial state of a scenario whose number of tasks is known as `n`. -/
def initEngineAs (scenario : ScenarioOwned) (h : scenario.tasks.length = n) (m : Nat) : Engine n m :=
  { runtimes := fun i => initRuntime scenario (scenario.tasks.get (i.cast h.symm)), cores := fun _ => {} }

theorem simulateSingleCore_as (h : scenario.tasks.length = n) : simulateSingleCore scenario policy =
    runTicks (stepSingleCore scenario policy) maxTicks (initEngineAs scenario h 1) >>=
      finalizeResult scenario policy := by
  subst h
  rfl

theorem simulateMulticore_as (h : scenario.tasks.length = n) (hm : scenario.coreCount = m) :
    simulateMulticore scenario policy =
      runTicks (stepMulticore scenario policy) maxTicks (initEngineAs scenario h m) >>=
        finalizeResult scenario policy := by
  subst h hm
  rfl

variable {A B : ScenarioOwned} {weights deadlines quantum : Bool}

/-- The index of a task's group depends on the names of the groups only. -/
theorem findGroupInfo_index (h : A.groups.map GroupSpec.id = B.groups.map GroupSpec.id) (id : Bytes) :
    (findGroupInfo A id).map (·.1) = (findGroupInfo B id).map (·.1) := by
  have hnames : ∀ s : ScenarioOwned, (findGroupInfo s id).map (·.1) =
      ((s.groups.map GroupSpec.id).zipIdx.find? (fun g => decide (g.1 = id))).map (·.2) := by
    intro s
    unfold findGroupInfo
    rw [List.zipIdx_map, List.find?_map, Option.map_map, Option.map_map]
    rfl
  rw [hnames, hnames, h]

/-- The initial state of a task shows what the scenarios have in common. -/
theorem initRuntime_erase {t t' : TaskSpec}
    (hg : A.groups.map (GroupSpec.without (!policy.readsWeights)) =
      B.groups.map (GroupSpec.without (!policy.readsWeights)))
    (ht : t.without (!policy.readsWeights) (!policy.readsDeadlines) =
      t'.without (!policy.readsWeights) (!policy.readsDeadlines)) :
    policy.erase (initRuntime A t) = policy.erase (initRuntime B t') := by
  have hids : A.groups.map GroupSpec.id = B.groups.map GroupSpec.id := by
    have := congrArg (List.map GroupSpec.id) hg
    rwa [List.map_map, List.map_map] at this
  have hindex : ∀ o : Option Bytes, (o.bind (findGroupInfo A)).map (·.1) = (o.bind (findGroupInfo B)).map (·.1) := by
    intro o
    cases o with
    | none => rfl
    | some id => exact findGroupInfo_index hids id
  obtain ⟨name, arrival, burst, weight, group, sleepAfter, sleepDuration, phases, deadline, order⟩ := t
  obtain ⟨name', arrival', burst', weight', group', sleepAfter', sleepDuration', phases', deadline', order'⟩ := t'
  simp only [TaskSpec.without, TaskSpec.mk.injEq] at ht
  obtain ⟨rfl, rfl, rfl, hw, rfl, rfl, rfl, rfl, hd, rfl⟩ := ht
  cases policy with
  | fcfs | roundRobin =>
    unfold PolicyKind.erase initRuntime
    simp only [hindex]
    rfl
  | cfsLike =>
    have hgroups : A.groups = B.groups := by
      rwa [show GroupSpec.without (!PolicyKind.cfsLike.readsWeights) = id from rfl, List.map_id, List.map_id] at hg
    have hinfo : findGroupInfo A = findGroupInfo B := by
      funext id
      rw [findGroupInfo, findGroupInfo, hgroups]
    obtain rfl : weight = weight' := by simpa [PolicyKind.readsWeights] using hw
    unfold PolicyKind.erase initRuntime
    simp only [hinfo]
    rfl
  | deadline =>
    obtain rfl : deadline = deadline' := by simpa [PolicyKind.readsDeadlines] using hd
    unfold PolicyKind.erase initRuntime
    simp only [hindex]
    rfl

/-- The two scenarios are told apart by nothing the policy reads. -/
theorem simulate_observed (h : A.without (!policy.readsWeights) (!policy.readsDeadlines) (!policy.readsQuantum) =
      B.without (!policy.readsWeights) (!policy.readsDeadlines) (!policy.readsQuantum)) :
    (simulate A policy).map SimulationResult.observed = (simulate B policy).map SimulationResult.observed := by
  have htasks : A.tasks.map (TaskSpec.without (!policy.readsWeights) (!policy.readsDeadlines)) =
      B.tasks.map (TaskSpec.without (!policy.readsWeights) (!policy.readsDeadlines)) := congrArg ScenarioOwned.tasks h
  have hgroups := congrArg ScenarioOwned.groups h
  have hdomains : A.domains = B.domains := by
    have := congrArg ScenarioOwned.domains h
    exact this
  have hcores : A.coreCount = B.coreCount := by
    have := congrArg ScenarioOwned.coreCount h
    exact this
  have hquantum := congrArg ScenarioOwned.roundRobinQuantum h
  have hframe : A.frame policy = B.frame policy := by
    unfold ScenarioOwned.frame
    cases policy <;> simp_all [ScenarioOwned.without, PolicyKind.readsQuantum]
  have hlen : B.tasks.length = A.tasks.length := by simpa using (congrArg List.length htasks).symm
  have hinit : ∀ m, (initEngineAs A rfl m).erase policy = (initEngineAs B hlen m).erase policy := by
    intro m
    unfold Engine.erase initEngineAs
    congr 1
    funext i
    refine initRuntime_erase hgroups ?_
    have hget := List.getElem_of_eq htasks (i := i.val) (by simp)
    rw [List.getElem_map, List.getElem_map] at hget
    exact hget
  have hnil : A.tasks = [] ↔ B.tasks = [] := by
    rw [← List.length_eq_zero_iff, ← List.length_eq_zero_iff, hlen]
  unfold simulate
  by_cases ht : A.tasks = []
  · rw [if_pos ht, if_pos (hnil.mp ht)]
  · rw [if_neg ht, if_neg (fun hb => ht (hnil.mpr hb)), ← hcores]
    by_cases hc : A.coreCount ≤ 1
    · rw [if_pos hc, if_pos hc, simulateSingleCore_as rfl, simulateSingleCore_as hlen, stepSingleCore_frame A,
        stepSingleCore_frame B, hframe]
      exact runTicks_observed stepSingleCore_blind (hinit 1) _
    · rw [if_neg hc, if_neg hc, simulateMulticore_as rfl rfl, simulateMulticore_as hlen hcores.symm,
        stepMulticore_frame A, stepMulticore_frame B, hframe]
      exact runTicks_observed stepMulticore_blind (hinit _) _

/-- **What a policy does not read has no influence**: neither on the trace nor on the completion order nor on the times
of the tasks, on any number of cores. -/
theorem policy_noninterference (A B : ScenarioOwned) :
    (A.without true true true = B.without true true true →
      (simulate A .fcfs).map SimulationResult.observed = (simulate B .fcfs).map SimulationResult.observed) ∧
    (A.without true true false = B.without true true false →
      (simulate A .roundRobin).map SimulationResult.observed = (simulate B .roundRobin).map SimulationResult.observed) ∧
    (A.without false true true = B.without false true true →
      (simulate A .cfsLike).map SimulationResult.observed = (simulate B .cfsLike).map SimulationResult.observed) ∧
    (A.without true false true = B.without true false true →
      (simulate A .deadline).map SimulationResult.observed = (simulate B .deadline).map SimulationResult.observed) :=
  ⟨fun h => simulate_observed h, fun h => simulate_observed h, fun h => simulate_observed h,
    fun h => simulate_observed h⟩

end Scenarios

end Exasphere.Sim

import Exasphere.Sim.Metrics
import Exasphere.Sim.TraceOrder

/-!
# Whole simulations

`simulate` runs one of the two loops from the initial state of an accepted scenario and finalizes the state in which
the loop ends. Both loops are a `Simulation`: a lawful machine that does not fault while there is room. The main
results about `simulate` follow for both at once:

- it returns a result, by the `horizon` of the scenario (`simulate_returns`);
- the result accounts for every tick of every task;
- the trace of every task is a word of the trace grammar, and every core has one entry per tick
  (`simulate_grammatical`).
-/

namespace Exasphere.Sim

open Exasphere.Lib

variable {m : Nat} {scenario : ScenarioOwned} {policy : PolicyKind}

/-! ## The initial state -/

section Init

/-- The fixed parts of the tasks of a scenario. -/
def infos (scenario : ScenarioOwned) (i : Fin scenario.tasks.length) : TaskInfo := (initRuntimes scenario i).toTaskInfo

theorem start_init (hv : Valid scenario) (m : Nat) : Start (infos scenario) (initEngine scenario m) := by
  have hmem : ∀ i : Fin scenario.tasks.length, scenario.tasks[i] ∈ scenario.tasks := fun i => List.getElem_mem i.isLt
  refine ⟨fun i => initRuntime_valid hv (hmem i), fun i => Life.init hv (hmem i), rfl, rfl, rfl, by simp [initEngine],
    fun i => ?_, by simp [initEngine]⟩
  simp [initEngine, initRuntimes, initRuntime]

theorem ids_init (hv : Valid scenario) (m : Nat) : (initEngine scenario m).Ids := by
  intro i j hij
  have hnd := List.nodup_iff_injective_get.mp hv.ids
  have hget : (scenario.tasks.map TaskSpec.id).get (i.cast (by simp)) =
      (scenario.tasks.map TaskSpec.id).get (j.cast (by simp)) := by
    simpa [initEngine, initRuntimes, initRuntime] using hij
  have := congrArg Fin.val (hnd hget)
  exact Fin.ext (by simpa using this)

theorem placed_init (hv : Valid scenario) (hm : 0 < m) : Placed (initEngine scenario m) := by
  refine ⟨⟨?_, ?_⟩, ⟨?_, ?_, ?_⟩, ?_, ids_init hv m⟩ <;> simp [initEngine, initRuntimes, initRuntime, hm]

theorem solo_init (hv : Valid scenario) : Solo policy (initEngine scenario 1) := by
  refine ⟨⟨?_, ?_⟩, fun _ => ⟨?_, ?_, ?_⟩, ?_, ?_, ids_init hv 1⟩ <;> simp [initEngine, initRuntimes, initRuntime]

theorem counted_init (m : Nat) : (initEngine scenario m).Counted := by
  intro c
  simp [initEngine]

/-- The invariants of the two loops hold at their start. -/
theorem solo_counted_init (hv : Valid scenario) :
    Solo policy (initEngine scenario 1) ∧ (initEngine scenario 1).Counted :=
  ⟨solo_init hv, counted_init 1⟩

theorem placed_counted_init (hv : Valid scenario) :
    Placed (initEngine scenario scenario.coreCount) ∧ (initEngine scenario scenario.coreCount).Counted :=
  ⟨placed_init hv hv.core_pos, counted_init _⟩

end Init

/-! ## Simulations -/

/-- A loop that simulates a scenario on `m` cores. -/
structure Simulation (scenario : ScenarioOwned) (policy : PolicyKind) (m : Nat) where
  machine : Machine scenario.tasks.length m
  Inv : Engine scenario.tasks.length m → Prop
  lawful : Lawful machine policy Inv
  init : Inv (initEngine scenario m)
  total : ∀ {s}, Inv s → Room (infos scenario) s →
    ∃ mid e, machine.schedule s = .ok mid ∧ machine.execute mid = .ok e
  trace : TraceLaw machine Inv (infos scenario)

def singleSimulation (policy : PolicyKind) (hv : Valid scenario) : Simulation scenario policy 1 where
  machine := singleCore scenario policy
  Inv := fun s => Solo policy s ∧ s.Counted
  lawful := singleCore_lawful
  init := ⟨solo_init hv, counted_init 1⟩
  total := fun ⟨hp, hc⟩ hroom => singleCore_total hp hc hroom
  trace := singleCore_traceLaw

def multiSimulation (policy : PolicyKind) (hv : Valid scenario) : Simulation scenario policy scenario.coreCount where
  machine := multicore scenario policy
  Inv := fun s => Placed s ∧ s.Counted
  lawful := multicore_lawful
  init := ⟨placed_init hv hv.core_pos, counted_init _⟩
  total := fun ⟨hp, hc⟩ hroom => multicore_total ⟨hv.core_pos, hv.domain_cores⟩ hp hc hroom
  trace := multicore_traceLaw

/-- The dispatched state of tick `τ` of the simulation, before any core executes, satisfies `P`. -/
def AtTick (scenario : ScenarioOwned) (policy : PolicyKind) (τ : Nat)
    (P : ∀ {m}, Engine scenario.tasks.length m → Prop) : Prop :=
  if scenario.coreCount ≤ 1 then ∃ mid, (singleCore scenario policy).Mid (initEngine scenario 1) τ mid ∧ P mid
  else ∃ mid, (multicore scenario policy).Mid (initEngine scenario scenario.coreCount) τ mid ∧ P mid

/-- In tick `τ` of the simulation task `i` is ready and does not execute. -/
def ReadyAt (scenario : ScenarioOwned) (policy : PolicyKind) (τ : Nat) (i : Fin scenario.tasks.length) : Prop :=
  AtTick scenario policy τ (fun mid => (mid.runtimes i).state = .ready)

/-- In tick `τ` of the simulation core `c` executes the last tick of a CPU phase that another phase follows. -/
def BlocksAt (scenario : ScenarioOwned) (policy : PolicyKind) (τ : Nat) (c : CoreId) : Prop :=
  AtTick scenario policy τ (fun {m} mid => ∃ d : Fin m, d.val = c ∧ BlocksOn mid d)

/-- `simulate` runs the loop. -/
structure Simulation.Runs (S : Simulation scenario policy m) : Prop where
  cores : m = scenario.coreCount
  simulate_eq : simulate scenario policy =
    (runTicks S.machine.step maxTicks (initEngine scenario m) >>= finalizeResult scenario policy)
  atTick : ∀ τ (P : ∀ {m}, Engine scenario.tasks.length m → Prop), AtTick scenario policy τ P ↔
    ∃ mid, S.machine.Mid (initEngine scenario m) τ mid ∧ P mid

theorem singleSimulation_runs (policy : PolicyKind) (hv : Valid scenario) (hc : scenario.coreCount ≤ 1) :
    (singleSimulation policy hv).Runs := by
  have hpos := hv.core_pos
  refine ⟨by omega, ?_, fun τ P => ?_⟩
  · simp only [simulate, hv.tasks_ne, if_false, hc, if_true]
    rfl
  · simp only [AtTick, hc, if_true]
    rfl

theorem multiSimulation_runs (policy : PolicyKind) (hv : Valid scenario) (hc : ¬scenario.coreCount ≤ 1) :
    (multiSimulation policy hv).Runs := by
  refine ⟨rfl, ?_, fun τ P => ?_⟩
  · simp only [simulate, hv.tasks_ne, if_false, hc]
    rfl
  · simp only [AtTick, hc, if_false]
    rfl

/-- `simulate` is one of the two loops. -/
theorem simulate_runs (policy : PolicyKind) (hv : Valid scenario) :
    ∃ (m : Nat) (S : Simulation scenario policy m), S.Runs := by
  by_cases hc : scenario.coreCount ≤ 1
  · exact ⟨1, _, singleSimulation_runs policy hv hc⟩
  · exact ⟨_, _, multiSimulation_runs policy hv hc⟩

/-! ## Termination -/

section Termination

/-- The lengths of the wait phases of a task. -/
def TaskSpec.waits (task : TaskSpec) : List Nat := waitList (task.phases.getD [])

def maxArrival (scenario : ScenarioOwned) : Nat := (scenario.tasks.map TaskSpec.arrivalTick).max?.getD 0
def totalBurst (scenario : ScenarioOwned) : Nat := (scenario.tasks.map TaskSpec.burstTicks).sum
def totalWait (scenario : ScenarioOwned) : Nat := (scenario.tasks.map (fun task => task.waits.sum)).sum

/-- The tick by which every simulation of the scenario is over. -/
def horizon (scenario : ScenarioOwned) : Nat := maxArrival scenario + totalBurst scenario + totalWait scenario

theorem waitList_infos (i : Fin scenario.tasks.length) :
    waitList (infos scenario i).phaseList = (scenario.tasks[i]).waits := by
  unfold TaskSpec.waits infos initRuntimes initRuntime TaskInfo.phaseList
  cases h : (scenario.tasks[i]).phases with
  | none => simp [waitList_singleton]
  | some ps => simp

theorem sum_demand (scenario : ScenarioOwned) :
    ∑ i, (infos scenario i).demand = totalBurst scenario + totalWait scenario := by
  have hdemand : ∀ i : Fin scenario.tasks.length, (infos scenario i).demand =
      (scenario.tasks[i]).burstTicks + (scenario.tasks[i]).waits.sum := by
    intro i
    unfold TaskInfo.demand waitTicks
    rw [waitList_infos]
    rfl
  simp only [hdemand, Finset.sum_add_distrib]
  unfold totalBurst totalWait
  rw [← Fin.sum_univ_fun_getElem, ← Fin.sum_univ_fun_getElem]
  rfl

theorem arrival_le_max (i : Fin scenario.tasks.length) : (infos scenario i).arrivalTick ≤ maxArrival scenario :=
  List.le_max?_getD_of_mem (List.mem_map_of_mem (List.getElem_mem i.isLt))

/-- There are at most as many tasks as ticks of work. -/
theorem length_le_burst (hv : Valid scenario) : scenario.tasks.length ≤ totalBurst scenario := by
  have h := List.length_le_sum_of_one_le (scenario.tasks.map TaskSpec.burstTicks) (by
    intro b hb
    obtain ⟨t, ht, rfl⟩ := List.mem_map.mp hb
    exact (hv.tasks t ht).1)
  simpa [totalBurst] using h

/-- A result and the run it comes from: the first state in which all tasks are complete. -/
structure Returns (scenario : ScenarioOwned) (policy : PolicyKind) (r : SimulationResult)
    (S : Simulation scenario policy m) (k : Nat) (s : Engine scenario.tasks.length m) : Prop where
  result : simulate scenario policy = .ok r
  cores : m = scenario.coreCount
  run : S.machine.Run (initEngine scenario m) k s
  ended : scenario.tasks.length ≤ s.completed
  finalized : Finalized s r
  bound : k ≤ horizon scenario
  atTick : ∀ τ (P : ∀ {m}, Engine scenario.tasks.length m → Prop), AtTick scenario policy τ P ↔
    ∃ mid, S.machine.Mid (initEngine scenario m) τ mid ∧ P mid

/-- A result of the loop comes from a run. -/
theorem Simulation.Runs.returns {S : Simulation scenario policy m} (hS : S.Runs) (hv : Valid scenario)
    {r : SimulationResult} (h : simulate scenario policy = .ok r) :
    ∃ (k : Nat) (s : Engine scenario.tasks.length m), Returns scenario policy r S k s := by
  have hrun := h
  rw [hS.simulate_eq] at hrun
  obtain ⟨s, hs, hf⟩ := bind_eq_ok.mp hrun
  obtain ⟨k, hr, -, hn⟩ := runTicks_run .zero hs
  have hk := (start_init hv m).tick_le S.lawful S.init arrival_le_max hr
  rw [sum_demand, ← Nat.add_assoc] at hk
  exact ⟨k, s, h, hS.cores, hr, hn, finalizeResult_ok hf, hk, hS.atTick⟩

/-- A result comes from a run. -/
theorem simulate_ok (hv : Valid scenario) {r : SimulationResult} (h : simulate scenario policy = .ok r) :
    ∃ (m : Nat) (S : Simulation scenario policy m) (k : Nat) (s : Engine scenario.tasks.length m),
      Returns scenario policy r S k s := by
  obtain ⟨m, S, hS⟩ := simulate_runs policy hv
  exact ⟨m, S, hS.returns hv h⟩

/-- **Every simulation of an accepted scenario returns.** -/
theorem simulate_returns (policy : PolicyKind) (hv : Valid scenario) (hB : horizon scenario < 2 ^ 32 - 1) :
    ∃ r, simulate scenario policy = .ok r := by
  obtain ⟨m, S, hS⟩ := simulate_runs policy hv
  have hstart := start_init hv m
  have hsum := sum_demand scenario
  unfold horizon at hB
  obtain ⟨s, hs⟩ := hstart.runTicks_total S.lawful S.init S.total arrival_le_max (by omega) maxTicks .zero
    (by simp [maxTicks])
  obtain ⟨k, hr, -, hn⟩ := runTicks_run .zero hs
  have hk := hstart.tick_le S.lawful S.init arrival_le_max hr
  have hlife := hstart.life_run S.lawful S.init hr
  have hall := (hstart.ledger_run S.lawful S.init hr).all_complete.mp hn
  have hlen := length_le_burst hv
  obtain ⟨r, hres⟩ := finalizeResult_total scenario policy (s := s)
    (List.length_pos_iff.mpr hv.tasks_ne) (by omega) (by
      intro i
      obtain ⟨metrics, hmet, hacc, hle⟩ := (hlife i).metrics (hall i)
      have h₁ := hacc.completion_eq
      have h₂ := hacc.turnaround
      have h₃ := hacc.response
      exact ⟨metrics, hmet, by omega, by omega, by omega⟩)
  exact ⟨r, by rw [hS.simulate_eq, hs, ok_bind, hres]⟩

section Returned

variable {r : SimulationResult} {S : Simulation scenario policy m} {k : Nat} {s : Engine scenario.tasks.length m}

theorem Returns.life (h : Returns scenario policy r S k s) (hv : Valid scenario) :
    Lives S.machine (infos scenario) (initEngine scenario m) k s :=
  (start_init hv m).life_run S.lawful S.init h.run

theorem Returns.ledger (h : Returns scenario policy r S k s) (hv : Valid scenario) : Ledger s :=
  (start_init hv m).ledger_run S.lawful S.init h.run

theorem Returns.complete (h : Returns scenario policy r S k s) (hv : Valid scenario)
    (i : Fin scenario.tasks.length) : (s.runtimes i).state = .complete :=
  (h.ledger hv).all_complete.mp h.ended i

theorem Returns.finalTick (h : Returns scenario policy r S k s) (hv : Valid scenario) : r.finalTick = k := by
  rw [h.finalized.finalTick]
  exact ((start_init hv m).inv S.lawful S.init h.run).2

end Returned

/-- **Every simulation of an accepted scenario ends with a result**: no step and no metric faults, and the last tick is
at most the last arrival plus all bursts and waits. The order of the tasks plays no role, so `inputOrder` is free. -/
theorem simulate_total (scenario : ScenarioOwned) (policy : PolicyKind) (hv : scenario.validate = .ok ())
    (hB : horizon scenario < 2 ^ 32 - 1) :
    ∃ r, simulate scenario policy = .ok r ∧ r.finalTick ≤ horizon scenario := by
  obtain ⟨r, hr⟩ := simulate_returns policy (validate_ok hv) hB
  obtain ⟨m, S, k, s, h⟩ := simulate_ok (validate_ok hv) hr
  refine ⟨r, hr, ?_⟩
  rw [h.finalTick (validate_ok hv)]
  exact h.bound

/-- Two cores; the first task waits between its two CPU phases, the second arrives one tick later. -/
def waitingPair : ScenarioOwned where
  name := [119]
  coreCount := 2
  tasks := [{ id := [97], arrivalTick := 0, burstTicks := 2, phases := some [⟨.cpu, 1⟩, ⟨.wait, 2⟩, ⟨.cpu, 1⟩] },
    { id := [98], arrivalTick := 1, burstTicks := 3, inputOrder := 1 }]

theorem simulate_total_waitingPair : ∃ r, simulate waitingPair .cfsLike = .ok r ∧ r.finalTick ≤ 8 :=
  simulate_total waitingPair .cfsLike (by decide) (by decide)

end Termination

/-! ## Accounting -/

section Accounting

/-- The number of `tick` entries of a task. -/
def tickEntries (id : Bytes) (trace : List TraceEntry) : Nat :=
  trace.countP (fun e => decide (e.kind = .tick ∧ e.taskId = some id))

theorem countP_events (id : Bytes) (trace : List TraceEntry) :
    (events id trace).countP (fun e => e.kind = .tick) = tickEntries id trace := by
  unfold events tickEntries
  rw [List.countP_map, List.countP_filter]
  apply List.countP_congr
  intro e _
  rw [Bool.and_eq_true, decide_eq_true_eq, decide_eq_true_eq, ← decide_eq_true_iff (p := e.kind = .tick)]
  exact Iff.rfl

/-- The metrics `t` of task `i` account for every tick from its arrival to its completion. -/
structure TaskAccount (scenario : ScenarioOwned) (policy : PolicyKind) (r : SimulationResult)
    (i : Fin scenario.tasks.length) (t : TaskMetrics) : Prop where
  burst : t.burstTicks = (scenario.tasks[i]).burstTicks
  ticks : tickEntries (scenario.tasks[i]).id r.trace = t.burstTicks
  executed : t.totalExecuted = t.burstTicks
  blocked : t.blockedTime = (scenario.tasks[i]).waits.sum
  turnaround : t.turnaroundTime = t.waitingTime + t.burstTicks + t.blockedTime
  completion : t.completionTime = (scenario.tasks[i]).arrivalTick + t.turnaroundTime
  waiting : t.waitingTime = Set.ncard
    {τ | (scenario.tasks[i]).arrivalTick ≤ τ ∧ τ < t.completionTime ∧ ReadyAt scenario policy τ i}
  response : t.responseTime ≤ t.waitingTime

/-- A result conserves the work of the scenario. -/
structure Accounts (scenario : ScenarioOwned) (policy : PolicyKind) (r : SimulationResult) : Prop where
  length : r.tasks.length = scenario.tasks.length
  task : ∀ (i : Fin scenario.tasks.length) (t : TaskMetrics), r.tasks[i.val]? = some t →
    TaskAccount scenario policy r i t
  order_perm : r.completionOrder.Perm (List.range scenario.tasks.length)
  order_sorted : r.completionOrder.Pairwise (fun i j => ∀ a b, r.tasks[i]? = some a → r.tasks[j]? = some b →
    a.completionTime ≤ b.completionTime)
  completion_le : ∀ t ∈ r.tasks, t.completionTime ≤ r.finalTick
  completion_max : ∃ t ∈ r.tasks, t.completionTime = r.finalTick

variable {r : SimulationResult} {S : Simulation scenario policy m} {k : Nat} {s : Engine scenario.tasks.length m}

/-- The metrics of a task and its counters in the final state. -/
theorem Returns.accounted (h : Returns scenario policy r S k s) (hv : Valid scenario)
    (i : Fin scenario.tasks.length) : ∃ t, r.tasks[i.val]? = some t ∧ t.completionTime ≤ k ∧
      Accounted (infos scenario i) (S.machine.waited (initEngine scenario m) i k) (s.runtimes i) t := by
  obtain ⟨t, ht, hacc, hle⟩ := (h.life hv i).metrics (h.complete hv i)
  have hget := h.finalized.tasks i
  have ht' : taskMetrics (s.runtimes i) = .ok t := ht
  rw [ht'] at hget
  refine ⟨t, ?_, hle, hacc⟩
  have hlt : i.val < r.tasks.length := by rw [h.finalized.length]; exact i.isLt
  rw [List.getElem?_eq_getElem hlt, Except.ok.inj hget]
  rfl

theorem Returns.waited_eq (h : Returns scenario policy r S k s) (hv : Valid scenario)
    (i : Fin scenario.tasks.length) {t : Nat} (ht : (s.runtimes i).completionTime = some t) (hle : t ≤ k) :
    S.machine.waited (initEngine scenario m) i k =
      Set.ncard {τ | (scenario.tasks[i]).arrivalTick ≤ τ ∧ τ < t ∧ ReadyAt scenario policy τ i} := by
  unfold Machine.waited
  rw [← Set.ncard_coe_finset]
  congr 1
  ext τ
  simp only [Finset.coe_filter, Finset.mem_range, Set.mem_ofPred_eq, ReadyAt, h.atTick]
  constructor
  · rintro ⟨hτ, mid, hmid, hr⟩
    have := (start_init hv m).ready_between S.lawful S.init h.run (h.complete hv i) ht hmid hτ hr
    exact ⟨this.1, this.2, mid, hmid, hr⟩
  · rintro ⟨-, hτ, hr⟩
    exact ⟨by omega, hr⟩

theorem Returns.taskAccount (h : Returns scenario policy r S k s) (hv : Valid scenario)
    (i : Fin scenario.tasks.length) {t : TaskMetrics} (ht : r.tasks[i.val]? = some t) :
    TaskAccount scenario policy r i t := by
  obtain ⟨t', ht', hle, hacc⟩ := h.accounted hv i
  obtain rfl : t = t' := Option.some.inj (ht.symm.trans ht')
  have hwaits : waitTicks (infos scenario i).phaseList = (scenario.tasks[i]).waits.sum := by
    rw [waitTicks, waitList_infos]
  have hticks := (h.life hv i).ticks
  have hinfo := (h.life hv i).common.info_eq
  have hwork := (h.life hv i).common.work
  have hid : (s.runtimes i).id = (scenario.tasks[i]).id := congrArg TaskInfo.id hinfo
  refine ⟨hacc.burst, ?_, hacc.executed.trans hacc.burst.symm, hacc.blocked.trans hwaits, hacc.turnaround, ?_, ?_,
    hacc.response⟩
  · have hrem : (s.runtimes i).totalExecuted = (infos scenario i).burstTicks := by
      cases (h.life hv i).clause with
      | complete _ hz => simp only [hz, Nat.add_zero] at hwork; exact hwork
      | pending hs' | ready hs' | running hs' | blocked hs' =>
        have := h.complete hv i
        simp [Engine.view, this] at hs'
    rw [hacc.burst, ← hrem, ← hid, h.finalized.trace, ← countP_events]
    exact hticks
  · rw [hacc.completion_eq, hacc.arrival]
    rfl
  · rw [hacc.waiting]
    exact h.waited_eq hv i hacc.completion hle

/-- Some task completes with the last tick. -/
theorem Start.last_completes {n : Nat} {M : Machine n m} {Inv : Engine n m → Prop} {info : Fin n → TaskInfo}
    {s₀ s : Engine n m} (hM : Lawful M policy Inv) (hs : Start info s₀) (h₀ : Inv s₀) (hn : 0 < n)
    (h : M.Run s₀ k s) (he : n ≤ s.completed) : ∃ i, (s.runtimes i).completionTime = some k := by
  cases h with
  | zero =>
    -- no task is complete before the first tick
    have hall : (s₀.runtimes ⟨0, hn⟩).state = .complete := hs.ledger.all_complete.mp he ⟨0, hn⟩
    have hlife := hs.life ⟨0, hn⟩
    have hwork := hlife.common.work
    have hburst := (hs.valid ⟨0, hn⟩).burst_pos
    cases hlife.clause with
    | complete _ hz _ _ _ t _ hle hc =>
      simp only [Clock] at hc
      omega
    | pending hs' | ready hs' | running hs' | blocked hs' => simp [hall] at hs'
  | @succ k a _ hr hc hstep =>
    obtain ⟨mid, e, hmid, he', -, rfl⟩ := Machine.step_ok hstep
    obtain ⟨hinv, hk⟩ := hs.inv hM h₀ hr
    have hled := hs.ledger_run hM h₀ (.succ hr hc hstep)
    have hinc : ∃ i, (a.runtimes i).state ≠ .complete := by
      by_contra hno
      push Not at hno
      have := (hs.ledger_run hM h₀ hr).all_complete.mpr hno
      omega
    obtain ⟨i, hi⟩ := hinc
    rcases (hM.spec hinv hmid he').complete_cases (hled.all_complete.mp he i) with h | ⟨-, h⟩
    · exact absurd h hi
    · exact ⟨i, by rw [← hk]; exact h⟩

theorem Returns.accounts (h : Returns scenario policy r S k s) (hv : Valid scenario) : Accounts scenario policy r := by
  have hled := h.ledger hv
  have hlen := h.finalized.length
  have hfin := h.finalTick hv
  refine ⟨hlen, fun i t ht => h.taskAccount hv i ht, ?_, ?_, fun t ht => ?_, ?_⟩
  · -- every task index occurs once
    rw [h.finalized.order]
    have hperm : s.completionOrder.Perm (List.finRange scenario.tasks.length) := by
      apply (List.perm_ext_iff_of_nodup hled.nodup (List.nodup_finRange _)).mpr
      intro i
      simp [hled.mem i, h.complete hv i]
    simpa using hperm.map Fin.val
  · rw [h.finalized.order, List.pairwise_map]
    apply hled.sorted.imp
    intro i j hij a b ha hb
    obtain ⟨a', ha', -, hacc⟩ := h.accounted hv i
    obtain ⟨b', hb', -, hacc'⟩ := h.accounted hv j
    obtain rfl : a = a' := Option.some.inj (ha.symm.trans ha')
    obtain rfl : b = b' := Option.some.inj (hb.symm.trans hb')
    exact hij _ _ hacc.completion hacc'.completion
  · obtain ⟨i, hi, rfl⟩ := List.mem_iff_getElem.mp ht
    obtain ⟨t', ht', hle, -⟩ := h.accounted hv ⟨i, by omega⟩
    rw [List.getElem?_eq_getElem hi] at ht'
    rw [Option.some.inj ht', hfin]
    exact hle
  · obtain ⟨i, hi⟩ := (start_init hv m).last_completes S.lawful S.init (List.length_pos_iff.mpr hv.tasks_ne)
      h.run h.ended
    obtain ⟨t, ht, -, hacc⟩ := h.accounted hv i
    refine ⟨t, List.mem_of_getElem? ht, ?_⟩
    rw [hfin]
    exact Option.some.inj (hacc.completion.symm.trans hi)

/-- **Conservation of work.** The simulation returns, and its result accounts for every tick of every task. -/
theorem simulate_accounts (scenario : ScenarioOwned) (policy : PolicyKind) (hv : scenario.validate = .ok ())
    (hB : horizon scenario < 2 ^ 32 - 1) : ∃ r, simulate scenario policy = .ok r ∧ Accounts scenario policy r := by
  obtain ⟨r, hr⟩ := simulate_returns policy (validate_ok hv) hB
  obtain ⟨m, S, k, s, h⟩ := simulate_ok (validate_ok hv) hr
  exact ⟨r, hr, h.accounts (validate_ok hv)⟩

theorem simulate_accounts_waitingPair :
    ∃ r, simulate waitingPair .deadline = .ok r ∧ Accounts waitingPair .deadline r :=
  simulate_accounts waitingPair .deadline (by decide) (by decide)

end Accounting

/-! ## The trace -/

section Trace

/-- The trace of a result follows the grammar: task by task, and one entry for each core and tick. -/
structure Grammatical (scenario : ScenarioOwned) (r : SimulationResult) : Prop where
  word : ∀ task ∈ scenario.tasks, TraceWord task.arrivalTick task.waits (events task.id r.trace)
  cells : ∀ c τ, c < scenario.coreCount → τ < r.finalTick → cells c τ r.trace = 1

variable {r : SimulationResult} {S : Simulation scenario policy m} {k : Nat} {s : Engine scenario.tasks.length m}

theorem Returns.grammatical (h : Returns scenario policy r S k s) (hv : Valid scenario) : Grammatical scenario r := by
  refine ⟨fun task ht => ?_, fun c τ hc hτ => ?_⟩
  · obtain ⟨i, hi, rfl⟩ := List.mem_iff_getElem.mp ht
    have hlife := h.life hv ⟨i, hi⟩
    have hid : (s.runtimes ⟨i, hi⟩).id = scenario.tasks[i].id := congrArg TaskInfo.id hlife.common.info_eq
    have hwaits : waitList (infos scenario ⟨i, hi⟩).phaseList = scenario.tasks[i].waits := waitList_infos ⟨i, hi⟩
    cases hlife.clause with
    | complete _ _ _ _ _ _ _ _ _ hev =>
      rw [hwaits] at hev
      rw [h.finalized.trace, ← hid]
      exact hev
    | pending hs' | ready hs' | running hs' | blocked hs' =>
      have := h.complete hv ⟨i, hi⟩
      simp [Engine.view, this] at hs'
  · have hc' : c < m := by rw [h.cores]; exact hc
    have := (start_init hv m).cells_run S.lawful S.init h.run ⟨c, hc'⟩ τ
    rw [h.finalized.trace, this, if_pos (by rw [← h.finalTick hv]; exact hτ)]

/-- **The trace grammar.** A simulation that fits a `u32` returns, and the trace of every result follows the grammar. -/
theorem simulate_grammatical (scenario : ScenarioOwned) (policy : PolicyKind) (hv : scenario.validate = .ok ()) :
    (horizon scenario < 2 ^ 32 - 1 → ∃ r, simulate scenario policy = .ok r) ∧
      ∀ r, simulate scenario policy = .ok r → Grammatical scenario r := by
  refine ⟨simulate_returns policy (validate_ok hv), fun r hr => ?_⟩
  obtain ⟨m, S, k, s, h⟩ := simulate_ok (validate_ok hv) hr
  exact h.grammatical (validate_ok hv)

theorem simulate_grammatical_waitingPair :
    (horizon waitingPair < 2 ^ 32 - 1 → ∃ r, simulate waitingPair .roundRobin = .ok r) ∧
      ∀ r, simulate waitingPair .roundRobin = .ok r → Grammatical waitingPair r :=
  simulate_grammatical waitingPair .roundRobin (by decide)

theorem Returns.ordered_iff (h : Returns scenario policy r S k s) (hv : Valid scenario) :
    Ordered r.trace ↔ ∀ τ c, BlocksAt scenario policy τ c → c + 1 = scenario.coreCount := by
  rw [h.finalized.trace, ((start_init hv m).ordered_run S.lawful S.trace S.init h.run).2, ← h.cores]
  simp only [BlocksAt, h.atTick]
  constructor
  · rintro hall τ c ⟨mid, hm, d, rfl, hb⟩
    exact hall τ mid d (hm.lt_end h.run h.ended) hm hb
  · exact fun hall τ mid c _ hm hb => hall τ c ⟨mid, hm, c, rfl, hb⟩

/-- **The order of the trace.** A simulation that fits a `u32` returns, and the ticks of the trace of a result never
decrease exactly when no core but the last one blocks a task. -/
theorem simulate_ordered_iff (scenario : ScenarioOwned) (policy : PolicyKind) (hv : scenario.validate = .ok ()) :
    (horizon scenario < 2 ^ 32 - 1 → ∃ r, simulate scenario policy = .ok r) ∧
      ∀ r, simulate scenario policy = .ok r →
        (Ordered r.trace ↔ ∀ τ c, BlocksAt scenario policy τ c → c + 1 = scenario.coreCount) := by
  refine ⟨simulate_returns policy (validate_ok hv), fun r hr => ?_⟩
  obtain ⟨m, S, k, s, h⟩ := simulate_ok (validate_ok hv) hr
  exact h.ordered_iff (validate_ok hv)

theorem simulate_ordered_iff_waitingPair :
    (horizon waitingPair < 2 ^ 32 - 1 → ∃ r, simulate waitingPair .fcfs = .ok r) ∧
      ∀ r, simulate waitingPair .fcfs = .ok r →
        (Ordered r.trace ↔ ∀ τ c, BlocksAt waitingPair .fcfs τ c → c + 1 = waitingPair.coreCount) :=
  simulate_ordered_iff waitingPair .fcfs (by decide)

/-- Core 0 blocks the first task at tick 1 before core 1 writes its entry of tick 0. -/
theorem waitingPair_not_ordered : waitingPair.validate = .ok () ∧
    ∃ r, simulate waitingPair .fcfs = .ok r ∧ ¬Ordered r.trace := by
  refine ⟨by decide, ?_⟩
  obtain ⟨r, hr, hn⟩ :=
    okAnd_eq_true.mp (show okAnd (fun r => !decide (Ordered r.trace)) (simulate waitingPair .fcfs) = true
    by decide +kernel)
  exact ⟨r, hr, by simpa using hn⟩

end Trace

end Exasphere.Sim

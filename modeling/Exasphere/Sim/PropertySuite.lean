import Exasphere.Sim.Generate
import Exasphere.Sim.Report

/-!
# The property suite (`tests/property_test.zig`)

The suite generates a scenario, materializes it, simulates it under every policy and checks the accounts of the results
(`expectAccountingInvariants`); its shrinker test looks for a small scenario on which two policies complete a different
task first (`shrinkPredicate`). Both are total over the scenarios the generator and the shrinker reach: no seed makes
the suite fail (`generateScenario_suite`), and the predicate never raises, so that the shrinker always ends with a
scenario that shows the difference (`shrinkScenario_differs`).
-/

namespace Exasphere.Sim

open Exasphere.Lib

/-! ## The checks -/

inductive TestError
  | testExpectedEqual
  | testUnexpectedResult
  | integerOverflow
  deriving DecidableEq, Repr

section Checks

def expect (ok : Bool) : Except TestError Unit :=
  if ok then .ok () else .error .testUnexpectedResult

def expectEqual (expected actual : Nat) : Except TestError Unit :=
  if expected = actual then .ok () else .error .testExpectedEqual

/-- One turn of the loop over the tasks, with the bursts so far. -/
def expectTask (totalBurst : Nat) (task : TaskMetrics) : Except TestError Nat := do
  let totalBurst ← addChecked .integerOverflow 32 totalBurst task.burstTicks
  expectEqual task.burstTicks task.totalExecuted
  let spent ← addChecked .integerOverflow 32 task.waitingTime task.blockedTime
  let spent ← addChecked .integerOverflow 32 spent task.burstTicks
  expectEqual task.turnaroundTime spent
  expect (decide (task.responseTime ≤ task.waitingTime))
  let earliest ← addChecked .integerOverflow 32 task.arrivalTick task.burstTicks
  expect (decide (earliest ≤ task.completionTime))
  .ok totalBurst

/-- One turn of the loop over the trace, with the ticks so far. -/
def expectEntry (coreCount totalTickEvents : Nat) (entry : TraceEntry) : Except TestError Nat := do
  expect (entry.coreId.all (fun core => decide (core < coreCount)))
  if entry.kind = .tick then addChecked .integerOverflow 32 totalTickEvents 1 else .ok totalTickEvents

def expectAccountingInvariants (result : SimulationResult) : Except TestError Unit := do
  expectEqual result.tasks.length result.completionOrder.length
  -- the number of tasks is cast to a `u32`
  let taskCount ← addChecked .integerOverflow 32 0 result.tasks.length
  expectEqual taskCount result.aggregate.throughputNumerator
  let totalBurst ← result.tasks.foldlM expectTask 0
  let totalTickEvents ← result.trace.foldlM (expectEntry result.coreCount) 0
  expectEqual totalBurst totalTickEvents

end Checks

/-! ## The checks pass -/

section Pass

theorem expect_ok {ok : Bool} (h : ok = true) : expect ok = .ok () := by rw [expect, if_pos h]

theorem expectEqual_ok {a b : Nat} (h : a = b) : expectEqual a b = .ok () := if_pos h

/-- The accounts of one task that the suite looks at. -/
structure Balances (task : TaskMetrics) : Prop where
  executed : task.totalExecuted = task.burstTicks
  turnaround : task.turnaroundTime = task.waitingTime + task.burstTicks + task.blockedTime
  completion : task.completionTime = task.arrivalTick + task.turnaroundTime
  response : task.responseTime ≤ task.waitingTime
  fits : task.completionTime < 2 ^ 32

theorem expectTask_ok {task : TaskMetrics} (h : Balances task) {total : Nat} (hfit : total + task.burstTicks < 2 ^ 32) :
    expectTask total task = .ok (total + task.burstTicks) := by
  obtain ⟨hexecuted, hturnaround, hcompletion, hresponse, hlt⟩ := h
  refine bind_eq_ok.mpr ⟨_, addChecked_eq_ok.mpr ⟨hfit, rfl⟩, ?_⟩
  refine bind_eq_ok.mpr ⟨(), expectEqual_ok hexecuted.symm, ?_⟩
  refine bind_eq_ok.mpr ⟨_, addChecked_eq_ok.mpr ⟨by omega, rfl⟩, ?_⟩
  refine bind_eq_ok.mpr ⟨_, addChecked_eq_ok.mpr ⟨by omega, rfl⟩, ?_⟩
  refine bind_eq_ok.mpr ⟨(), expectEqual_ok (by omega), ?_⟩
  refine bind_eq_ok.mpr ⟨(), expect_ok (decide_eq_true hresponse), ?_⟩
  refine bind_eq_ok.mpr ⟨_, addChecked_eq_ok.mpr ⟨by omega, rfl⟩, ?_⟩
  exact bind_eq_ok.mpr ⟨(), expect_ok (decide_eq_true (by omega)), rfl⟩

theorem expectTasks_ok {tasks : List TaskMetrics} (h : ∀ t ∈ tasks, Balances t) {total : Nat}
    (hfit : total + (tasks.map TaskMetrics.burstTicks).sum < 2 ^ 32) :
    tasks.foldlM expectTask total = .ok (total + (tasks.map TaskMetrics.burstTicks).sum) := by
  induction tasks generalizing total with
  | nil => rfl
  | cons t tasks ih =>
    rw [List.forall_mem_cons] at h
    rw [List.map_cons, List.sum_cons] at hfit ⊢
    rw [List.foldlM_cons, expectTask_ok h.1 (by omega), ok_bind, ih h.2 (by omega), Nat.add_assoc]

theorem expectEntries_ok {trace : List TraceEntry} {coreCount : Nat}
    (h : ∀ e ∈ trace, ∃ c < coreCount, e.coreId = some c)
    {total : Nat} (hfit : total + countKind .tick trace < 2 ^ 32) :
    trace.foldlM (expectEntry coreCount) total = .ok (total + countKind .tick trace) := by
  induction trace generalizing total with
  | nil => rfl
  | cons e trace ih =>
    rw [List.forall_mem_cons] at h
    obtain ⟨⟨c, hc, he⟩, h⟩ := h
    have hcons : countKind .tick (e :: trace) = countKind .tick trace + if e.kind = .tick then 1 else 0 := by
      simp [countKind, List.countP_cons]
    rw [hcons] at hfit ⊢
    have hentry : expectEntry coreCount total e = .ok (total + if e.kind = .tick then 1 else 0) := by
      refine bind_eq_ok.mpr ⟨(), expect_ok (by simpa [he] using hc), ?_⟩
      by_cases hk : e.kind = .tick
      · rw [if_pos hk, if_pos hk]
        exact addChecked_eq_ok.mpr ⟨by rw [if_pos hk] at hfit; omega, rfl⟩
      · rw [if_neg hk, if_neg hk]
        rfl
    rw [List.foldlM_cons, hentry, ok_bind, ih h (by omega)]
    congr 1
    omega

theorem computeAggregate_numerator {tasks : List TaskMetrics} {aggregate : AggregateMetrics}
    (h : computeAggregate tasks = .ok aggregate) : aggregate.throughputNumerator = tasks.length := by
  simp only [computeAggregate, bind_eq_ok, Except.ok.injEq] at h
  obtain ⟨_, -, _, -, _, -, _, -, _, -, rfl⟩ := h
  rfl

variable {scenario : ScenarioOwned} {policy : PolicyKind} {r : SimulationResult} {m : Nat}
  {S : Simulation scenario policy m} {k : Nat} {s : Engine scenario.tasks.length m}

/-- The tasks of a result balance, and their bursts are those of the scenario. -/
theorem Returns.balances (h : Returns scenario policy r S k s) (hv : Valid scenario)
    (hfit : horizon scenario < 2 ^ 32 - 1) :
    (∀ t ∈ r.tasks, Balances t) ∧ r.tasks.map TaskMetrics.burstTicks = scenario.tasks.map TaskSpec.burstTicks := by
  have hacc := h.accounts hv
  have hfinal : r.finalTick ≤ horizon scenario := h.finalTick hv ▸ h.bound
  constructor
  · intro t ht
    obtain ⟨i, hi, rfl⟩ := List.mem_iff_getElem.mp ht
    have hi' : i < scenario.tasks.length := hacc.length ▸ hi
    have htask := hacc.task ⟨i, hi'⟩ r.tasks[i] (List.getElem?_eq_getElem hi)
    obtain ⟨t', ht', -, hacc'⟩ := h.accounted hv ⟨i, hi'⟩
    obtain rfl : r.tasks[i] = t' := Option.some.inj ((List.getElem?_eq_getElem hi).symm.trans ht')
    have hle := hacc.completion_le _ ht
    exact ⟨htask.executed, htask.turnaround, hacc'.completion_eq, htask.response, by omega⟩
  · refine List.ext_getElem (by simpa using hacc.length) fun i hi hi' => ?_
    have hi : i < r.tasks.length := by simpa using hi
    have hi' : i < scenario.tasks.length := by simpa using hi'
    simpa using (hacc.task ⟨i, hi'⟩ r.tasks[i] (List.getElem?_eq_getElem hi)).burst

/-- The suite's checks pass on every result. -/
theorem Returns.expectAccounting (h : Returns scenario policy r S k s) (hv : Valid scenario)
    (hfit : horizon scenario < 2 ^ 32 - 1) : expectAccountingInvariants r = .ok () := by
  have hacc := h.accounts hv
  obtain ⟨hbalances, hbursts⟩ := h.balances hv hfit
  have hcensus := h.census hv
  obtain ⟨haggregate, hcores⟩ := simulate_parts h.result
  have htotal : totalBurst scenario < 2 ^ 32 := by
    unfold horizon at hfit
    omega
  have hsum : (r.tasks.map TaskMetrics.burstTicks).sum = totalBurst scenario := by rw [hbursts, totalBurst]
  -- every task has a burst, so the tasks are no more than the ticks
  have hlen : r.tasks.length ≤ totalBurst scenario := by
    have hpos : ∀ b ∈ scenario.tasks.map TaskSpec.burstTicks, 1 ≤ b :=
      List.forall_mem_map.mpr fun t ht => (hv.tasks t ht).1
    rw [hacc.length, totalBurst]
    simpa using List.length_le_sum_of_one_le _ hpos
  refine bind_eq_ok.mpr ⟨(), expectEqual_ok ?_, ?_⟩
  · rw [hacc.length, hacc.order_perm.length_eq, List.length_range]
  refine bind_eq_ok.mpr ⟨_, addChecked_eq_ok.mpr ⟨by omega, rfl⟩, ?_⟩
  refine bind_eq_ok.mpr ⟨(), expectEqual_ok ?_, ?_⟩
  · rw [Nat.zero_add, computeAggregate_numerator haggregate]
  refine bind_eq_ok.mpr ⟨_, expectTasks_ok hbalances (by omega), ?_⟩
  have hnamed : ∀ e ∈ r.trace, ∃ c < r.coreCount, e.coreId = some c := by
    rw [hcores]
    exact fun e he => (simulate_named hv h.result e he).core
  refine bind_eq_ok.mpr ⟨_, expectEntries_ok hnamed (by rw [hcensus.ticks]; omega), expectEqual_ok ?_⟩
  rw [hsum, hcensus.ticks]

/-- A simulation that fits a `u32` returns, and its result passes the checks. -/
theorem simulate_expectAccounting (scenario : ScenarioOwned) (policy : PolicyKind) (hv : scenario.validate = .ok ())
    (hfit : horizon scenario < 2 ^ 32 - 1) :
    ∃ r, simulate scenario policy = .ok r ∧ expectAccountingInvariants r = .ok () := by
  have hv := validate_ok hv
  obtain ⟨r, hr⟩ := simulate_returns policy hv hfit
  obtain ⟨m, S, k, s, h⟩ := simulate_ok hv hr
  exact ⟨r, hr, h.expectAccounting hv hfit⟩

end Pass

/-! ## The suite over generated scenarios -/

section Suite

variable {σ : Type}

/-- **No seed makes the suite fail.** Whatever the source of numbers draws, the scenario is within the options and can
be shrunk, it materializes to the scenario it means, which is accepted, and under every policy the simulation returns
and passes the checks. -/
theorem generateScenario_suite (random : Random σ) (options : GeneratorOptions) (hfit : options.Fits) :
    ∃ s, generateScenario random options = .ok s ∧ Within options s ∧
      (options.maxBurstTicks.toNat * 10 < 2 ^ 32 → s.Valid) ∧ s.materialize = .ok s.meant ∧
      s.meant.validate = .ok () ∧ ∀ policy, ∃ r, simulate s.meant policy = .ok r ∧
        expectAccountingInvariants r = .ok () := by
  obtain ⟨s, hs, hwithin⟩ := generateScenario_within random options hfit
  have hsound := hwithin.sound hfit
  exact ⟨s, hs, hwithin, hwithin.valid, hsound.materialize_ok, hsound.validate,
    fun policy => simulate_expectAccounting s.meant policy hsound.validate hsound.horizon_lt⟩

/-- A source that counts up, and draws the least of its state and the bound. -/
def counting : Random Nat where
  init seed := seed.toNat
  boolean k := (decide (k % 2 = 1), k + 1)
  uintAtMost _ atMost k := (min k atMost, k + 1)
  uintAtMost_le _ _ _ := Nat.min_le_right _ _

theorem generateScenario_suite_counting :
    ∃ s, generateScenario counting { seed := 9 } = .ok s ∧ Within { seed := 9 } s ∧
      (6 * 10 < 2 ^ 32 → s.Valid) ∧ s.materialize = .ok s.meant ∧ s.meant.validate = .ok () ∧
      ∀ policy, ∃ r, simulate s.meant policy = .ok r ∧ expectAccountingInvariants r = .ok () :=
  generateScenario_suite counting { seed := 9 } (by unfold GeneratorOptions.Fits; decide)

end Suite

/-! ## The shrinker test -/

section Shrinker

/-- An error of the simulator as a value of `anyerror`, by its name. -/
def raise {ε α : Type} [Repr ε] (x : Except ε α) : Except AnyError α := x.mapError fun error => utf8 (reprStr error)

@[simp] theorem raise_ok {ε α : Type} [Repr ε] (a : α) : raise (.ok a : Except ε α) = .ok a := rfl

/-- `result.tasks[result.completion_order[index]].id`. -/
def completionTaskId (result : SimulationResult) (index : Nat) : Except SimError Bytes :=
  match result.completionOrder[index]? with
  | some task => taskIdAt result.tasks task
  | none => .error .indexOutOfBounds

/-- Whether FCFS and round robin complete a different task first. -/
def shrinkPredicate (generated : GeneratedScenario) : Except AnyError Bool := do
  let scenario ← raise generated.materialize
  let fcfs ← raise (simulate scenario .fcfs)
  let rr ← raise (simulate scenario .roundRobin)
  let fcfsFirst ← raise (completionTaskId fcfs 0)
  let rrFirst ← raise (completionTaskId rr 0)
  .ok (decide (fcfsFirst ≠ rrFirst))

/-- The first task that a simulation completes. -/
def CompletesFirst (scenario : ScenarioOwned) (policy : PolicyKind) (id : Bytes) : Prop :=
  ∃ r, simulate scenario policy = .ok r ∧ completionTaskId r 0 = .ok id

open GeneratedScenario

variable {s initial : GeneratedScenario}

theorem simulate_completesFirst (policy : PolicyKind) (h : s.Sound) : ∃ r id, simulate s.meant policy = .ok r ∧
    completionTaskId r 0 = .ok id := by
  have hv := validate_ok h.validate
  obtain ⟨r, hr⟩ := simulate_returns policy hv h.horizon_lt
  obtain ⟨m, S, k, e, hs⟩ := simulate_ok hv hr
  have hacc := hs.accounts hv
  have hlen : 0 < r.completionOrder.length := by
    rw [hacc.order_perm.length_eq, List.length_range]
    exact List.length_pos_iff.mpr hv.tasks_ne
  have hmem := hacc.order_perm.mem_iff.mp (List.getElem_mem hlen)
  have hlt : r.completionOrder[0] < r.tasks.length := hacc.length ▸ List.mem_range.mp hmem
  refine ⟨r, r.tasks[r.completionOrder[0]].id, hr, ?_⟩
  simp only [completionTaskId, List.getElem?_eq_getElem hlen, taskIdAt, List.getElem?_eq_getElem hlt]

/-- The predicate never raises on a sound scenario, and says whether the two policies differ. -/
theorem shrinkPredicate_ok (h : s.Sound) : ∃ holds, shrinkPredicate s = .ok holds ∧ (holds = true ↔
    ∃ a b, CompletesFirst s.meant .fcfs a ∧ CompletesFirst s.meant .roundRobin b ∧ a ≠ b) := by
  obtain ⟨fcfs, a, hfcfs, ha⟩ := simulate_completesFirst .fcfs h
  obtain ⟨rr, b, hrr, hb⟩ := simulate_completesFirst .roundRobin h
  refine ⟨decide (a ≠ b), ?_, ?_⟩
  · simp only [shrinkPredicate, h.materialize_ok, raise_ok, ok_bind, hfcfs, hrr, ha, hb]
  rw [decide_eq_true_iff]
  constructor
  · exact fun hne => ⟨a, b, ⟨fcfs, hfcfs, ha⟩, ⟨rr, hrr, hb⟩, hne⟩
  · rintro ⟨a', b', ⟨r₁, h₁, ha'⟩, ⟨r₂, h₂, hb'⟩, hne⟩
    obtain rfl := Except.ok.inj (hfcfs.symm.trans h₁)
    obtain rfl := Except.ok.inj (hrr.symm.trans h₂)
    rw [ha] at ha'
    rw [hb] at hb'
    rwa [Except.ok.inj ha', Except.ok.inj hb']

/-- The shrinker ends on a sound scenario when the predicate is total over the sound ones. -/
theorem shrinkScenario_sound {predicate : GeneratedScenario → Except AnyError Bool}
    (htotal : ∀ c : GeneratedScenario, c.Sound → ∃ holds, predicate c = .ok holds) (hs : initial.Sound)
    (hv : initial.Valid) (hp : predicate initial = .ok true) {turns : Nat} (hturns : initial.score < turns) :
    ∃ r, shrinkScenario predicate turns initial = .ok (some r) ∧ r.Sound ∧ Shrunk predicate initial r := by
  have hstep : ∀ s t : GeneratedScenario, s.Sound ∧ s.Valid ∧ predicate s = .ok true →
      shrinkPass predicate s = .ok (some t) → (t.Sound ∧ t.Valid ∧ predicate t = .ok true) ∧ t.score < s.score := by
    rintro s t ⟨hs, hv, -⟩ h
    obtain ⟨hvalid, hholds, hlt⟩ := shrinkPass_some hv h
    obtain ⟨x, hx, hc⟩ := firstM_some h
    obtain ⟨c, rfl, hcv, -⟩ := candidates_valid hv hx
    obtain ⟨rfl, -, -⟩ := accept_some hv hcv hc
    exact ⟨⟨hs.of_candidate hv hx, hvalid, hholds⟩, hlt⟩
  rcases descend_end hstep ⟨hs, hv, hp⟩ hturns with
    ⟨r, hr, ⟨hsound, hvalid, hholds⟩, hle, hend⟩ | ⟨r, e, ⟨hsound, hvalid, -⟩, hend, -⟩
  · exact ⟨r, hr, hsound, hholds, hvalid, ⟨_, _, hvalid.sizeScore_eq, hv.sizeScore_eq, hle⟩,
      shrinkPass_none hvalid hend⟩
  · -- the pass that faults asks the predicate of a sound candidate
    obtain ⟨x, hx, herr⟩ := firstM_error hend
    obtain ⟨c, rfl, hcv, -⟩ := candidates_valid hvalid hx
    obtain ⟨error, hraise, -⟩ := accept_error hvalid hcv herr
    obtain ⟨holds, hc⟩ := htotal c (hsound.of_candidate hvalid hx)
    rw [hc] at hraise
    cases hraise

/-- **The shrinker test succeeds.** On a sound scenario the predicate answers; where it holds, the shrinker returns a
scenario that materializes, is minimal, and still tells the two policies apart. -/
theorem shrinkScenario_differs (initial : GeneratedScenario) (hs : initial.Sound) (hv : initial.Valid) :
    ∃ holds, shrinkPredicate initial = .ok holds ∧ (holds = true → ∀ turns, initial.score < turns →
      ∃ r, shrinkScenario shrinkPredicate turns initial = .ok (some r) ∧ Shrunk shrinkPredicate initial r ∧
        r.materialize = .ok r.meant ∧ r.meant.validate = .ok () ∧
        ∃ a b, CompletesFirst r.meant .fcfs a ∧ CompletesFirst r.meant .roundRobin b ∧ a ≠ b) := by
  obtain ⟨holds, hp, -⟩ := shrinkPredicate_ok hs
  refine ⟨holds, hp, ?_⟩
  rintro rfl turns hturns
  obtain ⟨r, hr, hsound, hshrunk⟩ := shrinkScenario_sound (fun c hc => (shrinkPredicate_ok hc).imp fun _ h => h.1) hs hv
    hp hturns
  obtain ⟨holds, hholds, hiff⟩ := shrinkPredicate_ok hsound
  obtain rfl := Except.ok.inj (hholds.symm.trans hshrunk.holds)
  exact ⟨r, hr, hshrunk, hsound.materialize_ok, hsound.validate, hiff.mp rfl⟩

/-- The scenario the shrinker test starts from. -/
def shrinkable : GeneratedScenario where
  name := utf8 "generated-property-9"
  roundRobinQuantum := 1
  coreCount := 1
  useTopologyDomains := false
  groups := []
  tasks := [{ arrivalTick := 0, burstTicks := 6 }, { arrivalTick := 1, burstTicks := 2 },
    { arrivalTick := 2, burstTicks := 1 }, { arrivalTick := 3, burstTicks := 1 }]

theorem shrinkable_task : ∀ t ∈ shrinkable.tasks, ValidTask shrinkable.groups.length t := by
  intro t ht
  simp only [shrinkable, List.mem_cons, List.not_mem_nil, or_false] at ht
  rcases ht with rfl | rfl | rfl | rfl <;> exact ⟨by decide, by simp, by simp⟩

theorem shrinkable_weight : ∀ t ∈ shrinkable.tasks, t.weight = none := by decide

theorem shrinkable_sound : shrinkable.Sound := by
  refine ⟨by decide, List.all_iff_forall_prop.mp (by decide), by decide, by decide, by decide, by decide, by decide,
    by decide, shrinkable_task, fun t ht w hw => ?_, by decide⟩
  rw [shrinkable_weight t ht] at hw
  cases hw

theorem shrinkable_valid : shrinkable.Valid := ⟨shrinkable_task, 4176, by decide⟩

theorem shrinkScenario_differs_shrinkable :
    ∃ holds, shrinkPredicate shrinkable = .ok holds ∧ (holds = true → ∀ turns, shrinkable.score < turns →
      ∃ r, shrinkScenario shrinkPredicate turns shrinkable = .ok (some r) ∧ Shrunk shrinkPredicate shrinkable r ∧
        r.materialize = .ok r.meant ∧ r.meant.validate = .ok () ∧
        ∃ a b, CompletesFirst r.meant .fcfs a ∧ CompletesFirst r.meant .roundRobin b ∧ a ≠ b) :=
  shrinkScenario_differs shrinkable shrinkable_sound shrinkable_valid

end Shrinker

end Exasphere.Sim

import Exasphere.Sim.Progress

/-!
# The metrics of a finished simulation

`finalizeResult` reads the counters of complete tasks. Their lives say what the counters are (`Life.metrics`), so no
subtraction goes below zero and the metrics account for every tick between arrival and completion.
-/

namespace Exasphere.Sim

open Exasphere.Lib

variable {n m : Nat}

/-! ## One task -/

/-- What the metrics of a complete task say, when it waited `waited` ticks in all. -/
structure Accounted (info : TaskInfo) (waited : Nat) (x : RuntimeTask) (r : TaskMetrics) : Prop where
  id : r.id = info.id
  arrival : r.arrivalTick = info.arrivalTick
  burst : r.burstTicks = info.burstTicks
  executed : r.totalExecuted = info.burstTicks
  blocked : r.blockedTime = waitTicks info.phaseList
  waiting : r.waitingTime = waited
  turnaround : r.turnaroundTime = r.waitingTime + r.burstTicks + r.blockedTime
  completion : x.completionTime = some r.completionTime
  completion_eq : r.completionTime = r.arrivalTick + r.turnaroundTime
  response : r.responseTime ≤ r.waitingTime

theorem Life.metrics {info : TaskInfo} {lo tb tr waited : Nat} {x : RuntimeTask} {ev : List Event}
    (h : Life info lo tb tr waited x ev) (hs : x.state = .complete) :
    ∃ r, taskMetrics x = .ok r ∧ Accounted info waited x r ∧ r.completionTime ≤ tr := by
  have hinfo := h.common.info_eq
  have hwork := h.common.work
  have hclause := h.clause
  cases hclause with
  | complete _ hr hb hf hd t ht hle' hc =>
    obtain ⟨f, hf'⟩ := Option.ne_none_iff_exists'.mp hd
    obtain ⟨hge, hle⟩ := hf.bounds f hf'
    simp only [Clock] at hc
    subst hinfo
    have hrun : taskMetrics x = .ok
        { id := x.id, arrivalTick := x.arrivalTick, burstTicks := x.burstTicks, weight := x.weight,
          groupId := x.groupId, sleepAfterTicks := x.sleepAfterTicks, sleepDuration := x.sleepDuration,
          phaseCount := phaseCount x, deadlineTick := x.deadlineTick, inputOrder := x.inputOrder,
          firstDispatchTick := f, completionTime := t, turnaroundTime := t - x.arrivalTick,
          waitingTime := t - x.arrivalTick - x.burstTicks - x.blockedTime, blockedTime := x.blockedTime,
          responseTime := f - x.arrivalTick, totalExecuted := x.totalExecuted } := by
      simp only [taskMetrics, ht, hf', bind_eq_ok, subChecked_eq_ok]
      exact ⟨_, ⟨by omega, rfl⟩, _, ⟨hge, rfl⟩, _, ⟨by omega, rfl⟩, _, ⟨by omega, rfl⟩, rfl⟩
    refine ⟨_, hrun, ?_, hle'⟩
    constructor <;> simp only [ht] <;> omega
  | pending hs' | ready hs' | running hs' | blocked hs' => simp [hs'] at hs

/-- The times in the metrics of a task. -/
theorem taskMetrics_times {x : RuntimeTask} {r : TaskMetrics} (h : taskMetrics x = .ok r) :
    x.firstDispatchTick = some r.firstDispatchTick ∧ x.completionTime = some r.completionTime ∧
      x.arrivalTick ≤ r.firstDispatchTick ∧ r.responseTime = r.firstDispatchTick - x.arrivalTick ∧
      r.deadlineTick = x.deadlineTick := by
  unfold taskMetrics at h
  split at h
  · cases h
  next c hc =>
    split at h
    · cases h
    next f hf =>
      simp only [bind_eq_ok, subChecked_eq_ok, Except.ok.injEq] at h
      obtain ⟨_, -, _, ⟨hle, rfl⟩, _, -, _, -, rfl⟩ := h
      exact ⟨hf, hc, hle, rfl, rfl⟩

/-! ## The aggregate -/

section Aggregate

variable {l : List TaskMetrics}

theorem sumU64_total {f : TaskMetrics → Nat} (sum : Nat) (hf : ∀ r ∈ l, f r < 2 ^ 32)
    (hl : sum + l.length * 2 ^ 32 ≤ 2 ^ 64) : ∃ total, l.foldlM (fun sum r => addU64 sum (f r)) sum = .ok total := by
  induction l generalizing sum with
  | nil => exact ⟨sum, rfl⟩
  | cons r l ih =>
    have hr := hf r (by simp)
    simp only [List.length_cons, Nat.add_mul, Nat.one_mul] at hl
    obtain ⟨total, ht⟩ := ih (sum + f r) (fun r hr => hf r (by simp [hr])) (by omega)
    refine ⟨total, ?_⟩
    rw [List.foldlM_cons, addU64, addChecked, if_pos (by omega), ok_bind]
    exact ht

theorem minOf_le (f : TaskMetrics → Nat) {r : TaskMetrics} (h : r ∈ l) : minOf f l ≤ f r :=
  List.min?_getD_le_of_mem (List.mem_map_of_mem h)

theorem le_maxOf (f : TaskMetrics → Nat) {r : TaskMetrics} (h : r ∈ l) : f r ≤ maxOf f l :=
  List.le_max?_getD_of_mem (List.mem_map_of_mem h)

theorem computeAggregate_total (hne : l ≠ []) (hlen : l.length ≤ 2 ^ 32)
    (h : ∀ r ∈ l, r.waitingTime < 2 ^ 32 ∧ r.responseTime < 2 ^ 32 ∧ r.arrivalTick ≤ r.completionTime) :
    ∃ a, computeAggregate l = .ok a := by
  obtain ⟨waitingSum, hw⟩ := sumU64_total (l := l) (f := (·.waitingTime)) 0 (fun r hr => (h r hr).1) (by omega)
  obtain ⟨responseSum, hr⟩ := sumU64_total (l := l) (f := (·.responseTime)) 0 (fun r hr => (h r hr).2.1)
    (by omega)
  obtain ⟨r, hr₀⟩ := List.exists_mem_of_ne_nil l hne
  have hspread : ∀ f : TaskMetrics → Nat, minOf f l ≤ maxOf f l := fun f => le_trans (minOf_le f hr₀) (le_maxOf f hr₀)
  have hspan : minOf (·.arrivalTick) l ≤ maxOf (·.completionTime) l :=
    le_trans (minOf_le _ hr₀) (le_trans (h r hr₀).2.2 (le_maxOf (·.completionTime) hr₀))
  simp only [computeAggregate, hw, hr, ok_bind, bind_eq_ok, subChecked_eq_ok]
  exact ⟨_, _, ⟨hspan, rfl⟩, _, ⟨hspread _, rfl⟩, _, ⟨hspread _, rfl⟩, rfl⟩

end Aggregate

/-! ## The result -/

section Result

variable {scenario : ScenarioOwned} {policy : PolicyKind} {s : Engine n m} {r : SimulationResult}

/-- What a result takes over from the final state. -/
structure Finalized (s : Engine n m) (r : SimulationResult) : Prop where
  trace : r.trace = s.traceEntries
  order : r.completionOrder = s.completionOrder.map Fin.val
  finalTick : r.finalTick = s.tick
  length : r.tasks.length = n
  tasks : ∀ i : Fin n, taskMetrics (s.runtimes i) = .ok (r.tasks.get (i.cast length.symm))

theorem finalizeResult_ok (h : finalizeResult scenario policy s = .ok r) : Finalized s r := by
  obtain ⟨tasks, ht, h⟩ := bind_eq_ok.mp h
  obtain ⟨aggregate, -, h⟩ := bind_eq_ok.mp h
  obtain rfl := Except.ok.inj h
  have hall := mapM_eq_ok.mp ht
  have hlen : tasks.length = n := by rw [← hall.length_eq, List.length_finRange]
  refine ⟨rfl, rfl, rfl, hlen, fun i => ?_⟩
  have := hall.get (i := i) (by simp) (by rw [hlen]; exact i.isLt)
  simpa using this

theorem finalizeResult_total (scenario : ScenarioOwned) (policy : PolicyKind) (hn : 0 < n) (hle : n ≤ 2 ^ 32)
    (h : ∀ i, ∃ r, taskMetrics (s.runtimes i) = .ok r ∧ r.waitingTime < 2 ^ 32 ∧ r.responseTime < 2 ^ 32 ∧
      r.arrivalTick ≤ r.completionTime) : ∃ r, finalizeResult scenario policy s = .ok r := by
  obtain ⟨tasks, ht⟩ := mapM_total (f := fun i => taskMetrics (s.runtimes i)) (l := List.finRange n)
    (fun i _ => (h i).imp (fun _ hr => hr.1))
  have hall := mapM_eq_ok.mp ht
  have hlen : tasks.length = n := by rw [← hall.length_eq, List.length_finRange]
  obtain ⟨aggregate, ha⟩ := computeAggregate_total (l := tasks) (by rintro rfl; simp at hlen; omega) (by omega) (by
    intro r hr
    obtain ⟨k, hk, rfl⟩ := List.mem_iff_getElem.mp hr
    have hk' : k < (List.finRange n).length := by rw [hall.length_eq]; exact hk
    obtain ⟨r', hr', hb⟩ := h ((List.finRange n)[k])
    have hget := hall.get hk' hk
    simp only [List.get_eq_getElem] at hget
    rw [hr'] at hget
    cases hget
    exact hb)
  simp [finalizeResult, ht, ha]

end Result

end Exasphere.Sim

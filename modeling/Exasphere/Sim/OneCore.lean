import Exasphere.Sim.Results

/-!
# The two engines on one core

On one core `simulateMulticore` and `simulateSingleCore` return the same results. The engines run in lockstep: `Twin`
states have the same tasks, trace and current task; the policies with a single-core queue also have the same queue,
the others scan the tasks on one side and the queue of all ready tasks on the other, which gives the same choice when
no two tasks have the same `inputOrder`. Rebalancing has nothing to move.
-/

namespace Exasphere.Sim

open Exasphere.Lib

variable {n : Nat} {scenario : ScenarioOwned} {policy : PolicyKind}

/-! ## The selections -/

section Selection

/-- What the tasks of a scenario must satisfy for the two engines to agree. -/
structure Comparable (policy : PolicyKind) (info : Fin n → TaskInfo) : Prop where
  order : ∀ i j, (info i).inputOrder = (info j).inputOrder → i = j
  quota : policy = .cfsLike → ∀ i, (info i).groupQuotaTicks = 0

theorem cfsLike_strictWeak : StrictWeak CfsLike.better := by
  refine ⟨fun a => ?_, fun a b c => ?_, fun a b c => ?_⟩ <;>
    simp only [CfsLike.better, CfsLike.betterCandidate, decide_eq_true_eq, decide_eq_false_iff_not] <;> omega

theorem deadline_strictWeak : StrictWeak Deadline.better := by
  refine ⟨fun a => ?_, fun a b c => ?_, fun a b c => ?_⟩ <;>
    simp only [Deadline.better, Deadline.betterCandidate, decide_eq_true_eq, decide_eq_false_iff_not] <;> omega

/-- A comparison of tasks that ties only tasks with one `inputOrder`. -/
structure Ranking (better : RuntimeTask → RuntimeTask → Bool) : Prop where
  weak : StrictWeak better
  tie : ∀ x y, better x y = false → better y x = false → x.inputOrder = y.inputOrder

theorem cfsLike_ranking : Ranking CfsLike.better := by
  refine ⟨cfsLike_strictWeak, fun x y => ?_⟩
  simp only [CfsLike.better, CfsLike.betterCandidate, decide_eq_false_iff_not]
  omega

theorem deadline_ranking : Ranking Deadline.better := by
  refine ⟨deadline_strictWeak, fun x y => ?_⟩
  simp only [Deadline.better, Deadline.betterCandidate, decide_eq_false_iff_not]
  omega

variable {better : RuntimeTask → RuntimeTask → Bool} {rt : Fin n → RuntimeTask} {queue : List (Fin n)}

/-- The choice from a queue, without its position. -/
theorem chooseBestReadyTask_eq (rt : Fin n → RuntimeTask) (queue : List (Fin n)) :
    (chooseBestReadyTask better rt queue).map ReadyChoice.taskIndex =
      firstBest (fun i j => better (rt i) (rt j)) queue := by
  have h := firstBest_map (fun i j => better (rt i) (rt j)) Prod.fst queue.zipIdx
  rw [List.zipIdx_map_fst] at h
  rw [← h, chooseBestReadyTask, Option.map_map]
  rfl

/-- Two tasks of which neither is better are one. -/
theorem Ranking.eq_of_tie (hr : Ranking better) (hinj : ∀ i j, (rt i).inputOrder = (rt j).inputOrder → i = j)
    {i j : Fin n} (h₁ : better (rt i) (rt j) = false) (h₂ : better (rt j) (rt i) = false) : i = j :=
  hinj i j (hr.tie _ _ h₁ h₂)

/-- With nothing running, a scan of the tasks and a scan of the ready queue choose the same task. -/
theorem chooseFrom_eq_queue (hr : Ranking better) (hinj : ∀ i j, (rt i).inputOrder = (rt j).inputOrder → i = j)
    (hmem : ∀ i, i ∈ queue ↔ runnable (rt i) = true) :
    chooseFrom better runnable rt = firstBest (fun i j => better (rt i) (rt j)) queue := by
  refine firstBest_unique (hr.weak.comp rt) (fun i => ?_) (fun i _ j _ => hr.eq_of_tie hinj)
  rw [hmem i]
  simp

/-- With one task running, a scan of the tasks chooses another one exactly when the best queued task beats it. -/
theorem chooseFrom_ne_iff (hr : Ranking better) (hinj : ∀ i j, (rt i).inputOrder = (rt j).inputOrder → i = j)
    {i : Fin n} (hi : runnable (rt i) = true) (hq : i ∉ queue)
    (hmem : ∀ j, j ≠ i → (j ∈ queue ↔ runnable (rt j) = true)) :
    (chooseFrom better runnable rt).any (fun best => decide (best ≠ i)) =
      (firstBest (fun i j => better (rt i) (rt j)) queue).any (fun j => better (rt j) (rt i)) := by
  have hw := hr.weak.comp rt
  have hne : chooseFrom better runnable rt ≠ none := fun h => by
    have := chooseFrom_eq_none.mp h i
    rw [hi] at this
    cases this
  obtain ⟨b, hb⟩ := Option.ne_none_iff_exists'.mp hne
  have hbest : ∀ j, runnable (rt j) = true → better (rt j) (rt b) = false :=
    fun j hj => firstBest_best hw hb j (by simpa using hj)
  have hbr : runnable (rt b) = true := chooseFrom_runnable hb
  rw [hb, Option.any_some]
  cases hfb : firstBest (fun i j => better (rt i) (rt j)) queue with
  | none =>
    -- the queue is empty, so only `i` is runnable
    have hnil := firstBest_eq_none.mp hfb
    by_contra hne'
    have hbi : b ≠ i := by simpa using hne'
    have := (hmem b hbi).mpr hbr
    simp [hnil] at this
  | some j =>
    have hj := firstBest_mem hfb
    have hji : j ≠ i := fun e => hq (e ▸ hj)
    rw [Option.any_some]
    cases hbeat : better (rt j) (rt i) with
    | true =>
      have hbi : b ≠ i := by
        rintro rfl
        rw [hbest j ((hmem j hji).mp hj)] at hbeat
        cases hbeat
      simpa using hbi
    | false =>
      have hbi : b = i := by
        by_contra hbi
        have hbq := (hmem b hbi).mpr hbr
        have h₁ : better (rt b) (rt i) = false := hr.weak.weak _ _ _ (firstBest_best hw hfb b hbq) hbeat
        exact hbi (hr.eq_of_tie hinj h₁ (hbest i hi))
      simpa using hbi

end Selection

/-! ## Lockstep -/

section Lockstep

/-- The multicore state `a` and the single-core state `b` differ in what no output depends on. -/
structure Mate (policy : PolicyKind) (a b : Engine n 1) : Prop where
  runtimes : a.runtimes = b.runtimes
  current : (a.cores 0).current = (b.cores 0).current
  quantum : (a.cores 0).currentQuantum = (b.cores 0).currentQuantum
  queue : policy.useSingleCoreReadyQueue = true → (a.cores 0).readyQueue = (b.cores 0).readyQueue
  trace : a.traceEntries = b.traceEntries
  order : a.completionOrder = b.completionOrder
  completed : a.completed = b.completed
  tick : a.tick = b.tick

/-- Mates that satisfy the invariants of their engines. -/
structure Twin (policy : PolicyKind) (a b : Engine n 1) : Prop where
  mate : Mate policy a b
  placed : Placed a
  solo : Solo policy b

variable {a b : Engine n 1} {i : Fin n} {x : RuntimeTask} {entry : TraceEntry}

theorem Mate.setTask (h : Mate policy a b) : Mate policy (a.setTask i x) (b.setTask i x) :=
  ⟨by simp [h.runtimes], h.current, h.quantum, h.queue, h.trace, h.order, h.completed, h.tick⟩

theorem Mate.emit (h : Mate policy a b) : Mate policy (a.emit entry) (b.emit entry) :=
  ⟨h.runtimes, h.current, h.quantum, h.queue, by simp [h.trace], h.order, h.completed, h.tick⟩

/-- New states of the core on both sides. -/
theorem Mate.setCore (h : Mate policy a b) {core core' : CoreState n} (hc : core.current = core'.current)
    (hq : core.currentQuantum = core'.currentQuantum)
    (hr : policy.useSingleCoreReadyQueue = true → core.readyQueue = core'.readyQueue) :
    Mate policy (a.setCore 0 core) (b.setCore 0 core') :=
  ⟨h.runtimes, by simpa using hc, by simpa using hq, by simpa using hr, h.trace, h.order, h.completed, h.tick⟩

/-- The core loses its current task. -/
theorem Mate.release (h : Mate policy a b) : Mate policy (a.setCore 0 { readyQueue := (a.cores 0).readyQueue })
    (b.setCore 0 { readyQueue := (b.cores 0).readyQueue }) := by
  refine h.setCore ?_ ?_ h.queue
  · rfl
  · rfl

/-- A task becomes ready: the multicore engine always queues it. -/
theorem Mate.push (h : Mate policy a b) : Mate policy (a.pushReady 0 i) (pushSingle policy i b) := by
  unfold pushSingle
  split
  next hu => exact h.setCore h.current h.quantum (fun hu => by simp [h.queue hu])
  next hu =>
    exact ⟨h.runtimes, by simpa using h.current, by simpa using h.quantum, fun hu' => absurd hu' hu, h.trace, h.order,
      h.completed, h.tick⟩

theorem processBlockedAt_agree (h : Twin policy a b) (i : Fin n) :
    Agree (Twin policy) (processBlockedMulticoreAt scenario a i) (processBlockedSingleCoreAt scenario policy b i) := by
  refine Agree.imp (R := Mate policy) ?_ (fun a' b' ha hb hm =>
    ⟨hm, (processBlockedMulticoreAt_ok h.placed ha).1, (processBlockedSingleCoreAt_ok h.solo hb).1⟩)
  unfold processBlockedMulticoreAt processBlockedSingleCoreAt
  simp only [h.mate.runtimes, h.mate.tick]
  split
  · exact .ok h.mate
  · split
    · cases hy : advancePhaseAfterWake (b.runtimes i) with
      | error e => exact .error e e
      | ok y =>
        -- the task wakes on core 0, the core it is assigned to
        have hcore : y.assignedCore = 0 := (advancePhaseAfterWake_frame hy).2.trans (h.solo.assigned i)
        have hindex : coreIndex 1 0 = .ok 0 := rfl
        simp only [ok_bind, hcore, ite_self, hindex]
        exact .ok h.mate.setTask.push.emit
    · cases addU32 (b.runtimes i).blockedTime 1 with
      | error e => exact .error e e
      | ok blockedTime => exact .ok h.mate.setTask

theorem enqueueArrivalsAt_agree (hf : Fit scenario 1) (h : Twin policy a b) (i : Fin n) : Agree (Twin policy)
    (enqueueArrivalsMulticoreAt scenario a i) (enqueueArrivalsSingleCoreAt scenario policy b i) := by
  refine Agree.imp (R := Mate policy) ?_ (fun a' b' ha hb hm =>
    ⟨hm, (enqueueArrivalsMulticoreAt_ok h.placed ha).1, (enqueueArrivalsSingleCoreAt_ok h.solo hb).1⟩)
  obtain ⟨c, hc⟩ := chooseArrivalCore_total hf a.cores
  obtain rfl : c = 0 := Subsingleton.elim c 0
  unfold enqueueArrivalsMulticoreAt enqueueArrivalsSingleCoreAt
  simp only [h.mate.runtimes, h.mate.tick, hc, ok_bind]
  split
  · exact .ok h.mate.setTask.push.emit
  · exact .ok h.mate

/-! ### Selections of twins -/

/-- The tasks in the multicore queue are the ready ones. -/
theorem Twin.mem_queue (h : Twin policy a b) (i : Fin n) :
    i ∈ (a.cores 0).readyQueue ↔ (b.runtimes i).state = .ready := by
  rw [← h.mate.runtimes]
  constructor
  · exact fun hi => (h.placed.queued.mem_ready 0 i hi).1
  · intro hi
    obtain ⟨c, hc⟩ := h.placed.queued.ready_mem i hi
    rwa [Subsingleton.elim c 0] at hc

variable (hcmp : Comparable policy (fun i => (b.runtimes i).toTaskInfo))
include hcmp

/-- With a current task the multicore comparison of keys and the single-core comparison of indices agree. -/
theorem Twin.scan_ne (h : Twin policy a b) {better : RuntimeTask → RuntimeTask → Bool} (hr : Ranking better)
    (hc : (b.cores 0).current = some i) :
    (chooseBestReadyTask better b.runtimes (a.cores 0).readyQueue).any
        (fun choice => better (b.runtimes choice.taskIndex) (b.runtimes i)) =
      (chooseFrom better runnable b.runtimes).any (fun best => decide (best ≠ i)) := by
  have hrun := (h.solo.slotted.current_running 0 i hc).1
  have hnot : i ∉ (a.cores 0).readyQueue := by simp [h.mem_queue, hrun]
  have hmem : ∀ j, j ≠ i → (j ∈ (a.cores 0).readyQueue ↔ runnable (b.runtimes j) = true) := by
    intro j hj
    have hjr := h.solo.not_running_of_ne hc hj
    simp [h.mem_queue, runnable, hjr]
  rw [chooseFrom_ne_iff hr hcmp.order (by simp [runnable, hrun]) hnot hmem, ← chooseBestReadyTask_eq, Option.any_map]

theorem Twin.shouldPreempt_eq (h : Twin policy a b) (quantum : Nat) :
    policy.shouldPreemptCore (a.cores 0).current (a.cores 0).currentQuantum quantum (a.cores 0).readyQueue a.runtimes =
      policy.shouldPreemptSingle (b.cores 0).current (b.cores 0).currentQuantum quantum (b.cores 0).readyQueue.length
        b.runtimes := by
  rw [h.mate.current, h.mate.quantum, h.mate.runtimes]
  cases hc : (b.cores 0).current with
  | none => rfl
  | some i =>
    cases policy with
    | fcfs => rfl
    | roundRobin => simp only [PolicyKind.shouldPreemptCore, PolicyKind.shouldPreemptSingle, h.mate.queue rfl]
    | cfsLike => exact h.scan_ne hcmp cfsLike_ranking hc
    | deadline => exact h.scan_ne hcmp deadline_ranking hc

/-- With nothing running both engines select the same task. -/
theorem Twin.scan_eq (h : Twin policy a b) {better : RuntimeTask → RuntimeTask → Bool} (hr : Ranking better)
    (hc : (b.cores 0).current = none) : chooseFrom better runnable b.runtimes =
      (chooseBestReadyTask better b.runtimes (a.cores 0).readyQueue).map ReadyChoice.taskIndex := by
  rw [chooseBestReadyTask_eq]
  apply chooseFrom_eq_queue hr hcmp.order
  intro j
  simp [h.mem_queue, runnable, h.solo.not_running hc j]

/-- The selections agree on the task, and on the queue when both use it. -/
theorem Twin.select_eq (h : Twin policy a b) (hc : (b.cores 0).current = none) :
    (policy.selectNextCore (a.cores 0).readyQueue a.runtimes).map Prod.fst =
        (selectSingle policy none b).map Prod.fst ∧
      (policy.useSingleCoreReadyQueue = true →
        policy.selectNextCore (a.cores 0).readyQueue a.runtimes = selectSingle policy none b) := by
  rw [h.mate.runtimes]
  have hscan : ∀ better, Ranking better →
      ((chooseBestReadyTask better b.runtimes (a.cores 0).readyQueue).map (removeChoice (a.cores 0).readyQueue)).map
        Prod.fst = ((chooseFrom better runnable b.runtimes).map (·, (b.cores 0).readyQueue)).map Prod.fst := by
    intro better hr
    rw [h.scan_eq hcmp hr hc, Option.map_map, Option.map_map, Option.map_map]
    rfl
  cases policy with
  | fcfs => simp [selectSingle, PolicyKind.selectNextCore, PolicyKind.selectNextSingle, h.mate.queue rfl]
  | roundRobin => simp [selectSingle, PolicyKind.selectNextCore, PolicyKind.selectNextSingle, h.mate.queue rfl]
  | cfsLike => exact ⟨hscan _ cfsLike_ranking, by simp [PolicyKind.useSingleCoreReadyQueue]⟩
  | deadline => exact ⟨hscan _ deadline_ranking, by simp [PolicyKind.useSingleCoreReadyQueue]⟩

/-! ### Preemption, rebalancing, dispatch -/

/-- Without quotas no group is preempted. -/
theorem Comparable.quota_false (i : Fin n) (runTicks : Nat) {rt : Fin n → RuntimeTask}
    (hrt : (rt i).groupQuotaTicks = (b.runtimes i).groupQuotaTicks) :
    shouldPreemptForGroupQuota policy (some i) runTicks rt = false := by
  by_contra hq
  rw [Bool.not_eq_false, shouldPreemptForGroupQuota_iff, hrt] at hq
  exact hq.2.1 (hcmp.quota hq.1 i)

/-- Both engines preempt the current task, or neither does; no group is excluded. -/
theorem preempt_twin (scenario : ScenarioOwned) (h : Twin policy a b) :
    Mate policy (preemptMulticore scenario policy a)
    (preemptSingleCore scenario policy b).1 ∧ (preemptSingleCore scenario policy b).2 = none := by
  have hpre := h.shouldPreempt_eq hcmp scenario.roundRobinQuantum
  have hone : preemptMulticore scenario policy a = preemptMulticoreAt scenario policy a 0 := rfl
  rw [hone]
  unfold preemptMulticoreAt preemptSingleCore
  simp only [hpre]
  rw [h.mate.current]
  cases hc : (b.cores 0).current with
  | none => exact ⟨h.mate, rfl⟩
  | some i =>
    simp only [hcmp.quota_false i _ rfl, Bool.or_false]
    split
    · constructor
      · rw [h.mate.runtimes, h.mate.tick]
        refine (h.mate.setTask.setCore ?_ ?_ (fun hu => ?_)).emit
        · rfl
        · rfl
        · simp [hu, h.mate.queue hu]
      · -- preempting the task does not change its quota
        refine if_neg (fun hx => Bool.false_ne_true ((hcmp.quota_false i _ ?_).symm.trans hx.2))
        simp
    · exact ⟨h.mate, rfl⟩

omit hcmp in
/-- On one core there is no donor. -/
theorem rebalance_one (hf : Fit scenario 1) (s : Engine n 1) : rebalanceReadyQueues scenario s = .ok s := by
  have hstep : rebalanceStep scenario s = .ok none := by
    unfold rebalanceStep
    split
    · rfl
    next recipient _ =>
      obtain ⟨r, hr⟩ := chooseDonorCore_total hf s.cores recipient
      cases r with
      | none => rw [hr]; rfl
      | some donor => exact absurd (Subsingleton.elim donor recipient) (chooseDonorCore_ok hr).1
  simp [rebalanceReadyQueues, rebalanceLoop, hstep]

theorem dispatch_twin (h : Twin policy a b) :
    Mate policy (dispatchMulticore scenario policy a) (dispatchSingleCore scenario policy none b) := by
  have hone : dispatchMulticore scenario policy a = dispatchMulticoreAt scenario policy a 0 := rfl
  rw [hone]
  unfold dispatchMulticoreAt
  simp only
  rw [h.mate.current]
  rcases dispatchSingleCore_cases scenario none h.solo with ⟨hc, heq⟩ | ⟨hc, hsel, heq⟩ | ⟨i, queue, hc, hsel, heq⟩
  · rw [heq]
    obtain ⟨i, hi⟩ := Option.ne_none_iff_exists'.mp hc
    rw [hi]
    exact h.mate
  · obtain ⟨hfst, -⟩ := h.select_eq hcmp hc
    rw [hsel, Option.map_none, Option.map_eq_none_iff] at hfst
    rw [heq, hc, hfst]
    exact h.mate
  · obtain ⟨hfst, hqueue⟩ := h.select_eq hcmp hc
    rw [hsel, Option.map_some, Option.map_eq_some_iff] at hfst
    obtain ⟨⟨j, queue'⟩, hsel', rfl⟩ := hfst
    have hq : policy.useSingleCoreReadyQueue = true → queue' = queue := by
      intro hu
      have := hqueue hu
      rw [hsel', hsel] at this
      exact (Prod.mk.inj (Option.some.inj this)).2
    rw [heq, hc, hsel']
    unfold dispatchTask
    simp only
    rw [h.mate.runtimes, h.mate.tick]
    refine (h.mate.setTask.setCore ?_ ?_ hq).emit
    · rfl
    · rfl

end Lockstep

/-! ## Execution of twins -/

section Execution

variable {a b : Engine n 1} {i : Fin n}

theorem addU32_ok {k : Nat} (h : k + 1 < 2 ^ 32) : addU32 k 1 = .ok (k + 1) := by
  simpa using h

theorem executeCurrent_agree (h : Mate policy a b) (hga : (a.cores 0).currentGroupRunTicks + 1 < 2 ^ 32)
    (hgb : (b.cores 0).currentGroupRunTicks + 1 < 2 ^ 32) :
    Agree (fun x y => x.1 = y.1 ∧ Mate policy x.2 y.2) (executeCurrent scenario policy 0 i a)
      (executeCurrent scenario policy 0 i b) := by
  unfold executeCurrent
  simp only [h.runtimes, h.tick, h.quantum, addU32_ok hga, addU32_ok hgb, ok_bind]
  cases chargeTick b.tick (b.runtimes i) with
  | error e => exact .error e e
  | ok charged =>
    cases addU32 (b.cores 0).currentQuantum 1 with
    | error e => exact .error e e
    | ok quantum =>
      simp only [ok_bind]
      cases policy.onTaskTick charged with
      | error e => exact .error e e
      | ok ticked =>
        simp only [ok_bind]
        cases settleTask b.tick ticked with
        | error e => exact .error e e
        | ok r =>
          obtain ⟨outcome, u⟩ := r
          have hmate : Mate policy ((a.emit (taskEntry scenario b.tick .tick (b.runtimes i) 0)).setTask i u)
              ((b.emit (taskEntry scenario b.tick .tick (b.runtimes i) 0)).setTask i u) := h.emit.setTask
          simp only [ok_bind]
          cases outcome with
          | running => exact .ok ⟨rfl, hmate.setCore h.current rfl h.queue⟩
          | complete =>
            obtain ⟨h₁, h₂, h₃, h₄, h₅, h₆, -, h₈⟩ := hmate.release
            exact .ok ⟨rfl, h₁, h₂, h₃, h₄, h₅, h₆, congrArg (· + 1) h.completed, h₈⟩
          | block =>
            simp only [Engine.setTask_tick, Engine.emit_tick, h.tick]
            exact .ok ⟨rfl, hmate.release.emit⟩

/-- The deferred completion entry of the multicore engine is the entry of the single-core engine. -/
theorem Mate.complete (h : Mate policy a b) (hcore : (b.runtimes i).assignedCore = 0) :
    Mate policy (recordCompletion scenario a i) ({ b with completionOrder := b.completionOrder ++ [i] }.emit
      (taskEntry scenario (b.tick + 1) .complete (b.runtimes i) 0)) := by
  unfold recordCompletion
  rw [h.runtimes, h.tick, hcore]
  exact ⟨rfl, h.current, h.quantum, h.queue, by simp [h.trace], by simp [h.order], h.completed, rfl⟩

theorem execute_agree (h : Twin policy a b) (ha : a.Counted) (hb : b.Counted) (ht : b.tick + 1 < 2 ^ 32) :
    Agree (Mate policy) (executeMulticore scenario policy a) (executeSingleCore scenario policy b) := by
  have hga := (ha 0).2
  have hgb := (hb 0).2
  rw [h.mate.tick] at hga
  have hone : executeMulticore scenario policy a = (executeMulticoreAt scenario policy (a, []) 0 >>= fun r =>
      .ok (r.2.foldl (recordCompletion scenario) r.1)) := by
    simp [executeMulticore, List.finRange_succ]
  rw [hone]
  unfold executeMulticoreAt executeSingleCore
  simp only [h.mate.current]
  cases hc : (b.cores 0).current with
  | none =>
    rw [h.mate.tick]
    exact .ok h.mate.emit
  | some i =>
    simp only [h.solo.setTask_firstDispatch hc, bind_assoc, ok_bind]
    refine Agree.bind (Agree.imp (S := fun x y => (x.1 = y.1 ∧ Mate policy x.2 y.2) ∧ (y.2.runtimes i).assignedCore = 0)
      (executeCurrent_agree h.mate (by omega) (by omega)) ?_) ?_
    · intro x y _ hy hxy
      obtain ⟨u, hex⟩ := executeCurrent_ok hy
      have hu := (hex.frame (h.solo.slotted.current_running 0 i hc).1).2.1
      refine ⟨hxy, ?_⟩
      rw [hex.runtimes, Function.update_self, hu, h.solo.assigned i]
    · rintro ⟨outcome, a'⟩ ⟨_, b'⟩ ⟨⟨rfl, hm⟩, hcore⟩
      simp only
      split
      · exact .ok (hm.complete hcore)
      · exact .ok hm

end Execution

/-! ## Whole runs -/

section Runs

variable {a b : Engine n 1}

theorem Comparable.of_info {rt rt' : Fin n → RuntimeTask} (h : Comparable policy (fun i => (rt i).toTaskInfo))
    (heq : ∀ i, (rt' i).toTaskInfo = (rt i).toTaskInfo) : Comparable policy (fun i => (rt' i).toTaskInfo) := by
  have : (fun i => (rt' i).toTaskInfo) = fun i => (rt i).toTaskInfo := funext heq
  rwa [this]

/-- Twins whose tasks are comparable. -/
structure Paired (policy : PolicyKind) (a b : Engine n 1) : Prop where
  twin : Twin policy a b
  comparable : Comparable policy (fun i => (b.runtimes i).toTaskInfo)

theorem processBlocked_agree (h : Paired policy a b) :
    Agree (Paired policy) (processBlockedMulticore scenario a) (processBlockedSingleCore scenario policy b) := by
  refine Agree.imp (Agree.foldlM h.twin (fun i _ a b h => processBlockedAt_agree h i)) (fun a' b' _ hb ht => ⟨ht, ?_⟩)
  obtain ⟨-, -, hv⟩ := processBlockedSingleCore_ok h.twin.solo hb
  exact h.comparable.of_info (fun i => (hv i).info_eq)

theorem enqueueArrivals_agree (hf : Fit scenario 1) (h : Paired policy a b) :
    Agree (Paired policy) (enqueueArrivalsMulticore scenario a) (enqueueArrivalsSingleCore scenario policy b) := by
  refine Agree.imp (Agree.foldlM h.twin (fun i _ a b h => enqueueArrivalsAt_agree hf h i))
    (fun a' b' _ hb ht => ⟨ht, ?_⟩)
  obtain ⟨-, -, hv⟩ := enqueueArrivalsSingleCore_ok h.twin.solo hb
  exact h.comparable.of_info (fun i => (hv i).info_eq)

/-- The two schedules of one tick. -/
theorem schedule_agree (hf : Fit scenario 1) (h : Paired policy a b) :
    Agree (Twin policy) (scheduleMulticore scenario policy a) (scheduleSingleCore scenario policy b) := by
  refine (processBlocked_agree h).bind (fun a₁ b₁ h₁ => (enqueueArrivals_agree hf h₁).bind (fun a₂ b₂ h₂ => ?_))
  obtain ⟨hmate, hexcl⟩ := preempt_twin h₂.comparable scenario h₂.twin
  cases hpre : preemptSingleCore scenario policy b₂ with
  | mk b₃ excluded =>
    rw [hpre] at hmate hexcl
    obtain rfl : excluded = none := hexcl
    obtain ⟨hsolo, -, hv, hsel⟩ := preemptSingleCore_ok h₂.twin.solo hpre
    have htwin : Twin policy (preemptMulticore scenario policy a₂) b₃ :=
      ⟨hmate, (preemptMulticore_ok scenario policy h₂.twin.placed).1, hsolo⟩
    rw [rebalance_one hf, ok_bind]
    exact .ok ⟨dispatch_twin (h₂.comparable.of_info (fun i => (hv i).info_eq)) htwin,
      (dispatchMulticore_ok scenario policy htwin.placed).1, (dispatchSingleCore_ok scenario hsolo hsel).1⟩

/-- Twins at the start of a tick. -/
structure Lockstep (policy : PolicyKind) (a b : Engine n 1) : Prop where
  paired : Paired policy a b
  counted : a.Counted ∧ b.Counted

theorem advanceTick_agree (h : Mate policy a b) : Agree (Mate policy) (advanceTick a) (advanceTick b) := by
  unfold advanceTick
  rw [h.tick]
  cases addU32 b.tick 1 with
  | error e => exact .error e e
  | ok t => exact .ok ⟨h.runtimes, h.current, h.quantum, h.queue, h.trace, h.order, h.completed, rfl⟩

/-- **One tick.** -/
theorem step_agree (hf : Fit scenario 1) (h : Lockstep policy a b) :
    Agree (Lockstep policy) (stepMulticore scenario policy a) (stepSingleCore scenario policy b) := by
  have ha : Placed a ∧ a.Counted := ⟨h.paired.twin.placed, h.counted.1⟩
  have hb : Solo policy b ∧ b.Counted := ⟨h.paired.twin.solo, h.counted.2⟩
  by_cases ht : b.tick + 1 < 2 ^ 32
  · refine Agree.imp (R := Mate policy) ?_ (fun a' b' ha' hb' hm => ?_)
    · refine Agree.bind (Agree.imp (S := fun a' b' => Twin policy a' b' ∧ (a'.Counted ∧ b'.Counted) ∧ b'.tick = b.tick)
        (schedule_agree hf h.paired) (fun a' b' ha' hb' hm => ?_)) (fun a' b' ⟨htw, hct, htk⟩ => ?_)
      · have hqa := (scheduleMulticore_ok ha.1 ha').2.1
        have hqb := (scheduleSingleCore_ok hb.1 hb').2.1
        exact ⟨hm, ⟨hqa.counted ha.2, hqb.counted hb.2⟩, hqb.tick⟩
      · exact (execute_agree htw hct.1 hct.2 (by omega)).bind (fun _ _ => advanceTick_agree)
    · obtain ⟨mid, e, hmid, he, -, rfl⟩ := Machine.step_ok (M := multicore scenario policy) ha'
      obtain ⟨mid', e', hmid', he', -, rfl⟩ := Machine.step_ok (M := singleCore scenario policy) hb'
      obtain ⟨hp, hca⟩ := multicore_lawful.keeps ha hmid he
      obtain ⟨hs, hcb⟩ := singleCore_lawful.keeps hb hmid' he'
      exact ⟨⟨⟨hm, hp, hs⟩, h.paired.comparable.of_info (singleCore_lawful.spec hb hmid' he').info_eq⟩, hca, hcb⟩
  · -- both ticks overflow
    refine Agree.of_error (fun a' ha' => ht ?_) (fun b' hb' => ht ?_)
    · obtain ⟨mid, e, hmid, he, hlt, -⟩ := Machine.step_ok (M := multicore scenario policy) ha'
      rwa [(multicore_lawful.spec ha hmid he).tick_end, h.paired.twin.mate.tick] at hlt
    · obtain ⟨mid, e, hmid, he, hlt, -⟩ := Machine.step_ok (M := singleCore scenario policy) hb'
      rwa [(singleCore_lawful.spec hb hmid he).tick_end] at hlt

theorem runTicks_agree (hf : Fit scenario 1) {fuel : Nat} (h : Lockstep policy a b) : Agree (Lockstep policy)
    (runTicks (stepMulticore scenario policy) fuel a) (runTicks (stepSingleCore scenario policy) fuel b) := by
  induction fuel generalizing a b with
  | zero => exact .error _ _
  | succ fuel ih =>
    simp only [runTicks, h.paired.twin.mate.completed]
    split
    · exact (step_agree hf h).bind (fun _ _ => ih)
    · exact .ok h

theorem finalizeResult_eq (h : Mate policy a b) :
    finalizeResult scenario policy a = finalizeResult scenario policy b := by
  unfold finalizeResult
  rw [h.runtimes, h.trace, h.order, h.tick]

/-- On one core the two main loops and their results agree. -/
theorem simulate_agree (hv : Valid scenario) (hc : scenario.coreCount = 1)
    (hcmp : Comparable policy (infos scenario)) :
    Agree Eq (simulateMulticore scenario policy) (simulateSingleCore scenario policy) := by
  have hf : Fit scenario 1 := ⟨Nat.one_pos, by rw [← hc]; exact hv.domain_cores⟩
  have hinit : Lockstep policy (initEngine scenario 1) (initEngine scenario 1) :=
    ⟨⟨⟨⟨rfl, rfl, rfl, fun _ => rfl, rfl, rfl, rfl, rfl⟩, placed_init hv Nat.one_pos, solo_init hv⟩, hcmp⟩,
      counted_init 1, counted_init 1⟩
  unfold simulateMulticore simulateSingleCore
  rw [hc]
  apply (runTicks_agree hf hinit).bind
  intro a b h
  rw [finalizeResult_eq h.paired.twin.mate]
  exact .refl _

end Runs

/-! ## The results -/

section Results

/-- Without quotas no task has one. -/
theorem infos_quota_zero (hquota : ∀ g ∈ scenario.groups, g.quotaTicks = 0) (i : Fin scenario.tasks.length) :
    (infos scenario i).groupQuotaTicks = 0 := by
  have hmem : ∀ id k g, findGroupInfo scenario id = some (k, g) → g.quotaTicks = 0 := by
    intro id k g hg
    obtain ⟨x, hx, he⟩ := Option.map_eq_some_iff.mp hg
    obtain ⟨rfl, rfl⟩ := Prod.mk.inj he
    exact hquota _ (List.fst_mem_of_mem_zipIdx (List.mem_of_find?_eq_some hx))
  show ((scenario.tasks[i]).groupId.bind (findGroupInfo scenario)).elim 0 (·.2.quotaTicks) = 0
  cases hg : (scenario.tasks[i]).groupId.bind (findGroupInfo scenario) with
  | none => rfl
  | some info =>
    obtain ⟨id, -, hid⟩ := Option.bind_eq_some_iff.mp hg
    exact hmem id info.1 info.2 hid

/-- Different tasks have different `inputOrder`. -/
theorem infos_inputOrder (horder : (scenario.tasks.map TaskSpec.inputOrder).Nodup) (i j : Fin scenario.tasks.length)
    (hij : (infos scenario i).inputOrder = (infos scenario j).inputOrder) : i = j := by
  have hget : (scenario.tasks.map TaskSpec.inputOrder).get (i.cast (by simp)) =
      (scenario.tasks.map TaskSpec.inputOrder).get (j.cast (by simp)) := by
    simpa [infos, initRuntimes, initRuntime] using hij
  have := congrArg Fin.val (List.nodup_iff_injective_get.mp horder hget)
  exact Fin.ext (by simpa using this)

/-- The `inputOrder` of a validated scenario's tasks are distinct and, for `cfsLike`, no group has a quota. -/
theorem comparable_infos (horder : (scenario.tasks.map TaskSpec.inputOrder).Nodup)
    (hquota : policy = .cfsLike → ∀ g ∈ scenario.groups, g.quotaTicks = 0) : Comparable policy (infos scenario) :=
  ⟨infos_inputOrder horder, fun hp => infos_quota_zero (hquota hp)⟩

/-- **The engines agree on one core.** -/
theorem multicore_eq_singleCore (scenario : ScenarioOwned) (policy : PolicyKind) (hv : scenario.validate = .ok ())
    (hc : scenario.coreCount = 1) (horder : (scenario.tasks.map TaskSpec.inputOrder).Nodup)
    (hquota : policy = .cfsLike → ∀ g ∈ scenario.groups, g.quotaTicks = 0) :
    (∀ r, simulateMulticore scenario policy = .ok r ↔ simulateSingleCore scenario policy = .ok r) ∧
      (horizon scenario < 2 ^ 32 - 1 →
        ∃ r, simulateMulticore scenario policy = .ok r ∧ simulateSingleCore scenario policy = .ok r) := by
  have hvalid := validate_ok hv
  have hagree := (simulate_agree hvalid hc (comparable_infos horder hquota)).eq_ok
  refine ⟨hagree, fun hB => ?_⟩
  obtain ⟨r, hr⟩ := simulate_returns policy hvalid hB
  have hsingle : simulateSingleCore scenario policy = .ok r := by
    simpa [simulate, hvalid.tasks_ne, hc] using hr
  exact ⟨r, (hagree r).mpr hsingle, hsingle⟩

/-- One core, a waiting task, a later arrival with less weight and one with a deadline. -/
def oneCoreTrio : ScenarioOwned where
  name := [111]
  tasks := [{ id := [97], arrivalTick := 0, burstTicks := 2, phases := some [⟨.cpu, 1⟩, ⟨.wait, 2⟩, ⟨.cpu, 1⟩] },
    { id := [98], arrivalTick := 1, burstTicks := 3, weight := 512, inputOrder := 2 },
    { id := [99], arrivalTick := 1, burstTicks := 2, deadlineTick := some 9, inputOrder := 1 }]

theorem multicore_eq_singleCore_oneCoreTrio :
    (∀ r, simulateMulticore oneCoreTrio .cfsLike = .ok r ↔ simulateSingleCore oneCoreTrio .cfsLike = .ok r) ∧
      (horizon oneCoreTrio < 2 ^ 32 - 1 →
        ∃ r, simulateMulticore oneCoreTrio .cfsLike = .ok r ∧ simulateSingleCore oneCoreTrio .cfsLike = .ok r) :=
  multicore_eq_singleCore oneCoreTrio .cfsLike (by decide) rfl (by decide) (by decide)

end Results

end Exasphere.Sim

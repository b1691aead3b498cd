import Exasphere.Sim.Results

/-!
# Who and where a trace entry is about

Every entry of a trace names a core of the machine; an `idle` entry names no task, every other entry names a task of
the scenario (`Named`). Each step of both engines keeps this (`Tracked`), so it holds of the trace of every result
(`simulate_named`).
-/

namespace Exasphere.Sim

open Exasphere.Lib

variable {n m : Nat} {scenario : ScenarioOwned} {policy : PolicyKind} {ids : Fin n → Bytes}

/-- An entry of one of `n` tasks, or of an idle core, on one of `m` cores. -/
structure Named (ids : Fin n → Bytes) (m : Nat) (e : TraceEntry) : Prop where
  core : ∃ c < m, e.coreId = some c
  task : e.kind ≠ .idle → ∃ i, e.taskId = some (ids i)
  idle : e.kind = .idle → e.taskId = none

/-- The tasks keep their ids, stand on a core of the machine, and so do the entries. -/
structure Tracked (ids : Fin n → Bytes) (s : Engine n m) : Prop where
  id : ∀ i, (s.runtimes i).id = ids i
  assigned : ∀ i, (s.runtimes i).assignedCore < m
  entries : ∀ e ∈ s.traceEntries, Named ids m e

theorem taskEntry_named (scenario : ScenarioOwned) (t : Nat) {kind : TraceEventKind} (hk : kind ≠ .idle)
    {x : RuntimeTask} {i : Fin n} (hid : x.id = ids i) {c : CoreId} (hc : c < m) :
    Named ids m (taskEntry scenario t kind x c) :=
  ⟨⟨c, hc, rfl⟩, fun _ => ⟨i, congrArg some hid⟩, fun h => absurd h hk⟩

theorem idleEntry_named (t : Nat) {c : CoreId} (hc : c < m) : Named ids m (idleEntry t c) :=
  ⟨⟨c, hc, rfl⟩, fun h => absurd rfl h, fun _ => rfl⟩

/-! ## One update -/

namespace Tracked

variable {s : Engine n m} {i : Fin n} {c : Fin m} {x : RuntimeTask}

theorem setTask (h : Tracked ids s) (hid : x.id = (s.runtimes i).id) (hc : x.assignedCore < m) :
    Tracked ids (s.setTask i x) := by
  refine ⟨fun j => ?_, fun j => ?_, h.entries⟩
  · by_cases hj : j = i
    · subst hj; simpa [hid] using h.id j
    · simpa [Function.update_of_ne hj] using h.id j
  · by_cases hj : j = i
    · subst hj; simpa using hc
    · simpa [Function.update_of_ne hj] using h.assigned j

theorem setCore (h : Tracked ids s) (core : CoreState n) : Tracked ids (s.setCore c core) :=
  ⟨h.id, h.assigned, h.entries⟩

theorem pushReady (h : Tracked ids s) : Tracked ids (s.pushReady c i) := h.setCore _

theorem emit (h : Tracked ids s) {e : TraceEntry} (he : Named ids m e) : Tracked ids (s.emit e) := by
  refine ⟨h.id, h.assigned, fun e' he' => ?_⟩
  rcases List.mem_append.mp he' with he' | he'
  · exact h.entries e' he'
  · rw [List.mem_singleton.mp he']
    exact he

/-- An entry of task `i`, read from a runtime with its id. -/
theorem emitTask (h : Tracked ids s) (scenario : ScenarioOwned) (t : Nat) (kind : TraceEventKind) (hk : kind ≠ .idle)
    (hid : x.id = ids i) {c : CoreId} (hc : c < m) : Tracked ids (s.emit (taskEntry scenario t kind x c)) :=
  h.emit (taskEntry_named scenario t hk hid hc)

end Tracked

/-! ## What both engines do to one task -/

section OneTask

variable {s s' : Engine n m} {i : Fin n} {c : Fin m}

theorem settleTask_frame {t : Nat} {z u : RuntimeTask} {outcome : Outcome} (h : settleTask t z = .ok (outcome, u)) :
    u.id = z.id ∧ u.assignedCore = z.assignedCore := by
  unfold settleTask at h
  split at h
  · simp only [bind_eq_ok, addChecked_eq_ok, Except.ok.injEq, Prod.mk.injEq] at h
    obtain ⟨_, ⟨-, rfl⟩, rfl, rfl⟩ := h
    exact ⟨rfl, rfl⟩
  · obtain ⟨⟨blocks, w⟩, hw, h⟩ := bind_eq_ok.mp h
    have hframe : w.id = z.id ∧ w.assignedCore = z.assignedCore := by
      rw [shouldBlock_eq] at hw
      split at hw
      · obtain ⟨-, rfl⟩ : false = blocks ∧ z = w := by simpa using hw
        exact ⟨rfl, rfl⟩
      · split at hw
        · obtain ⟨-, rfl⟩ : false = blocks ∧ z = w := by simpa using hw
          exact ⟨rfl, rfl⟩
        · simp only [ite_error_eq_ok, Except.ok.injEq, Prod.mk.injEq] at hw
          obtain ⟨-, -, rfl⟩ := hw
          exact ⟨rfl, rfl⟩
    cases blocks with
    | true =>
      simp only [if_true, bind_eq_ok, addChecked_eq_ok, Except.ok.injEq, Prod.mk.injEq] at h
      obtain ⟨_, -, _, -, rfl, rfl⟩ := h
      exact hframe
    | false =>
      simp only [Bool.false_eq_true, if_false, Except.ok.injEq, Prod.mk.injEq] at h
      obtain ⟨rfl, rfl⟩ := h
      exact hframe

theorem dispatchTask_tracked (h : Tracked ids s) (queue : List (Fin n)) :
    Tracked ids (dispatchTask scenario c i queue s) :=
  ((h.setTask (by rfl) c.isLt).setCore _).emitTask scenario s.tick .dispatch (by decide) (h.id i) c.isLt

theorem executeCurrent_tracked (h : Tracked ids s) :
    Yields (fun x => Tracked ids x.2) (executeCurrent scenario policy c i s) := by
  rintro ⟨outcome, s'⟩ he
  simp only [executeCurrent, bind_eq_ok, addChecked_eq_ok, Prod.exists] at he
  obtain ⟨y, hy, q, ⟨-, rfl⟩, g, ⟨-, rfl⟩, z, hz, o, u, hu, he⟩ := he
  obtain ⟨-, -, -, d, rfl, -⟩ := chargeTick_onTaskTick hy hz
  obtain ⟨hid, hcore⟩ := settleTask_frame hu
  have hticked := (h.emitTask scenario s.tick .tick (by decide) (h.id i) c.isLt).setTask
    (i := i) (x := u) hid (by rw [hcore]; exact h.assigned i)
  cases o with
  | running =>
    obtain ⟨rfl, rfl⟩ := Prod.mk.inj (Except.ok.inj he)
    exact hticked.setCore _
  | complete =>
    obtain ⟨rfl, rfl⟩ := Prod.mk.inj (Except.ok.inj he)
    have hset := hticked.setCore (c := c) { readyQueue := (s.cores c).readyQueue }
    exact ⟨hset.id, hset.assigned, hset.entries⟩
  | block =>
    obtain ⟨rfl, rfl⟩ := Prod.mk.inj (Except.ok.inj he)
    exact (hticked.setCore _).emitTask scenario (s.tick + 1) .block (by decide) (hid.trans (h.id i)) c.isLt

end OneTask

/-! ## The single-core engine -/

section SingleCore

variable {s s' : Engine n 1} {i : Fin n}

theorem pushSingle_tracked (h : Tracked ids s) : Tracked ids (pushSingle policy i s) := by
  unfold pushSingle
  split
  · exact h.pushReady
  · exact h

theorem processBlockedSingleCoreAt_tracked (h : Tracked ids s) :
    Yields (Tracked ids) (processBlockedSingleCoreAt scenario policy s i) := by
  unfold processBlockedSingleCoreAt
  refine .ite (.ok h) (.ite ?_ ?_)
  · intro s' hs
    obtain ⟨y, hy, hs⟩ := bind_eq_ok.mp hs
    obtain rfl := Except.ok.inj hs
    have hid : y.id = (s.runtimes i).id := congrArg TaskInfo.id (advancePhaseAfterWake_frame hy).1
    exact (pushSingle_tracked (h.setTask (by exact hid) Nat.one_pos)).emitTask scenario s.tick .wakeup (by decide)
      (hid.trans (h.id i)) Nat.one_pos
  · intro s' hs
    obtain ⟨b, -, hs⟩ := bind_eq_ok.mp hs
    obtain rfl := Except.ok.inj hs
    exact h.setTask (by rfl) (h.assigned i)

theorem enqueueArrivalsSingleCoreAt_tracked (h : Tracked ids s) :
    Yields (Tracked ids) (enqueueArrivalsSingleCoreAt scenario policy s i) := by
  unfold enqueueArrivalsSingleCoreAt
  refine .ite (.ok ?_) (.ok h)
  exact (pushSingle_tracked (h.setTask (by rfl) Nat.one_pos)).emitTask scenario s.tick .arrival (by decide) (h.id i)
    Nat.one_pos

theorem preemptSingleCore_tracked (h : Tracked ids s) : Tracked ids (preemptSingleCore scenario policy s).1 := by
  unfold preemptSingleCore
  simp only
  split
  next => exact h
  next i _ =>
    split
    next =>
      have hready : Tracked ids (s.setTask i { s.runtimes i with state := .ready }) := h.setTask (by rfl) (h.assigned i)
      exact (hready.setCore _).emitTask scenario s.tick .preempt (by decide) (h.id i) Nat.one_pos
    next => exact h

theorem dispatchSingleCore_tracked (h : Tracked ids s) (excluded : Option Nat) :
    Tracked ids (dispatchSingleCore scenario policy excluded s) := by
  unfold dispatchSingleCore
  simp only
  split
  next => exact h
  next =>
    split
    next => exact h
    next =>
      split
      next => exact h.setCore _
      next => exact dispatchTask_tracked h _

theorem executeSingleCore_tracked (h : Tracked ids s) : Yields (Tracked ids) (executeSingleCore scenario policy s) := by
  unfold executeSingleCore
  split
  next => exact .ok (h.emit (idleEntry_named s.tick Nat.one_pos))
  next i _ =>
    have hfirst : Tracked ids (s.setTask i { s.runtimes i with
        firstDispatchTick := if (s.runtimes i).firstDispatchTick = none then some s.tick
          else (s.runtimes i).firstDispatchTick }) := h.setTask (by rfl) (h.assigned i)
    refine Yields.bind (executeCurrent_tracked hfirst) (fun ⟨outcome, s'⟩ h' => .ite (.ok ?_) (.ok h'))
    have hdone : Tracked ids { s' with completionOrder := s'.completionOrder ++ [i] } :=
      ⟨h'.id, h'.assigned, h'.entries⟩
    exact hdone.emitTask scenario (s'.tick + 1) .complete (by decide) (h'.id i) Nat.one_pos

theorem scheduleSingleCore_tracked (h : Tracked ids s) :
    Yields (Tracked ids) (scheduleSingleCore scenario policy s) := by
  intro mid hmid
  obtain ⟨s₁, s₂, s₃, excluded, h₁, h₂, h₃, rfl⟩ := scheduleSingleCore_parts hmid
  have h₁ := foldlM_keeps h (fun i _ a b ha hb => processBlockedSingleCoreAt_tracked ha b hb) h₁
  have h₂ := foldlM_keeps h₁ (fun i _ a b ha hb => enqueueArrivalsSingleCoreAt_tracked ha b hb) h₂
  have h₃' : Tracked ids (preemptSingleCore scenario policy s₂).1 := preemptSingleCore_tracked h₂
  rw [h₃] at h₃'
  exact dispatchSingleCore_tracked h₃' excluded

end SingleCore

/-! ## The multicore engine -/

section Multicore

variable {s s' : Engine n m} {i : Fin n} {c : Fin m}

theorem processBlockedMulticoreAt_tracked (h : Tracked ids s) :
    Yields (Tracked ids) (processBlockedMulticoreAt scenario s i) := by
  unfold processBlockedMulticoreAt
  refine .ite (.ok h) (.ite ?_ ?_)
  · intro s' hs
    obtain ⟨y, hy, hs⟩ := bind_eq_ok.mp hs
    obtain ⟨c, -, hs⟩ := bind_eq_ok.mp hs
    obtain rfl := Except.ok.inj hs
    obtain ⟨hinfo, hcore⟩ := advancePhaseAfterWake_frame hy
    have hid : y.id = (s.runtimes i).id := congrArg TaskInfo.id hinfo
    exact (h.setTask (by exact hid) (by exact hcore ▸ h.assigned i)).pushReady.emitTask scenario s.tick .wakeup
      (by decide) (hid.trans (h.id i)) c.isLt
  · intro s' hs
    obtain ⟨b, -, hs⟩ := bind_eq_ok.mp hs
    obtain rfl := Except.ok.inj hs
    exact h.setTask (by rfl) (h.assigned i)

theorem enqueueArrivalsMulticoreAt_tracked (h : Tracked ids s) :
    Yields (Tracked ids) (enqueueArrivalsMulticoreAt scenario s i) := by
  unfold enqueueArrivalsMulticoreAt
  refine .ite ?_ (.ok h)
  intro s' hs
  obtain ⟨c, -, hs⟩ := bind_eq_ok.mp hs
  obtain rfl := Except.ok.inj hs
  exact (h.setTask (by rfl) c.isLt).pushReady.emitTask scenario s.tick .arrival (by decide) (h.id i) c.isLt

theorem preemptMulticoreAt_tracked (h : Tracked ids s) : Tracked ids (preemptMulticoreAt scenario policy s c) := by
  unfold preemptMulticoreAt
  simp only
  split
  next => exact h
  next i _ =>
    split
    next =>
      have hready : Tracked ids (s.setTask i { s.runtimes i with state := .ready }) := h.setTask (by rfl) (h.assigned i)
      exact (hready.setCore _).emitTask scenario s.tick .preempt (by decide) (h.id i) c.isLt
    next => exact h

theorem migrateHead_tracked (h : Tracked ids s) (recipient donor : Fin m) :
    Tracked ids (migrateHead recipient donor s) := by
  unfold migrateHead
  split
  next => exact h
  next i rest _ => exact ((h.setCore _).setTask (by rfl) recipient.isLt).pushReady

theorem rebalanceLoop_tracked (h : Tracked ids s) (fuel : Nat) :
    Yields (Tracked ids) (rebalanceLoop scenario fuel s) := by
  induction fuel generalizing s with
  | zero => exact .ok h
  | succ fuel ih =>
    intro s' hs
    obtain ⟨next, hnext, hs⟩ := bind_eq_ok.mp hs
    cases next with
    | none => exact Except.ok.inj hs ▸ h
    | some t =>
      refine ih ?_ s' hs
      -- an iteration that goes on has migrated a head
      unfold rebalanceStep at hnext
      split at hnext
      next => simp at hnext
      next recipient _ =>
        obtain ⟨donor, -, hnext⟩ := bind_eq_ok.mp hnext
        cases donor with
        | none => simp at hnext
        | some donor =>
          simp only at hnext
          split at hnext
          · simp at hnext
          · rw [← Option.some.inj (Except.ok.inj hnext)]
            exact migrateHead_tracked h recipient donor

theorem dispatchMulticoreAt_tracked (h : Tracked ids s) : Tracked ids (dispatchMulticoreAt scenario policy s c) := by
  unfold dispatchMulticoreAt
  simp only
  split
  next => exact h
  next =>
    split
    next => exact h
    next => exact dispatchTask_tracked h _

theorem executeMulticoreAt_tracked {done : List (Fin n)} (h : Tracked ids s) :
    Yields (fun x => Tracked ids x.1) (executeMulticoreAt scenario policy (s, done) c) := by
  unfold executeMulticoreAt
  split
  next => exact .ok (h.emit (idleEntry_named s.tick c.isLt))
  next => exact Yields.bind (executeCurrent_tracked h) (fun _ h' => .ok h')

theorem executeMulticore_tracked (h : Tracked ids s) : Yields (Tracked ids) (executeMulticore scenario policy s) := by
  intro e he
  obtain ⟨⟨s', done⟩, hs, he⟩ := bind_eq_ok.mp he
  have h' : Tracked ids s' := foldlM_keeps (P := fun x : Engine n m × List (Fin n) => Tracked ids x.1) h
    (fun c _ a b ha hb => executeMulticoreAt_tracked ha b hb) hs
  rw [← Except.ok.inj he]
  refine foldl_inv (P := fun _ x => Tracked ids x) h' (fun done i rest s _ hs => ?_)
  have hdone : Tracked ids { s with completionOrder := s.completionOrder ++ [i] } := ⟨hs.id, hs.assigned, hs.entries⟩
  exact hdone.emitTask scenario (s.tick + 1) .complete (by decide) (hs.id i) (hs.assigned i)

theorem scheduleMulticore_tracked (h : Tracked ids s) : Yields (Tracked ids) (scheduleMulticore scenario policy s) := by
  intro mid hmid
  obtain ⟨s₁, s₂, s₄, h₁, h₂, h₄, rfl⟩ := scheduleMulticore_parts hmid
  have h₁ := foldlM_keeps h (fun i _ a b ha hb => processBlockedMulticoreAt_tracked ha b hb) h₁
  have h₂ := foldlM_keeps h₁ (fun i _ a b ha hb => enqueueArrivalsMulticoreAt_tracked ha b hb) h₂
  have h₃ : Tracked ids (preemptMulticore scenario policy s₂) :=
    foldl_inv (P := fun _ x => Tracked ids x) h₂ (fun _ c _ x _ hx => preemptMulticoreAt_tracked hx)
  have h₄ := rebalanceLoop_tracked h₃ m s₄ h₄
  exact foldl_inv (P := fun _ x => Tracked ids x) h₄ (fun _ c _ x _ hx => dispatchMulticoreAt_tracked hx)

end Multicore

/-! ## Runs and results -/

section Runs

theorem Machine.Run.tracked {M : Machine n m} {s₀ s : Engine n m} {k : Nat} (h₀ : Tracked ids s₀)
    (hsched : ∀ s, Tracked ids s → Yields (Tracked ids) (M.schedule s))
    (hexec : ∀ s, Tracked ids s → Yields (Tracked ids) (M.execute s)) (h : M.Run s₀ k s) : Tracked ids s := by
  induction h with
  | zero => exact h₀
  | succ _ _ hstep ih =>
    obtain ⟨mid, e, hmid, he, -, rfl⟩ := Machine.step_ok hstep
    have h' := hexec mid (hsched _ ih mid hmid) e he
    exact ⟨h'.id, h'.assigned, h'.entries⟩

/-- The ids of the tasks of a scenario. -/
def taskIds (scenario : ScenarioOwned) (i : Fin scenario.tasks.length) : Bytes := (scenario.tasks.get i).id

theorem taskIds_injective (hv : Valid scenario) : Function.Injective (taskIds scenario) :=
  fun i j hij => ids_init hv 1 i j hij

theorem tracked_init (hm : 0 < m) : Tracked (taskIds scenario) (initEngine scenario m) :=
  ⟨fun _ => rfl, fun _ => hm, by simp [initEngine]⟩

/-- Every entry of the trace of a result is of a task of the scenario or of an idle core. -/
theorem simulate_named (hv : Valid scenario) {r : SimulationResult} (h : simulate scenario policy = .ok r) :
    ∀ e ∈ r.trace, Named (taskIds scenario) scenario.coreCount e := by
  by_cases hc : scenario.coreCount ≤ 1
  · obtain ⟨k, s, hs⟩ := (singleSimulation_runs policy hv hc).returns hv h
    have hrun : (singleCore scenario policy).Run (initEngine scenario 1) k s := hs.run
    have ht := hrun.tracked (tracked_init Nat.one_pos) (fun _ ha => scheduleSingleCore_tracked ha)
      (fun _ ha => executeSingleCore_tracked ha)
    rw [hs.finalized.trace, ← hs.cores]
    exact ht.entries
  · obtain ⟨k, s, hs⟩ := (multiSimulation_runs policy hv hc).returns hv h
    have hrun : (multicore scenario policy).Run (initEngine scenario scenario.coreCount) k s := hs.run
    have ht := hrun.tracked (tracked_init hv.core_pos) (fun _ ha => scheduleMulticore_tracked ha)
      (fun _ ha => executeMulticore_tracked ha)
    rw [hs.finalized.trace]
    exact ht.entries

end Runs

end Exasphere.Sim

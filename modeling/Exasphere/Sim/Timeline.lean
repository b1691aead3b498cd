import Exasphere.Lib.Uniprocessor
import Exasphere.Sim.PolicyOrder

/-!
# The timeline of a single core

The single-core engine gives every tick to at most one task: its current task after dispatch (`Machine.timeline`). The
ticks served are the executed ticks of the tasks (`executed_eq_served`), and first dispatch and completion are the
first and the last of them. Without wait phases the timeline is greedy for whatever relation the policy keeps between
the current task and the ready tasks (`timeline_greedy`), so the general results about one processor apply.
-/

namespace Exasphere.Sim

open Exasphere.Lib

variable {n : Nat} {scenario : ScenarioOwned} {policy : PolicyKind}

/-! ## What a tick does to the counters -/

section Counters

variable {t : Nat} {x y v₁ v₂ : View}

/-- Scheduling executes nothing. -/
theorem executed_of_sched (h₁ : Wake t x v₁) (h₂ : Preempt t v₁ v₂) (h₃ : Assign t v₂ y) :
    y.1.totalExecuted = x.1.totalExecuted := by
  have e₃ : y.1.totalExecuted = v₂.1.totalExecuted := by cases h₃ <;> rfl
  have e₂ : v₂.1.totalExecuted = v₁.1.totalExecuted := by cases h₂ <;> rfl
  rw [e₃, e₂, h₁.counters_eq.1]

/-- The first dispatch is noted once, by a dispatch. -/
theorem first_of_sched (h₁ : Wake t x v₁) (h₂ : Preempt t v₁ v₂) (h₃ : Assign t v₂ y) :
    y.1.firstDispatchTick = x.1.firstDispatchTick ∨
      (x.1.firstDispatchTick = none ∧ y.1.firstDispatchTick = some t ∧ y.1.state = .running) := by
  have e₂ : v₂.1.firstDispatchTick = v₁.1.firstDispatchTick := by cases h₂ <;> rfl
  rw [← h₁.counters_eq.2.2, ← e₂]
  cases h₃ with
  | keep => exact Or.inl rfl
  | move => exact Or.inl rfl
  | dispatch z ev c hs =>
    by_cases hz : z.firstDispatchTick = none
    · exact Or.inr ⟨hz, by simp [dispatched, hz], rfl⟩
    · exact Or.inl (by simp [dispatched, hz])

/-- Exactly the running tasks execute. -/
theorem Exec.executed (h : Exec policy t x y) :
    y.1.totalExecuted = x.1.totalExecuted + if x.1.state = .running then 1 else 0 := by
  cases h with
  | rest x ev hs => simp [hs]
  | run x y z u ev outcome hs hy hz hu =>
    obtain ⟨-, -, -, d, rfl, -⟩ := chargeTick_onTaskTick hy hz
    have hset := settleTask_settled (by exact hs) hu
    simp [hset.executed, ticked, hs]

theorem Exec.first (h : Exec policy t x y) : y.1.firstDispatchTick = x.1.firstDispatchTick := by
  cases h with
  | rest => rfl
  | run x y z u ev outcome hs hy hz hu =>
    obtain ⟨-, -, -, d, rfl, -⟩ := chargeTick_onTaskTick hy hz
    exact (settleTask_settled (by exact hs) hu).first

section Lives

variable {info : TaskInfo} {lo tb tr waited : Nat} {x : RuntimeTask} {ev : List Event}

theorem Life.executed_of_complete (h : Life info lo tb tr waited x ev) (hs : x.state = .complete) :
    x.totalExecuted = info.burstTicks := by
  have hwork := h.common.work
  cases h.clause with
  | complete _ hz => omega
  | pending h' | ready h' | running h' | blocked h' => simp [h'] at hs

theorem Life.executed_of_never (h : Life info lo tb tr waited x ev) (hf : x.firstDispatchTick = none) :
    x.totalExecuted = 0 := by
  cases h.clause with
  | pending _ _ _ _ _ hz => exact hz.1
  | ready _ _ _ _ hfirst => exact (hfirst.never hf).1
  | running _ _ _ _ hfirst => exact (hfirst.never hf).1
  | blocked _ _ _ _ _ hfirst => exact (hfirst.never hf).1
  | complete _ _ _ hfirst => exact (hfirst.never hf).1

/-- A task without waits is never blocked. -/
theorem Life.not_blocked (h : Life info lo tb tr waited x ev) (hw : waitList info.phaseList = []) :
    x.state ≠ .blocked := by
  intro hb
  cases h.clause with
  | blocked hs p wake hp =>
    have hmem : p.ticks ∈ waitList info.phaseList :=
      List.mem_map_of_mem (List.mem_filter.mpr ⟨List.mem_of_getElem? hp.get, by simp [hp.kind]⟩)
    rw [hw] at hmem
    cases hmem
  | pending h' | ready h' | running h' | complete h' => simp [h'] at hb

end Lives

/-- A task without waits is ready or running in a tick exactly when it has arrived and has work left. -/
theorem Life.active_iff {info : TaskInfo} {k waited : Nat} {x : RuntimeTask} {ev : List Event}
    (h : Life info 0 (k + 1) k waited x ev) (hw : waitList info.phaseList = []) :
    (x.state = .ready ∨ x.state = .running) ↔ info.arrivalTick ≤ k ∧ x.totalExecuted < info.burstTicks := by
  have hwork := h.common.work
  cases h.clause with
  | pending hs p hp ht =>
    rw [hs]
    constructor
    · rintro (h | h) <;> cases h
    · rintro ⟨hle, -⟩
      omega
  | ready hs p hp hc =>
    have hrem := hp.remaining
    have hpos := hp.pos
    unfold Clock at hc
    exact ⟨fun _ => ⟨by omega, by omega⟩, fun _ => Or.inl hs⟩
  | running hs p hp hc =>
    have hrem := hp.remaining
    have hpos := hp.pos
    unfold Clock at hc
    exact ⟨fun _ => ⟨by omega, by omega⟩, fun _ => Or.inr hs⟩
  | blocked hs => exact absurd hs (h.not_blocked hw)
  | complete hs hr =>
    rw [hs]
    constructor
    · rintro (h | h) <;> cases h
    · rintro ⟨-, hlt⟩
      omega

end Counters

/-! ## The timeline -/

/-- The current task of the core in tick `τ`, after dispatch; nothing when the loop has ended. -/
def Machine.timeline (M : Machine n 1) (s₀ : Engine n 1) (τ : Nat) : Option (Fin n) :=
  match M.after s₀ τ with
  | .error _ => none
  | .ok s =>
    if s.completed < n then
      match M.schedule s with
      | .error _ => none
      | .ok mid => (mid.cores 0).current
    else none

theorem Machine.Mid.timeline_eq {M : Machine n 1} {s₀ mid : Engine n 1} {τ : Nat} (h : M.Mid s₀ τ mid) :
    M.timeline s₀ τ = (mid.cores 0).current := by
  obtain ⟨s, hr, hc, hmid⟩ := h
  simp [Machine.timeline, hr.after_eq, hc, hmid]

theorem Machine.timeline_some {M : Machine n 1} {s₀ : Engine n 1} {τ : Nat} {i : Fin n}
    (h : M.timeline s₀ τ = some i) : ∃ mid, M.Mid s₀ τ mid ∧ (mid.cores 0).current = some i := by
  unfold Machine.timeline at h
  split at h
  · cases h
  next s hs =>
    split at h
    next hc =>
      split at h
      · cases h
      next mid hmid => exact ⟨mid, ⟨s, .of_after hs, hc, hmid⟩, h⟩
    · cases h

/-- The timeline of the single-core engine. -/
def timeline (scenario : ScenarioOwned) (policy : PolicyKind) : Nat → Option (Fin scenario.tasks.length) :=
  (singleCore scenario policy).timeline (initEngine scenario 1)

/-- The tasks of a scenario as jobs. -/
def jobs (scenario : ScenarioOwned) : Jobs (Fin scenario.tasks.length) where
  arrival i := (scenario.tasks.get i).arrivalTick
  burst i := (scenario.tasks.get i).burstTicks

section Runs

variable {k τ : Nat} {s mid e : Engine scenario.tasks.length 1} {i : Fin scenario.tasks.length}

/-- What the dispatched state of a tick is made of. -/
structure SingleTick (scenario : ScenarioOwned) (policy : PolicyKind) (k : Nat)
    (s mid : Engine scenario.tasks.length 1) :
    Prop where
  inv : Solo policy s ∧ s.Counted
  solo : Solo policy mid
  tick : s.tick = k
  current : timeline scenario policy k = (mid.cores 0).current
  sched : ∀ i, ∃ v₁ v₂, Wake k (s.view i) v₁ ∧ Preempt k v₁ v₂ ∧ Assign k v₂ (mid.view i)
  idle : (mid.cores 0).current = none → ∀ i, (mid.runtimes i).state ≠ .ready
  life : ∀ i, Life (infos scenario i) 0 (k + 1) k ((singleCore scenario policy).waited (initEngine scenario 1) i k)
    (mid.view i).1 (mid.view i).2

theorem singleTick (hv : Valid scenario) (hr : (singleCore scenario policy).Run (initEngine scenario 1) k s)
    (hc : s.completed < scenario.tasks.length) (hmid : scheduleSingleCore scenario policy s = .ok mid) :
    SingleTick scenario policy k s mid := by
  obtain ⟨hinv, hk⟩ := (start_init hv 1).inv singleCore_lawful (solo_counted_init hv) hr
  have hm : (singleCore scenario policy).Mid (initEngine scenario 1) k mid := ⟨s, hr, hc, hmid⟩
  obtain ⟨hsolo, -, hsched, hidle⟩ := scheduleSingleCore_ok hinv.1 hmid
  rw [hk] at hsched
  exact ⟨hinv, hsolo, hk, hm.timeline_eq, hsched, hidle,
    (start_init hv 1).life_mid singleCore_lawful singleCore_staged (solo_counted_init hv) hm⟩

/-- The current task is the running one. -/
theorem SingleTick.running_iff (h : SingleTick scenario policy k s mid) (i : Fin scenario.tasks.length) :
    (mid.runtimes i).state = .running ↔ timeline scenario policy k = some i := by
  rw [h.current]
  exact h.solo.running_iff i

/-- **The ticks a task has executed are those the timeline gives it.** -/
theorem executed_eq_served (hv : Valid scenario) (hr : (singleCore scenario policy).Run (initEngine scenario 1) k s)
    (i : Fin scenario.tasks.length) : (s.runtimes i).totalExecuted = served (timeline scenario policy) i k := by
  induction hr with
  | zero => simp [initEngine, initRuntimes, initRuntime]
  | @succ k s s' hr hc hstep ih =>
    obtain ⟨mid, e, hmid, he, -, rfl⟩ := Machine.step_ok hstep
    have ht := singleTick hv hr hc hmid
    obtain ⟨v₁, v₂, h₁, h₂, h₃⟩ := ht.sched i
    have hexec := ((singleCore_lawful.spec ht.inv hmid he).exec i).executed
    have hsame : (mid.runtimes i).totalExecuted = (s.runtimes i).totalExecuted := executed_of_sched h₁ h₂ h₃
    have hone : (e.runtimes i).totalExecuted =
        (mid.runtimes i).totalExecuted + if (mid.runtimes i).state = .running then 1 else 0 := hexec
    rw [served_succ, ← ih, ← hsame]
    simp only [hone, ht.running_iff]

/-- The executed ticks in the dispatched state of a tick. -/
theorem SingleTick.executed (hv : Valid scenario) (h : SingleTick scenario policy k s mid)
    (hr : (singleCore scenario policy).Run (initEngine scenario 1) k s) (i : Fin scenario.tasks.length) :
    (mid.runtimes i).totalExecuted = served (timeline scenario policy) i k := by
  obtain ⟨v₁, v₂, h₁, h₂, h₃⟩ := h.sched i
  rw [← executed_eq_served hv hr i]
  exact executed_of_sched h₁ h₂ h₃

/-- The first dispatch is the first tick of a task in the timeline. -/
theorem first_dispatch_served (hv : Valid scenario) (hr : (singleCore scenario policy).Run (initEngine scenario 1) k s)
    {f : Nat} (hf : (s.runtimes i).firstDispatchTick = some f) :
    timeline scenario policy f = some i ∧ served (timeline scenario policy) i f = 0 := by
  induction hr with
  | zero => simp [initEngine, initRuntimes, initRuntime] at hf
  | @succ k s s' hr hc hstep ih =>
    obtain ⟨mid, e, hmid, he, -, rfl⟩ := Machine.step_ok hstep
    have ht := singleTick hv hr hc hmid
    obtain ⟨v₁, v₂, h₁, h₂, h₃⟩ := ht.sched i
    have hfe : (e.runtimes i).firstDispatchTick = (mid.runtimes i).firstDispatchTick :=
      ((singleCore_lawful.spec ht.inv hmid he).exec i).first
    have hfm : (mid.runtimes i).firstDispatchTick = some f := by rw [← hfe]; exact hf
    rcases first_of_sched h₁ h₂ h₃ with hsame | ⟨hnone, hnow, hrun⟩
    · exact ih (hsame.symm.trans hfm)
    · obtain rfl : k = f := Option.some.inj (hnow.symm.trans hfm)
      refine ⟨(ht.running_iff i).mp hrun, ?_⟩
      rw [← executed_eq_served hv hr i]
      have hlife := (start_init hv 1).life_run singleCore_lawful (solo_counted_init hv) hr i
      exact hlife.executed_of_never hnone

/-- The completion time of a task is one tick after its last in the timeline. -/
theorem completion_served (hv : Valid scenario) (hr : (singleCore scenario policy).Run (initEngine scenario 1) k s)
    (hi : (s.runtimes i).state = .complete) {c : Nat} (hc : (s.runtimes i).completionTime = some c) :
    ∃ l, c = l + 1 ∧ timeline scenario policy l = some i ∧
      served (timeline scenario policy) i c = (jobs scenario).burst i := by
  induction hr with
  | zero => simp [initEngine, initRuntimes, initRuntime] at hi
  | @succ k s s' hr hcomp hstep ih =>
    have hr' := Machine.Run.succ hr hcomp hstep
    obtain ⟨mid, e, hmid, he, -, rfl⟩ := Machine.step_ok hstep
    have ht := singleTick hv hr hcomp hmid
    have hspec := singleCore_lawful.spec ht.inv hmid he
    rcases hspec.complete_cases hi with hold | ⟨hrun, hnew⟩
    · have hsame : e.runtimes i = s.runtimes i := (hspec.of_complete hold).2
      have hct : (e.runtimes i).completionTime = some c := hc
      rw [hsame] at hct
      exact ih hold hct
    · have hct : (e.runtimes i).completionTime = some c := hc
      rw [ht.tick] at hnew
      obtain rfl : k + 1 = c := Option.some.inj (hnew.symm.trans hct)
      refine ⟨k, rfl, (ht.running_iff i).mp hrun, ?_⟩
      rw [← executed_eq_served hv hr' i]
      exact ((start_init hv 1).life_run singleCore_lawful (solo_counted_init hv) hr' i).executed_of_complete hi

end Runs

/-! ## Greedy timelines -/

section Greedy

variable {k : Nat} {s : Engine scenario.tasks.length 1}
    {r : Fin scenario.tasks.length → Fin scenario.tasks.length → Prop}

/-- No task of the scenario has a wait phase. -/
def ScenarioOwned.Waitless (scenario : ScenarioOwned) : Prop := ∀ task ∈ scenario.tasks, task.waits = []

theorem ScenarioOwned.Waitless.infos (h : scenario.Waitless) (i : Fin scenario.tasks.length) :
    waitList (infos scenario i).phaseList = [] := by
  rw [waitList_infos]
  exact h _ (List.getElem_mem i.isLt)

/-- Activity in the timeline and the state of the task. -/
theorem SingleTick.active_iff {mid : Engine scenario.tasks.length 1} (hv : Valid scenario)
    (h : SingleTick scenario policy k s mid) (hr : (singleCore scenario policy).Run (initEngine scenario 1) k s)
    {i : Fin scenario.tasks.length} (hw : waitList (infos scenario i).phaseList = []) :
    (jobs scenario).Active (timeline scenario policy) k i ↔
      (mid.runtimes i).state = .ready ∨ (mid.runtimes i).state = .running := by
  have hlife := (h.life i).active_iff hw
  have hserved := h.executed hv hr i
  unfold Jobs.Active
  rw [← hserved]
  exact hlife.symm

/-- **The timeline is greedy**: for any relation `r` of the current task to the ready tasks of every tick. -/
theorem timeline_greedy (hv : Valid scenario) (hw : scenario.Waitless)
    (hr : (singleCore scenario policy).Run (initEngine scenario 1) k s) (hend : scenario.tasks.length ≤ s.completed)
    (hfirst : ∀ τ mid x y, (singleCore scenario policy).Mid (initEngine scenario 1) τ mid →
      (mid.cores 0).current = some x → (mid.runtimes y).state = .ready → r x y) :
    (jobs scenario).Greedy r (timeline scenario policy) := by
  have hall := ((start_init hv 1).ledger_run singleCore_lawful (solo_counted_init hv) hr).all_complete.mp hend
  -- an active task has a tick in the run
  have hmid : ∀ {τ i}, (jobs scenario).Active (timeline scenario policy) τ i → ∃ a mid,
      (singleCore scenario policy).Run (initEngine scenario 1) τ a ∧ a.completed < scenario.tasks.length ∧
        scheduleSingleCore scenario policy a = .ok mid := by
    intro τ i hact
    rcases Nat.lt_or_ge τ k with hlt | hge
    · obtain ⟨a, mid, -, hra, hca, hmid, -⟩ := hr.iteration hlt
      exact ⟨a, mid, hra, hca, hmid⟩
    · have hdone : (s.runtimes i).totalExecuted = (jobs scenario).burst i :=
        ((start_init hv 1).life_run singleCore_lawful (solo_counted_init hv) hr i).executed_of_complete (hall i)
      rw [executed_eq_served hv hr i] at hdone
      have hmono := served_mono (σ := timeline scenario policy) (i := i) hge
      have hlt := hact.2
      omega
  constructor
  · intro τ i hi
    obtain ⟨mid, ⟨a, hra, hca, hmid⟩, hcur⟩ := Machine.timeline_some hi
    have ht := singleTick hv hra hca hmid
    exact (ht.active_iff hv hra (hw.infos i)).mpr (Or.inr ((ht.running_iff i).mpr hi))
  · intro τ i hact hnone
    obtain ⟨a, mid, hra, hca, hm⟩ := hmid hact
    have ht := singleTick hv hra hca hm
    rcases (ht.active_iff hv hra (hw.infos i)).mp hact with hready | hrun
    · exact ht.idle (ht.current.symm.trans hnone) i hready
    · rw [(ht.running_iff i).mp hrun] at hnone
      cases hnone
  · intro τ i j hi hact hji
    obtain ⟨mid, hm, hcur⟩ := Machine.timeline_some hi
    obtain ⟨a, hra, hca, hs⟩ := hm
    have ht := singleTick hv hra hca hs
    rcases (ht.active_iff hv hra (hw.infos j)).mp hact with hready | hrun
    · exact hfirst τ mid i j ⟨a, hra, hca, hs⟩ hcur hready
    · exact absurd (Option.some.inj (((ht.running_iff j).mp hrun).symm.trans hi)) hji

end Greedy

/-! ## The times of a result -/

section Results

variable {k : Nat} {s : Engine scenario.tasks.length 1} {r : SimulationResult} {i : Fin scenario.tasks.length}
  {t : TaskMetrics}

/-- The times of a task in a result, by its ticks in the timeline. -/
theorem Returns.times {hv : Valid scenario} (h : Returns scenario policy r (singleSimulation policy hv) k s)
    (ht : r.tasks[i.val]? = some t) :
    (timeline scenario policy t.firstDispatchTick = some i ∧
      served (timeline scenario policy) i t.firstDispatchTick = 0) ∧
    (∃ l, t.completionTime = l + 1 ∧ timeline scenario policy l = some i ∧
      served (timeline scenario policy) i t.completionTime = (jobs scenario).burst i) ∧
    (jobs scenario).arrival i ≤ t.firstDispatchTick ∧ t.responseTime = t.firstDispatchTick - (jobs scenario).arrival i ∧
    t.deadlineTick = (scenario.tasks.get i).deadlineTick := by
  have hlt : i.val < r.tasks.length := by rw [h.finalized.length]; exact i.isLt
  have hget : taskMetrics (s.runtimes i) = .ok t := by
    rw [h.finalized.tasks i]
    rw [List.getElem?_eq_getElem hlt] at ht
    exact congrArg Except.ok (Option.some.inj ht)
  obtain ⟨hf, hc, hle, hresp, hd⟩ := taskMetrics_times hget
  have hinfo : (s.runtimes i).toTaskInfo = infos scenario i := (h.life hv i).common.info_eq
  rw [hinfo] at hle hresp hd
  exact ⟨first_dispatch_served hv h.run hf, completion_served hv h.run (h.complete hv i) hc, hle, hresp, hd⟩

end Results

end Exasphere.Sim

import Mathlib.Algebra.Order.Floor.Div
import Exasphere.Sim.Timeline

/-!
# Fairness of `cfs_like` on one core

The virtual runtime of a task is its executed ticks times its delta (`vruntime_eq`). Two tasks that arrive together and
never wait are both runnable until one of them completes, and a tick goes to one of them only if it is not ahead of the
other. So neither gets ahead of the other by more than one delta, whatever the other tasks do.
-/

namespace Exasphere.Sim

open Exasphere.Lib

variable {scenario : ScenarioOwned}

/-! ## Virtual runtime -/

section Vruntime

/-- The end of a tick leaves the virtual runtime. -/
theorem settleTask_vruntime {t : Nat} {z u : RuntimeTask} {outcome : Outcome}
    (h : settleTask t z = .ok (outcome, u)) : u.vruntime = z.vruntime := by
  unfold settleTask at h
  split at h
  · obtain ⟨next, -, h⟩ := bind_eq_ok.mp h
    obtain ⟨-, rfl⟩ := Prod.mk.inj (Except.ok.inj h)
    rfl
  · obtain ⟨⟨blocks, w⟩, hw, h⟩ := bind_eq_ok.mp h
    have hsame : w.vruntime = z.vruntime := by
      rw [shouldBlock_eq] at hw
      split at hw
      · obtain ⟨-, rfl⟩ := Prod.mk.inj (Except.ok.inj hw)
        rfl
      · split at hw
        · obtain ⟨-, rfl⟩ := Prod.mk.inj (Except.ok.inj hw)
          rfl
        · obtain ⟨-, hw⟩ := ite_error_eq_ok.mp hw
          obtain ⟨-, rfl⟩ := Prod.mk.inj (Except.ok.inj hw)
          rfl
    rw [← hsame]
    cases blocks with
    | true =>
      simp only [if_true, bind_eq_ok, Except.ok.injEq, Prod.mk.injEq] at h
      obtain ⟨_, -, _, -, -, rfl⟩ := h
      rfl
    | false =>
      obtain ⟨-, rfl⟩ := Prod.mk.inj (Except.ok.inj h)
      rfl

/-- An executed tick adds the delta of the task. -/
theorem Exec.vruntime {t : Nat} {x y : View} (h : Exec .cfsLike t x y) : y.1.vruntime =
    x.1.vruntime + if x.1.state = .running then CfsLike.vruntimeDelta x.1.effectiveWeight else 0 := by
  cases h with
  | rest x ev hs => simp [hs]
  | run x y z u ev outcome hs hy hz hu =>
    rw [settleTask_vruntime hu, if_pos hs]
    simp only [PolicyKind.onTaskTick, CfsLike.onTaskTick, bind_eq_ok, addChecked_eq_ok, Except.ok.injEq] at hz
    obtain ⟨v, ⟨-, rfl⟩, rfl⟩ := hz
    simp only [chargeTick, ite_error_eq_ok, bind_eq_ok, Except.ok.injEq] at hy
    obtain ⟨-, _, -, _, -, _, -, rfl⟩ := hy
    rfl

/-- The delta of a task: the virtual runtime of one tick. -/
def vruntimeStep (scenario : ScenarioOwned) (i : Fin scenario.tasks.length) : Nat :=
  CfsLike.vruntimeDelta (initRuntimes scenario i).effectiveWeight

variable {k : Nat} {s mid : Engine scenario.tasks.length 1}

/-- **Virtual runtime is executed ticks times delta**, in every state. -/
theorem vruntime_eq (hv : Valid scenario) (hr : (singleCore scenario .cfsLike).Run (initEngine scenario 1) k s)
    (i : Fin scenario.tasks.length) :
    (s.runtimes i).vruntime = (s.runtimes i).totalExecuted * vruntimeStep scenario i := by
  induction hr with
  | zero => simp [initEngine, initRuntimes, initRuntime]
  | @succ k s s' hr hc hstep ih =>
    obtain ⟨mid, e, hmid, he, -, rfl⟩ := Machine.step_ok hstep
    have ht := singleTick hv hr hc hmid
    obtain ⟨v₁, v₂, h₁, h₂, h₃⟩ := ht.sched i
    have hexec := (singleCore_lawful.spec ht.inv hmid he).exec i
    have hkey : (mid.runtimes i).vruntime = (s.runtimes i).vruntime :=
      h₃.keyed.1.trans (h₂.keyed.1.trans h₁.keyed.1)
    have hticks : (mid.runtimes i).totalExecuted = (s.runtimes i).totalExecuted := executed_of_sched h₁ h₂ h₃
    have hweight : (mid.runtimes i).effectiveWeight = (initRuntimes scenario i).effectiveWeight :=
      congrArg TaskInfo.effectiveWeight (ht.life i).common.info_eq
    have hv' : (e.runtimes i).vruntime = (mid.runtimes i).vruntime +
        if (mid.runtimes i).state = .running then CfsLike.vruntimeDelta (mid.runtimes i).effectiveWeight else 0 :=
      hexec.vruntime
    have he' : (e.runtimes i).totalExecuted =
        (mid.runtimes i).totalExecuted + if (mid.runtimes i).state = .running then 1 else 0 := hexec.executed
    rw [hkey, ih, hweight] at hv'
    rw [hticks] at he'
    show (e.runtimes i).vruntime = (e.runtimes i).totalExecuted * vruntimeStep scenario i
    rw [hv', he', vruntimeStep]
    split
    · rw [Nat.add_mul, Nat.one_mul]
    · rfl

end Vruntime

/-! ## Two tasks -/

section Pair

variable {k : Nat} {s s' mid : Engine scenario.tasks.length 1} {i j : Fin scenario.tasks.length}

/-- Task `i` is not ahead of task `j` by more than one delta. -/
def NotAhead (s : Engine scenario.tasks.length 1) (i j : Fin scenario.tasks.length) : Prop :=
  (s.runtimes i).totalExecuted * vruntimeStep scenario i ≤
    (s.runtimes j).totalExecuted * vruntimeStep scenario j + vruntimeStep scenario i

/-- Two tasks that arrive together and have no wait phases. -/
structure Companions (scenario : ScenarioOwned) (i j : Fin scenario.tasks.length) : Prop where
  arrival : (scenario.tasks.get i).arrivalTick = (scenario.tasks.get j).arrivalTick
  left : (scenario.tasks.get i).waits = []
  right : (scenario.tasks.get j).waits = []

theorem Companions.symm (h : Companions scenario i j) : Companions scenario j i := ⟨h.arrival.symm, h.right, h.left⟩

/-- While one of them runs the other, if not complete, is ready. -/
theorem Companions.ready (h : Companions scenario i j) (ht : SingleTick scenario .cfsLike k s mid)
    (hi : (mid.runtimes i).state = .running) (hj : (mid.runtimes j).state ≠ .complete) (hne : j ≠ i) :
    (mid.runtimes j).state = .ready := by
  have hwi : waitList (infos scenario i).phaseList = [] := by rw [waitList_infos]; exact h.left
  have hwj : waitList (infos scenario j).phaseList = [] := by rw [waitList_infos]; exact h.right
  have hact := ((ht.life i).active_iff hwi).mp (Or.inr hi)
  have harr : (infos scenario i).arrivalTick = (infos scenario j).arrivalTick := h.arrival
  cases (ht.life j).clause with
  | pending hs p hp hle => omega
  | ready hs => exact hs
  | running hs =>
    have hcur := ((ht.running_iff j).mp hs).symm.trans ((ht.running_iff i).mp hi)
    exact absurd (Option.some.inj hcur) hne
  | blocked hs => exact absurd hs ((ht.life j).not_blocked hwj)
  | complete hs => exact absurd hs hj

/-- **One tick.** -/
theorem NotAhead.step (hv : Valid scenario) (hq : ∀ g ∈ scenario.groups, g.quotaTicks = 0)
    (h : Companions scenario i j) (hr : (singleCore scenario .cfsLike).Run (initEngine scenario 1) k s)
    (hc : s.completed < scenario.tasks.length) (hs : (singleCore scenario .cfsLike).step s = .ok s')
    (hj : (s.runtimes j).state ≠ .complete) (hle : NotAhead s i j) : NotAhead s' i j := by
  obtain ⟨mid, e, hmid, he, -, rfl⟩ := Machine.step_ok hs
  have ht := singleTick hv hr hc hmid
  have hspec := singleCore_lawful.spec ht.inv hmid he
  have hexec : ∀ l, (e.runtimes l).totalExecuted =
      (s.runtimes l).totalExecuted + if (mid.runtimes l).state = .running then 1 else 0 := by
    intro l
    obtain ⟨v₁, v₂, h₁, h₂, h₃⟩ := ht.sched l
    have hsame : (mid.runtimes l).totalExecuted = (s.runtimes l).totalExecuted := executed_of_sched h₁ h₂ h₃
    rw [← hsame]
    exact (hspec.exec l).executed
  have hmono : (s.runtimes j).totalExecuted * vruntimeStep scenario j ≤
      (e.runtimes j).totalExecuted * vruntimeStep scenario j := by
    refine Nat.mul_le_mul_right _ ?_
    rw [hexec j]
    exact Nat.le_add_right _ _
  show (e.runtimes i).totalExecuted * vruntimeStep scenario i ≤
    (e.runtimes j).totalExecuted * vruntimeStep scenario j + vruntimeStep scenario i
  by_cases hrun : (mid.runtimes i).state = .running
  · by_cases hne : j = i
    · rw [hne]
      exact Nat.le_add_right _ _
    · -- the tick goes to `i`, so it is not ahead of `j`
      have hjm : (mid.runtimes j).state ≠ .complete := by
        intro hcomp
        obtain ⟨v₁, v₂, h₁, h₂, h₃⟩ := ht.sched j
        exact hj (complete_of_sched h₁ h₂ h₃ hcomp)
      have hready := h.ready ht hrun hjm hne
      have hcur : (mid.cores 0).current = some i := by rw [← ht.current]; exact (ht.running_iff i).mp hrun
      have hlead := singleCore_mid_leads hv cfsLike_chooses (fun _ => hq) ⟨s, hr, hc, hmid⟩ hcur hready
      rw [Bool.eq_false_iff, ne_eq, cfsLike_better_iff, not_lt, Prod.Lex.toLex_le_toLex] at hlead
      have hkey : ∀ l, (mid.runtimes l).vruntime = (s.runtimes l).totalExecuted * vruntimeStep scenario l := by
        intro l
        obtain ⟨v₁, v₂, h₁, h₂, h₃⟩ := ht.sched l
        rw [← vruntime_eq hv hr l]
        exact h₃.keyed.1.trans (h₂.keyed.1.trans h₁.keyed.1)
      simp only [hkey] at hlead
      rw [hexec i, if_pos hrun, Nat.add_mul, Nat.one_mul]
      rcases hlead with hlt | ⟨heq, -⟩ <;> omega
  · rw [hexec i, if_neg hrun, Nat.add_zero]
    unfold NotAhead at hle
    omega

/-- Along a run, while neither is complete. -/
theorem NotAhead.run (hv : Valid scenario) (hq : ∀ g ∈ scenario.groups, g.quotaTicks = 0)
    (h : Companions scenario i j) (hr : (singleCore scenario .cfsLike).Run (initEngine scenario 1) k s)
    (hj : (s.runtimes j).state ≠ .complete) : NotAhead s i j := by
  induction hr with
  | zero => simp [NotAhead, initEngine, initRuntimes, initRuntime]
  | @succ k s s' hr hc hstep ih =>
    have hbefore : (s.runtimes j).state ≠ .complete := by
      intro hcomp
      obtain ⟨mid, e, hmid, he, -, rfl⟩ := Machine.step_ok hstep
      have ht := singleTick hv hr hc hmid
      have hsame := ((singleCore_lawful.spec ht.inv hmid he).of_complete hcomp).2
      exact hj (by show (e.runtimes j).state = .complete; rw [hsame]; exact hcomp)
    exact NotAhead.step hv hq h hr hc hstep hbefore (ih hbefore)

/-- **Fairness.** At the end of every tick in which neither of two companions was complete at the start, neither is
ahead of the other by more than one delta. -/
theorem cfsLike_fair (scenario : ScenarioOwned) (hv : scenario.validate = .ok ())
    (hq : ∀ g ∈ scenario.groups, g.quotaTicks = 0) (i j : Fin scenario.tasks.length)
    (ha : (scenario.tasks.get i).arrivalTick = (scenario.tasks.get j).arrivalTick)
    (hi : (scenario.tasks.get i).waits = []) (hj : (scenario.tasks.get j).waits = []) :
    (∀ l, vruntimeStep scenario l = 4096 ⌈/⌉ (initRuntimes scenario l).effectiveWeight) ∧
    ∀ k s s', (singleCore scenario .cfsLike).Run (initEngine scenario 1) k s → s.completed < scenario.tasks.length →
      (singleCore scenario .cfsLike).step s = .ok s' →
      (s.runtimes i).state ≠ .complete → (s.runtimes j).state ≠ .complete → NotAhead s' i j ∧ NotAhead s' j i := by
  have hvalid := validate_ok hv
  have h : Companions scenario i j := ⟨ha, hi, hj⟩
  refine ⟨fun l => rfl, fun k s s' hr hc hs hci hcj => ⟨?_, ?_⟩⟩
  · exact NotAhead.step hvalid hq h hr hc hs hcj (NotAhead.run hvalid hq h hr hcj)
  · exact NotAhead.step hvalid hq h.symm hr hc hs hci (NotAhead.run hvalid hq h.symm hr hci)

/-- One core; two tasks of different weight arrive together, a third later. -/
def unevenTrio : ScenarioOwned where
  name := [102]
  tasks := [{ id := [97], arrivalTick := 0, burstTicks := 4 },
    { id := [98], arrivalTick := 0, burstTicks := 3, weight := 512, inputOrder := 1 },
    { id := [99], arrivalTick := 1, burstTicks := 2, inputOrder := 2 }]

/-- After the first tick, which goes to the first task. -/
theorem cfsLike_fair_unevenTrio : ∃ s', (singleCore unevenTrio .cfsLike).step (initEngine unevenTrio 1) = .ok s' ∧
    NotAhead s' (0 : Fin 3) (1 : Fin 3) ∧ NotAhead s' (1 : Fin 3) (0 : Fin 3) :=
  ⟨_, rfl, (cfsLike_fair unevenTrio (by decide) (by decide) (0 : Fin 3) (1 : Fin 3) rfl rfl rfl).2 0 _ _ .zero
    (by decide) rfl (by decide) (by decide)⟩

end Pair

end Exasphere.Sim

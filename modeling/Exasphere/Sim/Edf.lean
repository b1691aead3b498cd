import Exasphere.Sim.Timeline

/-!
# Earliest deadline first is optimal on one core

Under `deadline` the current task of every tick has the least deadline of all ready tasks, a missing deadline counting
as `2 ^ 32 - 1`. Without wait phases the timeline is therefore greedy for deadlines, and it meets all of them if any
assignment of ticks to tasks does.
-/

namespace Exasphere.Sim

open Exasphere.Lib

variable {scenario : ScenarioOwned}

/-- An assignment of every tick to at most one task that gives all tasks their bursts between arrival and deadline. -/
structure Feasible (scenario : ScenarioOwned) (σ : Nat → Option (Fin scenario.tasks.length)) : Prop where
  arrived : ∀ t i, σ t = some i → (scenario.tasks.get i).arrivalTick ≤ t
  finished : ∀ i, ∃ t, (scenario.tasks.get i).burstTicks ≤ served σ i t ∧
    ∀ d ∈ (scenario.tasks.get i).deadlineTick, t ≤ d

/-- The deadline the policy compares. -/
def dueTick (scenario : ScenarioOwned) (i : Fin scenario.tasks.length) : Nat :=
  (scenario.tasks.get i).deadlineTick.getD (2 ^ 32 - 1)

section Results

variable {r : SimulationResult} {k : Nat} {s : Engine scenario.tasks.length 1} {i : Fin scenario.tasks.length}
  {t : TaskMetrics}

theorem deadline_greedy {hv : Valid scenario} (h : Returns scenario .deadline r (singleSimulation .deadline hv) k s)
    (hw : scenario.Waitless) :
    (jobs scenario).Greedy (fun i j => dueTick scenario i ≤ dueTick scenario j) (timeline scenario .deadline) := by
  refine timeline_greedy hv hw h.run h.ended (fun τ mid x y hm hx hy => ?_)
  have hlead := singleCore_mid_leads hv deadline_chooses (by simp) hm hx hy
  obtain ⟨a, hra, hca, hmid⟩ := hm
  have ht := singleTick hv hra hca hmid
  have hinfo : ∀ i, (mid.runtimes i).deadlineTick = (scenario.tasks.get i).deadlineTick := fun i =>
    congrArg TaskInfo.deadlineTick (ht.life i).common.info_eq
  rw [Bool.eq_false_iff, ne_eq, deadline_better_iff, not_lt, hinfo, hinfo, Prod.Lex.toLex_le_toLex] at hlead
  rcases hlead with hlt | ⟨heq, -⟩
  · exact hlt.le
  · exact heq.le

/-- A task that has its burst by tick `d` has completed by then. -/
theorem Returns.completed_by {hv : Valid scenario} {policy : PolicyKind}
    (h : Returns scenario policy r (singleSimulation policy hv) k s) (ht : r.tasks[i.val]? = some t) {d : Nat}
    (hd : (jobs scenario).burst i ≤ served (timeline scenario policy) i d) : t.completionTime ≤ d := by
  obtain ⟨-, ⟨l, hl, hσ, hs⟩, -⟩ := h.times ht
  by_contra hlt
  have hle : served (timeline scenario policy) i d ≤ served (timeline scenario policy) i l := served_mono (by omega)
  rw [hl, served_succ, if_pos hσ] at hs
  omega

/-- **`deadline` meets every deadline that can be met.** -/
theorem deadline_optimal (scenario : ScenarioOwned) (hv : scenario.validate = .ok ()) (hc : scenario.coreCount = 1)
    (hw : scenario.Waitless) (hB : horizon scenario < 2 ^ 32 - 1) (hσ : ∃ σ, Feasible scenario σ) :
    ∃ r, simulate scenario .deadline = .ok r ∧ r.tasks.length = scenario.tasks.length ∧
      ∀ (i : Fin scenario.tasks.length) (t : TaskMetrics), r.tasks[i.val]? = some t →
        ∀ d ∈ (scenario.tasks.get i).deadlineTick, t.completionTime ≤ d := by
  have hvalid := validate_ok hv
  obtain ⟨σ, hfeas⟩ := hσ
  obtain ⟨r, hr⟩ := simulate_returns .deadline hvalid hB
  obtain ⟨k, s, h⟩ := (singleSimulation_runs .deadline hvalid hc.le).returns hvalid hr
  refine ⟨r, hr, h.finalized.length, fun i t ht d hd => ?_⟩
  have hdue : dueTick scenario i = d := by rw [dueTick, hd, Option.getD_some]
  rcases Nat.lt_or_ge d (2 ^ 32 - 1) with hlt | hge
  · -- the tasks with no later deadline all have one
    refine h.completed_by ht ?_
    rw [← hdue]
    refine (deadline_greedy h hw).on_time hfeas.arrived (fun j hj => ?_)
    obtain ⟨u, hu, hby⟩ := hfeas.finished j
    cases hdj : (scenario.tasks.get j).deadlineTick with
    | none =>
      have hlast : dueTick scenario j = 2 ^ 32 - 1 := by rw [dueTick, hdj, Option.getD_none]
      omega
    | some d' =>
      have hdj' : dueTick scenario j = d' := by rw [dueTick, hdj, Option.getD_some]
      rw [hdj']
      exact hu.trans (served_mono (hby d' hdj))
  · -- the simulation is over before
    obtain ⟨t', ht', hle, -⟩ := h.accounted hvalid i
    obtain rfl : t = t' := Option.some.inj (ht.symm.trans ht')
    have hk := h.bound
    omega

/-- One core; the long task without a deadline arrives first, the others have to run before it ends. -/
def urgentTrio : ScenarioOwned where
  name := [117]
  tasks := [{ id := [97], arrivalTick := 0, burstTicks := 4 },
    { id := [98], arrivalTick := 1, burstTicks := 2, deadlineTick := some 4, inputOrder := 1 },
    { id := [99], arrivalTick := 1, burstTicks := 1, deadlineTick := some 2, inputOrder := 2 }]

/-- The task without a deadline runs last. -/
def urgentTrioTicks : List (Fin urgentTrio.tasks.length) :=
  [⟨0, by decide⟩, ⟨2, by decide⟩, ⟨1, by decide⟩, ⟨1, by decide⟩, ⟨0, by decide⟩, ⟨0, by decide⟩, ⟨0, by decide⟩]

def urgentTrioPlan (t : Nat) : Option (Fin urgentTrio.tasks.length) := urgentTrioTicks[t]?

theorem urgentTrioPlan_feasible : Feasible urgentTrio urgentTrioPlan := by
  constructor
  · intro t i h
    rcases Nat.lt_or_ge t 7 with hlt | hge
    · have hall : ∀ t < 7, ∀ i ∈ urgentTrioPlan t, (urgentTrio.tasks.get i).arrivalTick ≤ t := by decide
      exact hall t hlt i h
    · rw [urgentTrioPlan, List.getElem?_eq_none hge] at h
      cases h
  · intro i
    have hall : ∀ i, (urgentTrio.tasks.get i).burstTicks ≤ served urgentTrioPlan i (([7, 4, 2] : List Nat).get i) ∧
        ∀ d ∈ (urgentTrio.tasks.get i).deadlineTick, ([7, 4, 2] : List Nat).get i ≤ d := by decide
    exact ⟨_, hall i⟩

theorem deadline_optimal_urgentTrio : ∃ r, simulate urgentTrio .deadline = .ok r ∧
    r.tasks.length = urgentTrio.tasks.length ∧
    ∀ (i : Fin urgentTrio.tasks.length) (t : TaskMetrics), r.tasks[i.val]? = some t →
      ∀ d ∈ (urgentTrio.tasks.get i).deadlineTick, t.completionTime ≤ d :=
  deadline_optimal urgentTrio (by decide) rfl (by unfold ScenarioOwned.Waitless; decide) (by decide)
    ⟨urgentTrioPlan, urgentTrioPlan_feasible⟩

end Results

end Exasphere.Sim

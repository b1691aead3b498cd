import Mathlib.Algebra.BigOperators.Fin
import Exasphere.Sim.Multi
import Exasphere.Sim.Single

/-!
# Progress

No step of a simulation faults while there is room in a `u32`, and there is room as long as the tick is bounded by the
work: `spent` counts the ticks a task has executed or been blocked, it grows for some task in every tick after the last
arrival, and it never exceeds the burst and the waits of the task. So the tick never passes the `horizon` of the
scenario, the main loop ends, and the metrics of the final state can be computed.
-/

namespace Exasphere.Sim

open Exasphere.Lib

variable {n m : Nat}

/-! ## One task -/

section Task

variable {info : TaskInfo} {policy : PolicyKind} {t waited : Nat} {x : RuntimeTask} {ev : List Event}

/-- The ticks a task has executed or been blocked. -/
def spent (x : RuntimeTask) : Nat := x.totalExecuted + x.blockedTime

/-- The ticks a task executes or is blocked in all. -/
def TaskInfo.demand (info : TaskInfo) : Nat := info.burstTicks + waitTicks info.phaseList

theorem waitTicks_take_le (ps : List TaskPhase) (k : Nat) : waitTicks (ps.take k) ≤ waitTicks ps := by
  conv => rhs; rw [← List.take_append_drop k ps]
  simp only [waitTicks, waitList_append, List.sum_append]
  omega

/-- A wait phase that is not over yet. -/
theorem waitTicks_take_get {ps : List TaskPhase} {k : Nat} {q : TaskPhase} (hq : ps[k]? = some q)
    (hk : q.kind = .wait) : waitTicks (ps.take k) + q.ticks ≤ waitTicks ps := by
  have h := waitTicks_take_le ps (k + 1)
  have htake : ps.take (k + 1) = ps.take k ++ [q] := by
    rw [List.take_add_one, hq]
    rfl
  rw [htake] at h
  simpa [waitTicks, waitList_append, waitList_singleton, hk] using h

theorem Life.spent_le {lo tb tr : Nat} (h : Life info lo tb tr waited x ev) : spent x ≤ info.demand := by
  have hwork := h.common.work
  have hblocked : x.blockedTime ≤ waitTicks info.phaseList := by
    cases h.clause with
    | pending _ _ _ _ _ hz => omega
    | ready _ _ hp => rw [hp.blocked]; exact waitTicks_take_le _ _
    | running _ _ hp => rw [hp.blocked]; exact waitTicks_take_le _ _
    | blocked _ _ _ hp =>
      have h₁ := hp.blocked
      have h₂ := waitTicks_take_get hp.get hp.kind
      omega
    | complete _ _ hb => omega
  unfold spent TaskInfo.demand
  omega

theorem advancePhaseAfterWake_spent {y : RuntimeTask} (h : advancePhaseAfterWake x = .ok y) : spent y = spent x := by
  unfold advancePhaseAfterWake at h
  split at h
  · obtain rfl := Except.ok.inj h
    rfl
  · split at h
    · cases h
    · simp only [ite_error_eq_ok, Except.ok.injEq] at h
      obtain ⟨-, rfl⟩ := h
      rfl

/-- Scheduling spends at most a tick of waiting, and does so for a task that stays blocked. -/
theorem sched_spent {v v₁ v₂ w : View} (h₁ : Wake t v v₁) (h₂ : Preempt t v₁ v₂) (h₃ : Assign t v₂ w) :
    spent v.1 ≤ spent w.1 ∧ (w.1.state = .blocked → spent v.1 < spent w.1) := by
  have hw : spent w.1 = spent v₁.1 ∧ (w.1.state = .blocked → v₁.1.state = .blocked) := by
    cases h₂ <;> cases h₃ <;> simp_all [spent, dispatched]
  rw [hw.1]
  cases h₁ with
  | keep x ev hb => exact ⟨le_refl _, fun h => absurd (hw.2 h) hb⟩
  | arrive x ev c hs ha => exact ⟨le_refl _, fun h => by simpa using hw.2 h⟩
  | wake x y ev c hs hwt hy => exact ⟨le_of_eq (advancePhaseAfterWake_spent hy).symm, fun h => by simpa using hw.2 h⟩
  | sleep x ev hs hwt => simp only [spent]; exact ⟨by omega, fun _ => by omega⟩

/-- Execution spends a tick of a running task. -/
theorem exec_spent {v w : View} (h : Exec policy t v w) :
    spent v.1 ≤ spent w.1 ∧ (v.1.state = .running → spent v.1 < spent w.1) := by
  cases h with
  | rest x ev hs => exact ⟨le_refl _, fun h => absurd h hs⟩
  | run x y z u ev outcome hs hy hz hu =>
    obtain ⟨-, -, -, d, rfl, -⟩ := chargeTick_onTaskTick hy hz
    have hset := settleTask_settled (by exact hs) hu
    have hspent : spent u = spent x + 1 := by
      unfold spent
      rw [hset.executed, hset.blocked]
      simp only [ticked]
      omega
    simp only [hspent]
    exact ⟨by omega, fun _ => by omega⟩

/-- A wakeup does not fault. -/
theorem Life.wake_total (hv : info.Valid) (h : Life info 1 t t waited x ev) (hs : x.state = .blocked) :
    ∃ y, advancePhaseAfterWake x = .ok y := by
  cases h.clause with
  | blocked _ p wake hp =>
    obtain ⟨q, hq, hqk⟩ := hv.phased.next_of_wait hp.get hp.kind
    unfold advancePhaseAfterWake
    cases hph : x.phases with
    | none => exact ⟨_, rfl⟩
    | some ps =>
      have hl : info.phaseList = ps := by rw [← h.common.info_eq]; simp [TaskInfo.phaseList, hph]
      rw [hl] at hq
      simp [hq, hqk]
  | pending hs' | ready hs' | running hs' | complete hs' => simp [hs'] at hs

/-- A blocked task has been blocked for less than the ticks so far. -/
theorem Life.blocked_le (h : Life info 1 t t waited x ev) (hs : x.state = .blocked) : x.blockedTime ≤ t := by
  cases h.clause with
  | blocked _ _ _ _ hc => simp only [Clock] at hc; omega
  | pending hs' | ready hs' | running hs' | complete hs' => simp [hs'] at hs

theorem chargeTick_total (hl : x.lastExecutionTick ≠ some t) (hr : 1 ≤ x.remainingTicks)
    (hp : 1 ≤ x.phaseRemainingTicks) (he : x.totalExecuted + 1 < 2 ^ 32) : ∃ y, chargeTick t x = .ok y ∧
      y.vruntime = x.vruntime ∧ y.effectiveWeight = x.effectiveWeight := by
  simp only [chargeTick, hl, if_false, bind_eq_ok, addChecked_eq_ok, subChecked_eq_ok, Except.ok.injEq]
  exact ⟨_, ⟨_, ⟨hr, rfl⟩, _, ⟨he, rfl⟩, _, ⟨hp, rfl⟩, rfl⟩, rfl, rfl⟩

theorem onTaskTick_total (policy : PolicyKind) (hw : 0 < x.effectiveWeight) (hv : x.vruntime ≤ 4096 * 2 ^ 32) :
    ∃ z, policy.onTaskTick x = .ok z := by
  cases policy with
  | cfsLike =>
    have hd := vruntimeDelta_le hw
    simp only [CfsLike.vruntimeScale] at hd
    simp only [PolicyKind.onTaskTick, CfsLike.onTaskTick, bind_eq_ok, addChecked_eq_ok]
    exact ⟨_, _, ⟨by omega, rfl⟩, rfl⟩
  | _ => exact ⟨_, rfl⟩

/-- Completing or blocking does not fault while the rest of the demand fits. -/
theorem settleTask_total (hv : info.Valid) {d : Nat} {p : TaskPhase} (hx : x.toTaskInfo = info)
    (hp : CpuPhase info x p) (hwork : x.totalExecuted + x.remainingTicks = info.burstTicks)
    (hroom : t + info.demand < 2 ^ 32 + spent x) : ∃ r, settleTask t (ticked t d x) = .ok r := by
  have hpos := hp.pos
  have hrem := hp.remaining
  have hbt := waitTicks_take_le info.phaseList x.phaseIndex
  rw [← hp.blocked] at hbt
  unfold TaskInfo.demand spent at hroom
  have hnext : t + 1 < 2 ^ 32 := by omega
  unfold settleTask
  split
  · simp only [bind_eq_ok, addChecked_eq_ok]
    exact ⟨_, _, ⟨hnext, rfl⟩, rfl⟩
  · have hps : (ticked t d x).phaseList = info.phaseList := by rw [← hx]; rfl
    have hidx : (ticked t d x).phaseIndex = x.phaseIndex := rfl
    rw [shouldBlock_eq, hps, hidx]
    split
    · exact ⟨_, rfl⟩
    · cases hq : info.phaseList[x.phaseIndex + 1]? with
      | none => exact ⟨_, rfl⟩
      | some q =>
        have hqk : q.kind = .wait := by
          rw [hv.phased.alternating.next hp.get hq, hp.kind]
          rfl
        -- the wake tick fits: this wait is part of the demand that is not spent
        have hw := waitTicks_take_get hq hqk
        have htake : waitTicks (info.phaseList.take (x.phaseIndex + 1)) = x.blockedTime := by
          rw [hp.blocked]
          simp only [waitTicks, hp.waitList_take_succ]
          rfl
        have hwake : t + 1 + q.ticks < 2 ^ 32 := by omega
        simp only [ne_eq, hqk, not_true_eq_false, if_false, ok_bind, if_true, bind_eq_ok, addChecked_eq_ok]
        exact ⟨_, _, ⟨hnext, rfl⟩, _, ⟨hwake, rfl⟩, rfl⟩

/-- An execution does not fault while the demand of the task fits. -/
theorem Life.exec_total (policy : PolicyKind) (hv : info.Valid) (h : Life info 0 (t + 1) t waited x ev)
    (hs : x.state = .running) (hroom : t + info.demand < 2 ^ 32 + spent x) : ∃ y z r, chargeTick t x = .ok y ∧
      policy.onTaskTick y = .ok z ∧ settleTask t z = .ok r := by
  obtain ⟨hinfo, hwork, hlast, hvr⟩ := h.common
  have hle := h.spent_le
  have hclause := h.clause
  cases hclause with
  | running _ p hp hc =>
    simp only [Clock] at hc
    have hpos := hp.pos
    have hrem := hp.remaining
    have hexec : x.totalExecuted + 1 < 2 ^ 32 := by
      have hbt := waitTicks_take_le info.phaseList x.phaseIndex
      rw [← hp.blocked] at hbt
      unfold TaskInfo.demand spent at hroom
      omega
    have hl : x.lastExecutionTick ≠ some t := fun hl => by
      have := hlast t hl
      omega
    obtain ⟨y, hy, hyv, hyw⟩ := chargeTick_total (t := t) hl (by omega) hpos hexec
    obtain ⟨z, hz⟩ := onTaskTick_total (x := y) policy (by rw [hyw, hinfo]; exact hv.weight_pos)
      (by rw [hyv]; simp only [CfsLike.vruntimeScale] at hvr; omega)
    obtain ⟨-, -, -, d, rfl, -⟩ := chargeTick_onTaskTick hy hz
    obtain ⟨r, hr⟩ := settleTask_total (d := d) hv hinfo hp hwork hroom
    exact ⟨y, _, r, hy, hz, hr⟩
  | pending hs' | ready hs' | blocked hs' | complete hs' => simp [hs'] at hs

end Task

/-! ## The engines -/

section Engines

/-- Room in a `u32` for the rest of the run of every task. -/
structure Room (info : Fin n → TaskInfo) (s : Engine n m) : Prop where
  valid : ∀ i, (info i).Valid
  tick : s.tick + 1 < 2 ^ 32
  life : ∀ i, ∃ waited, Life (info i) 1 s.tick s.tick waited (s.view i).1 (s.view i).2
  fits : ∀ i, s.tick + (info i).demand < 2 ^ 32 + spent (s.runtimes i)

variable {scenario : ScenarioOwned} {policy : PolicyKind} {info : Fin n → TaskInfo}

/-- A loop over all tasks whose body does not fault on an unvisited task. -/
theorem taskLoop_total {s : Engine n m} {body : Engine n m → Fin n → Except SimError (Engine n m)}
    {P : Engine n m → Prop} {R : Nat → View → View → Prop}
    (hbody : ∀ {s s' i}, P s → body s i = .ok s' → P s' ∧ Quiet s s' ∧ Changes (R s.tick) i s s') (hp : P s)
    (htotal : ∀ {x i}, P x → x.tick = s.tick → x.view i = s.view i → ∃ x', body x i = .ok x') :
    ∃ s', (List.finRange n).foldlM body s = .ok s' := by
  obtain ⟨s', hs', -⟩ := foldlM_ok (g := body) (l := List.finRange n) (s := s)
    (P := fun done x => P x ∧ Quiet s x ∧ ∀ j ∉ done, x.view j = s.view j) ⟨hp, Quiet.refl s, fun _ _ => rfl⟩ (by
      rintro done i rest x hl ⟨hx, hq, hrest⟩
      have hi : i ∉ done := fun hd => by
        have hnd := List.nodup_finRange n
        rw [hl, List.nodup_append] at hnd
        exact hnd.2.2 i hd i (by simp) rfl
      obtain ⟨x', hx'⟩ := htotal hx hq.tick (hrest i hi)
      obtain ⟨h₁, h₂, h₃⟩ := hbody hx hx'
      refine ⟨x', hx', h₁, hq.trans h₂, fun j hj => ?_⟩
      simp only [List.mem_append, List.mem_singleton, not_or] at hj
      rw [h₃.2 j hj.2, hrest j hj.1])
  exact ⟨s', hs'⟩

/-- The current task of a counted core executes. -/
theorem executeCurrent_total (scenario : ScenarioOwned) {s : Engine n m} {c : Fin m} {i : Fin n}
    (hq : (s.cores c).currentQuantum + 1 < 2 ^ 32) (hg : (s.cores c).currentGroupRunTicks + 1 < 2 ^ 32)
    (h : ∃ y z r, chargeTick s.tick (s.runtimes i) = .ok y ∧ policy.onTaskTick y = .ok z ∧
      settleTask s.tick z = .ok r) : ∃ r, executeCurrent scenario policy c i s = .ok r := by
  obtain ⟨y, z, ⟨outcome, u⟩, hy, hz, hu⟩ := h
  simp only [executeCurrent, bind_eq_ok, addChecked_eq_ok, Prod.exists]
  cases outcome <;> exact ⟨_, _, y, hy, _, ⟨hq, rfl⟩, _, ⟨hg, rfl⟩, z, hz, _, u, hu, rfl⟩

/-- A wakeup that the life of the task allows, or one more tick of waiting. -/
theorem Room.unblock {s x : Engine n m} {i : Fin n} (h : Room info s) (htick : x.tick = s.tick)
    (hview : x.view i = s.view i) (hb : (x.runtimes i).state = .blocked) :
    (∃ y, advancePhaseAfterWake (x.runtimes i) = .ok y) ∧ (x.runtimes i).blockedTime + 1 < 2 ^ 32 := by
  obtain ⟨waited, hl⟩ := h.life i
  have hx : (s.view i).1 = x.runtimes i := by rw [← hview]; rfl
  rw [hx] at hl
  have hle := hl.blocked_le hb
  have ht := h.tick
  exact ⟨hl.wake_total (h.valid i) hb, by omega⟩

/-- The execution of a running task after dispatch. -/
theorem Room.exec {s mid : Engine n m} {i : Fin n} (h : Room info s)
    (hv : ∃ v₁ v₂, Wake s.tick (s.view i) v₁ ∧ Preempt s.tick v₁ v₂ ∧ Assign s.tick v₂ (mid.view i))
    (hr : (mid.runtimes i).state = .running) : ∃ y z r, chargeTick s.tick (mid.runtimes i) = .ok y ∧
      policy.onTaskTick y = .ok z ∧ settleTask s.tick z = .ok r := by
  obtain ⟨waited, hl⟩ := h.life i
  have hfits := h.fits i
  obtain ⟨v₁, v₂, h₁, h₂, h₃⟩ := hv
  have hmid := ((hl.wake (h.valid i) h₁).preempt h₂).assign h₃
  refine hmid.exec_total policy (h.valid i) hr ?_
  have hle : spent (s.view i).1 ≤ spent (mid.view i).1 := (sched_spent h₁ h₂ h₃).1
  exact Nat.lt_of_lt_of_le hfits (Nat.add_le_add_left hle _)

end Engines

/-! ## The single-core engine -/

section SingleCore

variable {scenario : ScenarioOwned} {policy : PolicyKind} {info : Fin n → TaskInfo} {s mid : Engine n 1}

theorem processBlockedSingleCore_total (scenario : ScenarioOwned) (hp : Solo policy s) (hroom : Room info s) :
    ∃ s', processBlockedSingleCore scenario policy s = .ok s' := by
  apply taskLoop_total (R := Unblock) processBlockedSingleCoreAt_ok hp
  intro x i _ htick hview
  unfold processBlockedSingleCoreAt
  simp only
  split
  · exact ⟨_, rfl⟩
  next hb =>
    rw [not_not] at hb
    obtain ⟨⟨y, hy⟩, hlt⟩ := hroom.unblock htick hview hb
    split
    · exact ⟨_, by rw [hy]; rfl⟩
    · simp only [bind_eq_ok, addChecked_eq_ok]
      exact ⟨_, _, ⟨hlt, rfl⟩, rfl⟩

theorem enqueueArrivalsSingleCore_total (scenario : ScenarioOwned) (hp : Solo policy s) :
    ∃ s', enqueueArrivalsSingleCore scenario policy s = .ok s' := by
  apply taskLoop_total (R := Arrive) enqueueArrivalsSingleCoreAt_ok hp
  intro x i _ _ _
  unfold enqueueArrivalsSingleCoreAt
  simp only
  split <;> exact ⟨_, rfl⟩

theorem scheduleSingleCore_total (scenario : ScenarioOwned) (hp : Solo policy s) (hroom : Room info s) :
    ∃ mid, scheduleSingleCore scenario policy s = .ok mid := by
  obtain ⟨s₁, h₁⟩ := processBlockedSingleCore_total scenario hp hroom
  obtain ⟨s₂, h₂⟩ := enqueueArrivalsSingleCore_total scenario (processBlockedSingleCore_ok hp h₁).1
  simp [scheduleSingleCore, h₁, h₂]

theorem executeSingleCore_total (scenario : ScenarioOwned) (hp : Solo policy mid) (hc : mid.Counted)
    (ht : mid.tick + 1 < 2 ^ 32)
    (hx : ∀ i, (mid.runtimes i).state = .running → ∃ y z r, chargeTick mid.tick (mid.runtimes i) = .ok y ∧
      policy.onTaskTick y = .ok z ∧ settleTask mid.tick z = .ok r) :
    ∃ e, executeSingleCore scenario policy mid = .ok e := by
  unfold executeSingleCore
  cases hcur : (mid.cores 0).current with
  | none => exact ⟨_, rfl⟩
  | some i =>
    have hcount := hc 0
    obtain ⟨⟨outcome, e⟩, he⟩ := executeCurrent_total scenario (c := 0) (by omega) (by omega)
      (hx i (hp.slotted.current_running 0 i hcur).1)
    simp only [hp.setTask_firstDispatch hcur, he, ok_bind]
    split <;> exact ⟨_, rfl⟩

/-- A tick of the single-core engine does not fault. -/
theorem singleCore_total (hp : Solo policy s) (hc : s.Counted) (hroom : Room info s) :
    ∃ mid e, (singleCore scenario policy).schedule s = .ok mid ∧ (singleCore scenario policy).execute mid = .ok e := by
  obtain ⟨mid, hmid⟩ := scheduleSingleCore_total scenario hp hroom
  obtain ⟨hp', hq, hv, -⟩ := scheduleSingleCore_ok hp hmid
  obtain ⟨e, he⟩ := executeSingleCore_total scenario hp' (hq.counted hc) (by rw [hq.tick]; exact hroom.tick)
    (fun i hi => by rw [hq.tick]; exact hroom.exec (hv i) hi)
  exact ⟨mid, e, hmid, he⟩

end SingleCore

/-! ## The multicore engine -/

section Multicore

variable {scenario : ScenarioOwned} {policy : PolicyKind} {info : Fin n → TaskInfo} {s s' mid : Engine n m}

/-- The domains of a scenario for `m` cores. -/
structure Fit (scenario : ScenarioOwned) (m : Nat) : Prop where
  pos : 0 < m
  domains : ∀ d ∈ scenario.domains, d.cores ≠ [] ∧ ∀ c ∈ d.cores, c < m

theorem coreIndex_total {c : CoreId} (h : c < m) : coreIndex m c = .ok ⟨c, h⟩ := by
  simp [coreIndex, h]

theorem domainCores_total (hf : Fit scenario m) {d : DomainSpec} (hd : d ∈ scenario.domains) :
    ∃ members, domainCores m d = .ok members ∧ members ≠ [] := by
  obtain ⟨hne, hlt⟩ := hf.domains d hd
  obtain ⟨members, hm⟩ := mapM_total (f := coreIndex m) (fun c hc => ⟨_, coreIndex_total (hlt c hc)⟩)
  refine ⟨members, hm, fun hnil => hne ?_⟩
  have hlen := (mapM_eq_ok.mp hm).length_eq
  exact List.eq_nil_of_length_eq_zero (by rw [hlen, hnil]; rfl)

theorem leastLoaded_total {cores : Fin m → CoreState n} {members : List (Fin m)} (h : members ≠ []) :
    ∃ c, leastLoaded cores members = .ok c := by
  unfold leastLoaded
  split
  · exact ⟨_, rfl⟩
  next hn => exact absurd (firstBest_eq_none.mp hn) h

theorem chooseArrivalCore_total (hf : Fit scenario m) (cores : Fin m → CoreState n) :
    ∃ c, chooseArrivalCore scenario cores = .ok c := by
  unfold chooseArrivalCore
  split
  · apply leastLoaded_total
    intro h
    have := hf.pos
    simp_all
  next hne =>
    obtain ⟨ds, hds⟩ := mapM_total (f := domainCores m) (l := scenario.domains)
      (fun d hd => (domainCores_total hf hd).imp (fun _ h => h.1))
    have hall := mapM_eq_ok.mp hds
    simp only [hds, ok_bind]
    split
    next members hbest =>
      -- the members of a domain are the image of one of the domains of the scenario
      have hmem := firstBest_mem hbest
      obtain ⟨d, hd, hm⟩ : ∃ d ∈ scenario.domains, domainCores m d = .ok members := by
        obtain ⟨k, hk, hget⟩ := List.mem_iff_getElem.mp hmem
        have hk' : k < scenario.domains.length := by rw [hall.length_eq]; exact hk
        exact ⟨_, List.getElem_mem hk', by rw [← hget]; exact hall.get hk' hk⟩
      obtain ⟨members', hm', hne'⟩ := domainCores_total hf hd
      rw [hm] at hm'
      cases hm'
      exact leastLoaded_total hne'
    next hbest =>
      have hnil := firstBest_eq_none.mp hbest
      have hlen := hall.length_eq
      rw [hnil] at hlen
      exact absurd (List.eq_nil_of_length_eq_zero hlen) hne

theorem chooseDonorCore_total (hf : Fit scenario m) (cores : Fin m → CoreState n) (recipient : Fin m) :
    ∃ r, chooseDonorCore scenario cores recipient = .ok r := by
  unfold chooseDonorCore
  split
  next d hd =>
    obtain ⟨members, hm, -⟩ := domainCores_total hf (List.mem_of_find?_eq_some hd)
    simp only [busiestReadyCoreInDomain, hm, ok_bind]
    split <;> exact ⟨_, rfl⟩
  next => exact ⟨_, rfl⟩

theorem rebalanceLoop_total (hf : Fit scenario m) (fuel : Nat) (s : Engine n m) :
    ∃ s', rebalanceLoop scenario fuel s = .ok s' := by
  induction fuel generalizing s with
  | zero => exact ⟨s, rfl⟩
  | succ fuel ih =>
    have hstep : ∃ r, rebalanceStep scenario s = .ok r := by
      unfold rebalanceStep
      split
      · exact ⟨_, rfl⟩
      next recipient _ =>
        obtain ⟨r, hr⟩ := chooseDonorCore_total hf s.cores recipient
        rw [hr, ok_bind]
        cases r with
        | none => exact ⟨_, rfl⟩
        | some donor =>
          simp only
          split <;> exact ⟨_, rfl⟩
    obtain ⟨r, hr⟩ := hstep
    cases r with
    | none => exact ⟨s, by simp [rebalanceLoop, hr]⟩
    | some s₁ =>
      obtain ⟨s', hs'⟩ := ih s₁
      exact ⟨s', by simp [rebalanceLoop, hr, hs']⟩

theorem processBlockedMulticore_total (scenario : ScenarioOwned) (hp : Placed s) (hroom : Room info s) :
    ∃ s', processBlockedMulticore scenario s = .ok s' := by
  apply taskLoop_total (R := Unblock) processBlockedMulticoreAt_ok hp
  intro x i hx htick hview
  unfold processBlockedMulticoreAt
  simp only
  split
  · exact ⟨_, rfl⟩
  next hb =>
    rw [not_not] at hb
    obtain ⟨⟨y, hy⟩, hlt⟩ := hroom.unblock htick hview hb
    split
    · have hyc := (advancePhaseAfterWake_frame hy).2
      have hlt := hx.assigned i
      rw [hy, ok_bind, hyc, if_pos hlt, coreIndex_total hlt, ok_bind]
      exact ⟨_, rfl⟩
    · simp only [bind_eq_ok, addChecked_eq_ok]
      exact ⟨_, _, ⟨hlt, rfl⟩, rfl⟩

theorem enqueueArrivalsMulticore_total (hf : Fit scenario m) (hp : Placed s) :
    ∃ s', enqueueArrivalsMulticore scenario s = .ok s' := by
  apply taskLoop_total (R := Arrive) enqueueArrivalsMulticoreAt_ok hp
  intro x i _ _ _
  unfold enqueueArrivalsMulticoreAt
  simp only
  split
  · obtain ⟨c, hc⟩ := chooseArrivalCore_total hf x.cores
    rw [hc]
    exact ⟨_, rfl⟩
  · exact ⟨_, rfl⟩

theorem scheduleMulticore_total (policy : PolicyKind) (hf : Fit scenario m) (hp : Placed s) (hroom : Room info s) :
    ∃ mid, scheduleMulticore scenario policy s = .ok mid := by
  obtain ⟨s₁, h₁⟩ := processBlockedMulticore_total scenario hp hroom
  obtain ⟨s₂, h₂⟩ := enqueueArrivalsMulticore_total hf (processBlockedMulticore_ok hp h₁).1
  obtain ⟨s₃, h₃⟩ := rebalanceLoop_total hf m (preemptMulticore scenario policy s₂)
  simp [scheduleMulticore, rebalanceReadyQueues, h₁, h₂, h₃]

theorem executeMulticore_total (scenario : ScenarioOwned) (policy : PolicyKind) (hp : Placed mid) (hc : mid.Counted)
    (ht : mid.tick + 1 < 2 ^ 32)
    (hx : ∀ i, (mid.runtimes i).state = .running → ∃ y z r, chargeTick mid.tick (mid.runtimes i) = .ok y ∧
      policy.onTaskTick y = .ok z ∧ settleTask mid.tick z = .ok r) :
    ∃ e, executeMulticore scenario policy mid = .ok e := by
  have h0 : ExecLoop policy mid [] (mid, []) := .init hp
  obtain ⟨⟨e, done⟩, he, -⟩ := foldlM_ok (g := executeMulticoreAt scenario policy) (l := List.finRange m)
    (P := ExecLoop policy mid) h0 (by
      rintro done c rest ⟨x, l⟩ hl hloop
      have hdone : c ∉ done := fun hd => by
        have hnd := List.nodup_finRange m
        rw [hl, List.nodup_append] at hnd
        exact hnd.2.2 c hd c (by simp) rfl
      suffices hok : ∃ r, executeMulticoreAt scenario policy (x, l) c = .ok r by
        obtain ⟨⟨x', l'⟩, h'⟩ := hok
        exact ⟨_, h', executeMulticoreAt_ok hp hloop hdone h'⟩
      have hcore := hloop.cores c hdone
      unfold executeMulticoreAt
      simp only
      split
      · exact ⟨_, rfl⟩
      next i hcur =>
        have hmcur : (mid.cores c).current = some i := by rw [← hcore]; exact hcur
        have hview := (hloop.rest i (fun d hd hdi => hdone (by rw [hp.slotted.inj hmcur hdi]; exact hd))).1
        have hrt : x.runtimes i = mid.runtimes i := congrArg Prod.fst hview
        have hcount := hc c
        obtain ⟨⟨outcome, e⟩, he⟩ := executeCurrent_total scenario (s := x) (c := c)
          (i := i) (by rw [hcore]; omega) (by rw [hcore]; omega)
          (by rw [hrt, hloop.tick]; exact hx i (hp.slotted.current_running c i hmcur).1)
        exact ⟨_, by rw [he]; rfl⟩)
  simp [executeMulticore, he]

/-- A tick of the multicore engine does not fault. -/
theorem multicore_total (hf : Fit scenario m) (hp : Placed s) (hc : s.Counted) (hroom : Room info s) :
    ∃ mid e, (multicore scenario policy).schedule s = .ok mid ∧ (multicore scenario policy).execute mid = .ok e := by
  obtain ⟨mid, hmid⟩ := scheduleMulticore_total policy hf hp hroom
  obtain ⟨hp', hq, hv, -⟩ := scheduleMulticore_ok hp hmid
  obtain ⟨e, he⟩ := executeMulticore_total scenario policy hp' (hq.counted hc)
    (by rw [hq.tick]; exact hroom.tick) (fun i hi => by rw [hq.tick]; exact hroom.exec (hv i) hi)
  exact ⟨mid, e, hmid, he⟩

end Multicore

/-! ## Runs -/

section Runs

variable {M : Machine n m} {policy : PolicyKind} {Inv : Engine n m → Prop} {info : Fin n → TaskInfo}
  {s₀ s : Engine n m} {A k : Nat}

theorem Ledger.all_complete (h : Ledger s) : n ≤ s.completed ↔ ∀ i, (s.runtimes i).state = .complete := by
  have hcard : s.completionOrder.toFinset.card = s.completed := by
    rw [h.length, List.toFinset_card_of_nodup h.nodup]
  constructor
  · intro hn i
    have huniv : s.completionOrder.toFinset = Finset.univ :=
      Finset.eq_univ_of_card _ (le_antisymm (Finset.card_le_univ _) (by rw [hcard, Fintype.card_fin]; exact hn))
    exact (h.mem i).mp (List.mem_toFinset.mp (by rw [huniv]; exact Finset.mem_univ i))
  · intro hall
    have huniv : s.completionOrder.toFinset = Finset.univ :=
      Finset.eq_univ_iff_forall.mpr (fun i => List.mem_toFinset.mpr ((h.mem i).mpr (hall i)))
    rw [← hcard, huniv, Finset.card_univ, Fintype.card_fin]

/-- In a tick in which no task executes or stays blocked, some task has still to arrive. -/
theorem TickSpec.spends {mid e : Engine n m} (ht : TickSpec policy s mid e) (hs : Start info s₀) (hk : s.tick = k)
    (hlife : Lives M info s₀ k s) (hinc : ∃ i, (s.runtimes i).state ≠ .complete) :
    (∃ i, spent (s.runtimes i) < spent (e.runtimes i)) ∨ ∃ i, k < (info i).arrivalTick := by
  have hmid : ∀ i, spent (s.runtimes i) ≤ spent (mid.runtimes i) ∧
      ((mid.runtimes i).state = .blocked → spent (s.runtimes i) < spent (mid.runtimes i)) := by
    intro i
    obtain ⟨v₁, v₂, h₁, h₂, h₃⟩ := ht.sched i
    exact sched_spent h₁ h₂ h₃
  have hexec : ∀ i, spent (mid.runtimes i) ≤ spent (e.runtimes i) ∧
      ((mid.runtimes i).state = .running → spent (mid.runtimes i) < spent (e.runtimes i)) :=
    fun i => exec_spent (ht.exec i)
  by_cases hrun : ∃ i, (mid.runtimes i).state = .running
  · obtain ⟨i, hi⟩ := hrun
    exact Or.inl ⟨i, lt_of_le_of_lt (hmid i).1 ((hexec i).2 hi)⟩
  by_cases hblk : ∃ i, (mid.runtimes i).state = .blocked
  · obtain ⟨i, hi⟩ := hblk
    exact Or.inl ⟨i, lt_of_lt_of_le ((hmid i).2 hi) (hexec i).1⟩
  -- nothing runs, so nothing is ready, and an incomplete task is pending
  obtain ⟨i, hi⟩ := hinc
  refine Or.inr ⟨i, ?_⟩
  have hl := ht.life_mid hs hk (hlife i)
  cases hl.clause with
  | pending _ _ _ hle => omega
  | ready hst => exact absurd (ht.busy i hst) hrun
  | running hst => exact absurd ⟨i, hst⟩ hrun
  | blocked hst => exact absurd ⟨i, hst⟩ hblk
  | complete hst =>
    obtain ⟨v₁, v₂, h₁, h₂, h₃⟩ := ht.sched i
    exact absurd (complete_of_sched h₁ h₂ h₃ hst) hi

/-- **The tick is bounded by the last arrival and the ticks spent.** -/
theorem Start.pace_run (hM : Lawful M policy Inv) (hs : Start info s₀) (h₀ : Inv s₀)
    (hA : ∀ i, (info i).arrivalTick ≤ A) (h : M.Run s₀ k s) : k ≤ A + ∑ i, spent (s.runtimes i) := by
  induction h with
  | zero => omega
  | @succ k s s' hr hc hstep ih =>
    obtain ⟨mid, e, hmid, he, -, rfl⟩ := Machine.step_ok hstep
    obtain ⟨hinv, hk⟩ := hs.inv hM h₀ hr
    have ht := hM.spec hinv hmid he
    have hled := hs.ledger_run hM h₀ hr
    have hinc : ∃ i, (s.runtimes i).state ≠ .complete := by
      by_contra hno
      push Not at hno
      have := hled.all_complete.mpr hno
      omega
    have hmono : ∀ i ∈ Finset.univ, spent (s.runtimes i) ≤ spent (e.runtimes i) := by
      intro i _
      obtain ⟨v₁, v₂, h₁, h₂, h₃⟩ := ht.sched i
      exact le_trans (sched_spent h₁ h₂ h₃).1 (exec_spent (ht.exec i)).1
    show k + 1 ≤ A + ∑ i, spent (e.runtimes i)
    rcases ht.spends hs hk (hs.life_run hM h₀ hr) hinc with ⟨i, hi⟩ | ⟨i, hi⟩
    · have := Finset.sum_lt_sum hmono ⟨i, Finset.mem_univ i, hi⟩
      omega
    · have := hA i
      omega

/-- No run goes beyond the last arrival and the demand of all tasks. -/
theorem Start.tick_le (hM : Lawful M policy Inv) (hs : Start info s₀) (h₀ : Inv s₀)
    (hA : ∀ i, (info i).arrivalTick ≤ A) (h : M.Run s₀ k s) : k ≤ A + ∑ i, (info i).demand := by
  have hpace := hs.pace_run hM h₀ hA h
  have hlife := hs.life_run hM h₀ h
  have hsum : ∑ i, spent (s.runtimes i) ≤ ∑ i, (info i).demand := Finset.sum_le_sum (fun i _ => (hlife i).spent_le)
  omega

/-- Room is left in every reachable state of a scenario that fits a `u32`. -/
theorem Start.room_run (hM : Lawful M policy Inv) (hs : Start info s₀) (h₀ : Inv s₀)
    (hA : ∀ i, (info i).arrivalTick ≤ A) (hB : A + ∑ i, (info i).demand < 2 ^ 32 - 1) (h : M.Run s₀ k s) :
    Room info s := by
  have hpace := hs.pace_run hM h₀ hA h
  have hend := hs.tick_le hM h₀ hA h
  have hlife := hs.life_run hM h₀ h
  obtain ⟨-, hk⟩ := hs.inv hM h₀ h
  have hle : ∀ i, spent (s.runtimes i) ≤ (info i).demand := fun i => (hlife i).spent_le
  refine ⟨hs.valid, by omega, fun i => ⟨_, by rw [hk]; exact hlife i⟩, fun i => ?_⟩
  have h₁ := Finset.add_sum_erase Finset.univ (fun j => spent (s.runtimes j)) (Finset.mem_univ i)
  have h₂ := Finset.add_sum_erase Finset.univ (fun j => (info j).demand) (Finset.mem_univ i)
  have h₃ : ∑ j ∈ Finset.univ.erase i, spent (s.runtimes j) ≤ ∑ j ∈ Finset.univ.erase i, (info j).demand :=
    Finset.sum_le_sum (fun j _ => hle j)
  omega

/-- **The main loop ends**, within the last arrival and the demand of all tasks. -/
theorem Start.runTicks_total (hM : Lawful M policy Inv) (hs : Start info s₀) (h₀ : Inv s₀)
    (htotal : ∀ {s}, Inv s → Room info s → ∃ mid e, M.schedule s = .ok mid ∧ M.execute mid = .ok e)
    (hA : ∀ i, (info i).arrivalTick ≤ A) (hB : A + ∑ i, (info i).demand < 2 ^ 32 - 1) (fuel : Nat)
    (h : M.Run s₀ k s) (hf : k + fuel = 2 ^ 32) : ∃ s', runTicks M.step fuel s = .ok s' := by
  induction fuel generalizing k s with
  | zero =>
    have := hs.tick_le hM h₀ hA h
    omega
  | succ fuel ih =>
    unfold runTicks
    split
    next hc =>
      have hroom := hs.room_run hM h₀ hA hB h
      obtain ⟨hinv, hk⟩ := hs.inv hM h₀ h
      obtain ⟨mid, e, hmid, he⟩ := htotal hinv hroom
      have htick := (hM.spec hinv hmid he).tick_end
      have hstep : M.step s = .ok { e with tick := e.tick + 1 } := by
        simp only [Machine.step, advanceTick, hmid, he, ok_bind, bind_eq_ok, addChecked_eq_ok]
        exact ⟨_, ⟨by rw [htick]; exact hroom.tick, rfl⟩, rfl⟩
      obtain ⟨s', hs'⟩ := ih (.succ h hc hstep) (by omega)
      exact ⟨s', by rw [hstep]; exact hs'⟩
    next => exact ⟨s, rfl⟩

end Runs

end Exasphere.Sim

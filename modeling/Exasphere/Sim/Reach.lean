import Exasphere.Sim.Results

/-!
# Reachable states of the multicore engine, step by step

`Reach` follows the body of the loop of `simulateMulticore` from one step to the next, the iterations of
`rebalanceReadyQueues` included. The placement invariant holds at every point.

Rebalancing is work conserving unless the loop meets a `Stranding` state: it has found an idle core, some core has two
tasks or more, but the donor it looks at (the longest queue, the domain of the idle core first) has one task only, so
the loop ends.
-/

namespace Exasphere.Sim

open Exasphere.Lib

variable {n m : Nat} {scenario : ScenarioOwned} {policy : PolicyKind}

/-- The points between the steps of an iteration. `balancing` is the head of the loop of `rebalanceReadyQueues`. -/
inductive Point
  | top
  | unblocked
  | arrived
  | balancing
  | rebalanced
  | dispatched
  | executed
  deriving DecidableEq, Repr

/-- The states of `simulateMulticore` at each point. -/
inductive Reach (scenario : ScenarioOwned) (policy : PolicyKind) :
    Point → Engine scenario.tasks.length scenario.coreCount → Prop
  | init : Reach scenario policy .top (initEngine scenario scenario.coreCount)
  | unblock {s s'} (h : Reach scenario policy .top s) (hc : s.completed < scenario.tasks.length)
      (hs : processBlockedMulticore scenario s = .ok s') : Reach scenario policy .unblocked s'
  | arrive {s s'} (h : Reach scenario policy .unblocked s) (hs : enqueueArrivalsMulticore scenario s = .ok s') :
      Reach scenario policy .arrived s'
  | preempt {s} (h : Reach scenario policy .arrived s) :
      Reach scenario policy .balancing (preemptMulticore scenario policy s)
  | migrate {s s'} (h : Reach scenario policy .balancing s) (hs : rebalanceStep scenario s = .ok (some s')) :
      Reach scenario policy .balancing s'
  | balanced {s} (h : Reach scenario policy .balancing s) (hs : rebalanceStep scenario s = .ok none) :
      Reach scenario policy .rebalanced s
  | dispatch {s} (h : Reach scenario policy .rebalanced s) :
      Reach scenario policy .dispatched (dispatchMulticore scenario policy s)
  | execute {s s'} (h : Reach scenario policy .dispatched s) (hs : executeMulticore scenario policy s = .ok s') :
      Reach scenario policy .executed s'
  | tick {s s'} (h : Reach scenario policy .executed s) (hs : advanceTick s = .ok s') : Reach scenario policy .top s'

/-! ## The loop of `rebalanceReadyQueues` ends -/

section Rebalance

variable {s s' : Engine n m}

theorem coreLoad_eq_zero {core : CoreState n} : coreLoad core = 0 ↔ core.current = none ∧ core.readyQueue = [] := by
  unfold coreLoad
  by_cases h : core.current = none
  · simp [h]
  · simp [h]

/-- The idle cores. -/
def idleCores (cores : Fin m → CoreState n) : Finset (Fin m) := Finset.univ.filter (fun c => coreLoad (cores c) = 0)

theorem firstIdleCore_eq_none {cores : Fin m → CoreState n} : firstIdleCore cores = none ↔ idleCores cores = ∅ := by
  simp only [firstIdleCore, List.find?_eq_none, idleCores, Finset.filter_eq_empty_iff, coreLoad_eq_zero]
  simp

/-- A migration fills an idle core and empties none. -/
theorem migrateHead_idle {recipient donor : Fin m} {i : Fin n} {rest : List (Fin n)} (hne : donor ≠ recipient)
    (hq : (s.cores donor).readyQueue = i :: rest) (hload : 2 ≤ coreLoad (s.cores donor))
    (hidle : coreLoad (s.cores recipient) = 0) :
    (idleCores (migrateHead recipient donor s).cores).card < (idleCores s.cores).card := by
  have hcores := migrateHead_cores hne hq
  refine Finset.card_lt_card (Finset.ssubset_iff_of_subset ?_ |>.mpr ⟨recipient, ?_, ?_⟩)
  · intro c hc
    simp only [idleCores, Finset.mem_filter, Finset.mem_univ, true_and, hcores] at hc ⊢
    by_cases hcr : c = recipient
    · rw [hcr]; exact hidle
    · rw [Function.update_of_ne hcr] at hc
      by_cases hcd : c = donor
      · subst hcd
        rw [Function.update_self] at hc
        unfold coreLoad at hc hload
        rw [hq] at hload
        simp only [List.length_cons] at hload hc
        omega
      · rw [Function.update_of_ne hcd] at hc
        exact hc
  · simpa [idleCores] using hidle
  · simp [idleCores, hcores, coreLoad]

/-- After enough iterations the loop has ended by itself. -/
theorem rebalanceLoop_ends {fuel : Nat} (hf : (idleCores s.cores).card ≤ fuel)
    (h : rebalanceLoop scenario fuel s = .ok s') : rebalanceStep scenario s' = .ok none := by
  induction fuel generalizing s with
  | zero =>
    obtain rfl : s = s' := by simpa [rebalanceLoop] using h
    have hnone : firstIdleCore s.cores = none := firstIdleCore_eq_none.mpr (Finset.card_eq_zero.mp (by omega))
    simp [rebalanceStep, hnone]
  | succ fuel ih =>
    obtain ⟨r, hr, h⟩ := bind_eq_ok.mp h
    cases r with
    | none =>
      obtain rfl : s = s' := by simpa using h
      exact hr
    | some s₁ =>
      obtain ⟨recipient, donor, i, rest, hfi, -, hne, hq, hload, rfl⟩ := rebalanceStep_some hr
      have hlt := migrateHead_idle hne hq hload (coreLoad_eq_zero.mpr (firstIdleCore_idle hfi))
      exact ih (by omega) h

/-- `m` iterations are enough. -/
theorem rebalanceReadyQueues_ends (h : rebalanceReadyQueues scenario s = .ok s') :
    rebalanceStep scenario s' = .ok none := by
  refine rebalanceLoop_ends ?_ h
  simpa using Finset.card_le_univ (idleCores s.cores)

end Rebalance

/-! ## The steps are those of the loop -/

section Link

variable {s s' mid : Engine scenario.tasks.length scenario.coreCount} {k : Nat}

theorem Reach.rebalance {fuel : Nat} (h : Reach scenario policy .balancing s)
    (hl : rebalanceLoop scenario fuel s = .ok s') : Reach scenario policy .balancing s' := by
  induction fuel generalizing s with
  | zero =>
    obtain rfl : s = s' := by simpa [rebalanceLoop] using hl
    exact h
  | succ fuel ih =>
    obtain ⟨r, hr, hl⟩ := bind_eq_ok.mp hl
    cases r with
    | none =>
      obtain rfl : s = s' := by simpa using hl
      exact h
    | some s₁ => exact ih (.migrate h hr) hl

theorem Reach.schedule (h : Reach scenario policy .top s) (hc : s.completed < scenario.tasks.length)
    (hs : scheduleMulticore scenario policy s = .ok mid) : Reach scenario policy .dispatched mid := by
  obtain ⟨s₁, s₂, s₃, h₁, h₂, h₃, rfl⟩ := scheduleMulticore_parts hs
  exact .dispatch (.balanced (.rebalance (.preempt (.arrive (.unblock h hc h₁) h₂)) h₃) (rebalanceReadyQueues_ends h₃))

/-- The states at the head of the loop are reachable. -/
theorem Reach.of_run (h : (multicore scenario policy).Run (initEngine scenario scenario.coreCount) k s) :
    Reach scenario policy .top s := by
  induction h with
  | zero => exact .init
  | succ hr hc hstep ih =>
    obtain ⟨mid, hmid, hstep⟩ := bind_eq_ok.mp hstep
    obtain ⟨e, he, hstep⟩ := bind_eq_ok.mp hstep
    exact .tick (.execute (ih.schedule hc hmid) he) hstep

theorem Reach.of_mid (h : (multicore scenario policy).Mid (initEngine scenario scenario.coreCount) k mid) :
    Reach scenario policy .dispatched mid := by
  obtain ⟨s, hr, hc, hs⟩ := h
  exact (Reach.of_run hr).schedule hc hs

end Link

/-! ## Placement -/

section Placement

theorem Reach.placed (hv : Valid scenario) {p : Point} {s : Engine scenario.tasks.length scenario.coreCount}
    (h : Reach scenario policy p s) : Placed s := by
  induction h with
  | init => exact placed_init hv hv.core_pos
  | unblock _ _ hs ih => exact (processBlockedMulticore_ok ih hs).1
  | arrive _ hs ih => exact (enqueueArrivalsMulticore_ok ih hs).1
  | preempt _ ih => exact (preemptMulticore_ok _ _ ih).1
  | migrate _ hs ih =>
    obtain ⟨recipient, donor, i, rest, -, -, hne, hq, -, rfl⟩ := rebalanceStep_some hs
    exact (migrateHead_ok ih hne hq).1
  | balanced _ _ ih => exact ih
  | dispatch _ ih => exact (dispatchMulticore_ok _ _ ih).1
  | execute _ hs ih => exact (executeMulticore_ok ih hs).1
  | tick _ hs ih =>
    simp only [advanceTick, bind_eq_ok, addChecked_eq_ok, Except.ok.injEq] at hs
    obtain ⟨t, -, rfl⟩ := hs
    exact ⟨ih.slotted, ih.queued, ih.assigned, ih.ids⟩

/-- Every task is where its state says, and only there. -/
structure PlacementInvariant (s : Engine n m) : Prop where
  ready : ∀ i, (s.runtimes i).state = .ready → ∃ c : Fin m, (s.runtimes i).assignedCore = c ∧
    (s.cores c).readyQueue.count i = 1 ∧ (∀ d, d ≠ c → i ∉ (s.cores d).readyQueue) ∧ ∀ d, (s.cores d).current ≠ some i
  running : ∀ i, (s.runtimes i).state = .running → (∃! c, (s.cores c).current = some i) ∧
    ∀ d, i ∉ (s.cores d).readyQueue
  absent : ∀ i, (s.runtimes i).state ≠ .ready → (s.runtimes i).state ≠ .running →
    ∀ c, i ∉ (s.cores c).readyQueue ∧ (s.cores c).current ≠ some i

theorem Placed.invariant {s : Engine n m} (h : Placed s) : PlacementInvariant s := by
  have hcur : ∀ i c, (s.runtimes i).state ≠ .running → (s.cores c).current ≠ some i :=
    fun i c hi hc => hi (h.slotted.current_running c i hc).1
  have hque : ∀ i c, (s.runtimes i).state ≠ .ready → i ∉ (s.cores c).readyQueue :=
    fun i c hi hc => hi (h.queued.mem_ready c i hc).1
  refine ⟨fun i hi => ?_, fun i hi => ⟨?_, fun d => hque i d (by simp [hi])⟩,
    fun i hr hn c => ⟨hque i c hr, hcur i c hn⟩⟩
  · obtain ⟨c, hc⟩ := h.queued.ready_mem i hi
    exact ⟨c, (h.queued.mem_ready c i hc).2, List.count_eq_one_of_mem (h.queued.nodup c) hc,
      fun d hd hdi => hd (h.queued.inj hdi hc), fun d => hcur i d (by simp [hi])⟩
  · obtain ⟨c, hc⟩ := h.slotted.running_current i hi
    exact ⟨c, hc, fun d hd => h.slotted.inj hd hc⟩

/-- A task that executes a tick adds one `tick` entry. -/
theorem Exec.tickEntries_le {t : Nat} {x y : View} (h : Exec policy t x y) :
    y.2.countP (fun e => e.kind = .tick) ≤ x.2.countP (fun e => e.kind = .tick) + 1 := by
  cases h with
  | rest => exact Nat.le_succ _
  | run x y z u ev outcome => cases outcome <;> simp [Outcome.events]

/-- **Placement.** Between any two steps of a multicore tick every task is where its state says, and only there. So no
two cores execute one task in a tick: its `tick` entries grow by one at most. -/
theorem multicore_placement (scenario : ScenarioOwned) (policy : PolicyKind) (hv : scenario.validate = .ok ()) :
    (∀ p s, Reach scenario policy p s → PlacementInvariant s) ∧
    ∀ s s', Reach scenario policy .dispatched s → executeMulticore scenario policy s = .ok s' →
      ∀ i, tickEntries (s.runtimes i).id s'.traceEntries ≤ tickEntries (s.runtimes i).id s.traceEntries + 1 := by
  have hvalid := validate_ok hv
  refine ⟨fun p s h => (h.placed hvalid).invariant, fun s s' h hs i => ?_⟩
  have hexec := (executeMulticore_ok (h.placed hvalid) hs).2.exec i
  have hid : (s'.runtimes i).id = (s.runtimes i).id := congrArg TaskInfo.id hexec.info_eq
  have hle := hexec.tickEntries_le
  simp only [Engine.view, countP_events, hid] at hle
  exact hle

theorem multicore_placement_waitingPair : (∀ p s, Reach waitingPair .fcfs p s → PlacementInvariant s) ∧
    ∀ s s', Reach waitingPair .fcfs .dispatched s → executeMulticore waitingPair .fcfs s = .ok s' →
      ∀ i, tickEntries (s.runtimes i).id s'.traceEntries ≤ tickEntries (s.runtimes i).id s.traceEntries + 1 :=
  multicore_placement waitingPair .fcfs (by decide)

end Placement

/-! ## Work conservation -/

section Conservation

/-- No core is idle while a task waits in the queue of a core. -/
def Conserving (cores : Fin m → CoreState n) : Prop :=
  ¬∃ c d, ((cores c).current = none ∧ (cores c).readyQueue = []) ∧ (cores d).readyQueue ≠ []

instance (cores : Fin m → CoreState n) : Decidable (Conserving cores) :=
  inferInstanceAs (Decidable
    (¬∃ c d, ((cores c).current = none ∧ (cores c).readyQueue = []) ∧ (cores d).readyQueue ≠ []))

/-- The loop has found an idle core and a donor with one task, and ends although some core has two tasks. -/
def Stranding (scenario : ScenarioOwned) (cores : Fin m → CoreState n) : Prop :=
  ∃ recipient donor c, firstIdleCore cores = some recipient ∧
    chooseDonorCore scenario cores recipient = .ok (some donor) ∧ coreLoad (cores donor) ≤ 1 ∧ 2 ≤ coreLoad (cores c)

variable {s s' : Engine n m}

/-- Dispatching moves no task between cores. -/
theorem dispatchMulticoreAt_load (c d : Fin m) :
    coreLoad ((dispatchMulticoreAt scenario policy s c).cores d) = coreLoad (s.cores d) := by
  unfold dispatchMulticoreAt
  simp only
  split
  · rfl
  next hc =>
    split
    · rfl
    next i queue hsel =>
      have hlen := (selectNextCore_perm hsel).length_eq
      by_cases hd : d = c
      · subst hd
        simp only [dispatchTask, Engine.emit_cores, Engine.setCore_cores, Function.update_self, coreLoad, hc, hlen,
          List.length_cons]
        simp
      · simp [dispatchTask, Function.update_of_ne hd]

theorem dispatchMulticore_load (scenario : ScenarioOwned) (policy : PolicyKind) (d : Fin m) :
    coreLoad ((dispatchMulticore scenario policy s).cores d) = coreLoad (s.cores d) :=
  foldl_inv (f := dispatchMulticoreAt scenario policy)
    (P := fun _ (x : Engine n m) => coreLoad (x.cores d) = coreLoad (s.cores d)) rfl
    (fun _ c _ _ _ h => (dispatchMulticoreAt_load c d).trans h)

/-- After dispatch an idle core and a waiting task are a core without and a core with at least two tasks. -/
theorem dispatchMulticore_conserving (hp : Placed s) : Conserving (dispatchMulticore scenario policy s).cores ↔
    ¬∃ c d, coreLoad (s.cores c) = 0 ∧ 2 ≤ coreLoad (s.cores d) := by
  have hserved := (dispatchMulticore_ok scenario policy hp).2.2.2
  have hwait : ∀ d, ((dispatchMulticore scenario policy s).cores d).readyQueue ≠ [] ↔ 2 ≤ coreLoad (s.cores d) := by
    intro d
    rw [← dispatchMulticore_load scenario policy d]
    rcases hserved d with hcur | hnil
    · have hpos := List.length_pos_iff (l := ((dispatchMulticore scenario policy s).cores d).readyQueue)
      simp only [coreLoad, hcur, if_false]
      rw [← hpos]
      omega
    · simp only [coreLoad, hnil]
      split <;> simp
  unfold Conserving
  simp only [hwait, ← coreLoad_eq_zero, dispatchMulticore_load]

/-- A state in which the loop ends leaves an idle core next to a core with two tasks only when it is stranding. -/
theorem rebalanceStep_none (h : rebalanceStep scenario s = .ok none) :
    (∃ c d, coreLoad (s.cores c) = 0 ∧ 2 ≤ coreLoad (s.cores d)) ↔ Stranding scenario s.cores := by
  constructor
  · rintro ⟨c, d, hc, hd⟩
    unfold rebalanceStep at h
    split at h
    next hfi =>
      have hmem : c ∈ idleCores s.cores := by simp [idleCores, hc]
      rw [firstIdleCore_eq_none.mp hfi] at hmem
      simp at hmem
    next recipient hr =>
      obtain ⟨best, hb, h⟩ := bind_eq_ok.mp h
      cases best with
      | none =>
        -- no other core has a queued task
        have hq : (s.cores d).readyQueue = [] := by
          by_cases hdr : d = recipient
          · rw [hdr]; exact (firstIdleCore_idle hr).2
          · exact chooseDonorCore_none hb hdr
        unfold coreLoad at hd
        rw [hq] at hd
        split at hd <;> simp at hd
      | some donor =>
        obtain ⟨-, hne⟩ := chooseDonorCore_ok hb
        simp only [hne, false_or] at h
        split at h
        next hle => exact ⟨recipient, donor, d, hr, hb, hle, hd⟩
        next => simp at h
  · rintro ⟨recipient, donor, c, hr, -, -, hc⟩
    exact ⟨recipient, c, coreLoad_eq_zero.mpr (firstIdleCore_idle hr), hc⟩

/-- **Work conservation**, up to the early end of rebalancing: after dispatch no core is ever idle while a task waits,
exactly when rebalancing never meets a stranding state. -/
theorem multicore_conserving_iff (scenario : ScenarioOwned) (policy : PolicyKind) (hv : scenario.validate = .ok ()) :
    (∀ s, Reach scenario policy .dispatched s → Conserving s.cores) ↔
      ∀ s, Reach scenario policy .balancing s → ¬Stranding scenario s.cores := by
  have hvalid := validate_ok hv
  constructor
  · rintro h s hs hstr
    obtain ⟨recipient, donor, c, hr, hd, hle, -⟩ := id hstr
    have hnone : rebalanceStep scenario s = .ok none := by
      simp [rebalanceStep, hr, hd, hle]
    have hcons := h _ (.dispatch (.balanced hs hnone))
    rw [dispatchMulticore_conserving (hs.placed hvalid), rebalanceStep_none hnone] at hcons
    exact hcons hstr
  · intro h s hs
    obtain _ | _ | _ | _ | _ | _ | hb := hs
    obtain _ | _ | _ | _ | _ | ⟨hb, hnone⟩ := hb
    rw [dispatchMulticore_conserving (hb.placed hvalid), rebalanceStep_none hnone]
    exact h _ hb

/-- Three cores and five tasks at tick 0. When the first and the third task end together, core 2 is idle, core 0 has
one queued task and no current one, and core 1 still has a current and a queued task. -/
def strandedTask : ScenarioOwned where
  name := [115]
  coreCount := 3
  tasks := [{ id := [97], arrivalTick := 0, burstTicks := 1, inputOrder := 0 },
    { id := [98], arrivalTick := 0, burstTicks := 3, inputOrder := 1 },
    { id := [99], arrivalTick := 0, burstTicks := 1, inputOrder := 2 },
    { id := [100], arrivalTick := 0, burstTicks := 1, inputOrder := 3 },
    { id := [101], arrivalTick := 0, burstTicks := 1, inputOrder := 4 }]

theorem multicore_conserving_iff_strandedTask :
    (∀ s, Reach strandedTask .fcfs .dispatched s → Conserving s.cores) ↔
      ∀ s, Reach strandedTask .fcfs .balancing s → ¬Stranding strandedTask s.cores :=
  multicore_conserving_iff strandedTask .fcfs (by decide)

/-- In tick 1 core 2 stays idle while the fifth task waits on core 1. -/
theorem strandedTask_not_conserving : strandedTask.validate = .ok () ∧
    ¬∀ s, Reach strandedTask .fcfs .dispatched s → Conserving s.cores := by
  refine ⟨by decide, fun h => ?_⟩
  have hcheck : (multicore strandedTask .fcfs).checkMid (initEngine strandedTask strandedTask.coreCount) 1
      (fun mid => !decide (Conserving mid.cores)) = true := by decide +kernel
  obtain ⟨mid, hmid, hn⟩ := Machine.Mid.of_check hcheck
  simp [h mid (.of_mid hmid)] at hn

end Conservation

end Exasphere.Sim

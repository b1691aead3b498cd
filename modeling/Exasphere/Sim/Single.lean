import Exasphere.Sim.Placement

/-!
# The single-core engine

The counterpart of `Sim/Multi.lean` for `simulateSingleCore`: its steps keep `Solo`, go through the stages of a life,
and make its loop `Lawful` (`singleCore_lawful`). The policies with a ready queue queue every ready task; the others
scan the tasks. The core has no current task when the engine selects, so a selected task is always a ready one, and
the engine never keeps a selection for the reason that it is running.
-/

namespace Exasphere.Sim

open Exasphere.Lib

variable {n : Nat} {scenario : ScenarioOwned} {policy : PolicyKind}

/-- Where the tasks are, in every state of the single-core engine. -/
structure Solo (policy : PolicyKind) (s : Engine n 1) : Prop where
  slotted : Slotted s.runtimes s.cores
  queued : policy.useSingleCoreReadyQueue = true → Queued s.runtimes s.cores
  assigned : ∀ i, (s.runtimes i).assignedCore = 0
  dispatched : ∀ i, (s.runtimes i).state = .running → (s.runtimes i).firstDispatchTick ≠ none
  ids : s.Ids

/-! ## Wakeups and arrivals -/

section Enqueue

variable {s s' : Engine n 1} {i : Fin n} {x : RuntimeTask} {new : List TraceEntry}

theorem Solo.of_touch (h : Solo policy s) (ht : Touch s s' i x new) (hs : Slotted s'.runtimes s'.cores)
    (hq : policy.useSingleCoreReadyQueue = true → Queued s'.runtimes s'.cores) (hx : x.assignedCore = 0)
    (hd : x.state = .running → x.firstDispatchTick ≠ none) : Solo policy s' := by
  refine ⟨hs, hq, fun j => ?_, fun j => ?_, ht.ids h.ids⟩
  · rw [ht.runtimes]
    by_cases hj : j = i
    · subst hj; simpa using hx
    · simpa [Function.update_of_ne hj] using h.assigned j
  · rw [ht.runtimes]
    by_cases hj : j = i
    · subst hj; simpa using hd
    · simpa [Function.update_of_ne hj] using h.dispatched j

/-- A task that is neither ready nor running becomes ready. -/
theorem Solo.enqueue (h : Solo policy s) (hs : (s.runtimes i).state ≠ .ready ∧ (s.runtimes i).state ≠ .running)
    (hx : x.state = .ready) (hxc : x.assignedCore = 0) (hid : x.id = (s.runtimes i).id) (entry : TraceEntry)
    (he : entry.taskId = some (s.runtimes i).id) (het : entry.tick = s.tick)
    (hek : entry.kind ≠ .tick ∧ entry.kind ≠ .idle) :
    Solo policy ((pushSingle policy i (s.setTask i x)).emit entry) ∧
      Quiet s ((pushSingle policy i (s.setTask i x)).emit entry) ∧
      Touch s ((pushSingle policy i (s.setTask i x)).emit entry) i x [entry] := by
  have hnew : ∀ e ∈ [entry], e.tick = s.tick ∧ e.kind ≠ .tick ∧ e.kind ≠ .idle := by simpa using ⟨het, hek⟩
  have hslot := h.slotted.setTask (x := x) hs.2 (by simp [hx])
  unfold pushSingle
  split
  next hu =>
    have ht : Touch s (((s.setTask i x).pushReady 0 i).emit entry) i x [entry] :=
      ⟨rfl, rfl, hid, by simpa using he, rfl⟩
    refine ⟨h.of_touch ht (hslot.setCore rfl) (fun _ => ?_) hxc (by simp [hx]), ?_, ht⟩
    · exact (h.queued hu).push hs.1 hx hxc rfl
    · exact ⟨rfl, rfl, rfl, ⟨[entry], rfl, hnew⟩, counters_update _ _ _ (le_refl _) (le_refl _)⟩
  next hu =>
    have ht : Touch s ((s.setTask i x).emit entry) i x [entry] := ⟨rfl, rfl, hid, by simpa using he, rfl⟩
    refine ⟨h.of_touch ht hslot (fun hu' => absurd hu' hu) hxc (by simp [hx]), ?_, ht⟩
    exact ⟨rfl, rfl, rfl, ⟨[entry], rfl, hnew⟩, fun _ => ⟨le_refl _, le_refl _⟩⟩

theorem processBlockedSingleCoreAt_ok (hp : Solo policy s)
    (h : processBlockedSingleCoreAt scenario policy s i = .ok s') :
    Solo policy s' ∧ Quiet s s' ∧ Changes (Unblock s.tick) i s s' := by
  unfold processBlockedSingleCoreAt at h
  simp only at h
  split at h
  next hb =>
    obtain rfl : s = s' := by simpa using h
    exact ⟨hp, Quiet.refl s, .keep _ hb, fun _ _ => rfl⟩
  next hb =>
    rw [not_not] at hb
    split at h
    next hw =>
      obtain ⟨y, hy, h⟩ := bind_eq_ok.mp h
      obtain ⟨hyi, -⟩ := advancePhaseAfterWake_frame hy
      obtain rfl := Except.ok.inj h
      have hid : y.id = (s.runtimes i).id := congrArg TaskInfo.id hyi
      obtain ⟨h₁, h₂, h₃⟩ := hp.enqueue (x := { y with state := .ready, assignedCore := 0, wakeTick := none }) (i := i)
        (by simp [hb]) rfl rfl hid (taskEntry scenario s.tick .wakeup y 0) (by simp [taskEntry, hid]) rfl
        (by simp [taskEntry])
      exact ⟨h₁, h₂, h₃.changes hp.ids (.wake _ _ hb (.wake _ y _ 0 hb hw hy))⟩
    next hw =>
      simp only [bind_eq_ok, addChecked_eq_ok, Except.ok.injEq] at h
      obtain ⟨b, ⟨-, rfl⟩, rfl⟩ := h
      have ht : Touch s (s.setTask i { s.runtimes i with blockedTime := (s.runtimes i).blockedTime + 1 }) i
          { s.runtimes i with blockedTime := (s.runtimes i).blockedTime + 1 } [] :=
        ⟨rfl, by simp, rfl, by simp, rfl⟩
      refine ⟨hp.of_touch ht ?_ (fun hu => ?_) (hp.assigned i) (by simp [hb]), ?_,
        ht.changes hp.ids (.wake _ _ hb ?_)⟩
      · exact hp.slotted.setTask (by simp [hb]) (by simp [hb])
      · exact (hp.queued hu).setTask (by simp [hb]) (by simp [hb])
      · exact ⟨rfl, rfl, rfl, ⟨[], by simp, by simp⟩, fun _ => ⟨le_refl _, le_refl _⟩⟩
      · rw [List.map_nil, List.append_nil]
        exact Wake.sleep (s.runtimes i) (s.view i).2 hb hw

theorem enqueueArrivalsSingleCoreAt_ok (hp : Solo policy s)
    (h : enqueueArrivalsSingleCoreAt scenario policy s i = .ok s') :
    Solo policy s' ∧ Quiet s s' ∧ Changes (Arrive s.tick) i s s' := by
  unfold enqueueArrivalsSingleCoreAt at h
  simp only at h
  split at h
  next ha =>
    obtain rfl := Except.ok.inj h
    obtain ⟨h₁, h₂, h₃⟩ := hp.enqueue (x := { s.runtimes i with assignedCore := 0, state := .ready }) (i := i)
      (by simp [ha.1]) rfl rfl rfl (taskEntry scenario s.tick .arrival (s.runtimes i) 0) rfl rfl
      (by simp [taskEntry])
    exact ⟨h₁, h₂, h₃.changes hp.ids (.arrive _ _ _ ha.1 ha.2)⟩
  next ha =>
    obtain rfl : s = s' := by simpa using h
    exact ⟨hp, Quiet.refl s, .keep _ ha, fun _ _ => rfl⟩

theorem processBlockedSingleCore_ok (hp : Solo policy s) (h : processBlockedSingleCore scenario policy s = .ok s') :
    Solo policy s' ∧ Quiet s s' ∧ ∀ i, Unblock s.tick (s.view i) (s'.view i) :=
  taskLoop_ok (R := Unblock) processBlockedSingleCoreAt_ok hp h

theorem enqueueArrivalsSingleCore_ok (hp : Solo policy s) (h : enqueueArrivalsSingleCore scenario policy s = .ok s') :
    Solo policy s' ∧ Quiet s s' ∧ ∀ i, Arrive s.tick (s.view i) (s'.view i) :=
  taskLoop_ok (R := Arrive) enqueueArrivalsSingleCoreAt_ok hp h

/-- Wakeups and arrivals together are the first stage of a tick. -/
theorem wakeSingleCore_ok {s₁ s₂ : Engine n 1} (hp : Solo policy s)
    (h₁ : processBlockedSingleCore scenario policy s = .ok s₁)
    (h₂ : enqueueArrivalsSingleCore scenario policy s₁ = .ok s₂) :
    Solo policy s₂ ∧ Quiet s s₂ ∧ ∀ i, Wake s.tick (s.view i) (s₂.view i) := by
  obtain ⟨hp₁, hq₁, hv₁⟩ := processBlockedSingleCore_ok hp h₁
  obtain ⟨hp₂, hq₂, hv₂⟩ := enqueueArrivalsSingleCore_ok hp₁ h₂
  refine ⟨hp₂, hq₁.trans hq₂, fun i => .of_arrive (hv₁ i) ?_⟩
  rw [← hq₁.tick]
  exact hv₂ i

end Enqueue

/-! ## Preemption -/

section Preempt

variable {s s' : Engine n 1} {excluded : Option Nat}

/-- An excluded group leaves a ready task to select. -/
def Selectable (policy : PolicyKind) (excluded : Option Nat) (s : Engine n 1) : Prop :=
  ∀ g, excluded = some g → policy = .cfsLike ∧ ∃ j, (s.runtimes j).state = .ready ∧ (s.runtimes j).groupIndex ≠ some g

theorem hasReadyTaskInOtherGroup_iff {rt : Fin n → RuntimeTask} {group : Option Nat} :
    hasReadyTaskInOtherGroup rt group = true ↔ ∃ j, (rt j).state = .ready ∧ (rt j).groupIndex ≠ group := by
  simp [hasReadyTaskInOtherGroup]

theorem shouldPreemptForGroupQuota_iff {i : Fin n} {runTicks : Nat} {rt : Fin n → RuntimeTask} :
    shouldPreemptForGroupQuota policy (some i) runTicks rt = true ↔ policy = .cfsLike ∧
      (rt i).groupQuotaTicks ≠ 0 ∧ (rt i).groupQuotaTicks ≤ runTicks ∧
      ∃ j, (rt j).state = .ready ∧ (rt j).groupIndex ≠ (rt i).groupIndex := by
  unfold shouldPreemptForGroupQuota
  simp only [ne_eq]
  split
  next h => simp [h]
  next h =>
    split
    next h' => simp only [Bool.false_eq_true, false_iff]; rintro ⟨-, h₁, h₂, -⟩; omega
    next h' =>
      rw [hasReadyTaskInOtherGroup_iff]
      simp only [not_not] at h
      refine ⟨fun hj => ⟨h, by omega, by omega, hj⟩, fun ⟨_, _, _, hj⟩ => hj⟩

theorem preemptSingleCore_ok (hp : Solo policy s) (h : preemptSingleCore scenario policy s = (s', excluded)) :
    Solo policy s' ∧ Quiet s s' ∧ (∀ i, Preempt s.tick (s.view i) (s'.view i)) ∧ Selectable policy excluded s' := by
  have hkeep : (s, none) = (s', excluded) → Solo policy s' ∧ Quiet s s' ∧
      (∀ i, Preempt s.tick (s.view i) (s'.view i)) ∧ Selectable policy excluded s' := by
    intro h
    obtain ⟨rfl, rfl⟩ := Prod.mk.inj h
    exact ⟨hp, Quiet.refl s, fun i => .keep _, fun g hg => by simp at hg⟩
  unfold preemptSingleCore at h
  simp only at h
  split at h
  next => exact hkeep h
  next i hc =>
    split at h
    next =>
      obtain ⟨rfl, rfl⟩ := Prod.mk.inj h
      obtain ⟨hr, hcore⟩ := hp.slotted.current_running 0 i hc
      have ht : Touch s (((s.setTask i { s.runtimes i with state := .ready }).setCore 0
          { readyQueue := if policy.useSingleCoreReadyQueue = true then (s.cores 0).readyQueue ++ [i]
              else (s.cores 0).readyQueue }).emit (taskEntry scenario s.tick .preempt (s.runtimes i) 0)) i
          { s.runtimes i with state := .ready } [taskEntry scenario s.tick .preempt (s.runtimes i) 0] :=
        ⟨rfl, rfl, rfl, by simp [taskEntry], rfl⟩
      refine ⟨hp.of_touch ht ?_ (fun hu => ?_) (hp.assigned i) (by simp), ?_,
        (ht.changes (R := Preempt s.tick) hp.ids ?_).all .keep, fun g hg => ?_⟩
      · exact hp.slotted.release hc (by simp) rfl
      · exact (hp.queued hu).push (by simp [hr]) rfl hcore (by simp [hu])
      · exact ⟨rfl, rfl, rfl, ⟨_, rfl, by simp [taskEntry]⟩, counters_update _ _ _ (Nat.zero_le _) (Nat.zero_le _)⟩
      · have hev : [taskEntry scenario s.tick .preempt (s.runtimes i) 0].map TraceEntry.event =
            [⟨.preempt, s.tick, some (s.runtimes i).assignedCore⟩] := by rw [hcore]; rfl
        rw [hev]
        exact .preempt _ _ hr
      · split at hg
        next hquota =>
          obtain ⟨hpol, hquota⟩ := hquota
          rw [hc] at hquota
          obtain ⟨-, -, -, hj⟩ := shouldPreemptForGroupQuota_iff.mp hquota
          rw [hg] at hj
          exact ⟨hpol, hj⟩
        next => simp at hg
    next => exact hkeep h

end Preempt

/-! ## Dispatch -/

section Dispatch

variable {s : Engine n 1} {excluded : Option Nat} {i : Fin n} {queue : List (Fin n)}

/-- The selection of `dispatchSingleCore`. -/
def selectSingle (policy : PolicyKind) (excluded : Option Nat) (s : Engine n 1) : Option (Fin n × List (Fin n)) :=
  match excluded with
  | some group => policy.selectNextSingleExcludingGroup (s.cores 0).readyQueue s.runtimes group
  | none => policy.selectNextSingle (s.cores 0).readyQueue s.runtimes

/-- The running task is the current one. -/
theorem Solo.running_iff (hp : Solo policy s) (i : Fin n) :
    (s.runtimes i).state = .running ↔ (s.cores 0).current = some i := by
  constructor
  · intro hr
    obtain ⟨c, hc⟩ := hp.slotted.running_current i hr
    rwa [Subsingleton.elim c 0] at hc
  · exact fun hc => (hp.slotted.current_running 0 i hc).1

theorem Solo.not_running (hp : Solo policy s) (hc : (s.cores 0).current = none) (i : Fin n) :
    (s.runtimes i).state ≠ .running := by
  rw [ne_eq, hp.running_iff, hc]
  exact (Option.some_ne_none i).symm

theorem Solo.not_running_of_ne {j : Fin n} (hp : Solo policy s) (hc : (s.cores 0).current = some i) (hj : j ≠ i) :
    (s.runtimes j).state ≠ .running := by
  rw [ne_eq, hp.running_iff, hc]
  exact fun h => hj (Option.some.inj h).symm

theorem chooseFrom_runnable {better : RuntimeTask → RuntimeTask → Bool} {eligible : RuntimeTask → Bool}
    {rt : Fin n → RuntimeTask} (h : chooseFrom better eligible rt = some i) : eligible (rt i) = true :=
  (List.mem_filter.mp (firstBest_mem h)).2

theorem chooseFrom_eq_none {better : RuntimeTask → RuntimeTask → Bool} {eligible : RuntimeTask → Bool}
    {rt : Fin n → RuntimeTask} : chooseFrom better eligible rt = none ↔ ∀ j, eligible (rt j) = false := by
  simp [chooseFrom, List.filter_eq_nil_iff]

theorem runnable_ready {x : RuntimeTask} (h : runnable x = true) (hr : x.state ≠ .running) : x.state = .ready := by
  simpa [runnable, hr] using h

/-- A selection is a ready task, taken out of the queue when the policy uses it. -/
theorem selectSingle_some (hp : Solo policy s) (hc : (s.cores 0).current = none)
    (h : selectSingle policy excluded s = some (i, queue)) : (s.runtimes i).state = .ready ∧
      (policy.useSingleCoreReadyQueue = true → (s.cores 0).readyQueue.Perm (i :: queue)) ∧
      (policy.useSingleCoreReadyQueue = false → queue = (s.cores 0).readyQueue) := by
  have hrun := hp.not_running hc
  -- the head of a queue
  have hhead : policy.useSingleCoreReadyQueue = true → selectNext (s.cores 0).readyQueue = some (i, queue) →
      (s.runtimes i).state = .ready ∧ (s.cores 0).readyQueue.Perm (i :: queue) := by
    intro hu hsel
    cases hq : (s.cores 0).readyQueue with
    | nil => simp [hq, selectNext] at hsel
    | cons j q =>
      obtain ⟨rfl, rfl⟩ : j = i ∧ q = queue := by simpa [hq, selectNext] using hsel
      exact ⟨((hp.queued hu).mem_ready 0 j (by simp [hq])).1, List.Perm.refl _⟩
  -- a scan of the tasks
  have hscan : ∀ better (eligible : RuntimeTask → Bool), (∀ x, eligible x = true → runnable x = true) →
      (chooseFrom better eligible s.runtimes).map (·, (s.cores 0).readyQueue) = some (i, queue) →
      (s.runtimes i).state = .ready ∧ queue = (s.cores 0).readyQueue := by
    intro better eligible hel hsel
    obtain ⟨j, hj, hq⟩ := Option.map_eq_some_iff.mp hsel
    obtain ⟨rfl, rfl⟩ := Prod.mk.inj hq
    exact ⟨runnable_ready (hel _ (chooseFrom_runnable hj)) (hrun j), rfl⟩
  cases policy with
  | fcfs =>
    cases excluded <;> exact ⟨(hhead rfl h).1, fun _ => (hhead rfl h).2, by simp [PolicyKind.useSingleCoreReadyQueue]⟩
  | roundRobin =>
    cases excluded <;> exact ⟨(hhead rfl h).1, fun _ => (hhead rfl h).2, by simp [PolicyKind.useSingleCoreReadyQueue]⟩
  | cfsLike =>
    cases excluded with
    | none =>
      obtain ⟨h₁, h₂⟩ := hscan _ _ (fun x hx => hx) h
      exact ⟨h₁, by simp [PolicyKind.useSingleCoreReadyQueue], fun _ => h₂⟩
    | some g =>
      obtain ⟨h₁, h₂⟩ := hscan _ _ (fun x hx => (Bool.and_eq_true_iff.mp hx).1) h
      exact ⟨h₁, by simp [PolicyKind.useSingleCoreReadyQueue], fun _ => h₂⟩
  | deadline =>
    cases excluded with
    | none =>
      obtain ⟨h₁, h₂⟩ := hscan _ _ (fun x hx => hx) h
      exact ⟨h₁, by simp [PolicyKind.useSingleCoreReadyQueue], fun _ => h₂⟩
    | some g =>
      obtain ⟨h₁, h₂⟩ := hscan _ _ (fun x hx => (Bool.and_eq_true_iff.mp hx).1) h
      exact ⟨h₁, by simp [PolicyKind.useSingleCoreReadyQueue], fun _ => h₂⟩

/-- Nothing is selected only when nothing is ready. -/
theorem selectSingle_none (hp : Solo policy s) (he : Selectable policy excluded s)
    (h : selectSingle policy excluded s = none) (j : Fin n) : (s.runtimes j).state ≠ .ready := by
  intro hj
  have hhead : policy.useSingleCoreReadyQueue = true → selectNext (s.cores 0).readyQueue ≠ none := by
    intro hu hsel
    obtain ⟨c, hc⟩ := (hp.queued hu).ready_mem j hj
    rw [Subsingleton.elim c 0] at hc
    cases hq : (s.cores 0).readyQueue with
    | nil => simp [hq] at hc
    | cons k q => simp [hq, selectNext] at hsel
  have hscan : ∀ better (eligible : RuntimeTask → Bool) (k : Fin n), eligible (s.runtimes k) = true →
      (chooseFrom better eligible s.runtimes).map (·, (s.cores 0).readyQueue) ≠ none := by
    intro better eligible k hk hsel
    rw [Option.map_eq_none_iff, chooseFrom_eq_none] at hsel
    simp [hsel k] at hk
  have hjr : runnable (s.runtimes j) = true := by simp [runnable, hj]
  cases hex : excluded with
  | none =>
    rw [hex] at h
    cases policy with
    | fcfs => exact hhead rfl h
    | roundRobin => exact hhead rfl h
    | cfsLike => exact hscan _ _ j hjr h
    | deadline => exact hscan _ _ j hjr h
  | some g =>
    obtain ⟨rfl, k, hk, hg⟩ := he g hex
    rw [hex] at h
    exact hscan _ _ k (by simp [runnable, hk, hg]) h

theorem dispatchSingleCore_none (scenario : ScenarioOwned) (hc : (s.cores 0).current = none)
    (h : selectSingle policy excluded s = none) : dispatchSingleCore scenario policy excluded s = s := by
  unfold dispatchSingleCore
  cases excluded with
  | none =>
    simp only [selectSingle] at h
    simp only [hc, h]
  | some group =>
    simp only [selectSingle] at h
    simp only [hc, h]

theorem dispatchSingleCore_some (scenario : ScenarioOwned) {i : Fin n} {queue : List (Fin n)}
    (hc : (s.cores 0).current = none) (h : selectSingle policy excluded s = some (i, queue)) :
    dispatchSingleCore scenario policy excluded s = if policy.keepsRunningSelection (s.runtimes i) then
      s.setCore 0 { s.cores 0 with readyQueue := queue, current := some i } else dispatchTask scenario 0 i queue s := by
  unfold dispatchSingleCore
  cases excluded with
  | none =>
    simp only [selectSingle] at h
    simp only [hc, h]
  | some group =>
    simp only [selectSingle] at h
    simp only [hc, h]

/-- What `dispatchSingleCore` can do; it never meets a selected task that is running. -/
theorem dispatchSingleCore_cases (scenario : ScenarioOwned) (excluded : Option Nat) (hp : Solo policy s) :
    ((s.cores 0).current ≠ none ∧ dispatchSingleCore scenario policy excluded s = s) ∨
    ((s.cores 0).current = none ∧ selectSingle policy excluded s = none ∧
      dispatchSingleCore scenario policy excluded s = s) ∨
    ∃ i queue, (s.cores 0).current = none ∧ selectSingle policy excluded s = some (i, queue) ∧
      dispatchSingleCore scenario policy excluded s = dispatchTask scenario 0 i queue s := by
  cases hc : (s.cores 0).current with
  | some i => exact Or.inl ⟨by simp, by simp [dispatchSingleCore, hc]⟩
  | none =>
    cases hsel : selectSingle policy excluded s with
    | none => exact Or.inr (Or.inl ⟨rfl, rfl, dispatchSingleCore_none scenario hc hsel⟩)
    | some r =>
      obtain ⟨i, queue⟩ := r
      have hr := (selectSingle_some hp hc hsel).1
      have hk : policy.keepsRunningSelection (s.runtimes i) = false := by
        cases policy <;> simp [PolicyKind.keepsRunningSelection, hr]
      refine Or.inr (Or.inr ⟨i, queue, rfl, rfl, ?_⟩)
      rw [dispatchSingleCore_some scenario hc hsel, hk]
      rfl

theorem dispatchSingleCore_ok (scenario : ScenarioOwned) (hp : Solo policy s) (he : Selectable policy excluded s) :
    Solo policy (dispatchSingleCore scenario policy excluded s) ∧
    Quiet s (dispatchSingleCore scenario policy excluded s) ∧
    (∀ i, Assign s.tick (s.view i) ((dispatchSingleCore scenario policy excluded s).view i)) ∧
    ((((dispatchSingleCore scenario policy excluded s).cores 0).current = none) →
      ∀ i, ((dispatchSingleCore scenario policy excluded s).runtimes i).state ≠ .ready) := by
  rcases dispatchSingleCore_cases scenario excluded hp with
    ⟨hc, heq⟩ | ⟨hc, hsel, heq⟩ | ⟨i, queue, hc, hsel, heq⟩
  · rw [heq]
    exact ⟨hp, Quiet.refl s, fun i => .keep _, fun h => absurd h hc⟩
  · rw [heq]
    exact ⟨hp, Quiet.refl s, fun i => .keep _, fun _ => selectSingle_none hp he hsel⟩
  · rw [heq]
    obtain ⟨hr, hperm, -⟩ := selectSingle_some hp hc hsel
    have ht := dispatchTask_touch scenario 0 i queue s
    refine ⟨hp.of_touch ht ?_ (fun hu => ?_) rfl (fun _ => ?_), dispatchTask_quiet scenario 0 i queue s,
      (ht.changes (R := Assign s.tick) hp.ids (.dispatch _ _ _ hr)).all .keep, fun h => ?_⟩
    · exact hp.slotted.take (Or.inl ⟨hc, by simp [hr]⟩) rfl rfl rfl
    · exact (hp.queued hu).pop (hperm hu) (by simp) rfl
    · simp only [dispatched]
      split <;> simp_all
    · simp [dispatchTask] at h

end Dispatch

/-! ## Execution -/

section Execute

variable {mid s : Engine n 1} {i : Fin n}

/-- A current task has been dispatched, so its execution does not set `firstDispatchTick` again. -/
theorem Solo.setTask_firstDispatch (hp : Solo policy mid) (hc : (mid.cores 0).current = some i) :
    mid.setTask i { mid.runtimes i with firstDispatchTick :=
      if (mid.runtimes i).firstDispatchTick = none then some mid.tick else (mid.runtimes i).firstDispatchTick } =
        mid := by
  have hd := hp.dispatched i (hp.slotted.current_running 0 i hc).1
  simp [Engine.setTask, hd]

/-- The state after the execution of the current task `i`. -/
def withCompletion (scenario : ScenarioOwned) (i : Fin n) (outcome : Outcome) (s : Engine n 1) : Engine n 1 :=
  if outcome = .complete then
    { s with completionOrder := s.completionOrder ++ [i] }.emit
      (taskEntry scenario (s.tick + 1) .complete (s.runtimes i) 0)
  else s

theorem executeSingleCore_some (hp : Solo policy mid) (hc : (mid.cores 0).current = some i)
    (h : executeSingleCore scenario policy mid = .ok s) :
    ∃ outcome u e, Executed scenario policy 0 i outcome u mid e ∧ s = withCompletion scenario i outcome e := by
  unfold executeSingleCore at h
  rw [hc] at h
  simp only [hp.setTask_firstDispatch hc] at h
  obtain ⟨⟨outcome, e⟩, he, h⟩ := bind_eq_ok.mp h
  obtain ⟨u, hu⟩ := executeCurrent_ok he
  refine ⟨outcome, u, e, hu, ?_⟩
  unfold withCompletion
  simp only at h
  split at h
  next ho => rw [if_pos ho]; exact (Except.ok.inj h).symm
  next ho => rw [if_neg ho]; exact (Except.ok.inj h).symm

theorem withCompletion_view (scenario : ScenarioOwned) (hids : s.Ids) (hcore : (s.runtimes i).assignedCore = 0)
    (outcome : Outcome) (j : Fin n) : (withCompletion scenario i outcome s).view j = ((s.view j).1, (s.view j).2 ++
      if j = i ∧ outcome = .complete then [⟨.complete, s.tick + 1, some (s.runtimes j).assignedCore⟩] else []) := by
  unfold withCompletion
  by_cases ho : outcome = .complete
  · by_cases hj : j = i
    · subst hj; simp [ho, Engine.view, hcore]
    · have hne : (s.runtimes i).id ≠ (s.runtimes j).id := fun h => hj (hids i j h).symm
      simp [ho, Engine.view, hj, hne]
  · simp [ho, Engine.view]

theorem withCompletion_cells (scenario : ScenarioOwned) (outcome : Outcome) (c : CoreId) (τ : Nat) :
    cells c τ (withCompletion scenario i outcome s).traceEntries = cells c τ s.traceEntries := by
  unfold withCompletion
  split
  · simp [cells, taskEntry]
  · rfl

@[simp] theorem withCompletion_runtimes (outcome : Outcome) :
    (withCompletion scenario i outcome s).runtimes = s.runtimes := by
  unfold withCompletion
  split <;> rfl

@[simp] theorem withCompletion_cores (outcome : Outcome) : (withCompletion scenario i outcome s).cores = s.cores := by
  unfold withCompletion
  split <;> rfl

@[simp] theorem withCompletion_tick (outcome : Outcome) : (withCompletion scenario i outcome s).tick = s.tick := by
  unfold withCompletion
  split <;> rfl

@[simp] theorem withCompletion_completed (outcome : Outcome) :
    (withCompletion scenario i outcome s).completed = s.completed := by
  unfold withCompletion
  split <;> rfl

theorem Solo.withCompletion (h : Solo policy s) (outcome : Outcome) :
    Solo policy (Sim.withCompletion scenario i outcome s) := by
  refine ⟨?_, ?_, ?_, ?_, ?_⟩
  · rw [withCompletion_runtimes, withCompletion_cores]; exact h.slotted
  · rw [withCompletion_runtimes, withCompletion_cores]; exact h.queued
  · rw [withCompletion_runtimes]; exact h.assigned
  · rw [withCompletion_runtimes]; exact h.dispatched
  · unfold Engine.Ids; rw [withCompletion_runtimes]; exact h.ids

section Run

variable {outcome : Outcome} {u : RuntimeTask} {e : Engine n 1}

theorem Solo.executed (hp : Solo policy mid) (hc : (mid.cores 0).current = some i)
    (hex : Executed scenario policy 0 i outcome u mid e) : Solo policy e := by
  obtain ⟨hr, hcore⟩ := hp.slotted.current_running 0 i hc
  obtain ⟨-, hu, -, hf⟩ := hex.frame hr
  exact hp.of_touch (hex.touch hr) (hex.slotted hp.slotted hc) (fun hq => hex.queued (hp.queued hq) hr)
    (by rw [hu]; exact hcore) (fun _ => by rw [hf]; exact hp.dispatched i hr)

/-- The executed task, with the entry of its completion. -/
theorem exec_of_executed (hp : Solo policy mid) (hc : (mid.cores 0).current = some i)
    (hex : Executed scenario policy 0 i outcome u mid e) :
    Exec policy mid.tick (mid.view i) ((withCompletion scenario i outcome e).view i) := by
  obtain ⟨hr, hcore⟩ := hp.slotted.current_running 0 i hc
  have he := hp.executed hc hex
  have ht := hex.touch hr
  obtain ⟨y, z, hy, hz, hset⟩ := hex.charged
  have hx := @Exec.run policy mid.tick (mid.runtimes i) y z u (mid.view i).2 outcome hr hy hz hset
  have hev : (e.view i).2 ++ (if i = i ∧ outcome = .complete then
        [⟨.complete, e.tick + 1, some (e.runtimes i).assignedCore⟩] else []) =
      (mid.view i).2 ++ ⟨.tick, mid.tick, some (mid.runtimes i).assignedCore⟩ ::
        outcome.events mid.tick (mid.runtimes i).assignedCore := by
    rw [ht.view_self, he.assigned, hcore, hex.tick]
    cases outcome <;> simp [execEntries, taskEntry, TraceEntry.event, Outcome.events]
  rw [withCompletion_view scenario he.ids (he.assigned i), hev, ht.view_self]
  exact hx

/-- The others rest. -/
theorem rest_of_executed {j : Fin n} (hp : Solo policy mid) (hc : (mid.cores 0).current = some i)
    (hex : Executed scenario policy 0 i outcome u mid e) (hj : j ≠ i) :
    Exec policy mid.tick (mid.view j) ((withCompletion scenario i outcome e).view j) := by
  have he := hp.executed hc hex
  have ht := hex.touch (hp.slotted.current_running 0 i hc).1
  rw [withCompletion_view scenario he.ids (he.assigned i), ht.view_ne hp.ids hj]
  simp only [hj, false_and, if_false, List.append_nil]
  exact .rest _ _ (hp.not_running_of_ne hc hj)

theorem execSpec_of_executed (hp : Solo policy mid) (hc : (mid.cores 0).current = some i)
    (hex : Executed scenario policy 0 i outcome u mid e) :
    ExecSpec policy mid (withCompletion scenario i outcome e) := by
  obtain ⟨hr, -⟩ := hp.slotted.current_running 0 i hc
  obtain ⟨-, -, hst, -⟩ := hex.frame hr
  refine ⟨(withCompletion_tick outcome).trans hex.tick, fun j => ?_,
    ⟨if outcome = .complete then [i] else [], ?_, ?_, ?_, fun j => ?_⟩, fun c τ => ?_, fun c => ?_⟩
  · by_cases hj : j = i
    · subst hj
      exact exec_of_executed hp hc hex
    · exact rest_of_executed hp hc hex hj
  · unfold withCompletion
    split
    · rw [← hex.order]; rfl
    · rw [hex.order]; simp
  · split <;> simp
  · rw [withCompletion_completed, hex.completed]
    split <;> simp
  · rw [withCompletion_runtimes]
    by_cases hj : j = i
    · subst hj
      have : e.runtimes j = u := by simp [hex.runtimes]
      rw [this, hst]
      simp only [hr, true_and]
      cases outcome <;> simp [Outcome.state]
    · simp only [hp.not_running_of_ne hc hj, false_and, iff_false]
      split <;> simp [hj]
  · rw [withCompletion_cells, hex.cells_eq, Subsingleton.elim c 0]
    simp
  · rw [withCompletion_cores, hex.cores, Subsingleton.elim c 0, Function.update_self]
    cases outcome <;> simp [CoreState.after]

end Run

/-- **One execution.** -/
theorem executeSingleCore_ok (hp : Solo policy mid) (h : executeSingleCore scenario policy mid = .ok s) :
    Solo policy s ∧ ExecSpec policy mid s := by
  cases hc : (mid.cores 0).current with
  | none =>
    have hrun := hp.not_running hc
    obtain rfl : mid.emit (idleEntry mid.tick 0) = s := by simpa [executeSingleCore, hc] using h
    refine ⟨⟨hp.slotted, hp.queued, hp.assigned, hp.dispatched, hp.ids⟩, rfl, fun i => ?_,
      ⟨[], by simp, by simp, rfl, fun i => by simp [hrun i]⟩, fun c τ => ?_,
      fun c => ⟨Nat.le_succ _, Nat.le_succ _⟩⟩
    · have hv : (mid.emit (idleEntry mid.tick 0)).view i = mid.view i := by simp [Engine.view]
      rw [hv]
      exact .rest _ _ (hrun i)
    · have := cells_idle c mid.tick mid.traceEntries c τ
      rw [Subsingleton.elim c 0] at this ⊢
      simpa using this
  | some i =>
    obtain ⟨outcome, u, e, hex, rfl⟩ := executeSingleCore_some hp hc h
    exact ⟨(hp.executed hc hex).withCompletion outcome, execSpec_of_executed hp hc hex⟩

end Execute

/-! ## The loop -/

section Loop

variable {s mid : Engine n 1}

/-- The scheduling half of an iteration, taken apart. -/
theorem scheduleSingleCore_parts (h : scheduleSingleCore scenario policy s = .ok mid) :
    ∃ s₁ s₂ s₃ excluded, processBlockedSingleCore scenario policy s = .ok s₁ ∧
      enqueueArrivalsSingleCore scenario policy s₁ = .ok s₂ ∧ preemptSingleCore scenario policy s₂ = (s₃, excluded) ∧
      mid = dispatchSingleCore scenario policy excluded s₃ := by
  obtain ⟨s₁, h₁, h⟩ := bind_eq_ok.mp h
  obtain ⟨s₂, h₂, h⟩ := bind_eq_ok.mp h
  exact ⟨s₁, s₂, _, _, h₁, h₂, rfl, (Except.ok.inj h).symm⟩

theorem scheduleSingleCore_ok (hp : Solo policy s) (h : scheduleSingleCore scenario policy s = .ok mid) :
    Solo policy mid ∧ Quiet s mid ∧
    (∀ i, ∃ v₁ v₂, Wake s.tick (s.view i) v₁ ∧ Preempt s.tick v₁ v₂ ∧ Assign s.tick v₂ (mid.view i)) ∧
    ((mid.cores 0).current = none → ∀ i, (mid.runtimes i).state ≠ .ready) := by
  obtain ⟨s₁, s₂, s₃, excluded, h₁, h₂, h₃, rfl⟩ := scheduleSingleCore_parts h
  obtain ⟨hp₂, hq₂, hv₂⟩ := wakeSingleCore_ok hp h₁ h₂
  obtain ⟨hp₃, hq₃, hv₃, hsel⟩ := preemptSingleCore_ok hp₂ h₃
  obtain ⟨hp₄, hq₄, hv₄, hbusy⟩ := dispatchSingleCore_ok scenario hp₃ hsel
  have ht₃ := hq₂.trans hq₃
  refine ⟨hp₄, ht₃.trans hq₄, fun i => ⟨s₂.view i, s₃.view i, hv₂ i, ?_, ?_⟩, hbusy⟩
  · rw [← hq₂.tick]; exact hv₃ i
  · rw [← ht₃.tick]; exact hv₄ i

/-- **The single-core loop is lawful.** -/
theorem singleCore_lawful : Lawful (singleCore (n := n) scenario policy) policy
    (fun s => Solo policy s ∧ s.Counted) := by
  refine ⟨fun {s mid e} ⟨hp, _⟩ hmid he => ?_, fun ⟨hp, hc⟩ hmid he => ?_⟩
  · obtain ⟨hp', hq, hv, hbusy⟩ := scheduleSingleCore_ok hp hmid
    refine .of_exec hq hv (fun i hi => ?_) (executeSingleCore_ok hp' he).2
    cases hcur : (mid.cores 0).current with
    | none => exact absurd hi (hbusy hcur i)
    | some j => exact ⟨j, (hp'.slotted.current_running 0 j hcur).1⟩
  · obtain ⟨hp', hq, -, -⟩ := scheduleSingleCore_ok hp hmid
    obtain ⟨hp'', hx⟩ := executeSingleCore_ok hp' he
    exact ⟨⟨hp''.slotted, hp''.queued, hp''.assigned, hp''.dispatched, hp''.ids⟩, hx.counted hq hc⟩

end Loop

end Exasphere.Sim

import Exasphere.Sim.Placement

/-!
# The multicore engine

Every step of a tick of `simulateMulticore` keeps the placement invariant (`Placed`), touches the tasks as one of the
stages of a life (`Sim/Life.lean`), and adds no entry of its own kind more than once. Together the steps make the
multicore loop `Lawful` (`multicore_lawful`).
-/

namespace Exasphere.Sim

open Exasphere.Lib

variable {n m : Nat} {scenario : ScenarioOwned} {policy : PolicyKind}

/-- Where the tasks are, in every state of the multicore engine. -/
structure Placed (s : Engine n m) : Prop where
  slotted : Slotted s.runtimes s.cores
  queued : Queued s.runtimes s.cores
  assigned : ∀ i, (s.runtimes i).assignedCore < m
  ids : s.Ids

/-! ## Selection from a queue -/

section Selection

variable {rt : Fin n → RuntimeTask} {queue rest : List (Fin n)} {i : Fin n}

theorem chooseBestReadyTask_perm {better : RuntimeTask → RuntimeTask → Bool} {choice : ReadyChoice n}
    (h : chooseBestReadyTask better rt queue = some choice) (hr : removeChoice queue choice = (i, rest)) :
    queue.Perm (i :: rest) := by
  simp only [chooseBestReadyTask, Option.map_eq_some_iff, Prod.exists] at h
  obtain ⟨j, k, hbest, rfl⟩ := h
  have hget : queue[k]? = some j := by
    have := firstBest_mem hbest
    simpa [List.mem_zipIdx_iff_getElem?] using this
  obtain ⟨hlt, hj⟩ := List.getElem?_eq_some_iff.mp hget
  simp only [removeChoice, Prod.mk.injEq] at hr
  obtain ⟨rfl, rfl⟩ := hr
  rw [← hj]
  exact (List.getElem_cons_eraseIdx_perm hlt).symm

/-- The selected task is taken out of the queue. -/
theorem selectNextCore_perm (h : policy.selectNextCore queue rt = some (i, rest)) : queue.Perm (i :: rest) := by
  have hhead : selectNext queue = some (i, rest) → queue.Perm (i :: rest) := by
    cases queue with
    | nil => simp [selectNext]
    | cons j q =>
      intro h
      obtain ⟨rfl, rfl⟩ : j = i ∧ q = rest := by simpa [selectNext] using h
      exact List.Perm.refl _
  cases policy with
  | fcfs => exact hhead h
  | roundRobin => exact hhead h
  | cfsLike =>
    obtain ⟨choice, hc, hr⟩ := Option.map_eq_some_iff.mp h
    exact chooseBestReadyTask_perm hc hr
  | deadline =>
    obtain ⟨choice, hc, hr⟩ := Option.map_eq_some_iff.mp h
    exact chooseBestReadyTask_perm hc hr

/-- Nothing is selected from an empty queue only. -/
theorem selectNextCore_eq_none : policy.selectNextCore queue rt = none ↔ queue = [] := by
  have hhead : selectNext queue = none ↔ queue = [] := by cases queue <;> simp [selectNext]
  cases policy <;>
    simp [PolicyKind.selectNextCore, chooseBestReadyTaskByVruntime, chooseBestReadyTaskByDeadline,
      chooseBestReadyTask, hhead]

end Selection

/-! ## Wakeups and arrivals -/

section Enqueue

variable {s s' : Engine n m} {i : Fin n} {c : Fin m} {x : RuntimeTask} {new : List TraceEntry}

theorem Placed.of_touch (h : Placed s) (ht : Touch s s' i x new) (hs : Slotted s'.runtimes s'.cores)
    (hq : Queued s'.runtimes s'.cores) (hx : x.assignedCore < m) : Placed s' := by
  refine ⟨hs, hq, fun j => ?_, ht.ids h.ids⟩
  rw [ht.runtimes]
  by_cases hj : j = i
  · subst hj; simpa using hx
  · simpa [Function.update_of_ne hj] using h.assigned j

/-- A task that is neither ready nor running becomes ready in the queue of its core. -/
theorem Placed.enqueue (h : Placed s) (hs : (s.runtimes i).state ≠ .ready ∧ (s.runtimes i).state ≠ .running)
    (hx : x.state = .ready) (hxc : x.assignedCore = c) (hid : x.id = (s.runtimes i).id) (entry : TraceEntry)
    (he : entry.taskId = some (s.runtimes i).id) (het : entry.tick = s.tick)
    (hek : entry.kind ≠ .tick ∧ entry.kind ≠ .idle) :
    Placed (((s.setTask i x).pushReady c i).emit entry) ∧ Quiet s (((s.setTask i x).pushReady c i).emit entry) ∧
      Touch s (((s.setTask i x).pushReady c i).emit entry) i x [entry] := by
  have ht : Touch s (((s.setTask i x).pushReady c i).emit entry) i x [entry] :=
    ⟨rfl, rfl, hid, by simpa using he, rfl⟩
  refine ⟨h.of_touch ht ?_ ?_ (by simp [hxc]), ?_, ht⟩
  · exact (h.slotted.setTask hs.2 (by simp [hx])).setCore rfl
  · exact h.queued.push hs.1 hx hxc rfl
  · exact ⟨rfl, rfl, rfl, ⟨[entry], rfl, by simpa using ⟨het, hek⟩⟩, counters_update _ _ _ (le_refl _) (le_refl _)⟩

theorem processBlockedMulticoreAt_ok (hp : Placed s) (h : processBlockedMulticoreAt scenario s i = .ok s') :
    Placed s' ∧ Quiet s s' ∧ Changes (Unblock s.tick) i s s' := by
  unfold processBlockedMulticoreAt at h
  simp only at h
  split at h
  next hb =>
    obtain rfl : s = s' := by simpa using h
    exact ⟨hp, Quiet.refl s, .keep _ hb, fun _ _ => rfl⟩
  next hb =>
    rw [not_not] at hb
    split at h
    next hw =>
      obtain ⟨y, hy, h⟩ := bind_eq_ok.mp h
      obtain ⟨hyi, hyc⟩ := advancePhaseAfterWake_frame hy
      obtain ⟨c, hc, h⟩ := bind_eq_ok.mp h
      have hc : (s.runtimes i).assignedCore = c := by
        rw [hyc, if_pos (hp.assigned i)] at hc
        simp only [coreIndex, hp.assigned i, dif_pos, Except.ok.injEq] at hc
        rw [← hc]
      obtain rfl := Except.ok.inj h
      have hid : y.id = (s.runtimes i).id := congrArg TaskInfo.id hyi
      obtain ⟨h₁, h₂, h₃⟩ := hp.enqueue (x := { y with state := .ready, wakeTick := none }) (c := c) (i := i)
        (by simp [hb]) rfl (hyc.trans hc) hid (taskEntry scenario s.tick .wakeup y c)
        (by simp [taskEntry, hid]) rfl (by simp [taskEntry])
      refine ⟨h₁, h₂, h₃.changes hp.ids (.wake _ _ hb ?_)⟩
      have hwake := Wake.wake (s.runtimes i) y (s.view i).2 c hb hw hy
      have hyx : ({ y with state := .ready, assignedCore := c, wakeTick := none } : RuntimeTask) =
          { y with state := .ready, wakeTick := none } := by rw [← hc, ← hyc]
      rw [hyx] at hwake
      exact hwake
    next hw =>
      simp only [bind_eq_ok, addChecked_eq_ok, Except.ok.injEq] at h
      obtain ⟨b, ⟨-, rfl⟩, rfl⟩ := h
      have ht : Touch s (s.setTask i { s.runtimes i with blockedTime := (s.runtimes i).blockedTime + 1 }) i
          { s.runtimes i with blockedTime := (s.runtimes i).blockedTime + 1 } [] :=
        ⟨rfl, by simp, rfl, by simp, rfl⟩
      refine ⟨hp.of_touch ht ?_ ?_ (hp.assigned i), ?_, ht.changes hp.ids (.wake _ _ hb ?_)⟩
      · exact hp.slotted.setTask (by simp [hb]) (by simp [hb])
      · exact hp.queued.setTask (by simp [hb]) (by simp [hb])
      · exact ⟨rfl, rfl, rfl, ⟨[], by simp, by simp⟩, fun _ => ⟨le_refl _, le_refl _⟩⟩
      · rw [List.map_nil, List.append_nil]
        exact Wake.sleep (s.runtimes i) (s.view i).2 hb hw

theorem enqueueArrivalsMulticoreAt_ok (hp : Placed s) (h : enqueueArrivalsMulticoreAt scenario s i = .ok s') :
    Placed s' ∧ Quiet s s' ∧ Changes (Arrive s.tick) i s s' := by
  unfold enqueueArrivalsMulticoreAt at h
  simp only at h
  split at h
  next ha =>
    obtain ⟨c, -, h⟩ := bind_eq_ok.mp h
    obtain rfl := Except.ok.inj h
    obtain ⟨h₁, h₂, h₃⟩ := hp.enqueue (x := { s.runtimes i with assignedCore := c, state := .ready }) (c := c) (i := i)
      (by simp [ha.1]) rfl rfl rfl (taskEntry scenario s.tick .arrival (s.runtimes i) c) rfl rfl
      (by simp [taskEntry])
    exact ⟨h₁, h₂, h₃.changes hp.ids (.arrive _ _ _ ha.1 ha.2)⟩
  next ha =>
    obtain rfl : s = s' := by simpa using h
    exact ⟨hp, Quiet.refl s, .keep _ ha, fun _ _ => rfl⟩

theorem processBlockedMulticore_ok (hp : Placed s) (h : processBlockedMulticore scenario s = .ok s') :
    Placed s' ∧ Quiet s s' ∧ ∀ i, Unblock s.tick (s.view i) (s'.view i) :=
  taskLoop_ok (R := Unblock) processBlockedMulticoreAt_ok hp h

theorem enqueueArrivalsMulticore_ok (hp : Placed s) (h : enqueueArrivalsMulticore scenario s = .ok s') :
    Placed s' ∧ Quiet s s' ∧ ∀ i, Arrive s.tick (s.view i) (s'.view i) :=
  taskLoop_ok (R := Arrive) enqueueArrivalsMulticoreAt_ok hp h

/-- Wakeups and arrivals together are the first stage of a tick. -/
theorem wakeMulticore_ok {s₁ s₂ : Engine n m} (hp : Placed s) (h₁ : processBlockedMulticore scenario s = .ok s₁)
    (h₂ : enqueueArrivalsMulticore scenario s₁ = .ok s₂) :
    Placed s₂ ∧ Quiet s s₂ ∧ ∀ i, Wake s.tick (s.view i) (s₂.view i) := by
  obtain ⟨hp₁, hq₁, hv₁⟩ := processBlockedMulticore_ok hp h₁
  obtain ⟨hp₂, hq₂, hv₂⟩ := enqueueArrivalsMulticore_ok hp₁ h₂
  refine ⟨hp₂, hq₁.trans hq₂, fun i => .of_arrive (hv₁ i) ?_⟩
  rw [← hq₁.tick]
  exact hv₂ i

end Enqueue

/-! ## Preemption -/

section Preempt

variable {s : Engine n m} {c : Fin m}

theorem preemptMulticoreAt_ok (scenario : ScenarioOwned) (policy : PolicyKind) (c : Fin m) (hp : Placed s) :
    Placed (preemptMulticoreAt scenario policy s c) ∧ Quiet s (preemptMulticoreAt scenario policy s c) ∧
    ∀ i, Preempt s.tick (s.view i) ((preemptMulticoreAt scenario policy s c).view i) := by
  unfold preemptMulticoreAt
  simp only
  split
  next => exact ⟨hp, Quiet.refl s, fun i => .keep _⟩
  next i hc =>
    split
    next =>
      obtain ⟨hr, hcore⟩ := hp.slotted.current_running c i hc
      have ht : Touch s (((s.setTask i { s.runtimes i with state := .ready }).setCore c
          { s.cores c with readyQueue := (s.cores c).readyQueue ++ [i], current := none, currentQuantum := 0 }).emit
          (taskEntry scenario s.tick .preempt (s.runtimes i) c)) i { s.runtimes i with state := .ready }
          [taskEntry scenario s.tick .preempt (s.runtimes i) c] := ⟨rfl, rfl, rfl, by simp [taskEntry], rfl⟩
      refine ⟨hp.of_touch ht ?_ ?_ (hp.assigned i), ?_, (ht.changes (R := Preempt s.tick) hp.ids ?_).all .keep⟩
      · exact hp.slotted.release hc (by simp) rfl
      · exact hp.queued.push (by simp [hr]) rfl hcore rfl
      · exact ⟨rfl, rfl, rfl, ⟨_, rfl, by simp [taskEntry]⟩, counters_update _ _ _ (Nat.zero_le _) (le_refl _)⟩
      · have hev : [taskEntry scenario s.tick .preempt (s.runtimes i) c].map TraceEntry.event =
            [⟨.preempt, s.tick, some (s.runtimes i).assignedCore⟩] := by rw [hcore]; rfl
        rw [hev]
        exact .preempt _ _ hr
    next => exact ⟨hp, Quiet.refl s, fun i => .keep _⟩

theorem preemptMulticore_ok (scenario : ScenarioOwned) (policy : PolicyKind) (hp : Placed s) :
    Placed (preemptMulticore scenario policy s) ∧
    Quiet s (preemptMulticore scenario policy s) ∧
    ∀ i, Preempt s.tick (s.view i) ((preemptMulticore scenario policy s).view i) := by
  refine foldl_rel (R := fun a b => Quiet a b ∧ ∀ i, Preempt a.tick (a.view i) (b.view i))
    (fun a => ⟨Quiet.refl a, fun i => .keep _⟩) ?_ hp (fun a c _ ha => preemptMulticoreAt_ok scenario policy c ha)
  rintro a b c ⟨hq, hv⟩ ⟨hq', hv'⟩
  refine ⟨hq.trans hq', fun i => (hv i).trans ?_⟩
  rw [← hq.tick]
  exact hv' i

end Preempt

/-! ## Rebalancing -/

section Rebalance

variable {s s' : Engine n m} {recipient donor : Fin m}

theorem firstIdleCore_idle (h : firstIdleCore s.cores = some recipient) :
    (s.cores recipient).current = none ∧ (s.cores recipient).readyQueue = [] := by
  simpa using List.find?_some h

/-- A donor is another core with a task in its queue. -/
theorem busiestReadyAmong_ok {cores : Fin m → CoreState n} {members : List (Fin m)}
    (h : busiestReadyAmong cores recipient members = some donor) :
    donor ≠ recipient ∧ (cores donor).readyQueue ≠ [] := by
  simpa using (List.mem_filter.mp (firstBest_mem h)).2

theorem chooseDonorCore_ok {cores : Fin m → CoreState n}
    (h : chooseDonorCore scenario cores recipient = .ok (some donor)) :
    donor ≠ recipient ∧ (cores donor).readyQueue ≠ [] := by
  unfold chooseDonorCore at h
  split at h
  · obtain ⟨best, hb, h⟩ := bind_eq_ok.mp h
    cases best with
    | none => exact busiestReadyAmong_ok (Except.ok.inj h)
    | some d =>
      obtain rfl : d = donor := by simpa using h
      obtain ⟨members, -, hm⟩ := bind_eq_ok.mp hb
      exact busiestReadyAmong_ok (Except.ok.inj hm)
  · exact busiestReadyAmong_ok (Except.ok.inj h)

/-- Without a donor no other core has a task in its queue. -/
theorem chooseDonorCore_none {cores : Fin m → CoreState n} (h : chooseDonorCore scenario cores recipient = .ok none)
    {d : Fin m} (hd : d ≠ recipient) : (cores d).readyQueue = [] := by
  have hall : busiestReadyCore cores recipient = none := by
    unfold chooseDonorCore at h
    split at h
    · obtain ⟨best, -, h⟩ := bind_eq_ok.mp h
      cases best with
      | none => exact Except.ok.inj h
      | some d => simp at h
    · exact Except.ok.inj h
  have hnil := firstBest_eq_none.mp hall
  by_contra hq
  have hmem : d ∈ (List.finRange m).filter (fun c => decide (c ≠ recipient ∧ (cores c).readyQueue ≠ [])) := by
    simp [hd, hq]
  rw [hnil] at hmem
  simp at hmem

/-- An iteration that goes on moves the head of the donor's queue to an idle core. -/
theorem rebalanceStep_some (h : rebalanceStep scenario s = .ok (some s')) :
    ∃ recipient donor i rest, firstIdleCore s.cores = some recipient ∧
      chooseDonorCore scenario s.cores recipient = .ok (some donor) ∧ donor ≠ recipient ∧
      (s.cores donor).readyQueue = i :: rest ∧ 2 ≤ coreLoad (s.cores donor) ∧ s' = migrateHead recipient donor s := by
  unfold rebalanceStep at h
  split at h
  · simp at h
  next recipient hr =>
    obtain ⟨best, hb, h⟩ := bind_eq_ok.mp h
    cases best with
    | none => simp at h
    | some donor =>
      simp only at h
      split at h
      · simp at h
      next hn =>
        obtain rfl : migrateHead recipient donor s = s' := by simpa using h
        obtain ⟨hne, hq⟩ := chooseDonorCore_ok hb
        obtain ⟨i, rest, hi⟩ := List.exists_cons_of_ne_nil hq
        exact ⟨recipient, donor, i, rest, hr, hb, hne, hi, by omega, rfl⟩

theorem migrateHead_cores (hne : donor ≠ recipient) {i : Fin n} {rest : List (Fin n)}
    (hq : (s.cores donor).readyQueue = i :: rest) : (migrateHead recipient donor s).cores = Function.update
      (Function.update s.cores donor { s.cores donor with readyQueue := rest }) recipient
      { s.cores recipient with readyQueue := (s.cores recipient).readyQueue ++ [i] } := by
  unfold migrateHead
  rw [hq]
  simp [Function.update_of_ne hne.symm]

theorem migrateHead_ok (hp : Placed s) (hne : donor ≠ recipient) {i : Fin n} {rest : List (Fin n)}
    (hq : (s.cores donor).readyQueue = i :: rest) : Placed (migrateHead recipient donor s) ∧
      Quiet s (migrateHead recipient donor s) ∧
      ∀ j, Assign s.tick (s.view j) ((migrateHead recipient donor s).view j) := by
  obtain ⟨hr, -⟩ := hp.queued.mem_ready donor i (by simp [hq])
  have ht : Touch s (migrateHead recipient donor s) i { s.runtimes i with assignedCore := recipient } [] := by
    unfold migrateHead
    rw [hq]
    exact ⟨rfl, by simp, rfl, by simp, rfl⟩
  have hcores := migrateHead_cores hne hq
  have hcounters := counters_update s.cores donor { s.cores donor with readyQueue := rest } (le_refl _)
    (le_refl _)
  refine ⟨hp.of_touch ht ?_ ?_ recipient.isLt, ?_, (ht.changes (R := Assign s.tick) hp.ids ?_).all .keep⟩
  · rw [ht.runtimes, hcores]
    refine (((hp.slotted.setTask (by simp [hr]) (by simp [hr])).setCore ?_).setCore ?_)
    · rfl
    · rw [Function.update_of_ne hne.symm]
  · rw [ht.runtimes, hcores]
    exact hp.queued.move hne hq hr rfl rfl rfl
  · refine ⟨ht.tick, ?_, ?_, ⟨[], ht.trace, by simp⟩, fun d => ?_⟩
    · unfold migrateHead; rw [hq]; rfl
    · unfold migrateHead; rw [hq]; rfl
    · rw [hcores]
      have hd := counters_update (Function.update s.cores donor { s.cores donor with readyQueue := rest }) recipient
        { s.cores recipient with readyQueue := (s.cores recipient).readyQueue ++ [i] }
        ?_ ?_ d
      · exact ⟨le_trans hd.1 (hcounters d).1, le_trans hd.2 (hcounters d).2⟩
      · rw [Function.update_of_ne hne.symm]
      · rw [Function.update_of_ne hne.symm]
  · rw [List.map_nil, List.append_nil]
    exact .move _ _ _ hr

theorem rebalanceLoop_ok {fuel : Nat} (hp : Placed s) (h : rebalanceLoop scenario fuel s = .ok s') : Placed s' ∧
    Quiet s s' ∧ ∀ i, Assign s.tick (s.view i) (s'.view i) := by
  induction fuel generalizing s with
  | zero =>
    obtain rfl : s = s' := by simpa [rebalanceLoop] using h
    exact ⟨hp, Quiet.refl s, fun i => .keep _⟩
  | succ fuel ih =>
    obtain ⟨r, hr, h⟩ := bind_eq_ok.mp h
    cases r with
    | none =>
      obtain rfl : s = s' := by simpa using h
      exact ⟨hp, Quiet.refl s, fun i => .keep _⟩
    | some s₁ =>
      obtain ⟨recipient, donor, i, rest, -, -, hne, hq, -, rfl⟩ := rebalanceStep_some hr
      obtain ⟨hp₁, hq₁, hv₁⟩ := migrateHead_ok hp hne hq
      obtain ⟨hp', hq', hv'⟩ := ih hp₁ h
      refine ⟨hp', hq₁.trans hq', fun j => (hv₁ j).trans ?_⟩
      rw [← hq₁.tick]
      exact hv' j

end Rebalance

/-! ## Dispatch -/

section Dispatch

variable {s : Engine n m} {c : Fin m}

/-- A core that cannot take a task. -/
def CoreState.Served (core : CoreState n) : Prop := core.current ≠ none ∨ core.readyQueue = []

theorem dispatchMulticoreAt_ok (scenario : ScenarioOwned) (policy : PolicyKind) (hp : Placed s) :
    Placed (dispatchMulticoreAt scenario policy s c) ∧
    Quiet s (dispatchMulticoreAt scenario policy s c) ∧
    (∀ i, Assign s.tick (s.view i) ((dispatchMulticoreAt scenario policy s c).view i)) ∧
    (∀ d, d ≠ c → (dispatchMulticoreAt scenario policy s c).cores d = s.cores d) ∧
    ((dispatchMulticoreAt scenario policy s c).cores c).Served := by
  unfold dispatchMulticoreAt
  simp only
  split
  next i hc => exact ⟨hp, Quiet.refl s, fun i => .keep _, fun _ _ => rfl, Or.inl (by simp [hc])⟩
  next hc =>
    split
    next hn => exact ⟨hp, Quiet.refl s, fun i => .keep _, fun _ _ => rfl, Or.inr (selectNextCore_eq_none.mp hn)⟩
    next i queue hsel =>
      have hperm := selectNextCore_perm hsel
      obtain ⟨hr, -⟩ := hp.queued.mem_ready c i (hperm.mem_iff.mpr (by simp))
      have ht := dispatchTask_touch scenario c i queue s
      refine ⟨hp.of_touch ht ?_ ?_ c.isLt, dispatchTask_quiet scenario c i queue s,
        (ht.changes (R := Assign s.tick) hp.ids (.dispatch _ _ _ hr)).all .keep, fun d hd => ?_, Or.inl ?_⟩
      · exact hp.slotted.take (Or.inl ⟨hc, by simp [hr]⟩) rfl rfl rfl
      · exact hp.queued.pop hperm (by simp) rfl
      · simp [dispatchTask, Function.update_of_ne hd]
      · simp [dispatchTask]

theorem dispatchMulticore_ok (scenario : ScenarioOwned) (policy : PolicyKind) (hp : Placed s) :
    Placed (dispatchMulticore scenario policy s) ∧
    Quiet s (dispatchMulticore scenario policy s) ∧
    (∀ i, Assign s.tick (s.view i) ((dispatchMulticore scenario policy s).view i)) ∧
    ∀ c, ((dispatchMulticore scenario policy s).cores c).Served := by
  have hloop := foldl_inv (f := dispatchMulticoreAt scenario policy) (l := List.finRange m) (s := s)
    (P := fun done x => Placed x ∧ Quiet s x ∧ (∀ i, Assign s.tick (s.view i) (x.view i)) ∧
      ∀ c ∈ done, (x.cores c).Served) ⟨hp, Quiet.refl s, fun i => .keep _, by simp⟩ ?_
  · exact ⟨hloop.1, hloop.2.1, hloop.2.2.1, fun c => hloop.2.2.2 c (List.mem_finRange c)⟩
  · rintro done c rest x - ⟨hx, hq, hv, hserved⟩
    obtain ⟨hx', hq', hv', hcores, hc⟩ := dispatchMulticoreAt_ok scenario policy (c := c) hx
    refine ⟨hx', hq.trans hq', fun i => (hv i).trans ?_, fun d hd => ?_⟩
    · rw [← hq.tick]; exact hv' i
    · by_cases hdc : d = c
      · rw [hdc]; exact hc
      · rw [hcores d hdc]
        exact hserved d (by simpa [hdc] using hd)

end Dispatch

/-! ## Execution -/

section Execute

/-- A running task after its execution of tick `t`; whether it has completed is the last argument. The entry of a
completion comes later. -/
inductive Ran (policy : PolicyKind) (t : Nat) : View → View → Prop → Prop
  | intro (x y z u : RuntimeTask) (ev : List Event) (outcome : Outcome) (done : Prop) (hs : x.state = .running)
      (hy : chargeTick t x = .ok y) (hz : policy.onTaskTick y = .ok z) (hu : settleTask t z = .ok (outcome, u))
      (hd : done ↔ outcome = .complete) :
      Ran policy t (x, ev)
        (u, ev ++ ⟨.tick, t, some x.assignedCore⟩ ::
          if outcome = .block then [⟨.block, t + 1, some x.assignedCore⟩] else []) done

/-- The state of the loop over the cores after the cores in `done`, from the dispatched state `mid`. -/
structure ExecLoop (policy : PolicyKind) (mid : Engine n m) (done : List (Fin m)) (x : Engine n m × List (Fin n)) :
    Prop where
  placed : Placed x.1
  tick : x.1.tick = mid.tick
  order : x.1.completionOrder = mid.completionOrder
  completed : x.1.completed = mid.completed + x.2.length
  nodup : x.2.Nodup
  cores : ∀ c, c ∉ done → x.1.cores c = mid.cores c
  counters : ∀ c, (x.1.cores c).currentQuantum ≤ (mid.cores c).currentQuantum + 1 ∧
    (x.1.cores c).currentGroupRunTicks ≤ (mid.cores c).currentGroupRunTicks + 1
  cells : ∀ (c : Fin m) (τ : Nat), cells c τ x.1.traceEntries =
    Sim.cells c τ mid.traceEntries + if c ∈ done ∧ τ = mid.tick then 1 else 0
  rest : ∀ i, (∀ c ∈ done, (mid.cores c).current ≠ some i) → x.1.view i = mid.view i ∧ i ∉ x.2
  ran : ∀ c ∈ done, ∀ i, (mid.cores c).current = some i → Ran policy mid.tick (mid.view i) (x.1.view i) (i ∈ x.2)

variable {mid s s' : Engine n m} {c : Fin m} {done : List (Fin m)} {l l' : List (Fin n)}

/-- The cells of one more core. -/
theorem ExecLoop.cells_step (h : ExecLoop policy mid done (s, l)) (hc : c ∉ done) {trace : List TraceEntry}
    (ht : ∀ (d : Fin m) (τ : Nat), Sim.cells d τ trace =
      Sim.cells d τ s.traceEntries + if d = c ∧ τ = mid.tick then 1 else 0) (d : Fin m) (τ : Nat) :
    Sim.cells d τ trace = Sim.cells d τ mid.traceEntries + if d ∈ done ++ [c] ∧ τ = mid.tick then 1 else 0 := by
  rw [ht d τ, h.cells d τ, Nat.add_assoc]
  congr 1
  by_cases hd : d = c
  · subst hd; simp [hc]
  · simp [hd]

/-- An idle core. -/
theorem ExecLoop.idle_step (h : ExecLoop policy mid done (s, l)) (hc : c ∉ done) (hcur : (mid.cores c).current = none) :
    ExecLoop policy mid (done ++ [c]) (s.emit (idleEntry s.tick c), l) := by
  have hview : ∀ i, (s.emit (idleEntry s.tick c)).view i = s.view i := fun i => by simp [Engine.view]
  refine ⟨⟨h.placed.slotted, h.placed.queued, h.placed.assigned, h.placed.ids⟩, h.tick, h.order, h.completed, h.nodup,
    fun d hd => h.cores d (by simp_all), h.counters, ?_, fun i hi => ?_, fun d hd i hi => ?_⟩
  · apply h.cells_step hc
    intro d τ
    rw [Engine.emit_traceEntries, cells_idle, h.tick]
  · rw [hview]; exact h.rest i (fun d hd => hi d (by simp [hd]))
  · rw [hview]
    rcases List.mem_append.mp hd with hd | hd
    · exact h.ran d hd i hi
    · rw [List.mem_singleton.mp hd, hcur] at hi; cases hi

section Run

variable {i : Fin n} {outcome : Outcome} {u : RuntimeTask} {e : Engine n m}

/-- The executed task. -/
theorem Ran.of_executed {done : Prop} (hex : Executed scenario policy c i outcome u s e)
    (hr : (s.runtimes i).state = .running) (hrc : (s.runtimes i).assignedCore = c) (hd : done ↔ outcome = .complete) :
    Ran policy s.tick (s.view i) (e.view i) done := by
  obtain ⟨y, z, hy, hz, hu⟩ := hex.charged
  have hran := Ran.intro (s.runtimes i) y z u (s.view i).2 outcome done hr hy hz hu hd
  have hev : (execEntries scenario s.tick c (s.runtimes i) u outcome).map TraceEntry.event =
      ⟨.tick, s.tick, some (s.runtimes i).assignedCore⟩ ::
        if outcome = .block then [⟨.block, s.tick + 1, some (s.runtimes i).assignedCore⟩] else [] := by
    rw [hrc]
    cases outcome <;> simp [execEntries, taskEntry, TraceEntry.event]
  rw [(hex.touch hr).view_self, hev]
  exact hran

/-- A core with a task: what the execution does to the task and the core, and what it leaves to the others. -/
theorem ExecLoop.run_step (hmid : Placed mid) (h : ExecLoop policy mid done (s, l)) (hc : c ∉ done)
    (hmcur : (mid.cores c).current = some i) (hex : Executed scenario policy c i outcome u s e) :
    ExecLoop policy mid (done ++ [c]) (e, if outcome = .complete then l ++ [i] else l) := by
  have hcore := h.cores c hc
  have hcur : (s.cores c).current = some i := by rw [hcore]; exact hmcur
  obtain ⟨hr, hrc⟩ := h.placed.slotted.current_running c i hcur
  have ht := hex.touch hr
  have hnot : ∀ d ∈ done, (mid.cores d).current ≠ some i := fun d hd hdi =>
    hc (by rw [hmid.slotted.inj hmcur hdi]; exact hd)
  obtain ⟨hvi, hil⟩ := h.rest i hnot
  have hother : ∀ j, j ≠ i → (j ∈ (if outcome = .complete then l ++ [i] else l) ↔ j ∈ l) := by
    intro j hj
    split <;> simp [hj]
  refine ⟨h.placed.of_touch ht (hex.slotted h.placed.slotted hcur) (hex.queued h.placed.queued hr) ?_,
    hex.tick.trans h.tick, hex.order.trans h.order, ?_, ?_, fun d hd => ?_, fun d => ?_, ?_, fun j hj => ?_,
    fun d hd j hj => ?_⟩
  · rw [(hex.frame hr).2.1]; exact h.placed.assigned i
  · rw [hex.completed, h.completed]
    split <;> simp [Nat.add_assoc]
  · split
    · rw [List.nodup_append]
      exact ⟨h.nodup, by simp, fun a ha b hb hab => hil (by rw [← List.mem_singleton.mp hb, ← hab]; exact ha)⟩
    · exact h.nodup
  · have hdc : d ≠ c := by rintro rfl; simp at hd
    rw [hex.cores, Function.update_of_ne hdc]
    exact h.cores d (by simp_all)
  · rw [hex.cores]
    by_cases hdc : d = c
    · subst hdc
      rw [Function.update_self, hcore]
      cases outcome <;> simp [CoreState.after]
    · rw [Function.update_of_ne hdc]; exact h.counters d
  · apply h.cells_step hc
    intro d τ
    rw [hex.cells_eq, h.tick]
    simp only [Fin.ext_iff]
  · have hji : j ≠ i := by
      rintro rfl
      exact hj c (by simp) hmcur
    rw [ht.view_ne h.placed.ids hji, hother j hji]
    exact h.rest j (fun d hd => hj d (by simp [hd]))
  · by_cases hji : j = i
    · subst hji
      rw [← hvi, ← h.tick]
      exact Ran.of_executed hex hr hrc (by split <;> simp_all)
    · rw [ht.view_ne h.placed.ids hji, hother j hji]
      rcases List.mem_append.mp hd with hd | hd
      · exact h.ran d hd j hj
      · rw [List.mem_singleton.mp hd, hmcur] at hj
        exact absurd (Option.some.inj hj).symm hji

end Run

theorem executeMulticoreAt_ok (hmid : Placed mid) (h : ExecLoop policy mid done (s, l)) (hc : c ∉ done)
    (hx : executeMulticoreAt scenario policy (s, l) c = .ok (s', l')) :
    ExecLoop policy mid (done ++ [c]) (s', l') := by
  unfold executeMulticoreAt at hx
  simp only at hx
  split at hx
  next hcur =>
    simp only [Except.ok.injEq, Prod.mk.injEq] at hx
    obtain ⟨rfl, rfl⟩ := hx
    rw [h.cores c hc] at hcur
    exact h.idle_step hc hcur
  next i hcur =>
    obtain ⟨⟨outcome, e⟩, he, hx⟩ := bind_eq_ok.mp hx
    simp only [Except.ok.injEq, Prod.mk.injEq] at hx
    obtain ⟨rfl, rfl⟩ := hx
    obtain ⟨u, hex⟩ := executeCurrent_ok he
    rw [h.cores c hc] at hcur
    exact h.run_step hmid hc hcur hex

theorem ExecLoop.init (hmid : Placed mid) : ExecLoop policy mid [] (mid, []) :=
  ⟨hmid, rfl, rfl, by simp, by simp, fun _ _ => rfl, fun _ => ⟨Nat.le_succ _, Nat.le_succ _⟩, by simp,
    fun i _ => ⟨rfl, by simp⟩, by simp⟩

theorem executeLoop_ok (hmid : Placed mid)
    (h : (List.finRange m).foldlM (executeMulticoreAt scenario policy) (mid, []) = .ok (s, l)) :
    ExecLoop policy mid (List.finRange m) (s, l) := by
  refine foldlM_inv (P := ExecLoop policy mid) (.init hmid) ?_ h
  rintro done c rest ⟨a, la⟩ ⟨b, lb⟩ hl ha hb
  refine executeMulticoreAt_ok hmid ha (fun hd => ?_) hb
  have hnd := List.nodup_finRange m
  rw [hl, List.nodup_append] at hnd
  exact hnd.2.2 c hd c (by simp) rfl

/-- The deferred entry of a completed task. -/
def completeEntry (scenario : ScenarioOwned) (s : Engine n m) (i : Fin n) : TraceEntry :=
  taskEntry scenario (s.tick + 1) .complete (s.runtimes i) (s.runtimes i).assignedCore

/-- The state after the deferred entries of the tasks `l`. -/
def withCompletions (scenario : ScenarioOwned) (l : List (Fin n)) (s : Engine n m) : Engine n m :=
  { s with
    completionOrder := s.completionOrder ++ l
    traceEntries := s.traceEntries ++ l.map (completeEntry scenario s) }

theorem recordCompletions_eq (l : List (Fin n)) (s : Engine n m) :
    l.foldl (recordCompletion scenario) s = withCompletions scenario l s := by
  induction l generalizing s with
  | nil => simp [withCompletions]
  | cons i l ih =>
    have hentry : completeEntry scenario (recordCompletion scenario s i) = completeEntry (n := n) scenario s := rfl
    rw [List.foldl_cons, ih, withCompletions, hentry]
    simp [withCompletions, recordCompletion, Engine.emit, completeEntry]

/-- The deferred entries of a task. -/
theorem events_completions (hids : s.Ids) (hl : l.Nodup) (i : Fin n) :
    events (s.runtimes i).id (l.map (completeEntry scenario s)) =
      if i ∈ l then [⟨.complete, s.tick + 1, some (s.runtimes i).assignedCore⟩] else [] := by
  induction l with
  | nil => simp
  | cons j l ih =>
    obtain ⟨hj, hl⟩ := List.nodup_cons.mp hl
    rw [List.map_cons, ← List.singleton_append, events_append, ih hl]
    unfold completeEntry
    rw [events_taskEntry]
    by_cases hij : i = j
    · subst hij; simp [hj]
    · have hne : (s.runtimes j).id ≠ (s.runtimes i).id := fun h => hij (hids j i h).symm
      simp [hne, hij]

/-- A task that ran and whose completion is recorded has executed the tick. -/
theorem Ran.exec {t : Nat} {x y : View} {done : Prop} [Decidable done] (h : Ran policy t x y done) :
    Exec policy t x (y.1, y.2 ++ if done then [⟨.complete, t + 1, some y.1.assignedCore⟩] else []) := by
  obtain ⟨x, y, z, u, ev, outcome, _, hs, hy, hz, hu, hd⟩ := h
  have hcore : u.assignedCore = x.assignedCore := by
    obtain ⟨-, -, -, d, rfl, -⟩ := chargeTick_onTaskTick hy hz
    exact (settleTask_settled (by exact hs) hu).core
  have hev : (ev ++ ⟨.tick, t, some x.assignedCore⟩ ::
      if outcome = .block then [⟨.block, t + 1, some x.assignedCore⟩] else []) ++
      (if done then [⟨.complete, t + 1, some u.assignedCore⟩] else []) =
      ev ++ ⟨.tick, t, some x.assignedCore⟩ :: outcome.events t x.assignedCore := by
    rw [hcore]
    cases outcome <;> simp [hd, Outcome.events]
  rw [show (u, _).2 = _ from rfl, hev]
  exact .run x y z u ev outcome hs hy hz hu

/-- **One execution of all cores.** -/
theorem executeMulticore_ok (hmid : Placed mid) (h : executeMulticore scenario policy mid = .ok s) :
    Placed s ∧ ExecSpec policy mid s := by
  obtain ⟨⟨e, done⟩, he, h⟩ := bind_eq_ok.mp h
  have hx := executeLoop_ok hmid he
  simp only [recordCompletions_eq, Except.ok.injEq] at h
  subst h
  have hview : ∀ i, (withCompletions scenario done e).view i = ((e.view i).1, (e.view i).2 ++
      if i ∈ done then [⟨.complete, e.tick + 1, some (e.runtimes i).assignedCore⟩] else []) := by
    intro i
    simp [Engine.view, withCompletions, events_completions hx.placed.ids hx.nodup]
  have hrun : ∀ i c, (mid.cores c).current = some i → Ran policy mid.tick (mid.view i) (e.view i) (i ∈ done) :=
    fun i c hc => hx.ran c (List.mem_finRange c) i hc
  have hrest : ∀ i, (mid.runtimes i).state ≠ .running → e.view i = mid.view i ∧ i ∉ done := by
    refine fun i hi => hx.rest i (fun c _ hc => hi (hmid.slotted.current_running c i hc).1)
  refine ⟨⟨hx.placed.slotted, hx.placed.queued, hx.placed.assigned, hx.placed.ids⟩, hx.tick, fun i => ?_,
    ⟨done, by rw [← hx.order]; rfl, hx.nodup, hx.completed, fun i => ?_⟩, fun c τ => ?_, hx.counters⟩
  · rw [hview]
    by_cases hi : (mid.runtimes i).state = .running
    · obtain ⟨c, hc⟩ := hmid.slotted.running_current i hi
      have := (hrun i c hc).exec
      rw [hx.tick]
      exact this
    · obtain ⟨hv, hd⟩ := hrest i hi
      simp only [hv, hd, if_false, List.append_nil]
      exact .rest _ _ hi
  · by_cases hi : (mid.runtimes i).state = .running
    · obtain ⟨c, hc⟩ := hmid.slotted.running_current i hi
      have hr := hrun i c hc
      generalize hv : mid.view i = v at hr
      generalize hw : e.view i = w at hr
      obtain ⟨x, y, z, u, ev, outcome, _, hs, hy, hz, hu, hd⟩ := hr
      obtain ⟨-, -, -, d, rfl, -⟩ := chargeTick_onTaskTick hy hz
      have hst := (settleTask_settled (by exact hs) hu).state
      have hu' : e.runtimes i = u := congrArg Prod.fst hw
      rw [hd]
      simp only [hi, true_and]
      show _ ↔ (e.runtimes i).state = .complete
      rw [hu', hst]
      cases outcome <;> simp [Outcome.state]
    · simp [hi, (hrest i hi).2]
  · show cells c τ (e.traceEntries ++ _) = _
    have hzero : cells c τ (done.map (completeEntry scenario e)) = 0 := by
      simp only [cells, List.countP_eq_zero, List.mem_map, decide_eq_true_eq]
      rintro _ ⟨i, -, rfl⟩
      simp [completeEntry, taskEntry]
    have hmain := hx.cells c τ
    unfold cells at hzero hmain ⊢
    rw [List.countP_append, hzero, hmain]
    simp

end Execute

/-! ## The loop -/

section Loop

variable {s s' mid e : Engine n m}

/-- The scheduling half of an iteration, taken apart. -/
theorem scheduleMulticore_parts (h : scheduleMulticore scenario policy s = .ok mid) :
    ∃ s₁ s₂ s₄, processBlockedMulticore scenario s = .ok s₁ ∧ enqueueArrivalsMulticore scenario s₁ = .ok s₂ ∧
      rebalanceReadyQueues scenario (preemptMulticore scenario policy s₂) = .ok s₄ ∧
      mid = dispatchMulticore scenario policy s₄ := by
  obtain ⟨s₁, h₁, h⟩ := bind_eq_ok.mp h
  obtain ⟨s₂, h₂, h⟩ := bind_eq_ok.mp h
  obtain ⟨s₄, h₄, h⟩ := bind_eq_ok.mp h
  exact ⟨s₁, s₂, s₄, h₁, h₂, h₄, (Except.ok.inj h).symm⟩

theorem scheduleMulticore_ok (hp : Placed s) (h : scheduleMulticore scenario policy s = .ok mid) : Placed mid ∧
    Quiet s mid ∧
    (∀ i, ∃ v₁ v₂, Wake s.tick (s.view i) v₁ ∧ Preempt s.tick v₁ v₂ ∧ Assign s.tick v₂ (mid.view i)) ∧
    ∀ c, (mid.cores c).Served := by
  obtain ⟨s₁, s₂, s₄, h₁, h₂, h₄, rfl⟩ := scheduleMulticore_parts h
  obtain ⟨hp₂, hq₂, hv₂⟩ := wakeMulticore_ok hp h₁ h₂
  obtain ⟨hp₃, hq₃, hv₃⟩ := preemptMulticore_ok scenario policy hp₂
  obtain ⟨hp₄, hq₄, hv₄⟩ := rebalanceLoop_ok hp₃ h₄
  obtain ⟨hp₅, hq₅, hv₅, hserved⟩ := dispatchMulticore_ok scenario policy hp₄
  have ht₃ := hq₂.trans hq₃
  have ht₄ := ht₃.trans hq₄
  refine ⟨hp₅, ht₄.trans hq₅,
    fun i => ⟨s₂.view i, (preemptMulticore scenario policy s₂).view i, hv₂ i, ?_, ?_⟩, hserved⟩
  · rw [← hq₂.tick]; exact hv₃ i
  · have h₄' := hv₄ i
    have h₅' := hv₅ i
    rw [ht₃.tick] at h₄'
    rw [ht₄.tick] at h₅'
    exact h₄'.trans h₅'

/-- **The multicore loop is lawful.** -/
theorem multicore_lawful : Lawful (multicore (n := n) (m := m) scenario policy) policy
    (fun s => Placed s ∧ s.Counted) := by
  refine ⟨fun ⟨hp, _⟩ hmid he => ?_, fun ⟨hp, hc⟩ hmid he => ?_⟩
  · obtain ⟨hp', hq, hv, hserved⟩ := scheduleMulticore_ok hp hmid
    refine .of_exec hq hv (fun i hi => ?_) (executeMulticore_ok hp' he).2
    -- a core with a queued task has a current task
    obtain ⟨c, hc⟩ := hp'.queued.ready_mem i hi
    rcases hserved c with hcur | hnil
    · obtain ⟨j, hj⟩ := Option.ne_none_iff_exists'.mp hcur
      exact ⟨j, (hp'.slotted.current_running c j hj).1⟩
    · simp [hnil] at hc
  · obtain ⟨hp', hq, -, -⟩ := scheduleMulticore_ok hp hmid
    obtain ⟨hp'', hx⟩ := executeMulticore_ok hp' he
    exact ⟨⟨hp''.slotted, hp''.queued, hp''.assigned, hp''.ids⟩, hx.counted hq hc⟩

end Loop

end Exasphere.Sim

import Exasphere.Sim.Machine

/-!
# Where the tasks are

Two invariants tie the state of a task to the cores. `Slotted`: the running tasks are exactly the current tasks, each
of the core it is assigned to. `Queued`: the ready tasks are exactly the queued tasks, each once, in the queue of the
core it is assigned to. Both are about the tasks and the cores only; every step of an engine updates one task and one
or two cores, and the lemmas below say which updates keep the invariants.

`Touch` is the frame of such a step for the trace: one task is updated and all new entries are about it. `Quiet` is the
frame of a scheduling step, `Executed` says what both engines do with a current task.
-/

namespace Exasphere.Sim

open Exasphere.Lib

variable {n m : Nat}

/-! ## Fields of an updated engine -/

namespace Engine

variable (s : Engine n m) (i : Fin n) (c : Fin m) (x : RuntimeTask) (core : CoreState n) (entry : TraceEntry)

@[simp] theorem setTask_runtimes : (s.setTask i x).runtimes = Function.update s.runtimes i x := rfl
@[simp] theorem setTask_cores : (s.setTask i x).cores = s.cores := rfl
@[simp] theorem setTask_traceEntries : (s.setTask i x).traceEntries = s.traceEntries := rfl
@[simp] theorem setTask_completionOrder : (s.setTask i x).completionOrder = s.completionOrder := rfl
@[simp] theorem setTask_completed : (s.setTask i x).completed = s.completed := rfl
@[simp] theorem setTask_tick : (s.setTask i x).tick = s.tick := rfl

@[simp] theorem setCore_runtimes : (s.setCore c core).runtimes = s.runtimes := rfl
@[simp] theorem setCore_cores : (s.setCore c core).cores = Function.update s.cores c core := rfl
@[simp] theorem setCore_traceEntries : (s.setCore c core).traceEntries = s.traceEntries := rfl
@[simp] theorem setCore_completionOrder : (s.setCore c core).completionOrder = s.completionOrder := rfl
@[simp] theorem setCore_completed : (s.setCore c core).completed = s.completed := rfl
@[simp] theorem setCore_tick : (s.setCore c core).tick = s.tick := rfl

@[simp] theorem emit_runtimes : (s.emit entry).runtimes = s.runtimes := rfl
@[simp] theorem emit_cores : (s.emit entry).cores = s.cores := rfl
@[simp] theorem emit_traceEntries : (s.emit entry).traceEntries = s.traceEntries ++ [entry] := rfl
@[simp] theorem emit_completionOrder : (s.emit entry).completionOrder = s.completionOrder := rfl
@[simp] theorem emit_completed : (s.emit entry).completed = s.completed := rfl
@[simp] theorem emit_tick : (s.emit entry).tick = s.tick := rfl

@[simp] theorem pushReady_runtimes : (s.pushReady c i).runtimes = s.runtimes := rfl
@[simp] theorem pushReady_cores : (s.pushReady c i).cores =
    Function.update s.cores c { s.cores c with readyQueue := (s.cores c).readyQueue ++ [i] } := rfl
@[simp] theorem pushReady_traceEntries : (s.pushReady c i).traceEntries = s.traceEntries := rfl
@[simp] theorem pushReady_completionOrder : (s.pushReady c i).completionOrder = s.completionOrder := rfl
@[simp] theorem pushReady_completed : (s.pushReady c i).completed = s.completed := rfl
@[simp] theorem pushReady_tick : (s.pushReady c i).tick = s.tick := rfl

end Engine

/-! ## Running tasks -/

section Slotted

/-- The running tasks are the current tasks. -/
structure Slotted (rt : Fin n → RuntimeTask) (cores : Fin m → CoreState n) : Prop where
  current_running : ∀ c i, (cores c).current = some i → (rt i).state = .running ∧ (rt i).assignedCore = c
  running_current : ∀ i, (rt i).state = .running → ∃ c, (cores c).current = some i

variable {rt : Fin n → RuntimeTask} {cores : Fin m → CoreState n} {i : Fin n} {c : Fin m} {x : RuntimeTask}
  {core : CoreState n}

/-- A task runs on one core only. -/
theorem Slotted.inj (h : Slotted rt cores) {c' : Fin m} (hc : (cores c).current = some i)
    (hc' : (cores c').current = some i) : c = c' := by
  have h₁ := (h.current_running c i hc).2
  have h₂ := (h.current_running c' i hc').2
  exact Fin.ext (h₁.symm.trans h₂)

/-- A task that does not run before or after. -/
theorem Slotted.setTask (h : Slotted rt cores) (hi : (rt i).state ≠ .running) (hx : x.state ≠ .running) :
    Slotted (Function.update rt i x) cores := by
  refine ⟨fun d j hj => ?_, fun j hj => ?_⟩
  · have hji : j ≠ i := fun e => hi (e ▸ (h.current_running d j hj).1)
    simpa [Function.update_of_ne hji] using h.current_running d j hj
  · by_cases hji : j = i
    · subst hji; simp [hx] at hj
    · rw [Function.update_of_ne hji] at hj; exact h.running_current j hj

/-- A core whose current task stays. -/
theorem Slotted.setCore (h : Slotted rt cores) (hc : core.current = (cores c).current) :
    Slotted rt (Function.update cores c core) := by
  have hcur : ∀ d, (Function.update cores c core d).current = (cores d).current := by
    intro d
    by_cases hd : d = c
    · subst hd; simp [hc]
    · simp [Function.update_of_ne hd]
  exact ⟨fun d j hj => h.current_running d j (by rw [← hcur]; exact hj),
    fun j hj => (h.running_current j hj).imp (fun d hd => by rw [hcur]; exact hd)⟩

/-- The current task of a core leaves it. -/
theorem Slotted.release (h : Slotted rt cores) (hc : (cores c).current = some i) (hx : x.state ≠ .running)
    (hcore : core.current = none) : Slotted (Function.update rt i x) (Function.update cores c core) := by
  refine ⟨fun d j hj => ?_, fun j hj => ?_⟩
  · have hd : d ≠ c := by rintro rfl; simp [hcore] at hj
    rw [Function.update_of_ne hd] at hj
    have hji : j ≠ i := by rintro rfl; exact hd (h.inj hj hc)
    simpa [Function.update_of_ne hji] using h.current_running d j hj
  · by_cases hji : j = i
    · subst hji; simp [hx] at hj
    · rw [Function.update_of_ne hji] at hj
      obtain ⟨d, hd⟩ := h.running_current j hj
      have hdc : d ≠ c := by rintro rfl; rw [hc] at hd; exact hji (Option.some.inj hd).symm
      exact ⟨d, by rw [Function.update_of_ne hdc]; exact hd⟩

/-- A core without a current task takes one, or keeps the one it has. -/
theorem Slotted.take (h : Slotted rt cores) (hc : (cores c).current = none ∧ (rt i).state ≠ .running ∨
      (cores c).current = some i) (hx : x.state = .running) (hxc : x.assignedCore = c)
    (hcore : core.current = some i) : Slotted (Function.update rt i x) (Function.update cores c core) := by
  have hne : ∀ d j, d ≠ c → (cores d).current = some j → j ≠ i := by
    rintro d j hd hj rfl
    rcases hc with ⟨-, hi⟩ | hc
    · exact hi (h.current_running d j hj).1
    · exact hd (h.inj hj hc)
  refine ⟨fun d j hj => ?_, fun j hj => ?_⟩
  · by_cases hd : d = c
    · subst hd
      obtain rfl : i = j := by simpa [hcore] using hj
      simp [hx, hxc]
    · rw [Function.update_of_ne hd] at hj
      simpa [Function.update_of_ne (hne d j hd hj)] using h.current_running d j hj
  · by_cases hji : j = i
    · subst hji; exact ⟨c, by simp [hcore]⟩
    · rw [Function.update_of_ne hji] at hj
      obtain ⟨d, hd⟩ := h.running_current j hj
      have hdc : d ≠ c := by
        rintro rfl
        rcases hc with ⟨hn, -⟩ | hc
        · simp [hn] at hd
        · rw [hc] at hd; exact hji (Option.some.inj hd).symm
      exact ⟨d, by rw [Function.update_of_ne hdc]; exact hd⟩

end Slotted

/-! ## Ready tasks -/

section Queued

/-- The ready tasks are the queued tasks. -/
structure Queued (rt : Fin n → RuntimeTask) (cores : Fin m → CoreState n) : Prop where
  mem_ready : ∀ c i, i ∈ (cores c).readyQueue → (rt i).state = .ready ∧ (rt i).assignedCore = c
  ready_mem : ∀ i, (rt i).state = .ready → ∃ c, i ∈ (cores c).readyQueue
  nodup : ∀ c, (cores c).readyQueue.Nodup

variable {rt : Fin n → RuntimeTask} {cores : Fin m → CoreState n} {i : Fin n} {c : Fin m} {x : RuntimeTask}
  {core : CoreState n}

/-- A task waits in one queue only. -/
theorem Queued.inj (h : Queued rt cores) {c' : Fin m} (hc : i ∈ (cores c).readyQueue)
    (hc' : i ∈ (cores c').readyQueue) : c = c' := by
  have h₁ := (h.mem_ready c i hc).2
  have h₂ := (h.mem_ready c' i hc').2
  exact Fin.ext (h₁.symm.trans h₂)

/-- A task that is not ready before or after. -/
theorem Queued.setTask (h : Queued rt cores) (hi : (rt i).state ≠ .ready) (hx : x.state ≠ .ready) :
    Queued (Function.update rt i x) cores := by
  refine ⟨fun d j hj => ?_, fun j hj => ?_, h.nodup⟩
  · have hji : j ≠ i := fun e => hi (e ▸ (h.mem_ready d j hj).1)
    simpa [Function.update_of_ne hji] using h.mem_ready d j hj
  · by_cases hji : j = i
    · subst hji; simp [hx] at hj
    · rw [Function.update_of_ne hji] at hj; exact h.ready_mem j hj

/-- A core whose queue stays. -/
theorem Queued.setCore (h : Queued rt cores) (hc : core.readyQueue = (cores c).readyQueue) :
    Queued rt (Function.update cores c core) := by
  have hq : ∀ d, (Function.update cores c core d).readyQueue = (cores d).readyQueue := by
    intro d
    by_cases hd : d = c
    · subst hd; simp [hc]
    · simp [Function.update_of_ne hd]
  exact ⟨fun d j hj => h.mem_ready d j (by rw [← hq]; exact hj),
    fun j hj => (h.ready_mem j hj).imp (fun d hd => by rw [hq]; exact hd), fun d => by rw [hq]; exact h.nodup d⟩

/-- A task becomes ready at the end of a queue. -/
theorem Queued.push (h : Queued rt cores) (hi : (rt i).state ≠ .ready) (hx : x.state = .ready)
    (hxc : x.assignedCore = c) (hcore : core.readyQueue = (cores c).readyQueue ++ [i]) :
    Queued (Function.update rt i x) (Function.update cores c core) := by
  have hold : ∀ d j, j ∈ (cores d).readyQueue → j ≠ i := fun d j hj e => hi (e ▸ (h.mem_ready d j hj).1)
  refine ⟨fun d j hj => ?_, fun j hj => ?_, fun d => ?_⟩
  · by_cases hji : j = i
    · subst hji
      by_cases hd : d = c
      · subst hd; simp [hx, hxc]
      · rw [Function.update_of_ne hd] at hj; exact absurd rfl (hold d j hj)
    · rw [Function.update_of_ne hji]
      by_cases hd : d = c
      · subst hd
        exact h.mem_ready d j (by simpa [hcore, hji] using hj)
      · rw [Function.update_of_ne hd] at hj; exact h.mem_ready d j hj
  · by_cases hji : j = i
    · subst hji; exact ⟨c, by simp [hcore]⟩
    · rw [Function.update_of_ne hji] at hj
      obtain ⟨d, hd⟩ := h.ready_mem j hj
      refine ⟨d, ?_⟩
      by_cases hdc : d = c
      · subst hdc; simp [hcore, hd]
      · rw [Function.update_of_ne hdc]; exact hd
  · by_cases hd : d = c
    · subst hd
      rw [Function.update_self, hcore, List.nodup_append]
      refine ⟨h.nodup d, List.nodup_singleton i, fun a ha b hb e => hold d a ha ?_⟩
      rw [e]; exact List.mem_singleton.mp hb
    · rw [Function.update_of_ne hd]; exact h.nodup d

/-- A task leaves its queue and is no longer ready. -/
theorem Queued.pop (h : Queued rt cores) {queue : List (Fin n)} (hq : (cores c).readyQueue.Perm (i :: queue))
    (hx : x.state ≠ .ready) (hcore : core.readyQueue = queue) :
    Queued (Function.update rt i x) (Function.update cores c core) := by
  have hnd : (i :: queue).Nodup := hq.nodup_iff.mp (h.nodup c)
  have hic : i ∈ (cores c).readyQueue := hq.mem_iff.mpr (by simp)
  have hin : i ∉ queue := (List.nodup_cons.mp hnd).1
  refine ⟨fun d j hj => ?_, fun j hj => ?_, fun d => ?_⟩
  · have hji : j ≠ i := by
      rintro rfl
      by_cases hd : d = c
      · subst hd; rw [Function.update_self, hcore] at hj; exact hin hj
      · rw [Function.update_of_ne hd] at hj; exact hd (h.inj hj hic)
    rw [Function.update_of_ne hji]
    by_cases hd : d = c
    · subst hd
      rw [Function.update_self, hcore] at hj
      exact h.mem_ready d j (hq.mem_iff.mpr (by simp [hj]))
    · rw [Function.update_of_ne hd] at hj; exact h.mem_ready d j hj
  · have hji : j ≠ i := by rintro rfl; simp [hx] at hj
    rw [Function.update_of_ne hji] at hj
    obtain ⟨d, hd⟩ := h.ready_mem j hj
    refine ⟨d, ?_⟩
    by_cases hdc : d = c
    · subst hdc
      rw [Function.update_self, hcore]
      simpa [hji] using hq.mem_iff.mp hd
    · rw [Function.update_of_ne hdc]; exact hd
  · by_cases hd : d = c
    · subst hd; rw [Function.update_self, hcore]; exact (List.nodup_cons.mp hnd).2
    · rw [Function.update_of_ne hd]; exact h.nodup d

/-- A ready task moves from the head of one queue to the end of another. -/
theorem Queued.move (h : Queued rt cores) {donor : CoreState n} {d : Fin m} {rest : List (Fin n)} (hdc : d ≠ c)
    (hq : (cores d).readyQueue = i :: rest) (hx : x.state = .ready) (hxc : x.assignedCore = c)
    (hdonor : donor.readyQueue = rest) (hcore : core.readyQueue = (cores c).readyQueue ++ [i]) :
    Queued (Function.update rt i x) (Function.update (Function.update cores d donor) c core) := by
  have hpop : Queued (Function.update rt i { x with state := .pending }) (Function.update cores d donor) :=
    h.pop (by rw [hq]) (by simp) hdonor
  have hpush : Queued (Function.update (Function.update rt i { x with state := .pending }) i x)
      (Function.update (Function.update cores d donor) c core) :=
    hpop.push (by simp) hx hxc (by rw [Function.update_of_ne hdc.symm]; exact hcore)
  simpa using hpush

end Queued

/-! ## The frame of a step -/

/-- A step that updates task `i` to `x` and adds entries of that task. -/
structure Touch (s s' : Engine n m) (i : Fin n) (x : RuntimeTask) (new : List TraceEntry) : Prop where
  runtimes : s'.runtimes = Function.update s.runtimes i x
  trace : s'.traceEntries = s.traceEntries ++ new
  id : x.id = (s.runtimes i).id
  mine : ∀ e ∈ new, e.taskId = some (s.runtimes i).id
  tick : s'.tick = s.tick

/-- A step that changes the view of one task by `R` and leaves the views of the others. -/
def Changes (R : View → View → Prop) (i : Fin n) (s s' : Engine n m) : Prop :=
  R (s.view i) (s'.view i) ∧ ∀ j, j ≠ i → s'.view j = s.view j

/-- Different tasks have different ids. -/
def Engine.Ids (s : Engine n m) : Prop := ∀ i j, (s.runtimes i).id = (s.runtimes j).id → i = j

section Touch

variable {s s' : Engine n m} {i : Fin n} {x : RuntimeTask} {new : List TraceEntry}

theorem Touch.view_self (h : Touch s s' i x new) : s'.view i = (x, (s.view i).2 ++ new.map TraceEntry.event) := by
  have hnew : events (s.runtimes i).id new = new.map TraceEntry.event := by
    unfold events
    rw [List.filter_eq_self.mpr (by simpa using h.mine)]
  simp [Engine.view, h.runtimes, h.trace, h.id, hnew]

theorem Touch.view_ne (h : Touch s s' i x new) (hids : s.Ids) {j : Fin n} (hj : j ≠ i) : s'.view j = s.view j := by
  have hnew : events (s.runtimes j).id new = [] := by
    unfold events
    rw [List.filter_eq_nil_iff.mpr, List.map_nil]
    intro e he
    have hne : (s.runtimes i).id ≠ (s.runtimes j).id := fun h => hj (hids i j h).symm
    simpa [h.mine e he] using hne
  simp [Engine.view, h.runtimes, h.trace, Function.update_of_ne hj, hnew]

theorem Touch.changes {R : View → View → Prop} (h : Touch s s' i x new) (hids : s.Ids)
    (hR : R (s.view i) (x, (s.view i).2 ++ new.map TraceEntry.event)) : Changes R i s s' :=
  ⟨by rw [h.view_self]; exact hR, fun _ hj => h.view_ne hids hj⟩

theorem Changes.all {R : View → View → Prop} (h : Changes R i s s') (hrefl : ∀ v, R v v) (j : Fin n) :
    R (s.view j) (s'.view j) := by
  by_cases hj : j = i
  · subst hj; exact h.1
  · rw [h.2 j hj]; exact hrefl _

theorem Touch.ids (h : Touch s s' i x new) (hids : s.Ids) : s'.Ids := by
  have hid : ∀ j, (s'.runtimes j).id = (s.runtimes j).id := by
    intro j
    rw [h.runtimes]
    by_cases hj : j = i
    · subst hj; simp [h.id]
    · simp [Function.update_of_ne hj]
  intro j k hjk
  exact hids j k (by rw [← hid, ← hid]; exact hjk)

end Touch

/-! ## Scheduling steps -/

/-- A step that executes nothing: its entries are of the current tick and no counter of a core grows. -/
structure Quiet (s s' : Engine n m) : Prop where
  tick : s'.tick = s.tick
  order : s'.completionOrder = s.completionOrder
  completed : s'.completed = s.completed
  trace : ∃ new, s'.traceEntries = s.traceEntries ++ new ∧
    ∀ e ∈ new, e.tick = s.tick ∧ e.kind ≠ .tick ∧ e.kind ≠ .idle
  counters : ∀ c, (s'.cores c).currentQuantum ≤ (s.cores c).currentQuantum ∧
    (s'.cores c).currentGroupRunTicks ≤ (s.cores c).currentGroupRunTicks

section Quiet

variable {s s' s'' : Engine n m}

theorem Quiet.refl (s : Engine n m) : Quiet s s :=
  ⟨rfl, rfl, rfl, ⟨[], by simp, by simp⟩, fun _ => ⟨le_refl _, le_refl _⟩⟩

theorem Quiet.trans (h : Quiet s s') (h' : Quiet s' s'') : Quiet s s'' := by
  obtain ⟨new, hnew, htick⟩ := h.trace
  obtain ⟨new', hnew', htick'⟩ := h'.trace
  refine ⟨h'.tick.trans h.tick, h'.order.trans h.order, h'.completed.trans h.completed,
    ⟨new ++ new', by rw [hnew', hnew, List.append_assoc], fun e he => ?_⟩, fun c => ?_⟩
  · rcases List.mem_append.mp he with he | he
    · exact htick e he
    · rw [← h.tick]; exact htick' e he
  · exact ⟨le_trans (h'.counters c).1 (h.counters c).1, le_trans (h'.counters c).2 (h.counters c).2⟩

theorem counters_update (cores : Fin m → CoreState n) (c : Fin m) (core : CoreState n)
    (hq : core.currentQuantum ≤ (cores c).currentQuantum)
    (hr : core.currentGroupRunTicks ≤ (cores c).currentGroupRunTicks) (d : Fin m) :
    (Function.update cores c core d).currentQuantum ≤ (cores d).currentQuantum ∧
      (Function.update cores c core d).currentGroupRunTicks ≤ (cores d).currentGroupRunTicks := by
  by_cases hd : d = c
  · subst hd; simp [hq, hr]
  · simp [Function.update_of_ne hd]

/-- Scheduling adds no `tick` or `idle` entry. -/
theorem Quiet.cells_eq (h : Quiet s s') (c : CoreId) (τ : Nat) :
    cells c τ s'.traceEntries = cells c τ s.traceEntries := by
  obtain ⟨new, hnew, htick⟩ := h.trace
  have hzero : cells c τ new = 0 := by
    simp only [cells, List.countP_eq_zero, decide_eq_true_eq, not_and]
    intro e he hk
    obtain ⟨-, h₁, h₂⟩ := htick e he
    exact absurd hk (by simp [h₁, h₂])
  rw [hnew]
  unfold cells at hzero ⊢
  rw [List.countP_append, hzero, Nat.add_zero]

/-- A loop over all tasks whose body changes the task it visits by `R`. -/
theorem taskLoop_ok {body : Engine n m → Fin n → Except SimError (Engine n m)} {P : Engine n m → Prop}
    {R : Nat → View → View → Prop}
    (hbody : ∀ {s s' i}, P s → body s i = .ok s' → P s' ∧ Quiet s s' ∧ Changes (R s.tick) i s s') (hp : P s)
    (h : (List.finRange n).foldlM body s = .ok s') :
    P s' ∧ Quiet s s' ∧ ∀ i, R s.tick (s.view i) (s'.view i) := by
  obtain ⟨⟨hp', hq⟩, hview, -⟩ := foldlM_pointwise (v := fun i x => Engine.view x i) (R := fun _ => R s.tick)
    (P := fun x => P x ∧ Quiet s x) (List.nodup_finRange n) ⟨hp, Quiet.refl s⟩
    (fun i _ a b ⟨ha, hq⟩ hb => by
      obtain ⟨hb', hq', hc⟩ := hbody ha hb
      rw [hq.tick] at hc
      exact ⟨⟨hb', hq.trans hq'⟩, hc.1⟩)
    (fun i _ a b j ⟨ha, _⟩ hb hj => (hbody ha hb).2.2.2 j hj) h
  exact ⟨hp', hq, fun i => hview i (List.mem_finRange i)⟩

end Quiet

section Dispatch

variable (scenario : ScenarioOwned) (c : Fin m) (i : Fin n) (queue : List (Fin n)) (s : Engine n m)

theorem dispatchTask_touch : Touch s (dispatchTask scenario c i queue s) i (dispatched s.tick c (s.runtimes i))
    [taskEntry scenario s.tick .dispatch (s.runtimes i) c] :=
  ⟨rfl, rfl, rfl, by simp [taskEntry], rfl⟩

theorem dispatchTask_quiet : Quiet s (dispatchTask scenario c i queue s) := by
  refine ⟨rfl, rfl, rfl, ⟨_, rfl, by simp [taskEntry]⟩, counters_update _ _ _ (Nat.zero_le _) ?_⟩
  show (if _ then 0 else (s.cores c).currentGroupRunTicks) ≤ _
  split <;> simp

end Dispatch

/-- The loop over the blocked tasks, for one task. -/
inductive Unblock (t : Nat) : View → View → Prop
  | keep (x : View) (hs : x.1.state ≠ .blocked) : Unblock t x x
  | wake (x y : View) (hs : x.1.state = .blocked) (h : Wake t x y) : Unblock t x y

/-- The loop over the arrivals, for one task. -/
inductive Arrive (t : Nat) : View → View → Prop
  | keep (x : View) (hp : ¬(x.1.state = .pending ∧ x.1.arrivalTick = t)) : Arrive t x x
  | arrive (x : RuntimeTask) (ev : List Event) (c : CoreId) (hs : x.state = .pending) (ha : x.arrivalTick = t) :
      Arrive t (x, ev) ({ x with assignedCore := c, state := .ready }, ev ++ [⟨.arrival, t, some c⟩])

theorem Unblock.info_eq {t : Nat} {x y : View} (h : Unblock t x y) : y.1.toTaskInfo = x.1.toTaskInfo := by
  cases h with
  | keep => rfl
  | wake _ hs h => exact h.info_eq

theorem Arrive.info_eq {t : Nat} {x y : View} (h : Arrive t x y) : y.1.toTaskInfo = x.1.toTaskInfo := by
  cases h <;> rfl

/-- The two loops together are the first stage of a tick. -/
theorem Wake.of_arrive {t : Nat} {x y z : View} (h : Unblock t x y) (h' : Arrive t y z) : Wake t x z := by
  cases h with
  | keep hs =>
    cases h' with
    | keep _ hp => exact .keep x.1 x.2 hs hp
    | arrive x ev c hp ha => exact .arrive x ev c hp ha
  | wake _ hs h =>
    have hy : y.1.state ≠ .pending := by
      cases h with
      | keep => simpa using hs ▸ (by simp : TaskState.blocked ≠ .pending)
      | arrive => simp
      | wake => simp
      | sleep _ _ hb => simp [hb]
    cases h' with
    | keep => exact h
    | arrive x ev c hs ha => exact absurd hs hy

theorem Preempt.trans {t : Nat} {x y z : View} (h : Preempt t x y) (h' : Preempt t y z) : Preempt t x z := by
  cases h with
  | keep => exact h'
  | preempt x ev hs =>
    cases h' with
    | keep => exact .preempt x ev hs
    | preempt _ _ hr => simp at hr

theorem Assign.trans {t : Nat} {x y z : View} (h : Assign t x y) (h' : Assign t y z) : Assign t x z := by
  cases h with
  | keep => exact h'
  | move x ev c hs =>
    cases h' with
    | keep => exact .move x ev c hs
    | move _ _ c' => exact .move x ev c' hs
    | dispatch _ _ c' => exact .dispatch x ev c' hs
  | dispatch x ev c hs =>
    cases h' with
    | keep => exact .dispatch x ev c hs
    | move _ _ _ hr => simp [dispatched] at hr
    | dispatch _ _ _ hr => simp [dispatched] at hr

/-! ## Executing a current task -/

/-- The core after its current task has executed a tick. -/
def CoreState.after (core : CoreState n) : Outcome → CoreState n
  | .running =>
    { core with currentQuantum := core.currentQuantum + 1, currentGroupRunTicks := core.currentGroupRunTicks + 1 }
  | .complete => { readyQueue := core.readyQueue }
  | .block => { readyQueue := core.readyQueue }

@[simp] theorem CoreState.after_readyQueue (core : CoreState n) (outcome : Outcome) :
    (core.after outcome).readyQueue = core.readyQueue := by
  cases outcome <;> rfl

/-- The entries of an executed tick; a completion is recorded by the caller. -/
def execEntries (scenario : ScenarioOwned) (t : Nat) (c : CoreId) (x u : RuntimeTask) (outcome : Outcome) :
    List TraceEntry :=
  taskEntry scenario t .tick x c :: if outcome = .block then [taskEntry scenario (t + 1) .block u c] else []

/-- Core `c` has executed its current task `i`, which became `u`. -/
structure Executed (scenario : ScenarioOwned) (policy : PolicyKind) (c : Fin m) (i : Fin n) (outcome : Outcome)
    (u : RuntimeTask) (s s' : Engine n m) : Prop where
  charged : ∃ y z, chargeTick s.tick (s.runtimes i) = .ok y ∧ policy.onTaskTick y = .ok z ∧
    settleTask s.tick z = .ok (outcome, u)
  runtimes : s'.runtimes = Function.update s.runtimes i u
  cores : s'.cores = Function.update s.cores c ((s.cores c).after outcome)
  trace : s'.traceEntries = s.traceEntries ++ execEntries scenario s.tick c (s.runtimes i) u outcome
  order : s'.completionOrder = s.completionOrder
  completed : s'.completed = s.completed + if outcome = .complete then 1 else 0
  tick : s'.tick = s.tick

section Executed

variable {scenario : ScenarioOwned} {policy : PolicyKind} {c : Fin m} {i : Fin n} {outcome : Outcome}
  {u : RuntimeTask} {s s' : Engine n m}

theorem executeCurrent_ok (h : executeCurrent scenario policy c i s = .ok (outcome, s')) :
    ∃ u, Executed scenario policy c i outcome u s s' := by
  simp only [executeCurrent, bind_eq_ok, addChecked_eq_ok, Prod.exists] at h
  obtain ⟨y, hy, q, ⟨-, rfl⟩, g, ⟨-, rfl⟩, z, hz, o, u, hu, h⟩ := h
  cases o <;> simp only [Except.ok.injEq, Prod.mk.injEq] at h <;> obtain ⟨rfl, rfl⟩ := h <;>
    exact ⟨u, ⟨y, z, hy, hz, hu⟩, by simp, by simp [CoreState.after], by simp [execEntries], rfl, rfl, rfl⟩

/-- What an execution leaves of a running task. -/
theorem Executed.frame (h : Executed scenario policy c i outcome u s s') (hs : (s.runtimes i).state = .running) :
    u.toTaskInfo = (s.runtimes i).toTaskInfo ∧ u.assignedCore = (s.runtimes i).assignedCore ∧
      u.state = outcome.state ∧ u.firstDispatchTick = (s.runtimes i).firstDispatchTick := by
  obtain ⟨y, z, hy, hz, hu⟩ := h.charged
  obtain ⟨-, -, -, d, rfl, -⟩ := chargeTick_onTaskTick hy hz
  have hset := settleTask_settled (by exact hs) hu
  exact ⟨hset.info, hset.core, hset.state, hset.first⟩

theorem Executed.touch (h : Executed scenario policy c i outcome u s s') (hs : (s.runtimes i).state = .running) :
    Touch s s' i u (execEntries scenario s.tick c (s.runtimes i) u outcome) := by
  have hid : u.id = (s.runtimes i).id := congrArg TaskInfo.id (h.frame hs).1
  refine ⟨h.runtimes, h.trace, hid, fun e he => ?_, h.tick⟩
  simp only [execEntries, List.mem_cons] at he
  rcases he with rfl | he
  · rfl
  · split at he
    · obtain rfl := List.mem_singleton.mp he
      simp [taskEntry, hid]
    · simp at he

/-- The current task stays current exactly when it keeps running. -/
theorem Executed.slotted (h : Executed scenario policy c i outcome u s s') (hp : Slotted s.runtimes s.cores)
    (hc : (s.cores c).current = some i) : Slotted s'.runtimes s'.cores := by
  obtain ⟨hr, hcore⟩ := hp.current_running c i hc
  obtain ⟨-, hu, hst, -⟩ := h.frame hr
  rw [h.runtimes, h.cores]
  cases outcome with
  | running => exact hp.take (Or.inr hc) hst (hu.trans hcore) hc
  | complete => exact hp.release hc (by simp [hst, Outcome.state]) rfl
  | block => exact hp.release hc (by simp [hst, Outcome.state]) rfl

theorem Executed.queued (h : Executed scenario policy c i outcome u s s') (hq : Queued s.runtimes s.cores)
    (hr : (s.runtimes i).state = .running) : Queued s'.runtimes s'.cores := by
  obtain ⟨-, -, hst, -⟩ := h.frame hr
  rw [h.runtimes, h.cores]
  refine (hq.setTask (by simp [hr]) ?_).setCore (CoreState.after_readyQueue _ _)
  cases outcome <;> simp [hst, Outcome.state]

/-- One `tick` entry of core `c` at the current tick. -/
theorem Executed.cells_eq (h : Executed scenario policy c i outcome u s s') (d : CoreId) (τ : Nat) :
    cells d τ s'.traceEntries = cells d τ s.traceEntries + if d = c ∧ τ = s.tick then 1 else 0 := by
  rw [h.trace]
  unfold cells
  rw [List.countP_append]
  congr 1
  -- a `block` entry is neither a `tick` nor an `idle` entry
  have hhead : execEntries scenario s.tick c (s.runtimes i) u outcome =
      [taskEntry scenario s.tick .tick (s.runtimes i) c] ++
        if outcome = .block then [taskEntry scenario (s.tick + 1) .block u c] else [] := rfl
  rw [hhead, List.countP_append]
  have htail : List.countP (fun e : TraceEntry => decide ((e.kind = .tick ∨ e.kind = .idle) ∧ e.coreId = some d ∧
      e.tick = τ)) (if outcome = .block then [taskEntry scenario (s.tick + 1) .block u c] else []) = 0 := by
    split <;> simp [taskEntry]
  rw [htail, Nat.add_zero, List.countP_singleton]
  simp only [taskEntry, true_or, true_and, Option.some.injEq, decide_eq_true_eq]
  exact if_congr (and_congr eq_comm eq_comm) rfl rfl

end Executed

/-- The one entry of an idle core. -/
theorem cells_idle (c : Fin m) (t : Nat) (trace : List TraceEntry) (d : Fin m) (τ : Nat) :
    cells d τ (trace ++ [idleEntry t c]) = cells d τ trace + if d = c ∧ τ = t then 1 else 0 := by
  unfold cells
  rw [List.countP_append, List.countP_singleton]
  simp only [idleEntry, or_true, true_and, Option.some.injEq, decide_eq_true_eq]
  congr 1
  exact if_congr (and_congr (by rw [Fin.ext_iff]; exact eq_comm) eq_comm) rfl rfl

/-! ## A whole tick -/

/-- The counters of a core that the engine increases are bounded by the tick. -/
def Engine.Counted (s : Engine n m) : Prop :=
  ∀ c, (s.cores c).currentQuantum ≤ s.tick ∧ (s.cores c).currentGroupRunTicks ≤ s.tick

/-- The execution of the dispatched state `mid`. -/
structure ExecSpec (policy : PolicyKind) (mid e : Engine n m) : Prop where
  tick : e.tick = mid.tick
  exec : ∀ i, Exec policy mid.tick (mid.view i) (e.view i)
  done : ∃ done, e.completionOrder = mid.completionOrder ++ done ∧ done.Nodup ∧
    e.completed = mid.completed + done.length ∧
    ∀ i, i ∈ done ↔ (mid.runtimes i).state = .running ∧ (e.runtimes i).state = .complete
  cells : ∀ (c : Fin m) (τ : Nat),
    cells c τ e.traceEntries = Sim.cells c τ mid.traceEntries + if τ = mid.tick then 1 else 0
  counters : ∀ c, (e.cores c).currentQuantum ≤ (mid.cores c).currentQuantum + 1 ∧
    (e.cores c).currentGroupRunTicks ≤ (mid.cores c).currentGroupRunTicks + 1

section Tick

variable {policy : PolicyKind} {s mid e : Engine n m}

/-- Scheduling followed by execution. -/
theorem TickSpec.of_exec (hq : Quiet s mid)
    (hv : ∀ i, ∃ v₁ v₂, Wake s.tick (s.view i) v₁ ∧ Preempt s.tick v₁ v₂ ∧ Assign s.tick v₂ (mid.view i))
    (hb : ∀ i, (mid.runtimes i).state = .ready → ∃ j, (mid.runtimes j).state = .running)
    (hx : ExecSpec policy mid e) : TickSpec policy s mid e := by
  obtain ⟨done, hord, hnd, hlen, hmem⟩ := hx.done
  refine ⟨hq.tick, hx.tick.trans hq.tick, hv, fun i => ?_, hb, ⟨done, ?_, hnd, ?_, hmem⟩, fun c τ => ?_⟩
  · rw [← hq.tick]; exact hx.exec i
  · rw [hord, hq.order]
  · rw [hlen, hq.completed]
  · rw [hx.cells, hq.cells_eq, hq.tick]

theorem Quiet.counted (hq : Quiet s mid) (hc : s.Counted) : mid.Counted := by
  intro c
  have h₁ := hq.counters c
  have h₂ := hc c
  have h₃ := hq.tick
  omega

theorem ExecSpec.counted (hx : ExecSpec policy mid e) (hq : Quiet s mid) (hc : s.Counted) :
    Engine.Counted { e with tick := e.tick + 1 } := by
  intro c
  have h₁ := hx.counters c
  have h₂ := hq.counted hc c
  have h₃ := hx.tick
  simp only
  omega

end Tick

end Exasphere.Sim

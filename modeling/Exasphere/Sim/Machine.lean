import Mathlib.Data.Finset.Card
import Mathlib.Data.Finset.Range
import Exasphere.Sim.Life

/-!
# Runs of a simulation loop

Both engines iterate "schedule, execute, advance the tick" until every task is complete. A `Machine` is such a loop. It
is `Lawful` under an invariant of its own when every tick meets `TickSpec`: each task goes through the four stages of
`Life.lean`, each core adds one `tick` or `idle` entry, some task runs when one is ready, and the completed tasks are
appended to the completion order.

From these laws alone follow, for every reachable state, the lives of all tasks (`Start.life`), the completion order
(`Ledger`) and one entry per core and tick (`Start.cells`).
-/

namespace Exasphere.Sim

open Exasphere.Lib

variable {n m : Nat}

/-- The two halves of an iteration of a simulation loop. -/
structure Machine (n m : Nat) where
  schedule : Engine n m → Except SimError (Engine n m)
  execute : Engine n m → Except SimError (Engine n m)

def Machine.step (M : Machine n m) (s : Engine n m) : Except SimError (Engine n m) := do
  let s ← M.schedule s
  let s ← M.execute s
  advanceTick s

def singleCore (scenario : ScenarioOwned) (policy : PolicyKind) : Machine n 1 :=
  ⟨scheduleSingleCore scenario policy, executeSingleCore scenario policy⟩

def multicore (scenario : ScenarioOwned) (policy : PolicyKind) : Machine n m :=
  ⟨scheduleMulticore scenario policy, executeMulticore scenario policy⟩

/-- The state after `k` iterations of the loop. -/
inductive Machine.Run (M : Machine n m) (s₀ : Engine n m) : Nat → Engine n m → Prop
  | zero : Run M s₀ 0 s₀
  | succ {k : Nat} {s s' : Engine n m} (h : Run M s₀ k s) (hc : s.completed < n) (hs : M.step s = .ok s') :
      Run M s₀ (k + 1) s'

/-- The state of iteration `k` after dispatch, before any task executes. -/
def Machine.Mid (M : Machine n m) (s₀ : Engine n m) (k : Nat) (mid : Engine n m) : Prop :=
  ∃ s, M.Run s₀ k s ∧ s.completed < n ∧ M.schedule s = .ok mid

theorem Machine.Run.unique {M : Machine n m} {s₀ s s' : Engine n m} {k : Nat} (h : M.Run s₀ k s)
    (h' : M.Run s₀ k s') : s = s' := by
  induction k generalizing s s' with
  | zero => cases h; cases h'; rfl
  | succ k ih =>
    obtain _ | ⟨h, -, hs⟩ := h
    obtain _ | ⟨h', -, hs'⟩ := h'
    obtain rfl := ih h h'
    simpa [hs] using hs'

theorem Machine.Mid.unique {M : Machine n m} {s₀ mid mid' : Engine n m} {k : Nat} (h : M.Mid s₀ k mid)
    (h' : M.Mid s₀ k mid') : mid = mid' := by
  obtain ⟨s, hr, -, hs⟩ := h
  obtain ⟨s', hr', -, hs'⟩ := h'
  obtain rfl := hr.unique hr'
  simpa [hs] using hs'

/-- An iteration, taken apart. -/
theorem Machine.step_ok {M : Machine n m} {s s' : Engine n m} (h : M.step s = .ok s') :
    ∃ mid e, M.schedule s = .ok mid ∧ M.execute mid = .ok e ∧ e.tick + 1 < 2 ^ 32 ∧
      s' = { e with tick := e.tick + 1 } := by
  simp only [Machine.step, advanceTick, bind_eq_ok, addChecked_eq_ok, Except.ok.injEq] at h
  obtain ⟨mid, hmid, e, he, t, ⟨hlt, rfl⟩, rfl⟩ := h
  exact ⟨mid, e, hmid, he, hlt, rfl⟩

/-- The main loop returns the first reachable state in which every task is complete. -/
theorem runTicks_run {M : Machine n m} {s₀ s s' : Engine n m} {k fuel : Nat} (hr : M.Run s₀ k s)
    (h : runTicks M.step fuel s = .ok s') : ∃ k', M.Run s₀ k' s' ∧ k ≤ k' ∧ n ≤ s'.completed := by
  induction fuel generalizing k s with
  | zero => simp [runTicks] at h
  | succ fuel ih =>
    simp only [runTicks] at h
    split at h
    next hc =>
      obtain ⟨s₁, h₁, h₂⟩ := bind_eq_ok.mp h
      obtain ⟨k', hr', hk, hn⟩ := ih (.succ hr hc h₁) h₂
      exact ⟨k', hr', by omega, hn⟩
    next hc =>
      obtain rfl : s = s' := by simpa using h
      exact ⟨k, hr, le_refl k, by omega⟩

/-! ## Evaluating a run -/

/-- The state after `k` iterations, computed. -/
def Machine.after (M : Machine n m) (s₀ : Engine n m) : Nat → Except SimError (Engine n m)
  | 0 => .ok s₀
  | k + 1 => do
    let s ← M.after s₀ k
    if s.completed < n then M.step s else .error .incompleteSimulation

/-- Whether the dispatched state of iteration `k` satisfies `p`, computed. -/
def Machine.checkMid (M : Machine n m) (s₀ : Engine n m) (k : Nat) (p : Engine n m → Bool) : Bool :=
  okAnd (fun s => decide (s.completed < n) && okAnd p (M.schedule s)) (M.after s₀ k)

theorem Machine.Run.of_after {M : Machine n m} {s₀ s : Engine n m} {k : Nat} (h : M.after s₀ k = .ok s) :
    M.Run s₀ k s := by
  induction k generalizing s with
  | zero =>
    obtain rfl : s₀ = s := by simpa [Machine.after] using h
    exact .zero
  | succ k ih =>
    obtain ⟨a, ha, h⟩ := bind_eq_ok.mp h
    split at h
    next hc => exact .succ (ih ha) hc h
    next => cases h

theorem Machine.Run.after_eq {M : Machine n m} {s₀ s : Engine n m} {k : Nat} (h : M.Run s₀ k s) :
    M.after s₀ k = .ok s := by
  induction h with
  | zero => rfl
  | succ _ hc hs ih => simp [Machine.after, ih, hc, hs]

theorem Machine.Mid.of_check {M : Machine n m} {s₀ : Engine n m} {k : Nat} {p : Engine n m → Bool}
    (h : M.checkMid s₀ k p = true) : ∃ mid, M.Mid s₀ k mid ∧ p mid = true := by
  obtain ⟨s, hs, h⟩ := okAnd_eq_true.mp h
  obtain ⟨hc, h⟩ := Bool.and_eq_true_iff.mp h
  obtain ⟨mid, hmid, hp⟩ := okAnd_eq_true.mp h
  exact ⟨mid, ⟨s, .of_after hs, by simpa using hc, hmid⟩, hp⟩

/-! ## The laws of a tick -/

/-- A task and its events in a state. -/
def Engine.view (s : Engine n m) (i : Fin n) : View := (s.runtimes i, events (s.runtimes i).id s.traceEntries)

/-- The number of `tick` and `idle` entries of a core at a tick. -/
def cells (c : CoreId) (τ : Nat) (trace : List TraceEntry) : Nat :=
  trace.countP (fun e => decide ((e.kind = .tick ∨ e.kind = .idle) ∧ e.coreId = some c ∧ e.tick = τ))

/-- What one iteration does, from `s` over the dispatched state `mid` to the executed state `e`. -/
structure TickSpec (policy : PolicyKind) (s mid e : Engine n m) : Prop where
  tick_mid : mid.tick = s.tick
  tick_end : e.tick = s.tick
  sched : ∀ i, ∃ v₁ v₂, Wake s.tick (s.view i) v₁ ∧ Preempt s.tick v₁ v₂ ∧ Assign s.tick v₂ (mid.view i)
  exec : ∀ i, Exec policy s.tick (mid.view i) (e.view i)
  busy : ∀ i, (mid.runtimes i).state = .ready → ∃ j, (mid.runtimes j).state = .running
  done : ∃ done, e.completionOrder = s.completionOrder ++ done ∧ done.Nodup ∧
    e.completed = s.completed + done.length ∧
    ∀ i, i ∈ done ↔ (mid.runtimes i).state = .running ∧ (e.runtimes i).state = .complete
  cells : ∀ (c : Fin m) (τ : Nat),
    cells c τ e.traceEntries = Sim.cells c τ s.traceEntries + if τ = s.tick then 1 else 0

/-- A loop whose iterations keep `Inv` and meet `TickSpec`. -/
structure Lawful (M : Machine n m) (policy : PolicyKind) (Inv : Engine n m → Prop) : Prop where
  spec : ∀ {s mid e : Engine n m}, Inv s → M.schedule s = .ok mid → M.execute mid = .ok e → TickSpec policy s mid e
  keeps : ∀ {s mid e : Engine n m}, Inv s → M.schedule s = .ok mid → M.execute mid = .ok e →
    Inv { e with tick := e.tick + 1 }

/-- The completion order lists the complete tasks by completion time. -/
structure Ledger (s : Engine n m) : Prop where
  length : s.completed = s.completionOrder.length
  nodup : s.completionOrder.Nodup
  mem : ∀ i, i ∈ s.completionOrder ↔ (s.runtimes i).state = .complete
  sorted : s.completionOrder.Pairwise (fun i j => ∀ a b, (s.runtimes i).completionTime = some a →
    (s.runtimes j).completionTime = some b → a ≤ b)

/-- A state from which a run starts. -/
structure Start (info : Fin n → TaskInfo) (s₀ : Engine n m) : Prop where
  valid : ∀ i, (info i).Valid
  life : ∀ i, Life (info i) 1 0 0 0 (s₀.runtimes i) (events (s₀.runtimes i).id s₀.traceEntries)
  tick : s₀.tick = 0
  trace : s₀.traceEntries = []
  ledger : Ledger s₀

/-! ## Stages and states -/

section Stages

variable {t : Nat} {x y : View}

/-- A complete task goes through the stages unchanged. -/
theorem Wake.of_complete (h : Wake t x y) (hs : x.1.state = .complete) : y = x := by
  cases h <;> simp_all

theorem Preempt.of_complete (h : Preempt t x y) (hs : x.1.state = .complete) : y = x := by
  cases h <;> simp_all

theorem Assign.of_complete (h : Assign t x y) (hs : x.1.state = .complete) : y = x := by
  cases h <;> simp_all

theorem Exec.of_complete {policy : PolicyKind} (h : Exec policy t x y) (hs : x.1.state = .complete) : y = x := by
  cases h <;> simp_all

/-- Scheduling completes no task. -/
theorem complete_of_sched {v₁ v₂ : View} (h₁ : Wake t x v₁) (h₂ : Preempt t v₁ v₂) (h₃ : Assign t v₂ y)
    (hs : y.1.state = .complete) : x.1.state = .complete := by
  have s₂ : v₂.1.state = .complete := by cases h₃ <;> simp_all [dispatched]
  have s₁ : v₁.1.state = .complete := by cases h₂ <;> simp_all
  cases h₁ with
  | keep => exact s₁
  | arrive => simp at s₁
  | wake => simp at s₁
  | sleep _ _ hb => simp [hb] at s₁

/-- Only a running task completes, at the end of the tick. -/
theorem Exec.complete_iff {policy : PolicyKind} (h : Exec policy t x y) (hs : y.1.state = .complete) :
    (x.1.state = .complete ∧ y = x) ∨ (x.1.state = .running ∧ y.1.completionTime = some (t + 1)) := by
  cases h with
  | rest x ev hr => exact Or.inl ⟨hs, rfl⟩
  | run x y z u ev outcome hr hy hz hu =>
    obtain ⟨-, -, -, d, rfl, -⟩ := chargeTick_onTaskTick hy hz
    have hset := settleTask_settled (by exact hr) hu
    have ho : outcome = .complete := by
      have hst := hset.state
      cases outcome <;> simp_all [Outcome.state]
    exact Or.inr ⟨hr, hset.complete ho⟩

/-- The stages leave the fixed part of a task. -/
theorem Wake.info_eq (h : Wake t x y) : y.1.toTaskInfo = x.1.toTaskInfo := by
  cases h with
  | keep => rfl
  | arrive => rfl
  | wake x y ev c hs hw hy => exact (advancePhaseAfterWake_frame hy).1
  | sleep => rfl

/-- Waking and arriving leave the counters of a task. -/
theorem Wake.counters_eq (h : Wake t x y) : y.1.totalExecuted = x.1.totalExecuted ∧ y.1.vruntime = x.1.vruntime ∧
    y.1.firstDispatchTick = x.1.firstDispatchTick := by
  cases h with
  | keep => exact ⟨rfl, rfl, rfl⟩
  | arrive => exact ⟨rfl, rfl, rfl⟩
  | wake x y ev c hs hw hy =>
    obtain ⟨k, p, rfl⟩ := advancePhaseAfterWake_eq hy
    exact ⟨rfl, rfl, rfl⟩
  | sleep => exact ⟨rfl, rfl, rfl⟩

theorem Preempt.info_eq (h : Preempt t x y) : y.1.toTaskInfo = x.1.toTaskInfo := by
  cases h <;> rfl

theorem Assign.info_eq (h : Assign t x y) : y.1.toTaskInfo = x.1.toTaskInfo := by
  cases h <;> rfl

theorem Exec.info_eq {policy : PolicyKind} (h : Exec policy t x y) : y.1.toTaskInfo = x.1.toTaskInfo := by
  cases h with
  | rest => rfl
  | run x y z u ev outcome hr hy hz hu =>
    obtain ⟨-, -, -, d, rfl, -⟩ := chargeTick_onTaskTick hy hz
    exact (settleTask_settled (by exact hr) hu).info

end Stages

section Tick

variable {policy : PolicyKind} {s mid e : Engine n m} {i : Fin n}

theorem TickSpec.info_eq (ht : TickSpec policy s mid e) (i : Fin n) :
    (e.runtimes i).toTaskInfo = (s.runtimes i).toTaskInfo := by
  obtain ⟨v₁, v₂, h₁, h₂, h₃⟩ := ht.sched i
  exact (ht.exec i).info_eq.trans (h₃.info_eq.trans (h₂.info_eq.trans h₁.info_eq))

/-- A tick leaves a complete task as it is. -/
theorem TickSpec.of_complete (ht : TickSpec policy s mid e) (hi : (s.runtimes i).state = .complete) :
    mid.runtimes i = s.runtimes i ∧ e.runtimes i = s.runtimes i := by
  obtain ⟨v₁, v₂, h₁, h₂, h₃⟩ := ht.sched i
  obtain rfl := h₁.of_complete hi
  obtain rfl := h₂.of_complete hi
  have h₃ := h₃.of_complete hi
  have hm : mid.runtimes i = s.runtimes i := congrArg Prod.fst h₃
  have h₄ := (ht.exec i).of_complete (by rw [h₃]; exact hi)
  have he : e.runtimes i = mid.runtimes i := congrArg Prod.fst h₄
  exact ⟨hm, he.trans hm⟩

/-- A task complete after a tick was complete before, or it was running and completed with the tick. -/
theorem TickSpec.complete_cases (ht : TickSpec policy s mid e) (hi : (e.runtimes i).state = .complete) :
    (s.runtimes i).state = .complete ∨
      ((mid.runtimes i).state = .running ∧ (e.runtimes i).completionTime = some (s.tick + 1)) := by
  rcases (ht.exec i).complete_iff hi with ⟨hm, -⟩ | h
  · obtain ⟨v₁, v₂, h₁, h₂, h₃⟩ := ht.sched i
    exact Or.inl (complete_of_sched h₁ h₂ h₃ hm)
  · exact Or.inr h

end Tick

/-! ## Reachable states -/

section Runs

variable {M : Machine n m} {policy : PolicyKind} {Inv : Engine n m → Prop} {info : Fin n → TaskInfo}
  {s₀ : Engine n m}

open Classical in
/-- The number of ticks before `k` at which task `i` was ready and did not execute. -/
noncomputable def Machine.waited (M : Machine n m) (s₀ : Engine n m) (i : Fin n) (k : Nat) : Nat :=
  ((Finset.range k).filter (fun τ => ∃ mid, M.Mid s₀ τ mid ∧ (mid.runtimes i).state = .ready)).card

theorem Machine.waited_succ {i : Fin n} {k : Nat} {mid : Engine n m} (h : M.Mid s₀ k mid) :
    M.waited s₀ i (k + 1) = M.waited s₀ i k + if (mid.runtimes i).state = .ready then 1 else 0 := by
  have hiff : (∃ mid', M.Mid s₀ k mid' ∧ (mid'.runtimes i).state = .ready) ↔ (mid.runtimes i).state = .ready :=
    ⟨fun ⟨mid', h', hr⟩ => by rwa [h.unique h'], fun hr => ⟨mid, h, hr⟩⟩
  unfold Machine.waited
  rw [Finset.range_add_one, Finset.filter_insert]
  by_cases hr : (mid.runtimes i).state = .ready
  · rw [if_pos (hiff.mpr hr), if_pos hr, Finset.card_insert_of_notMem (by simp)]
  · rw [if_neg (fun h => hr (hiff.mp h)), if_neg hr, Nat.add_zero]

/-- The invariant and the tick counter along a run. -/
theorem Start.inv (hM : Lawful M policy Inv) (hs : Start info s₀) (h₀ : Inv s₀) {k : Nat} {s : Engine n m}
    (h : M.Run s₀ k s) : Inv s ∧ s.tick = k := by
  induction h with
  | zero => exact ⟨h₀, hs.tick⟩
  | succ _ _ hstep ih =>
    obtain ⟨mid, e, hmid, he, -, rfl⟩ := Machine.step_ok hstep
    refine ⟨hM.keeps ih.1 hmid he, ?_⟩
    rw [(hM.spec ih.1 hmid he).tick_end, ih.2]

/-- The lives of all tasks at the start of a tick. -/
def Lives (M : Machine n m) (info : Fin n → TaskInfo) (s₀ : Engine n m) (k : Nat) (s : Engine n m) : Prop :=
  ∀ i, Life (info i) 1 k k (M.waited s₀ i k) (s.view i).1 (s.view i).2

/-- The lives of all tasks after dispatch. -/
theorem TickSpec.life_mid {s mid e : Engine n m} {k : Nat} {waited : Nat} (hs : Start info s₀)
    (ht : TickSpec policy s mid e) (hk : s.tick = k) {i : Fin n}
    (h : Life (info i) 1 k k waited (s.view i).1 (s.view i).2) :
    Life (info i) 0 (k + 1) k waited (mid.view i).1 (mid.view i).2 := by
  subst hk
  obtain ⟨v₁, v₂, h₁, h₂, h₃⟩ := ht.sched i
  exact ((h.wake (hs.valid i) h₁).preempt h₂).assign h₃

/-- **Every task lives by the grammar in every reachable state.** -/
theorem Start.life_run (hM : Lawful M policy Inv) (hs : Start info s₀) (h₀ : Inv s₀) {k : Nat} {s : Engine n m}
    (h : M.Run s₀ k s) : Lives M info s₀ k s := by
  induction h with
  | zero =>
    intro i
    have : M.waited s₀ i 0 = 0 := by simp [Machine.waited]
    rw [this]
    exact hs.life i
  | @succ k s s' hr hc hstep ih =>
    intro i
    obtain ⟨mid, e, hmid, he, -, rfl⟩ := Machine.step_ok hstep
    obtain ⟨hinv, hk⟩ := hs.inv hM h₀ hr
    have ht := hM.spec hinv hmid he
    have hx := ht.exec i
    rw [hk] at hx
    have := (ht.life_mid hs hk (ih i)).exec (hs.valid i) hx
    rw [Machine.waited_succ ⟨s, hr, hc, hmid⟩]
    exact this

/-- The completion order along a run. -/
theorem Start.ledger_run (hM : Lawful M policy Inv) (hs : Start info s₀) (h₀ : Inv s₀) {k : Nat} {s : Engine n m}
    (h : M.Run s₀ k s) : Ledger s := by
  induction h with
  | zero => exact hs.ledger
  | @succ k s s' hr hc hstep ih =>
    obtain ⟨mid, e, hmid, he, -, rfl⟩ := Machine.step_ok hstep
    obtain ⟨hinv, hk⟩ := hs.inv hM h₀ hr
    have ht := hM.spec hinv hmid he
    have hlife := hs.life_run hM h₀ hr
    obtain ⟨done, hord, hnd, hlen, hmem⟩ := ht.done
    have hold : ∀ i ∈ s.completionOrder, e.runtimes i = s.runtimes i := fun i hi =>
      (ht.of_complete ((ih.mem i).mp hi)).2
    have hnew : ∀ i, (e.runtimes i).state = .complete ↔ (s.runtimes i).state = .complete ∨ i ∈ done := by
      refine fun i => ⟨fun hi => ?_, ?_⟩
      · exact (ht.complete_cases hi).imp id (fun h => (hmem i).mpr ⟨h.1, hi⟩)
      · rintro (hi | hi)
        · rw [(ht.of_complete hi).2]; exact hi
        · exact ((hmem i).mp hi).2
    have hdis : ∀ i ∈ done, (s.runtimes i).state ≠ .complete := by
      intro i hi hs
      have hm := ((hmem i).mp hi).1
      rw [(ht.of_complete hs).1, hs] at hm
      cases hm
    have htime : ∀ i ∈ done, (e.runtimes i).completionTime = some (k + 1) := by
      intro i hi
      rcases ht.complete_cases ((hmem i).mp hi).2 with h | ⟨-, h⟩
      · exact absurd h (hdis i hi)
      · rw [← hk]; exact h
    refine ⟨?_, ?_, ?_, ?_⟩
    · simp [hlen, hord, ih.length]
    · rw [hord, List.nodup_append]
      exact ⟨ih.nodup, hnd, fun i hi j hj hij => hdis j hj (by rw [← hij]; exact (ih.mem i).mp hi)⟩
    · intro i
      rw [hord, List.mem_append, ih.mem i]
      exact (hnew i).symm
    · rw [hord, List.pairwise_append]
      refine ⟨?_, ?_, ?_⟩
      · apply ih.sorted.imp_of_mem
        intro i j hi hj h a b ha hb
        rw [hold i hi] at ha
        rw [hold j hj] at hb
        exact h a b ha hb
      · apply List.pairwise_of_forall_mem_list
        intro i hi j hj a b ha hb
        rw [htime i hi] at ha
        rw [htime j hj] at hb
        exact le_of_eq (Option.some.inj (ha.symm.trans hb))
      · intro i hi j hj a b ha hb
        rw [hold i hi] at ha
        rw [htime j hj] at hb
        cases (hlife i).clause with
        | complete _ _ _ _ _ t htt hle =>
          have hat : a = t := Option.some.inj (ha.symm.trans htt)
          have hbt : k + 1 = b := Option.some.inj hb
          omega
        | pending hst | ready hst | running hst | blocked hst =>
          have h1 : (s.runtimes i).state = .complete := (ih.mem i).mp hi
          have h2 : (s.view i).1 = s.runtimes i := rfl
          simp [h2, h1] at hst

/-- The iterations a run has gone through. -/
theorem Machine.Run.iteration {s : Engine n m} {k τ : Nat} (h : M.Run s₀ k s) (hτ : τ < k) :
    ∃ a mid e, M.Run s₀ τ a ∧ a.completed < n ∧ M.schedule a = .ok mid ∧ M.execute mid = .ok e := by
  induction h with
  | zero => omega
  | @succ k s s' hr hc hstep ih =>
    by_cases hk : τ = k
    · subst hk
      obtain ⟨mid, e, hmid, he, -⟩ := Machine.step_ok hstep
      exact ⟨s, mid, e, hr, hc, hmid, he⟩
    · exact ih (by omega)

/-- Ticks come before the end of a run. -/
theorem Machine.Mid.lt_end {s mid : Engine n m} {k τ : Nat} (hm : M.Mid s₀ τ mid) (h : M.Run s₀ k s)
    (he : n ≤ s.completed) : τ < k := by
  obtain ⟨a, ha, hc, -⟩ := hm
  by_contra hle
  rcases Nat.lt_or_ge k τ with hlt | hge
  · obtain ⟨b, _, _, hb, hbc, -⟩ := ha.iteration hlt
    obtain rfl := hb.unique h
    omega
  · obtain rfl : τ = k := by omega
    obtain rfl := ha.unique h
    omega

/-- A task is complete in every tick from its completion on. -/
theorem Start.complete_mid (hM : Lawful M policy Inv) (hs : Start info s₀) (h₀ : Inv s₀) {k : Nat} {s : Engine n m}
    (h : M.Run s₀ k s) {i : Fin n} {t : Nat} (hi : (s.runtimes i).state = .complete)
    (ht : (s.runtimes i).completionTime = some t) {τ : Nat} {mid : Engine n m} (hm : M.Mid s₀ τ mid) (hτ : τ < k)
    (hle : t ≤ τ) : (mid.runtimes i).state = .complete := by
  induction h with
  | zero => omega
  | @succ k s s' hr hc hstep ih =>
    obtain ⟨mid', e, hmid, he, -, rfl⟩ := Machine.step_ok hstep
    obtain ⟨hinv, hk⟩ := hs.inv hM h₀ hr
    have hspec := hM.spec hinv hmid he
    rcases hspec.complete_cases hi with hcs | ⟨-, hnew⟩
    · obtain ⟨hmid', he'⟩ := hspec.of_complete hcs
      by_cases hk' : τ = k
      · subst hk'
        obtain rfl := hm.unique ⟨s, hr, hc, hmid⟩
        rw [hmid']; exact hcs
      · have ht' : (e.runtimes i).completionTime = some t := ht
        rw [he'] at ht'
        exact ih hcs ht' (by omega)
    · have ht' : (e.runtimes i).completionTime = some t := ht
      have : t = s.tick + 1 := Option.some.inj (ht'.symm.trans hnew)
      omega

/-- A task is ready only between its arrival and its completion. -/
theorem Start.ready_between (hM : Lawful M policy Inv) (hs : Start info s₀) (h₀ : Inv s₀) {k : Nat} {s : Engine n m}
    (h : M.Run s₀ k s) {i : Fin n} {t : Nat} (hi : (s.runtimes i).state = .complete)
    (ht : (s.runtimes i).completionTime = some t) {τ : Nat} {mid : Engine n m} (hm : M.Mid s₀ τ mid) (hτ : τ < k)
    (hr : (mid.runtimes i).state = .ready) : (info i).arrivalTick ≤ τ ∧ τ < t := by
  constructor
  · obtain ⟨a, mid', e, hra, hc, hmid, he⟩ := h.iteration hτ
    obtain rfl := hm.unique ⟨a, hra, hc, hmid⟩
    obtain ⟨hinv, hk⟩ := hs.inv hM h₀ hra
    have hl := (hM.spec hinv hmid he).life_mid hs hk (hs.life_run hM h₀ hra i)
    cases hl.clause with
    | ready _ _ _ hclock => simp only [Clock] at hclock; omega
    | pending hs' | running hs' | blocked hs' | complete hs' => simp [Engine.view, hr] at hs'
  · by_contra hle
    have := hs.complete_mid hM h₀ h hi ht hm hτ (by omega)
    rw [hr] at this
    cases this

/-- One `tick` or `idle` entry for each core and each tick that is over. -/
theorem Start.cells_run (hM : Lawful M policy Inv) (hs : Start info s₀) (h₀ : Inv s₀) {k : Nat} {s : Engine n m}
    (h : M.Run s₀ k s) (c : Fin m) (τ : Nat) : cells c τ s.traceEntries = if τ < k then 1 else 0 := by
  induction h with
  | zero => simp [hs.trace, cells]
  | @succ k s s' hr hc hstep ih =>
    obtain ⟨mid, e, hmid, he, -, rfl⟩ := Machine.step_ok hstep
    obtain ⟨hinv, hk⟩ := hs.inv hM h₀ hr
    have := (hM.spec hinv hmid he).cells c τ
    simp only [this, ih, hk]
    split_ifs <;> omega

end Runs

end Exasphere.Sim

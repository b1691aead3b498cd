import Exasphere.Sim.Valid

/-!
# The life of one task

Whatever the policy and the number of cores, a tick changes one task in four stages: it may arrive or wake (`Wake`), be
preempted (`Preempt`), be moved or dispatched (`Assign`), and execute (`Exec`). This module says what these stages
preserve for a task on its own; the engines are shown to be made of them in `Sim/Single.lean` and `Sim/Multi.lean`.

`Life info lo tb tr waited x ev` relates a runtime task `x` to the events `ev` the trace holds for it. A blocked task
is accounted for up to tick `tb`, a ready or running one up to `tr`; `waited` counts the ticks it spent ready without
executing, and an unfinished dispatch segment has executed at least `lo` ticks. Between ticks both clocks agree.
The events of a complete task form a word of the trace grammar (`TraceWord`).
-/

namespace Exasphere.Sim

open Exasphere.Lib

/-! ## Events and words -/

/-- A trace entry of a known task: what happened, when and where. -/
structure Event where
  kind : TraceEventKind
  tick : Nat
  core : Option CoreId
  deriving DecidableEq, Repr

def TraceEntry.event (e : TraceEntry) : Event := ⟨e.kind, e.tick, e.coreId⟩

/-- The projection of a trace to one task. -/
def events (id : Bytes) (trace : List TraceEntry) : List Event :=
  (trace.filter (fun e => e.taskId = some id)).map TraceEntry.event

@[simp] theorem events_nil (id : Bytes) : events id [] = [] := rfl

@[simp] theorem events_append (id : Bytes) (tr tr' : List TraceEntry) :
    events id (tr ++ tr') = events id tr ++ events id tr' := by
  simp [events]

@[simp] theorem events_taskEntry (scenario : ScenarioOwned) (id : Bytes) (t : Nat) (kind : TraceEventKind)
    (task : RuntimeTask) (c : CoreId) :
    events id [taskEntry scenario t kind task c] = if task.id = id then [⟨kind, t, some c⟩] else [] := by
  by_cases h : task.id = id <;> simp [events, taskEntry, TraceEntry.event, h]

@[simp] theorem events_idleEntry (id : Bytes) (t : Nat) (c : CoreId) : events id [idleEntry t c] = [] := by
  simp [events, idleEntry]

/-- A dispatch at tick `t` on core `c` followed by `k` consecutive ticks on that core. -/
def segment (c : CoreId) (t k : Nat) : List Event :=
  ⟨.dispatch, t, some c⟩ :: (List.range' t k).map (fun τ => ⟨.tick, τ, some c⟩)

theorem segment_zero (c : CoreId) (t : Nat) : segment c t 0 = [⟨.dispatch, t, some c⟩] := rfl

theorem segment_succ (c : CoreId) (t k : Nat) : segment c t (k + 1) = segment c t k ++ [⟨.tick, t + k, some c⟩] := by
  simp [segment, List.range'_concat]

/-- `(dispatch tick+ (preempt | block wakeup))*` from tick `a` to tick `e`, with the lengths of the waits. -/
inductive Closed (a : Nat) : List Nat → Nat → List Event → Prop
  | nil : Closed a [] a []
  | preempt {ws : List Nat} {e : Nat} {w : List Event} (c t k : Nat) (h : Closed a ws e w) (ht : e ≤ t) (hk : 1 ≤ k) :
      Closed a ws (t + k) (w ++ segment c t k ++ [⟨.preempt, t + k, some c⟩])
  | block {ws : List Nat} {e : Nat} {w : List Event} (c c' t k d : Nat) (h : Closed a ws e w) (ht : e ≤ t)
    (hk : 1 ≤ k) :
      Closed a (ws ++ [d]) (t + k + d)
        (w ++ segment c t k ++ [⟨.block, t + k, some c⟩, ⟨.wakeup, t + k + d, some c'⟩])

/-- `arrival (dispatch tick+ (preempt | block wakeup))* dispatch tick+ complete`, where the ticks of a segment are
consecutive on the dispatching core and the waits have the given lengths. -/
def TraceWord (arrival : Nat) (waits : List Nat) (ev : List Event) : Prop :=
  ∃ c₀ e w c t k, Closed arrival waits e w ∧ e ≤ t ∧ 1 ≤ k ∧
    ev = ⟨.arrival, arrival, some c₀⟩ :: (w ++ segment c t k ++ [⟨.complete, t + k, some c⟩])

/-! ## The invariant -/

section Invariant

variable (info : TaskInfo)

/-- In a CPU phase, with work left in it. -/
structure CpuPhase (x : RuntimeTask) (p : TaskPhase) : Prop where
  get : info.phaseList[x.phaseIndex]? = some p
  kind : p.kind = .cpu
  pos : 0 < x.phaseRemainingTicks
  le : x.phaseRemainingTicks ≤ p.ticks
  remaining : x.remainingTicks = x.phaseRemainingTicks + cpuTicks (info.phaseList.drop (x.phaseIndex + 1))
  blocked : x.blockedTime = waitTicks (info.phaseList.take x.phaseIndex)

/-- In a wait phase that is over at tick `wake`. -/
structure WaitPhase (tb : Nat) (x : RuntimeTask) (p : TaskPhase) (wake : Nat) : Prop where
  get : info.phaseList[x.phaseIndex]? = some p
  kind : p.kind = .wait
  length : x.phaseRemainingTicks = p.ticks
  remaining : x.remainingTicks = cpuTicks (info.phaseList.drop (x.phaseIndex + 1))
  wake_eq : x.wakeTick = some wake
  ge : tb ≤ wake
  blocked : x.blockedTime + (wake - tb) = waitTicks (info.phaseList.take x.phaseIndex) + p.ticks

/-- The first dispatch, if any, came after `waited` ticks at most. -/
structure FirstDispatch (waited : Nat) (x : RuntimeTask) : Prop where
  never : x.firstDispatchTick = none → x.totalExecuted = 0 ∧ x.blockedTime = 0
  bounds : ∀ f, x.firstDispatchTick = some f → info.arrivalTick ≤ f ∧ f ≤ info.arrivalTick + waited

/-- The waits that are over. -/
def doneWaits (x : RuntimeTask) : List Nat := waitList (info.phaseList.take x.phaseIndex)

/-- What holds of a task in every state. -/
structure Common (tr : Nat) (x : RuntimeTask) : Prop where
  info_eq : x.toTaskInfo = info
  work : x.totalExecuted + x.remainingTicks = info.burstTicks
  last_lt : ∀ τ, x.lastExecutionTick = some τ → τ < tr
  vruntime_le : x.vruntime ≤ CfsLike.vruntimeScale * x.totalExecuted

/-- The clock of a task that has arrived and is not complete. -/
def Clock (t waited : Nat) (x : RuntimeTask) : Prop :=
  t = info.arrivalTick + x.totalExecuted + x.blockedTime + waited

/-- The clause of the invariant for the state of the task. -/
inductive Clause (lo tb tr waited : Nat) (x : RuntimeTask) (ev : List Event) : Prop
  | pending (hs : x.state = .pending) (p : TaskPhase) (hp : CpuPhase info x p) (ht : tb ≤ info.arrivalTick)
      (hw : waited = 0) (hz : x.totalExecuted = 0 ∧ x.blockedTime = 0) (hf : x.firstDispatchTick = none)
      (hk : x.phaseIndex = 0) (hev : ev = [])
  | ready (hs : x.state = .ready) (p : TaskPhase) (hp : CpuPhase info x p) (hc : Clock info tr waited x)
      (hf : FirstDispatch info waited x) (c₀ e : Nat) (w : List Event)
      (hw : Closed info.arrivalTick (doneWaits info x) e w) (he : e ≤ tr)
      (hev : ev = ⟨.arrival, info.arrivalTick, some c₀⟩ :: w)
  | running (hs : x.state = .running) (p : TaskPhase) (hp : CpuPhase info x p) (hc : Clock info tr waited x)
      (hf : FirstDispatch info waited x) (hd : x.firstDispatchTick ≠ none) (c₀ e t k : Nat) (w : List Event)
      (hw : Closed info.arrivalTick (doneWaits info x) e w) (he : e ≤ t) (hk : lo ≤ k) (ht : t + k = tr)
      (hev : ev = ⟨.arrival, info.arrivalTick, some c₀⟩ :: (w ++ segment x.assignedCore t k))
  | blocked (hs : x.state = .blocked) (p : TaskPhase) (wake : Nat) (hp : WaitPhase info tb x p wake)
      (hc : Clock info tb waited x) (hf : FirstDispatch info waited x) (hd : x.firstDispatchTick ≠ none)
      (c₀ e c t k : Nat) (w : List Event) (hw : Closed info.arrivalTick (doneWaits info x) e w) (he : e ≤ t)
      (hk : 1 ≤ k) (hwake : wake = t + k + p.ticks)
      (hev : ev = ⟨.arrival, info.arrivalTick, some c₀⟩ :: (w ++ segment c t k ++ [⟨.block, t + k, some c⟩]))
  | complete (hs : x.state = .complete) (hr : x.remainingTicks = 0) (hb : x.blockedTime = waitTicks info.phaseList)
      (hf : FirstDispatch info waited x) (hd : x.firstDispatchTick ≠ none) (t : Nat)
      (ht : x.completionTime = some t) (hle : t ≤ tr) (hc : Clock info t waited x)
      (hev : TraceWord info.arrivalTick (waitList info.phaseList) ev)

/-- The invariant of one task. -/
structure Life (lo tb tr waited : Nat) (x : RuntimeTask) (ev : List Event) : Prop where
  common : Common info tr x
  clause : Clause info lo tb tr waited x ev
  ticks : ev.countP (fun e => e.kind = .tick) = x.totalExecuted

end Invariant

/-! ## The stages of a tick -/

/-- A task and its events. -/
abbrev View := RuntimeTask × List Event

/-- Wakeups and arrivals of tick `t`. -/
inductive Wake (t : Nat) : View → View → Prop
  | keep (x : RuntimeTask) (ev : List Event) (hb : x.state ≠ .blocked)
    (hp : ¬(x.state = .pending ∧ x.arrivalTick = t)) :
      Wake t (x, ev) (x, ev)
  | arrive (x : RuntimeTask) (ev : List Event) (c : CoreId) (hs : x.state = .pending) (ha : x.arrivalTick = t) :
      Wake t (x, ev) ({ x with assignedCore := c, state := .ready }, ev ++ [⟨.arrival, t, some c⟩])
  | wake (x y : RuntimeTask) (ev : List Event) (c : CoreId) (hs : x.state = .blocked) (hw : x.wakeTick = some t)
      (hy : advancePhaseAfterWake x = .ok y) :
      Wake t (x, ev) ({ y with state := .ready, assignedCore := c, wakeTick := none }, ev ++ [⟨.wakeup, t, some c⟩])
  | sleep (x : RuntimeTask) (ev : List Event) (hs : x.state = .blocked) (hw : x.wakeTick ≠ some t) :
      Wake t (x, ev) ({ x with blockedTime := x.blockedTime + 1 }, ev)

inductive Preempt (t : Nat) : View → View → Prop
  | keep (x : View) : Preempt t x x
  | preempt (x : RuntimeTask) (ev : List Event) (hs : x.state = .running) :
      Preempt t (x, ev) ({ x with state := .ready }, ev ++ [⟨.preempt, t, some x.assignedCore⟩])

/-- The task as dispatched at tick `t` to core `c`. -/
def dispatched (t : Nat) (c : CoreId) (x : RuntimeTask) : RuntimeTask :=
  { x with
    state := .running
    assignedCore := c
    firstDispatchTick := if x.firstDispatchTick = none then some t else x.firstDispatchTick }

/-- Rebalancing and dispatch of tick `t`. -/
inductive Assign (t : Nat) : View → View → Prop
  | keep (x : View) : Assign t x x
  | move (x : RuntimeTask) (ev : List Event) (c : CoreId) (hs : x.state = .ready) :
      Assign t (x, ev) ({ x with assignedCore := c }, ev)
  | dispatch (x : RuntimeTask) (ev : List Event) (c : CoreId) (hs : x.state = .ready) :
      Assign t (x, ev) (dispatched t c x, ev ++ [⟨.dispatch, t, some c⟩])

/-- The events of an executed tick after the `tick` event. -/
def Outcome.events (t : Nat) (c : CoreId) : Outcome → List Event
  | .running => []
  | .complete => [⟨.complete, t + 1, some c⟩]
  | .block => [⟨.block, t + 1, some c⟩]

/-- The execution of tick `t`. -/
inductive Exec (policy : PolicyKind) (t : Nat) : View → View → Prop
  | rest (x : RuntimeTask) (ev : List Event) (hs : x.state ≠ .running) : Exec policy t (x, ev) (x, ev)
  | run (x y z u : RuntimeTask) (ev : List Event) (outcome : Outcome) (hs : x.state = .running)
      (hy : chargeTick t x = .ok y) (hz : policy.onTaskTick y = .ok z) (hu : settleTask t z = .ok (outcome, u)) :
      Exec policy t (x, ev) (u, ev ++ ⟨.tick, t, some x.assignedCore⟩ :: outcome.events t x.assignedCore)

/-! ## Phase steps -/

section Phases

variable {info : TaskInfo}

/-- Waking leaves a wait phase for the CPU phase after it. -/
theorem WaitPhase.advance (hv : info.Valid) {t : Nat} {x y : RuntimeTask} {p : TaskPhase} (hx : x.toTaskInfo = info)
    (hp : WaitPhase info t x p t) (hy : advancePhaseAfterWake x = .ok y) :
    ∃ q, CpuPhase info y q ∧ doneWaits info y = doneWaits info x ++ [p.ticks] ∧
      y = { x with phaseIndex := x.phaseIndex + 1, phaseRemainingTicks := q.ticks } := by
  obtain ⟨q, hq, hqk⟩ := hv.phased.next_of_wait hp.get hp.kind
  have hphases : x.phases = some info.phaseList := by
    have hk := hp.kind
    have hg := hp.get
    rw [← hx] at hg ⊢
    cases hph : x.phases with
    | some ps => simp [TaskInfo.phaseList, hph]
    | none =>
      -- the only phase of a task without phases is a CPU phase
      simp only [TaskInfo.phaseList, hph, Option.getD_none, List.getElem?_singleton] at hg
      split at hg
      · obtain rfl : _ = p := by simpa using hg
        simp at hk
      · simp at hg
  have hdrop : info.phaseList.drop (x.phaseIndex + 1) = q :: info.phaseList.drop (x.phaseIndex + 1 + 1) := by
    obtain ⟨hlt, hge⟩ := List.getElem?_eq_some_iff.mp hq
    rw [← hge]
    exact List.drop_eq_getElem_cons hlt
  have htake : info.phaseList.take (x.phaseIndex + 1) = info.phaseList.take x.phaseIndex ++ [p] := by
    rw [List.take_add_one, hp.get]
    rfl
  simp only [advancePhaseAfterWake, hphases, hq, ne_eq, hqk, not_true_eq_false, if_false, Except.ok.injEq] at hy
  subst hy
  have hwaits : waitList (info.phaseList.take (x.phaseIndex + 1)) = doneWaits info x ++ [p.ticks] := by
    rw [htake, waitList_append, waitList_singleton, if_pos hp.kind]
    rfl
  have hqpos : 0 < q.ticks := hv.phased.alternating.pos q (List.mem_of_getElem? hq)
  refine ⟨q, ⟨hq, hqk, hqpos, le_refl _, ?_, ?_⟩, hwaits, rfl⟩
  · have hr := hp.remaining
    rw [hdrop, cpuTicks_cons, if_pos hqk] at hr
    exact hr
  · have hb := hp.blocked
    simp only [waitTicks, hwaits, List.sum_append, List.sum_singleton]
    simp only [Nat.sub_self, Nat.add_zero, waitTicks] at hb
    exact hb

/-- Waking changes the phase of a task only. -/
theorem advancePhaseAfterWake_eq {x y : RuntimeTask} (h : advancePhaseAfterWake x = .ok y) :
    ∃ k p, y = { x with phaseIndex := k, phaseRemainingTicks := p } := by
  unfold advancePhaseAfterWake at h
  split at h
  · obtain rfl := Except.ok.inj h
    exact ⟨_, _, rfl⟩
  · split at h
    · cases h
    · simp only [ite_error_eq_ok, Except.ok.injEq] at h
      obtain ⟨-, rfl⟩ := h
      exact ⟨_, _, rfl⟩

theorem advancePhaseAfterWake_frame {x y : RuntimeTask} (h : advancePhaseAfterWake x = .ok y) :
    y.toTaskInfo = x.toTaskInfo ∧ y.assignedCore = x.assignedCore := by
  obtain ⟨k, p, rfl⟩ := advancePhaseAfterWake_eq h
  exact ⟨rfl, rfl⟩

/-- A task whose counters moved by one tick and its virtual runtime by `d`. -/
def ticked (t d : Nat) (x : RuntimeTask) : RuntimeTask :=
  { x with
    remainingTicks := x.remainingTicks - 1
    totalExecuted := x.totalExecuted + 1
    phaseRemainingTicks := x.phaseRemainingTicks - 1
    lastExecutionTick := some t
    vruntime := x.vruntime + d }

/-- What charging a tick and `onTaskTick` leave. -/
theorem chargeTick_onTaskTick {policy : PolicyKind} {t : Nat} {x y z : RuntimeTask} (hy : chargeTick t x = .ok y)
    (hz : policy.onTaskTick y = .ok z) :
    x.lastExecutionTick ≠ some t ∧ 1 ≤ x.remainingTicks ∧ 1 ≤ x.phaseRemainingTicks ∧
      ∃ d, z = ticked t d x ∧ (d = 0 ∨ d = CfsLike.vruntimeDelta x.effectiveWeight) := by
  simp only [chargeTick, ite_error_eq_ok, bind_eq_ok, addChecked_eq_ok, subChecked_eq_ok, Except.ok.injEq] at hy
  obtain ⟨hl, r, ⟨hr, rfl⟩, e, ⟨-, rfl⟩, q, ⟨hq, rfl⟩, rfl⟩ := hy
  refine ⟨hl, hr, hq, ?_⟩
  cases policy with
  | cfsLike =>
    simp only [PolicyKind.onTaskTick, CfsLike.onTaskTick, bind_eq_ok, addChecked_eq_ok, Except.ok.injEq] at hz
    obtain ⟨v, ⟨-, rfl⟩, rfl⟩ := hz
    exact ⟨_, rfl, Or.inr rfl⟩
  | _ =>
    simp only [PolicyKind.onTaskTick, Except.ok.injEq] at hz
    exact ⟨0, hz.symm, Or.inl rfl⟩

theorem vruntimeDelta_le {w : Nat} (hw : 0 < w) : CfsLike.vruntimeDelta w ≤ CfsLike.vruntimeScale := by
  unfold CfsLike.vruntimeDelta CfsLike.vruntimeScale
  rw [Nat.div_le_iff_le_mul_add_pred hw]
  have := Nat.le_mul_of_pos_left 4096 hw
  omega

/-- Blocking, in terms of the phases the engine runs through. -/
theorem shouldBlock_eq (z : RuntimeTask) : shouldBlockAfterExecution z =
    if z.phaseRemainingTicks ≠ 0 then .ok (false, z)
    else match z.phaseList[z.phaseIndex + 1]? with
      | none => .ok (false, z)
      | some q =>
        if q.kind ≠ .wait then .error .invalidTaskPhaseTransition
        else .ok (true, { z with phaseIndex := z.phaseIndex + 1, phaseRemainingTicks := q.ticks }) := by
  unfold shouldBlockAfterExecution TaskInfo.phaseList
  cases z.phases with
  | none => simp
  | some ps => rfl

/-- The state an executed tick leaves the task in. -/
def Outcome.state : Outcome → TaskState
  | .running => .running
  | .complete => .complete
  | .block => .blocked

/-- What the end of a tick leaves of a running task, whatever its phases. -/
structure Settled (t : Nat) (z u : RuntimeTask) (outcome : Outcome) : Prop where
  info : u.toTaskInfo = z.toTaskInfo
  core : u.assignedCore = z.assignedCore
  first : u.firstDispatchTick = z.firstDispatchTick
  executed : u.totalExecuted = z.totalExecuted
  blocked : u.blockedTime = z.blockedTime
  state : u.state = outcome.state
  complete : outcome = .complete → u.completionTime = some (t + 1)

theorem settleTask_settled {t : Nat} {z u : RuntimeTask} {outcome : Outcome} (hs : z.state = .running)
    (h : settleTask t z = .ok (outcome, u)) : Settled t z u outcome := by
  unfold settleTask at h
  split at h
  · simp only [bind_eq_ok, addChecked_eq_ok, Except.ok.injEq, Prod.mk.injEq] at h
    obtain ⟨_, ⟨-, rfl⟩, rfl, rfl⟩ := h
    exact ⟨rfl, rfl, rfl, rfl, rfl, rfl, fun _ => rfl⟩
  · obtain ⟨⟨blocks, w⟩, hw, h⟩ := bind_eq_ok.mp h
    have hframe : Settled t z w .running := by
      rw [shouldBlock_eq] at hw
      split at hw
      · obtain ⟨-, rfl⟩ : false = blocks ∧ z = w := by simpa using hw
        exact ⟨rfl, rfl, rfl, rfl, rfl, hs, by simp⟩
      · split at hw
        · obtain ⟨-, rfl⟩ : false = blocks ∧ z = w := by simpa using hw
          exact ⟨rfl, rfl, rfl, rfl, rfl, hs, by simp⟩
        · simp only [ite_error_eq_ok, Except.ok.injEq, Prod.mk.injEq] at hw
          obtain ⟨-, -, rfl⟩ := hw
          exact ⟨rfl, rfl, rfl, rfl, rfl, hs, by simp⟩
    cases blocks with
    | true =>
      simp only [if_true, bind_eq_ok, addChecked_eq_ok, Except.ok.injEq, Prod.mk.injEq] at h
      obtain ⟨_, -, _, -, rfl, rfl⟩ := h
      exact ⟨hframe.info, hframe.core, hframe.first, hframe.executed, hframe.blocked, rfl, by simp⟩
    | false =>
      simp only [Bool.false_eq_true, if_false, Except.ok.injEq, Prod.mk.injEq] at h
      obtain ⟨rfl, rfl⟩ := h
      exact hframe

/-- The task after the tick that completes it, or blocks it until `q` is over. -/
def completed (t d : Nat) (x : RuntimeTask) : RuntimeTask :=
  { ticked t d x with completionTime := some (t + 1), state := .complete }

def blockedFor (t d : Nat) (q : TaskPhase) (x : RuntimeTask) : RuntimeTask :=
  { ticked t d x with
    phaseIndex := x.phaseIndex + 1
    phaseRemainingTicks := q.ticks
    state := .blocked
    wakeTick := some (t + 1 + q.ticks) }

/-- How a tick that was charged to a task in a CPU phase ends. -/
theorem settleTask_ok (hv : info.Valid) {t d : Nat} {x u : RuntimeTask} {p : TaskPhase} {outcome : Outcome}
    (hx : x.toTaskInfo = info) (hp : CpuPhase info x p) (h : settleTask t (ticked t d x) = .ok (outcome, u)) :
    (outcome = .complete ∧ x.remainingTicks = 1 ∧ info.phaseList.drop (x.phaseIndex + 1) = [] ∧
        u = completed t d x) ∨
      (outcome = .block ∧ x.phaseRemainingTicks = 1 ∧ ∃ q, info.phaseList[x.phaseIndex + 1]? = some q ∧
        q.kind = .wait ∧ u = blockedFor t d q x) ∨
      (outcome = .running ∧ 1 < x.phaseRemainingTicks ∧ u = ticked t d x) := by
  have hrem := hp.remaining
  have hpos := hp.pos
  unfold settleTask at h
  split at h
  next h0 =>
    simp only [bind_eq_ok, addChecked_eq_ok, Except.ok.injEq, Prod.mk.injEq] at h
    obtain ⟨_, ⟨-, rfl⟩, rfl, rfl⟩ := h
    simp only [ticked] at h0
    exact Or.inl ⟨rfl, by omega, hv.phased.drop_eq_nil (by omega), rfl⟩
  next h0 =>
    have hps : (ticked t d x).phaseList = info.phaseList := by rw [← hx]; rfl
    have hk : (ticked t d x).phaseIndex = x.phaseIndex := rfl
    rw [shouldBlock_eq, hps, hk] at h
    simp only [ticked] at h0
    split at h
    next hne =>
      simp only [ok_bind, Bool.false_eq_true, if_false, Except.ok.injEq, Prod.mk.injEq] at h
      obtain ⟨rfl, rfl⟩ := h
      simp only [ticked] at hne
      exact Or.inr (Or.inr ⟨rfl, by omega, rfl⟩)
    next hne =>
      simp only [ticked] at hne
      split at h
      next hnone =>
        -- nothing follows the finished CPU phase, so no work is left: excluded by `h0`
        rw [List.drop_eq_nil_of_le (List.getElem?_eq_none_iff.mp hnone), cpuTicks_nil] at hrem
        omega
      next q hsome =>
        have hqk : q.kind = .wait := by
          rw [hv.phased.alternating.next hp.get hsome, hp.kind]
          rfl
        simp only [ne_eq, hqk, not_true_eq_false, if_false, ok_bind, if_true, bind_eq_ok, addChecked_eq_ok,
          Except.ok.injEq, Prod.mk.injEq] at h
        obtain ⟨_, ⟨-, rfl⟩, _, ⟨-, rfl⟩, rfl, rfl⟩ := h
        exact Or.inr (Or.inl ⟨rfl, by omega, q, hsome, hqk, rfl⟩)

/-- The phase list around the current phase. -/
theorem CpuPhase.take_succ {x : RuntimeTask} {p : TaskPhase} (hp : CpuPhase info x p) :
    info.phaseList.take (x.phaseIndex + 1) = info.phaseList.take x.phaseIndex ++ [p] := by
  rw [List.take_add_one, hp.get]
  rfl

/-- A CPU phase adds no wait. -/
theorem CpuPhase.waitList_take_succ {x : RuntimeTask} {p : TaskPhase} (hp : CpuPhase info x p) :
    waitList (info.phaseList.take (x.phaseIndex + 1)) = doneWaits info x := by
  rw [hp.take_succ, waitList_append, waitList_singleton, if_neg (by simp [hp.kind]), List.append_nil]
  rfl

/-- In the last phase all waits are over. -/
theorem CpuPhase.doneWaits_eq {x : RuntimeTask} {p : TaskPhase} (hp : CpuPhase info x p)
    (hnil : info.phaseList.drop (x.phaseIndex + 1) = []) : waitList info.phaseList = doneWaits info x := by
  have hsplit := List.take_append_drop (x.phaseIndex + 1) info.phaseList
  rw [hnil, List.append_nil] at hsplit
  rw [← hp.waitList_take_succ, hsplit]

/-- A tick that does not end the phase. -/
theorem CpuPhase.stay {t d : Nat} {x : RuntimeTask} {p : TaskPhase} (hp : CpuPhase info x p)
    (h : 1 < x.phaseRemainingTicks) : CpuPhase info (ticked t d x) p := by
  have hle := hp.le
  have hrem := hp.remaining
  exact ⟨hp.get, hp.kind, by simp only [ticked]; omega,
    by simp only [ticked]; omega,
    by simp only [ticked]; omega, hp.blocked⟩

/-- A tick that ends the phase before a wait. -/
theorem CpuPhase.block {t d : Nat} {x : RuntimeTask} {p q : TaskPhase} (hp : CpuPhase info x p)
    (h : x.phaseRemainingTicks = 1) (hq : info.phaseList[x.phaseIndex + 1]? = some q) (hk : q.kind = .wait) :
    WaitPhase info (t + 1) (blockedFor t d q x) q (t + 1 + q.ticks) := by
  obtain ⟨hlt, hge⟩ := List.getElem?_eq_some_iff.mp hq
  have hdrop : info.phaseList.drop (x.phaseIndex + 1) = q :: info.phaseList.drop (x.phaseIndex + 1 + 1) := by
    rw [← hge]
    exact List.drop_eq_getElem_cons hlt
  have hrem := hp.remaining
  rw [hdrop, cpuTicks_cons, if_neg (by simp [hk])] at hrem
  have hb : x.blockedTime = (doneWaits info x).sum := hp.blocked
  refine ⟨hq, hk, rfl, ?_, rfl, by omega, ?_⟩
  · simp only [blockedFor, ticked]; omega
  · simp only [blockedFor, ticked, waitTicks, hp.waitList_take_succ]
    omega

/-- What holds in every state, one tick later. -/
theorem Common.tick (hv : info.Valid) {t d : Nat} {x : RuntimeTask} (hc : Common info t x)
    (hr : 1 ≤ x.remainingTicks) (hd : d = 0 ∨ d = CfsLike.vruntimeDelta x.effectiveWeight) :
    Common info (t + 1) (ticked t d x) := by
  have hwork := hc.work
  have hvr := hc.vruntime_le
  have hdle : d ≤ CfsLike.vruntimeScale := by
    rcases hd with rfl | rfl
    · exact Nat.zero_le _
    · rw [hc.info_eq]; exact vruntimeDelta_le hv.weight_pos
  refine ⟨hc.info_eq, ?_, ?_, ?_⟩
  · simp only [ticked]; omega
  · intro τ hτ
    obtain rfl : t = τ := by simpa [ticked] using hτ
    omega
  · simp only [ticked, Nat.mul_add, Nat.mul_one]; omega

end Phases

/-! ## What the stages preserve -/

section Stages

variable {info : TaskInfo} {t waited : Nat} {x : RuntimeTask} {ev : List Event} {v : View}

/-- Only an unfinished segment looks at `lo`. -/
theorem Life.zero {tb tr : Nat} (h : Life info 1 tb tr waited x ev) : Life info 0 tb tr waited x ev := by
  refine ⟨h.common, ?_, h.ticks⟩
  cases h.clause with
  | pending hs p hp ht hw hz hf hk hev => exact .pending hs p hp ht hw hz hf hk hev
  | ready hs p hp hc hf c₀ e w hw he hev => exact .ready hs p hp hc hf c₀ e w hw he hev
  | running hs p hp hc hf hd c₀ e t k w hw he hk ht hev =>
    exact .running hs p hp hc hf hd c₀ e t k w hw he (Nat.zero_le k) ht hev
  | blocked hs p wake hp hc hf hd c₀ e c t k w hw he hk hwake hev =>
    exact .blocked hs p wake hp hc hf hd c₀ e c t k w hw he hk hwake hev
  | complete hs hr hb hf hd t ht hle hc hev => exact .complete hs hr hb hf hd t ht hle hc hev

/-- Wakeups and arrivals: blocked tasks are accounted for one tick further. -/
theorem Life.wake (hv : info.Valid) (h : Life info 1 t t waited x ev) (hw : Wake t (x, ev) v) :
    Life info 1 (t + 1) t waited v.1 v.2 := by
  obtain ⟨hcom, hcl, htk⟩ := h
  have hinfo := hcom.info_eq
  cases hw with
  | keep _ _ hb hp =>
    refine ⟨hcom, ?_, htk⟩
    cases hcl with
    | pending hs p hp' ht hw hz hf hk hev =>
      refine .pending hs p hp' ?_ hw hz hf hk hev
      have : x.arrivalTick ≠ t := fun e => hp ⟨hs, e⟩
      rw [← hinfo] at ht ⊢
      omega
    | ready hs p hp hc hf c₀ e w hw he hev => exact .ready hs p hp hc hf c₀ e w hw he hev
    | running hs p hp hc hf hd c₀ e t k w hw he hk ht hev =>
      exact .running hs p hp hc hf hd c₀ e t k w hw he hk ht hev
    | blocked hs => exact absurd hs hb
    | complete hs hr hb hf hd t ht hle hc hev => exact .complete hs hr hb hf hd t ht hle hc hev
  | arrive _ _ c hs ha =>
    cases hcl with
    | pending _ p hp ht hw hz hf hk hev =>
      have ha' : info.arrivalTick = t := by rw [← hinfo]; exact ha
      refine ⟨⟨hinfo, hcom.work, hcom.last_lt, hcom.vruntime_le⟩,
        .ready rfl p ⟨hp.get, hp.kind, hp.pos, hp.le, hp.remaining, hp.blocked⟩ ?_ ⟨fun _ => hz, ?_⟩
          c info.arrivalTick [] ?_ (by omega) ?_, by simpa using htk⟩
      · simp only [Clock, hz.1, hz.2]; omega
      · intro f hf'; simp [hf] at hf'
      · simp only [doneWaits, hk, List.take_zero, waitList_nil]; exact Closed.nil
      · simp [hev, ha']
    | ready hs' | running hs' | blocked hs' | complete hs' => simp [hs'] at hs
  | wake _ y _ c hs hwt hy =>
    cases hcl with
    | blocked _ p wake hp hc hf hd c₀ e c' t' k w hw he hk hwake hev =>
      obtain rfl : wake = t := by simpa [hp.wake_eq] using hwt
      obtain ⟨q, hq, hdone, rfl⟩ := hp.advance hv hinfo hy
      have hclosed := Closed.block c' c t' k p.ticks hw he hk
      rw [← hdone] at hclosed
      refine ⟨⟨hinfo, hcom.work, hcom.last_lt, hcom.vruntime_le⟩,
        .ready rfl q ⟨hq.get, hq.kind, hq.pos, hq.le, hq.remaining, hq.blocked⟩ hc ⟨hf.never, hf.bounds⟩ c₀
          (t' + k + p.ticks) _ hclosed (by omega) ?_, by simpa using htk⟩
      simp [hev, hwake]
    | pending hs' | ready hs' | running hs' | complete hs' => simp [hs'] at hs
  | sleep _ _ hs hwt =>
    cases hcl with
    | blocked _ p wake hp hc hf hd c₀ e c t' k w hw he hk hwake hev =>
      have hne : wake ≠ t := fun e => hwt (by rw [hp.wake_eq, e])
      have hge := hp.ge
      have hb := hp.blocked
      refine ⟨⟨hinfo, hcom.work, hcom.last_lt, hcom.vruntime_le⟩,
        .blocked hs p wake ⟨hp.get, hp.kind, hp.length, hp.remaining, hp.wake_eq, by omega, ?_⟩ ?_ ?_ hd
          c₀ e c t' k w hw he hk hwake hev, htk⟩
      · simp only; omega
      · simp only [Clock] at hc ⊢; omega
      · refine ⟨fun hn => absurd hn hd, hf.bounds⟩
    | pending hs' | ready hs' | running hs' | complete hs' => simp [hs'] at hs

/-- Preemption closes a segment. -/
theorem Life.preempt {tb : Nat} (h : Life info 1 tb t waited x ev) (hp : Preempt t (x, ev) v) :
    Life info 1 tb t waited v.1 v.2 := by
  cases hp with
  | keep => exact h
  | preempt _ _ hs =>
    obtain ⟨hcom, hcl, htk⟩ := h
    cases hcl with
    | running _ p hp hc hf hd c₀ e t' k w hw he hk ht hev =>
      refine ⟨⟨hcom.info_eq, hcom.work, hcom.last_lt, hcom.vruntime_le⟩,
        .ready rfl p ⟨hp.get, hp.kind, hp.pos, hp.le, hp.remaining, hp.blocked⟩ hc ⟨hf.never, hf.bounds⟩ c₀
          (t' + k) _ (Closed.preempt x.assignedCore t' k hw he hk) (by omega) ?_, by simpa using htk⟩
      simp [hev, ht]
    | pending hs' | ready hs' | blocked hs' | complete hs' => simp [hs'] at hs

/-- A move changes nothing the invariant sees; a dispatch opens a segment. -/
theorem Life.assign {tb : Nat} (h : Life info 1 tb t waited x ev) (ha : Assign t (x, ev) v) :
    Life info 0 tb t waited v.1 v.2 := by
  cases ha with
  | keep => exact h.zero
  | move _ _ c hs =>
    obtain ⟨hcom, hcl, htk⟩ := h
    cases hcl with
    | ready _ p hp hc hf c₀ e w hw he hev =>
      exact ⟨⟨hcom.info_eq, hcom.work, hcom.last_lt, hcom.vruntime_le⟩,
        .ready hs p ⟨hp.get, hp.kind, hp.pos, hp.le, hp.remaining, hp.blocked⟩ hc
          ⟨hf.never, hf.bounds⟩ c₀ e w hw he hev, htk⟩
    | pending hs' | running hs' | blocked hs' | complete hs' => simp [hs'] at hs
  | dispatch _ _ c hs =>
    obtain ⟨hcom, hcl, htk⟩ := h
    cases hcl with
    | ready _ p hp hc hf c₀ e w hw he hev =>
      refine ⟨⟨hcom.info_eq, hcom.work, hcom.last_lt, hcom.vruntime_le⟩,
        .running rfl p ⟨hp.get, hp.kind, hp.pos, hp.le, hp.remaining, hp.blocked⟩ hc ?_ ?_ c₀ e t 0 w hw he
          (le_refl 0) rfl ?_, by simpa [dispatched] using htk⟩
      · -- the first dispatch happens after exactly `waited` ticks
        cases hfd : x.firstDispatchTick with
        | some f => exact ⟨fun hn => by simp [dispatched, hfd] at hn,
            fun g hg => hf.bounds g (by simpa [dispatched, hfd] using hg)⟩
        | none =>
          obtain ⟨h1, h2⟩ := hf.never hfd
          refine ⟨fun hn => by simp [dispatched, hfd] at hn, fun g hg => ?_⟩
          obtain rfl : t = g := by simpa [dispatched, hfd] using hg
          simp only [Clock] at hc
          omega
      · cases hfd : x.firstDispatchTick <;> simp [dispatched, hfd]
      · simp [hev, segment_zero, dispatched]
    | pending hs' | running hs' | blocked hs' | complete hs' => simp [hs'] at hs

/-- Execution: every task that is not blocked or complete is accounted for one tick further. -/
theorem Life.exec {policy : PolicyKind} (hv : info.Valid) (h : Life info 0 (t + 1) t waited x ev)
    (hx : Exec policy t (x, ev) v) :
    Life info 1 (t + 1) (t + 1) (waited + if x.state = .ready then 1 else 0) v.1 v.2 := by
  obtain ⟨hcom, hcl, htk⟩ := h
  have hlast : ∀ τ, x.lastExecutionTick = some τ → τ < t + 1 := fun τ hτ => by have := hcom.last_lt τ hτ; omega
  cases hx with
  | rest _ _ hs =>
    refine ⟨⟨hcom.info_eq, hcom.work, hlast, hcom.vruntime_le⟩, ?_, htk⟩
    cases hcl with
    | pending hs' p hp ht hw hz hf hk hev => exact .pending hs' p hp ht (by simp [hs', hw]) hz hf hk hev
    | ready hs' p hp hc hf c₀ e w hw he hev =>
      refine .ready hs' p hp ?_ ⟨hf.never, fun f hff => ?_⟩ c₀ e w hw (by omega) hev
      · simp only [Clock, hs', if_true] at hc ⊢; omega
      · have := hf.bounds f hff; omega
    | running hs' => exact absurd hs' hs
    | blocked hs' p wake hp hc hf hd c₀ e c t k w hw he hk hwake hev =>
      simp only [hs', reduceCtorEq, if_false, Nat.add_zero]
      exact .blocked hs' p wake hp hc hf hd c₀ e c t k w hw he hk hwake hev
    | complete hs' hr hb hf hd t ht hle hc hev =>
      simp only [hs', reduceCtorEq, if_false, Nat.add_zero]
      exact .complete hs' hr hb hf hd t ht (by omega) hc hev
  | run _ y z u _ outcome hs hy hz hu =>
    simp only [hs, reduceCtorEq, if_false, Nat.add_zero]
    cases hcl with
    | running _ p hp hc hf hd c₀ e t' k w hw he hk ht hev =>
      obtain ⟨-, hrem, -, d, rfl, hd'⟩ := chargeTick_onTaskTick hy hz
      obtain ⟨hi', hwork', hlast', hvr'⟩ := hcom.tick hv hrem hd'
      have hseg : ev ++ [⟨.tick, t, some x.assignedCore⟩] =
          ⟨.arrival, info.arrivalTick, some c₀⟩ :: (w ++ segment x.assignedCore t' (k + 1)) := by
        simp [hev, segment_succ, ht]
      have hclock : Clock info (t + 1) waited (ticked t d x) := by
        simp only [Clock, ticked] at hc ⊢; omega
      have hticks : ∀ o : Outcome, (ev ++ ⟨.tick, t, some x.assignedCore⟩ :: o.events t x.assignedCore).countP
          (fun e => e.kind = .tick) = x.totalExecuted + 1 := by
        rintro (_ | _ | _) <;> simp [Outcome.events, htk]
      have hfirst : FirstDispatch info waited (ticked t d x) := ⟨fun hn => absurd hn hd, hf.bounds⟩
      rcases settleTask_ok hv hcom.info_eq hp hu with
        ⟨rfl, h1, hnil, rfl⟩ | ⟨rfl, h1, q, hq, hqk, rfl⟩ | ⟨rfl, h1, rfl⟩
      · -- the last tick of the last CPU phase
        refine ⟨⟨hi', hwork', hlast', hvr'⟩, .complete rfl ?_ ?_ ⟨hfirst.never, hfirst.bounds⟩ hd (t + 1) rfl
          (le_refl _) hclock ⟨c₀, e, w, x.assignedCore, t', k + 1, ?_, he, by omega, ?_⟩, hticks _⟩
        · simp only [completed, ticked]; omega
        · simp only [waitTicks, hp.doneWaits_eq hnil]; exact hp.blocked
        · rw [hp.doneWaits_eq hnil]; exact hw
        · simp only [Outcome.events]
          rw [List.append_cons, hseg, ← ht]
          simp [Nat.add_assoc]
      · -- the last tick of a CPU phase that a wait follows
        refine ⟨⟨hi', hwork', hlast', hvr'⟩, .blocked rfl q _ (hp.block h1 hq hqk) hclock
          ⟨hfirst.never, hfirst.bounds⟩ hd c₀ e x.assignedCore t' (k + 1) w ?_ he (by omega) (by omega) ?_, hticks _⟩
        · simp only [doneWaits, blockedFor, hp.waitList_take_succ, ticked]; exact hw
        · simp only [Outcome.events]
          rw [List.append_cons, hseg, ← ht]
          simp [Nat.add_assoc]
      · -- work is left in the phase
        refine ⟨⟨hi', hwork', hlast', hvr'⟩, .running hs p (hp.stay h1) hclock hfirst hd c₀ e t' (k + 1) w hw he
          (by omega) (by omega) ?_, hticks _⟩
        simp only [Outcome.events]
        exact hseg
    | pending hs' | ready hs' | blocked hs' | complete hs' => simp [hs'] at hs

end Stages

/-! ## The start of a life -/

/-- The fixed part of a task of an accepted scenario. -/
theorem initRuntime_valid {scenario : ScenarioOwned} (hs : Valid scenario) {task : TaskSpec}
    (ht : task ∈ scenario.tasks) : (initRuntime scenario task).toTaskInfo.Valid := by
  obtain ⟨hb, hph⟩ := hs.tasks task ht
  have hweight : 0 < (initRuntime scenario task).effectiveWeight := by
    simp only [initRuntime, combineWeight]
    omega
  cases hp : task.phases with
  | some ps =>
    obtain ⟨hw, hc⟩ := hph ps hp
    have hl : (initRuntime scenario task).phaseList = ps := by simp [TaskInfo.phaseList, initRuntime, hp]
    exact ⟨hb, by rw [hl]; exact hw, by rw [hl]; exact hc, hweight⟩
  | none =>
    have hl : (initRuntime scenario task).phaseList = [⟨.cpu, task.burstTicks⟩] := by
      simp [TaskInfo.phaseList, initRuntime, hp]
    refine ⟨hb, ?_, ?_, hweight⟩
    · rw [hl]; exact ⟨⟨rfl, hb, trivial⟩, [], _, rfl, rfl⟩
    · rw [hl, cpuTicks_cons]; rfl

/-- A task before its first tick. -/
theorem Life.init {scenario : ScenarioOwned} (hs : Valid scenario) {task : TaskSpec} (ht : task ∈ scenario.tasks) :
    Life (initRuntime scenario task).toTaskInfo 1 0 0 0 (initRuntime scenario task) [] := by
  have hv := initRuntime_valid hs ht
  obtain ⟨qs, l, hlast, -⟩ := hv.phased.last
  obtain ⟨p, ps, hps⟩ : ∃ p ps, (initRuntime scenario task).phaseList = p :: ps := by
    cases qs with
    | nil => exact ⟨l, [], hlast⟩
    | cons q qs => exact ⟨q, qs ++ [l], hlast⟩
  have halt := hv.phased.alternating
  rw [hps] at halt
  have hinit : initialPhaseTicks task = p.ticks := by
    cases hph : task.phases with
    | some qs =>
      have : qs = p :: ps := by simpa [TaskInfo.phaseList, initRuntime, hph] using hps
      simp [initialPhaseTicks, hph, this]
    | none =>
      have : [⟨.cpu, task.burstTicks⟩] = p :: ps := by simpa [TaskInfo.phaseList, initRuntime, hph] using hps
      obtain ⟨rfl, -⟩ := List.cons.inj this
      simp [initialPhaseTicks, hph]
  have hcpu : CpuPhase (initRuntime scenario task).toTaskInfo (initRuntime scenario task) p := by
    refine ⟨by rw [hps]; rfl, halt.1, ?_, ?_, ?_, by simp [initRuntime]⟩
    · show 0 < initialPhaseTicks task
      rw [hinit]; exact halt.2.1
    · exact le_of_eq hinit
    · have htotal := hv.cpu_total
      rw [hps, cpuTicks_cons, if_pos halt.1] at htotal
      rw [hps]
      show task.burstTicks = initialPhaseTicks task + cpuTicks ps
      rw [hinit]; exact htotal.symm
  exact ⟨⟨rfl, by simp [initRuntime], by simp [initRuntime], by simp [initRuntime]⟩,
    .pending rfl p hcpu (Nat.zero_le _) rfl ⟨rfl, rfl⟩ rfl rfl rfl, rfl⟩


end Exasphere.Sim

import Exasphere.Sim.Queues

/-!
# Latency of `round_robin`

A task at position `p` of a queue is dispatched after at most `p * q` ticks and what is left of the quantum of the
current task (`CoreState.delay`). Every tick takes one from this bound, whether the current task goes on, is preempted,
blocks or completes; rebalancing only takes tasks from the heads of queues, and a task it moves goes to an idle core
and is dispatched in the same tick. At the entry of a task into a queue the bound is at most `(n - 1) * q`.

`Kept` is the invariant at every stage of a tick: in the events of each task, what enters a queue is followed by a
dispatch within the bound, and a task that still waits will be dispatched in time.
-/

namespace Exasphere.Sim

open Exasphere.Lib

variable {n m : Nat} {scenario : ScenarioOwned}

/-! ## The invariant -/

/-- The event puts its task into a ready queue. -/
def Event.Enters (e : Event) : Prop := e.kind = .arrival ∨ e.kind = .wakeup ∨ e.kind = .preempt

/-- Consecutive events of a task: what enters a queue is dispatched next, `B` ticks later at most. -/
def Answers (B : Nat) (e d : Event) : Prop := e.Enters → d.kind = .dispatch ∧ e.tick ≤ d.tick ∧ d.tick ≤ e.tick + B

/-- The ticks until the task at position `p` of the queue is dispatched, at most. -/
def CoreState.delay (q : Nat) (core : CoreState n) (p : Nat) : Nat :=
  p * q + if core.current = none then 0 else q - core.currentQuantum

/-- The promise to every task, at a stage of tick `t`. -/
structure Kept (q B t : Nat) (x : Engine n m) : Prop where
  chain : ∀ i, (x.view i).2.IsChain (Answers B)
  queued : ∀ (c : Fin m) (p : Nat) i, (x.cores c).readyQueue[p]? = some i → ∃ e ∈ (x.view i).2.getLast?,
    e.Enters ∧ e.tick ≤ t ∧ t + (x.cores c).delay q p ≤ e.tick + B
  other : ∀ i, (x.runtimes i).state ≠ .ready → ∀ e ∈ (x.view i).2.getLast?, ¬e.Enters

/-! ## Positions in queues -/

section Positions

variable {x : Engine n m} {c c' : Fin m} {p p' : Nat} {i : Fin n}

/-- A ready task has one position in one queue. -/
theorem Placed.position_unique (h : Placed x) (hp : (x.cores c).readyQueue[p]? = some i)
    (hp' : (x.cores c').readyQueue[p']? = some i) : c = c' ∧ p = p' := by
  obtain rfl := h.queued.inj (List.mem_of_getElem? hp) (List.mem_of_getElem? hp')
  obtain ⟨hlt, hget⟩ := List.getElem?_eq_some_iff.mp hp
  obtain ⟨hlt', hget'⟩ := List.getElem?_eq_some_iff.mp hp'
  exact ⟨rfl, (List.Nodup.getElem_inj_iff (h.queued.nodup c)).mp (hget.trans hget'.symm)⟩

theorem Placed.ready_of_position (h : Placed x) (hp : (x.cores c).readyQueue[p]? = some i) :
    (x.runtimes i).state = .ready := (h.queued.mem_ready c i (List.mem_of_getElem? hp)).1

theorem Placed.position_of_ready (h : Placed x) (hi : (x.runtimes i).state = .ready) :
    ∃ (c : Fin m) (p : Nat), (x.cores c).readyQueue[p]? = some i := by
  obtain ⟨c, hc⟩ := h.queued.ready_mem i hi
  obtain ⟨p, hp⟩ := List.mem_iff_getElem?.mp hc
  exact ⟨c, p, hp⟩

/-- No core has more than `n` tasks. -/
theorem Placed.coreLoad_le (h : Placed x) (c : Fin m) : coreLoad (x.cores c) ≤ n := by
  have hnd : ((x.cores c).current.toList ++ (x.cores c).readyQueue).Nodup := by
    refine List.nodup_append.mpr ⟨?_, h.queued.nodup c, fun j hj l hl hjl => ?_⟩
    · cases (x.cores c).current <;> simp
    · subst hjl
      have hcur : (x.cores c).current = some j := by simpa using hj
      have hrun := (h.slotted.current_running c j hcur).1
      rw [(h.queued.mem_ready c j hl).1] at hrun
      cases hrun
  have hcard := hnd.length_le_card
  rw [Fintype.card_fin] at hcard
  unfold coreLoad
  cases hcur : (x.cores c).current with
  | none =>
    rw [hcur] at hcard
    simpa using hcard
  | some j =>
    rw [hcur] at hcard
    simpa [Nat.add_comm] using hcard

/-- At its entry into a queue a task has at most `n - 1` tasks before it. -/
theorem Placed.delay_le (h : Placed x) (q : Nat) (hp : (x.cores c).readyQueue[p]? = some i) :
    (x.cores c).delay q p ≤ (n - 1) * q := by
  have hload := h.coreLoad_le c
  have hlt := (List.getElem?_eq_some_iff.mp hp).1
  unfold coreLoad at hload
  unfold CoreState.delay
  split
  next hn =>
    rw [if_pos hn] at hload
    exact Nat.mul_le_mul_right q (by omega)
  next hn =>
    rw [if_neg hn] at hload
    calc p * q + (q - (x.cores c).currentQuantum) ≤ p * q + q := Nat.add_le_add_left (Nat.sub_le _ _) _
      _ = (p + 1) * q := (Nat.succ_mul p q).symm
      _ ≤ (n - 1) * q := Nat.mul_le_mul_right q (by omega)

end Positions

/-! ## What the stages add to the events of a task -/

section Events

variable {t : Nat} {x y : View}

/-- The task stays as it is, or enters a queue at tick `t`. -/
inductive Enter (t : Nat) (x y : View) : Prop
  | keep (hev : y.2 = x.2) (hs : y.1.state = x.1.state)
  | enter (e : Event) (hx : x.1.state ≠ .ready) (hy : y.1.state = .ready) (hev : y.2 = x.2 ++ [e]) (he : e.Enters)
      (ht : e.tick = t)

theorem Wake.enter (h : Wake t x y) : Enter t x y := by
  cases h with
  | keep => exact .keep rfl rfl
  | arrive x ev c hs ha => exact .enter _ (by simp [hs]) rfl rfl (Or.inl rfl) rfl
  | wake x y ev c hs hw hy => exact .enter _ (by simp [hs]) rfl rfl (Or.inr (Or.inl rfl)) rfl
  | sleep => exact .keep rfl rfl

theorem Preempt.enter (h : Preempt t x y) : Enter t x y := by
  cases h with
  | keep => exact .keep rfl rfl
  | preempt x ev hs => exact .enter _ (by simp [hs]) rfl rfl (Or.inr (Or.inr rfl)) rfl

/-- The task stays as it is, or leaves its queue at tick `t`. -/
theorem Assign.leave (h : Assign t x y) : (y.2 = x.2 ∧ y.1.state = x.1.state) ∨
    (x.1.state = .ready ∧ y.1.state = .running ∧ ∃ c, y.2 = x.2 ++ [⟨.dispatch, t, c⟩]) := by
  cases h with
  | keep => exact Or.inl ⟨rfl, rfl⟩
  | move => exact Or.inl ⟨rfl, rfl⟩
  | dispatch x ev c hs => exact Or.inr ⟨hs, rfl, _, rfl⟩

/-- An execution adds events that enter no queue. -/
theorem Exec.stays {policy : PolicyKind} (h : Exec policy t x y) : (y.2 = x.2 ∧ y.1.state = x.1.state) ∨
    (x.1.state = .running ∧ ∃ e l, y.2 = x.2 ++ e :: l ∧ ∀ d ∈ e :: l, ¬d.Enters) := by
  cases h with
  | rest => exact Or.inl ⟨rfl, rfl⟩
  | run x y z u ev outcome hs =>
    refine Or.inr ⟨hs, _, _, rfl, ?_⟩
    cases outcome <;> simp [Outcome.events, Event.Enters]

end Events

/-! ## The stages of a tick -/

section Stages

variable {q B t : Nat} {a b : Engine n m}

/-- Wakeups, arrivals and preemption: tasks join behind those that wait. -/
theorem Kept.enter (h : Kept q B t a) (ha : Placed a) (hb : Placed b) (hview : ∀ i, Enter t (a.view i) (b.view i))
    (hold : ∀ (c : Fin m) (p : Nat) i, (a.cores c).readyQueue[p]? = some i →
      (b.cores c).readyQueue[p]? = some i ∧ (b.cores c).delay q p ≤ (a.cores c).delay q p)
    (hnew : ∀ (c : Fin m) (p : Nat) i, (b.cores c).readyQueue[p]? = some i → (b.cores c).delay q p ≤ B) :
    Kept q B t b := by
  refine ⟨fun i => ?_, fun c p i hp => ?_, fun i hi => ?_⟩
  · cases hview i with
    | keep hev =>
      rw [hev]
      exact h.chain i
    | enter e hx _ hev =>
      rw [hev]
      exact (h.chain i).append (List.isChain_singleton e) (fun d hd _ _ hent => absurd hent (h.other i hx d hd))
  · cases hview i with
    | keep hev hs =>
      have hready : (a.runtimes i).state = .ready := hs.symm.trans (hb.ready_of_position hp)
      obtain ⟨c', p', hp'⟩ := ha.position_of_ready hready
      obtain ⟨hpos, hle⟩ := hold c' p' i hp'
      obtain ⟨rfl, rfl⟩ := hb.position_unique hp hpos
      obtain ⟨e, he, hent, hlt, hbound⟩ := h.queued c p i hp'
      exact ⟨e, by rw [hev]; exact he, hent, hlt, by omega⟩
    | enter e _ _ hev hent ht =>
      have hle := hnew c p i hp
      exact ⟨e, by rw [hev]; simp, hent, ht.le, by omega⟩
  · cases hview i with
    | keep hev hs =>
      rw [hev]
      exact h.other i (fun hready => hi (hs.trans hready))
    | enter e _ hy => exact absurd hy hi

/-- Wakeups and arrivals. -/
theorem Kept.grown (h : Kept q ((n - 1) * q) t a) (ha : Placed a) (hb : Placed b)
    (hwake : ∀ i, Wake t (a.view i) (b.view i)) (hg : ∀ c, ∃ new, CoreState.Grown (a.cores c) (b.cores c) new) :
    Kept q ((n - 1) * q) t b := by
  refine h.enter ha hb (fun i => (hwake i).enter) (fun c p i hp => ?_) (fun c p i hp => hb.delay_le q hp)
  obtain ⟨new, hnew⟩ := hg c
  rw [hnew]
  exact ⟨(List.getElem?_append_left (List.getElem?_eq_some_iff.mp hp).1).trans hp, le_refl _⟩

/-- Preemption. -/
theorem Kept.released {pre : Fin m → Bool} (h : Kept q ((n - 1) * q) t a) (ha : Placed a) (hb : Placed b)
    (hpre : ∀ i, Preempt t (a.view i) (b.view i))
    (hr : ∀ c, CoreState.Released (pre c) (a.cores c) (b.cores c)) : Kept q ((n - 1) * q) t b := by
  refine h.enter ha hb (fun i => (hpre i).enter) (fun c p i hp => ?_) (fun c p i hp => hb.delay_le q hp)
  cases hr c with
  | keep _ hsame =>
    rw [hsame]
    exact ⟨hp, le_refl _⟩
  | release j _ _ hnone hq =>
    rw [hq]
    refine ⟨(List.getElem?_append_left (List.getElem?_eq_some_iff.mp hp).1).trans hp, ?_⟩
    unfold CoreState.delay
    rw [if_pos hnone]
    exact Nat.le_add_right _ _

/-- Rebalancing dispatches nothing. -/
theorem rebalanced_view (ha : Placed a) (hb : Placed b) (hmove : ∀ i, Assign t (a.view i) (b.view i))
    (hr : ∀ c, CoreState.Rebalanced (a.cores c) (b.cores c)) (i : Fin n) :
    (b.view i).2 = (a.view i).2 ∧ (b.runtimes i).state = (a.runtimes i).state := by
  rcases (hmove i).leave with hsame | ⟨hready, hrun, -⟩
  · exact hsame
  · -- a current task after rebalancing was current before
    obtain ⟨c, hc⟩ := hb.slotted.running_current i hrun
    have hcur : (a.cores c).current = some i := by
      cases hr c with
      | drop k _ hb' => rw [hb'] at hc; exact hc
      | fill j _ _ hb' => rw [hb'] at hc; exact hc
    have hwas := (ha.slotted.current_running c i hcur).1
    rw [show (a.runtimes i).state = .ready from hready] at hwas
    cases hwas

/-- Rebalancing: positions get smaller, a moved task is alone at an idle core. -/
theorem Kept.rebalanced (h : Kept q B t a) (ha : Placed a) (hb : Placed b)
    (hmove : ∀ i, Assign t (a.view i) (b.view i)) (hr : ∀ c, CoreState.Rebalanced (a.cores c) (b.cores c)) :
    Kept q B t b := by
  have hview := rebalanced_view ha hb hmove hr
  refine ⟨fun i => ?_, fun c p i hp => ?_, fun i hi => ?_⟩
  · rw [(hview i).1]
    exact h.chain i
  · rw [(hview i).1]
    cases hr c with
    | drop k _ hb' =>
      rw [hb'] at hp ⊢
      have hpos : (a.cores c).readyQueue[k + p]? = some i := by rw [← List.getElem?_drop]; exact hp
      obtain ⟨e, he, hent, hlt, hbound⟩ := h.queued c (k + p) i hpos
      refine ⟨e, he, hent, hlt, le_trans (Nat.add_le_add_left ?_ t) hbound⟩
      exact Nat.add_le_add_right (Nat.mul_le_mul_right q (Nat.le_add_left p k)) _
    | fill j hn _ hb' =>
      rw [hb'] at hp ⊢
      obtain ⟨c', p', hp'⟩ :=
        ha.position_of_ready ((hview i).2.symm.trans (hb.ready_of_position (by rw [hb']; exact hp)))
      obtain ⟨e, he, hent, hlt, hbound⟩ := h.queued c' p' i hp'
      have hzero : p = 0 := by
        have := (List.getElem?_eq_some_iff.mp hp).1
        simpa using this
      refine ⟨e, he, hent, hlt, ?_⟩
      rw [hzero]
      unfold CoreState.delay
      simp only [hn, if_true, Nat.zero_mul]
      omega
  · rw [(hview i).1]
    rw [(hview i).2] at hi
    exact h.other i hi

/-- Dispatch: the head of the queue is answered, the others move up and wait for a new quantum. -/
theorem Kept.taken (h : Kept q B t a) (ha : Placed a) (hb : Placed b)
    (hassign : ∀ i, Assign t (a.view i) (b.view i))
    (htake : ∀ c, CoreState.Taken (selectNext (a.cores c).readyQueue) (a.cores c) (b.cores c)) : Kept q B t b := by
  refine ⟨fun i => ?_, fun c p i hp => ?_, fun i hi => ?_⟩
  · rcases (hassign i).leave with ⟨hev, -⟩ | ⟨hready, -, core, hev⟩
    · rw [hev]
      exact h.chain i
    · rw [hev]
      obtain ⟨c, p, hp⟩ := ha.position_of_ready hready
      obtain ⟨e, he, -, hlt, hbound⟩ := h.queued c p i hp
      refine (h.chain i).append (List.isChain_singleton _) (fun d hd d' hd' _ => ?_)
      obtain rfl : e = d := Option.some.inj (he.symm.trans hd)
      obtain rfl : _ = d' := by simpa using hd'
      exact ⟨rfl, hlt, by simp only; omega⟩
  · have hready := hb.ready_of_position hp
    have hev : (b.view i).2 = (a.view i).2 := by
      rcases (hassign i).leave with ⟨hev, -⟩ | ⟨-, hrun, -⟩
      · exact hev
      · rw [show (b.view i).1.state = .ready from hready] at hrun
        cases hrun
    rw [hev]
    cases htake c with
    | keep _ hsame =>
      rw [hsame] at hp ⊢
      exact h.queued c p i hp
    | idle _ _ hsame =>
      rw [hsame] at hp ⊢
      exact h.queued c p i hp
    | take j queue hn hs hcur hq hz =>
      have hpos : (a.cores c).readyQueue[p + 1]? = some i := by
        rw [selectNext_some hs, List.getElem?_cons_succ, ← hq]
        exact hp
      obtain ⟨e, he, hent, hlt, hbound⟩ := h.queued c (p + 1) i hpos
      refine ⟨e, he, hent, hlt, ?_⟩
      unfold CoreState.delay at hbound ⊢
      rw [if_pos hn, Nat.add_mul, Nat.one_mul] at hbound
      rw [if_neg (by simp [hcur]), hz]
      omega
  · rcases (hassign i).leave with ⟨hev, hs⟩ | ⟨-, -, core, hev⟩
    · rw [hev]
      exact h.other i (fun hr => hi (hs.trans hr))
    · rw [hev]
      intro e he
      obtain rfl : _ = e := by simpa using he
      simp [Event.Enters]

/-- Execution: every task that waits is one tick closer to its dispatch. -/
theorem Kept.ran {policy : PolicyKind} (h : Kept q B t a) (ha : Placed a)
    (hexec : ∀ i, Exec policy t (a.view i) (b.view i))
    (hran : ∀ c, CoreState.Ran b.runtimes (a.cores c) (b.cores c))
    (hbusy : ∀ c, (a.cores c).readyQueue ≠ [] → (a.cores c).current ≠ none ∧ (a.cores c).currentQuantum < q) :
    Kept q B (t + 1) { b with tick := t + 1 } := by
  refine ⟨fun i => ?_, fun c p i hp => ?_, fun i hi => ?_⟩
  · show (b.view i).2.IsChain (Answers B)
    rcases (hexec i).stays with ⟨hev, -⟩ | ⟨hrun, e, l, hev, hno⟩
    · rw [hev]
      exact h.chain i
    · rw [hev]
      have hnot : (a.runtimes i).state ≠ .ready := by
        rw [show (a.runtimes i).state = .running from hrun]
        exact TaskState.noConfusion
      refine (h.chain i).append ?_ (fun d hd _ _ hent => absurd hent (h.other i hnot d hd))
      exact (List.pairwise_of_forall_mem_list (fun d hd _ _ hent => absurd hent (hno d hd))).isChain
  · have hran' := hran c
    have hpa : (a.cores c).readyQueue[p]? = some i := by
      cases hran' with
      | idle _ hb' => rw [← hb']; exact hp
      | run j outcome _ _ hb' => rw [← CoreState.after_readyQueue (a.cores c) outcome, ← hb']; exact hp
    obtain ⟨hcur, hlt⟩ := hbusy c (List.ne_nil_of_mem (List.mem_of_getElem? hpa))
    have hready := ha.ready_of_position hpa
    have hev : (b.view i).2 = (a.view i).2 := by
      rcases (hexec i).stays with ⟨hev, -⟩ | ⟨hrun, -⟩
      · exact hev
      · rw [show (a.view i).1.state = .ready from hready] at hrun
        cases hrun
    show ∃ e ∈ (b.view i).2.getLast?, e.Enters ∧ e.tick ≤ t + 1 ∧ t + 1 + (b.cores c).delay q p ≤ e.tick + B
    rw [hev]
    obtain ⟨e, he, hent, hle, hbound⟩ := h.queued c p i hpa
    refine ⟨e, he, hent, by omega, ?_⟩
    have hdelay : (b.cores c).delay q p + 1 ≤ (a.cores c).delay q p := by
      unfold CoreState.delay
      rw [if_neg hcur]
      cases hran' with
      | idle hn => exact absurd hn hcur
      | run j outcome hc _ hb' =>
        rw [hb']
        cases outcome with
        | running =>
          rw [if_neg (show ((a.cores c).after .running).current ≠ none from hcur)]
          simp only [CoreState.after]
          omega
        | complete | block =>
          simp only [CoreState.after, if_true]
          omega
    omega
  · show ∀ e ∈ (b.view i).2.getLast?, ¬e.Enters
    rcases (hexec i).stays with ⟨hev, hs⟩ | ⟨-, e, l, hev, hno⟩
    · rw [hev]
      exact h.other i (fun hr => hi (hs.trans hr))
    · rw [hev, List.getLast?_append_of_ne_nil _ (List.cons_ne_nil e l)]
      intro d hd
      exact hno d (List.mem_of_getLast? hd)

/-- After dispatch a core with a queue has a current task that has not used up its quantum. -/
theorem Stages.busy {s s₂ s₃ s₄ mid : Engine n m} (h : Stages .roundRobin q s s₂ s₃ s₄ mid) (hq : 0 < q) (c : Fin m)
    (hne : (mid.cores c).readyQueue ≠ []) : (mid.cores c).current ≠ none ∧ (mid.cores c).currentQuantum < q := by
  cases h.taken c with
  | keep hcur hsame =>
    rw [hsame] at hne ⊢
    refine ⟨hcur, ?_⟩
    have h₃ : (s₃.cores c).readyQueue ≠ [] ∧ (s₃.cores c).current ≠ none ∧
        (s₄.cores c).currentQuantum = (s₃.cores c).currentQuantum := by
      cases h.rebalanced c with
      | drop k _ hb =>
        rw [hb] at hne hcur ⊢
        refine ⟨fun hnil => hne ?_, hcur, rfl⟩
        simp only [hnil, List.drop_nil]
      | fill i hn _ hb =>
        rw [hb] at hcur
        exact absurd hn hcur
    obtain ⟨hne₃, hcur₃, hquantum⟩ := h₃
    rw [hquantum]
    cases h.released c with
    | release i _ _ hnone => exact absurd hnone hcur₃
    | keep hp hb =>
      rw [hb] at hne₃ hcur₃ ⊢
      obtain ⟨i, hi⟩ := Option.ne_none_iff_exists'.mp hcur₃
      have hlen := List.length_pos_iff.mpr hne₃
      simp only [preempts, PolicyKind.shouldPreemptCore, hi, RoundRobin.shouldPreempt, decide_eq_false_iff_not] at hp
      omega
  | idle _ hs hsame =>
    rw [hsame] at hne
    refine absurd ?_ hne
    cases hqueue : (s₄.cores c).readyQueue with
    | nil => rfl
    | cons j rest =>
      rw [hqueue] at hs
      cases hs
  | take i queue _ _ hcur _ hz =>
    rw [hcur, hz]
    exact ⟨Option.some_ne_none i, hq⟩

end Stages

/-! ## Runs -/

section Runs

variable {q : Nat}

/-- A loop whose ticks go through the stages of `round_robin`. -/
structure Cyclic (M : Machine n m) (q : Nat) (Inv : Engine n m → Prop) : Prop where
  stages : ∀ {s mid : Engine n m}, Inv s → M.schedule s = .ok mid → ∃ s₂ s₃ s₄, Stages .roundRobin q s s₂ s₃ s₄ mid
  ran : ∀ {s mid e : Engine n m}, Inv s → M.schedule s = .ok mid → M.execute mid = .ok e →
    ∀ c, CoreState.Ran e.runtimes (mid.cores c) (e.cores c)

theorem multicore_cyclic : Cyclic (multicore (n := n) (m := m) scenario .roundRobin) scenario.roundRobinQuantum
    (fun s => Placed s ∧ s.Counted) := by
  refine ⟨fun hp h => multicore_stages hp.1 h, fun hp h he => ?_⟩
  exact executeMulticore_cores (scheduleMulticore_ok hp.1 h).1 he

theorem singleCore_cyclic : Cyclic (singleCore (n := n) scenario .roundRobin) scenario.roundRobinQuantum
    (fun s => Solo .roundRobin s ∧ s.Counted) := by
  refine ⟨fun hp h => ?_, fun hp h he => ?_⟩
  · obtain ⟨s₂, s₃, hs⟩ := singleCore_stages rfl hp.1 h
    exact ⟨s₂, s₃, s₃, hs⟩
  · exact executeSingleCore_cores (scheduleSingleCore_ok hp.1 h).1 he

variable {M : Machine n m} {Inv : Engine n m → Prop} {info : Fin n → TaskInfo} {s₀ : Engine n m}

/-- **The promise is kept along every run.** -/
theorem Cyclic.kept (h : Cyclic M q Inv) (hq : 0 < q) (hM : Lawful M .roundRobin Inv) (hs : Start info s₀)
    (h₀ : Inv s₀) (hempty : ∀ c, (s₀.cores c).readyQueue = []) {k : Nat} {s : Engine n m} (hr : M.Run s₀ k s) :
    Kept q ((n - 1) * q) k s := by
  induction hr with
  | zero =>
    have hev : ∀ i, (s₀.view i).2 = [] := fun i => by simp [Engine.view, hs.trace]
    refine ⟨fun i => ?_, fun c p i hp => ?_, fun i _ e he => ?_⟩
    · rw [hev]
      exact List.isChain_nil
    · rw [hempty c] at hp
      cases hp
    · rw [hev] at he
      cases he
  | @succ k s s' hr hc hstep ih =>
    obtain ⟨mid, e, hmid, he, -, rfl⟩ := Machine.step_ok hstep
    obtain ⟨hinv, hk⟩ := hs.inv hM h₀ hr
    have hspec := hM.spec hinv hmid he
    obtain ⟨s₂, s₃, s₄, hst⟩ := h.stages hinv hmid
    obtain ⟨hp, hp₂, hp₃, hp₄, hp₅⟩ := hst.placed
    have hexec := hspec.exec
    rw [hspec.tick_end]
    obtain ⟨hwake, hpre, hmove, hassign⟩ : (∀ i, Wake k (s.view i) (s₂.view i)) ∧
        (∀ i, Preempt k (s₂.view i) (s₃.view i)) ∧ (∀ i, Assign k (s₃.view i) (s₄.view i)) ∧
        (∀ i, Assign k (s₄.view i) (mid.view i)) := by
      rw [← hk]
      exact ⟨hst.wake, hst.preempt, hst.move, hst.assign⟩
    rw [hk] at hexec ⊢
    have k₂ := ih.grown hp hp₂ hwake hst.grown
    have k₃ := k₂.released hp₂ hp₃ hpre hst.released
    have k₄ := k₃.rebalanced hp₃ hp₄ hmove hst.rebalanced
    have k₅ := k₄.taken hp₄ hp₅ hassign hst.taken
    exact k₅.ran hp₅ hexec (h.ran hinv hmid he) (hst.busy hq)

end Runs

/-! ## The result -/

section Results

/-- Every event of the task that enters a ready queue is followed by its dispatch, `B` ticks later at most. -/
def ServedWithin (B : Nat) (ev : List Event) : Prop :=
  ∀ before e after, ev = before ++ e :: after → e.Enters →
    ∃ d rest, after = d :: rest ∧ d.kind = .dispatch ∧ e.tick ≤ d.tick ∧ d.tick - e.tick ≤ B

theorem Kept.served {q B t : Nat} {s : Engine n m} (h : Kept q B t s) {i : Fin n}
    (hi : (s.runtimes i).state ≠ .ready) : ServedWithin B (s.view i).2 := by
  intro before e after hev hent
  have hchain := h.chain i
  have hlast := h.other i hi
  rw [hev] at hchain hlast
  cases after with
  | nil => exact absurd hent (hlast e (by simp))
  | cons d rest =>
    obtain ⟨hk, hle, hbound⟩ := (List.isChain_append_cons_cons.mp hchain).2.1 hent
    exact ⟨d, rest, rfl, hk, hle, by omega⟩

/-- **The latency of `round_robin`**: on any number of cores a task that enters a ready queue, by arrival, wakeup or
preemption, is dispatched next, after at most `(n - 1) * q` ticks. -/
theorem roundRobin_latency (scenario : ScenarioOwned) (hv : scenario.validate = .ok ()) :
    (horizon scenario < 2 ^ 32 - 1 → ∃ r, simulate scenario .roundRobin = .ok r) ∧
      ∀ r, simulate scenario .roundRobin = .ok r → ∀ task ∈ scenario.tasks,
        ServedWithin ((scenario.tasks.length - 1) * scenario.roundRobinQuantum) (events task.id r.trace) := by
  have hvalid := validate_ok hv
  refine ⟨simulate_returns .roundRobin hvalid, fun r hr task htask => ?_⟩
  have hq : 0 < scenario.roundRobinQuantum := hvalid.quantum_pos
  obtain ⟨l, hl, rfl⟩ := List.mem_iff_getElem.mp htask
  -- both loops, from their own invariant
  have hfinal : ∀ {m : Nat} {S : Simulation scenario .roundRobin m} {k : Nat} {s : Engine scenario.tasks.length m},
      Returns scenario .roundRobin r S k s → Kept scenario.roundRobinQuantum
        ((scenario.tasks.length - 1) * scenario.roundRobinQuantum) k s →
      ServedWithin ((scenario.tasks.length - 1) * scenario.roundRobinQuantum)
        (events (scenario.tasks[l]).id r.trace) := by
    intro m S k s h hkept
    have hcomp := h.complete hvalid ⟨l, hl⟩
    have hserved := hkept.served (i := ⟨l, hl⟩) (by rw [hcomp]; exact TaskState.noConfusion)
    have hid : (s.runtimes ⟨l, hl⟩).id = (scenario.tasks[l]).id :=
      congrArg TaskInfo.id (h.life hvalid ⟨l, hl⟩).common.info_eq
    rw [h.finalized.trace, ← hid]
    exact hserved
  by_cases hc : scenario.coreCount ≤ 1
  · obtain ⟨k, s, h⟩ := (singleSimulation_runs .roundRobin hvalid hc).returns hvalid hr
    exact hfinal h (singleCore_cyclic.kept hq singleCore_lawful (start_init hvalid 1)
      (solo_counted_init hvalid) (fun _ => rfl) h.run)
  · obtain ⟨k, s, h⟩ := (multiSimulation_runs .roundRobin hvalid hc).returns hvalid hr
    exact hfinal h (multicore_cyclic.kept hq multicore_lawful (start_init hvalid _)
      (placed_counted_init hvalid) (fun _ => rfl) h.run)

theorem roundRobin_latency_waitingPair : ∃ r, simulate waitingPair .roundRobin = .ok r ∧
    ∀ task ∈ waitingPair.tasks, ServedWithin 1 (events task.id r.trace) := by
  obtain ⟨hret, hall⟩ := roundRobin_latency waitingPair (by decide)
  obtain ⟨r, hr⟩ := hret (by decide)
  exact ⟨r, hr, hall r hr⟩

end Results

end Exasphere.Sim

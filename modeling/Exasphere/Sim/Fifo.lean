import Exasphere.Sim.PolicyOrder
import Exasphere.Sim.Reach

/-!
# First come, first served

A `Trail` follows a run from call to call of the loop body and notes, for one core, the tasks that enter its queue and
the tasks it takes. Under `fcfs` the tasks taken are taken in the order in which they entered: what entered is what has
left the queue followed by what is still in it. A task that is taken keeps the core until it blocks or completes.
-/

namespace Exasphere.Sim

open Exasphere.Lib

variable {n m : Nat} {scenario : ScenarioOwned}

/-! ## Trails -/

/-- The tasks that entered the queue of core `c` from state `a` to state `b`; a call that lets in several visits the
tasks in declaration order. -/
def entered (c : Fin m) (a b : Engine n m) : List (Fin n) :=
  (List.finRange n).filter (fun i => decide (i ∈ (b.cores c).readyQueue ∧ i ∉ (a.cores c).readyQueue))

/-- The task that core `c` took from state `a` to state `b`, if any. -/
def takenBy (c : Fin m) (a b : Engine n m) : List (Fin n) :=
  if (a.cores c).current = none then (b.cores c).current.toList else []

/-- One call of the body of the loop of `simulateMulticore`. -/
inductive MultiStep (scenario : ScenarioOwned) (policy : PolicyKind) : Point → Engine n m → Point → Engine n m → Prop
  | unblock {s s'} (hc : s.completed < n) (hs : processBlockedMulticore scenario s = .ok s') :
      MultiStep scenario policy .top s .unblocked s'
  | arrive {s s'} (hs : enqueueArrivalsMulticore scenario s = .ok s') :
    MultiStep scenario policy .unblocked s .arrived s'
  | preempt {s} : MultiStep scenario policy .arrived s .balancing (preemptMulticore scenario policy s)
  | migrate {s s'} (hs : rebalanceStep scenario s = .ok (some s')) :
      MultiStep scenario policy .balancing s .balancing s'
  | balanced {s} (hs : rebalanceStep scenario s = .ok none) : MultiStep scenario policy .balancing s .rebalanced s
  | dispatch {s} : MultiStep scenario policy .rebalanced s .dispatched (dispatchMulticore scenario policy s)
  | execute {s s'} (hs : executeMulticore scenario policy s = .ok s') :
      MultiStep scenario policy .dispatched s .executed s'
  | tick {s s'} (hs : advanceTick s = .ok s') : MultiStep scenario policy .executed s .top s'

/-- One call of the body of the loop of `simulateSingleCore`; preemption hands its excluded group to the dispatch. -/
inductive SingleStep (scenario : ScenarioOwned) (policy : PolicyKind) : Point → Engine n 1 → Point → Engine n 1 → Prop
  | unblock {s s'} (hc : s.completed < n) (hs : processBlockedSingleCore scenario policy s = .ok s') :
      SingleStep scenario policy .top s .unblocked s'
  | arrive {s s'} (hs : enqueueArrivalsSingleCore scenario policy s = .ok s') :
      SingleStep scenario policy .unblocked s .arrived s'
  | dispatch {s s' excluded} (hs : preemptSingleCore scenario policy s = (s', excluded)) :
      SingleStep scenario policy .arrived s .dispatched (dispatchSingleCore scenario policy excluded s')
  | execute {s s'} (hs : executeSingleCore scenario policy s = .ok s') :
      SingleStep scenario policy .dispatched s .executed s'
  | tick {s s'} (hs : advanceTick s = .ok s') : SingleStep scenario policy .executed s .top s'

/-- The states of a run, with what has entered the queue of core `c` and what the core has taken. -/
inductive Trail (step : Point → Engine n m → Point → Engine n m → Prop) (s₀ : Engine n m) (c : Fin m) :
    Point → Engine n m → List (Fin n) → List (Fin n) → Prop
  | start : Trail step s₀ c .top s₀ [] []
  | step {p q : Point} {s s' : Engine n m} {ins outs : List (Fin n)} (h : Trail step s₀ c p s ins outs)
      (hs : step p s q s') : Trail step s₀ c q s' (ins ++ entered c s s') (outs ++ takenBy c s s')

/-- Every core serves its queue in order, and its current task until it blocks or completes; the trails go through all
states of the loop `M`. -/
structure FirstServed (M : Machine n m) (step : Point → Engine n m → Point → Engine n m → Prop) (s₀ : Engine n m) :
    Prop where
  covers : ∀ k s, M.Run s₀ k s → ∀ c, ∃ ins outs, Trail step s₀ c .top s ins outs
  order : ∀ c p s ins outs, Trail step s₀ c p s ins outs →
    ∃ left, ins = left ++ (s.cores c).readyQueue ∧ outs.Sublist left
  keeps : ∀ c p s ins outs q s' x, Trail step s₀ c p s ins outs → step p s q s' → (s.cores c).current = some x →
    (s'.cores c).current = some x ∨ (s'.runtimes x).state = .blocked ∨ (s'.runtimes x).state = .complete

/-! ## What a step does to a queue -/

section Changes

variable {a b : Engine n m} {c : Fin m}

/-- Tasks appended by one call entered. -/
theorem entered_push {new : List (Fin n)} (hnd : (b.cores c).readyQueue.Nodup)
    (hq : (b.cores c).readyQueue = (a.cores c).readyQueue ++ new) (hs : new.Sublist (List.finRange n)) :
    entered c a b = new := by
  -- both lists are in declaration order and have the same members
  have h₁ : (entered c a b).Pairwise (· < ·) := (List.pairwise_lt_finRange n).sublist List.filter_sublist
  have h₂ : new.Pairwise (· < ·) := (List.pairwise_lt_finRange n).sublist hs
  have hdis : ∀ i ∈ new, i ∉ (a.cores c).readyQueue := by
    intro i hi ha
    rw [hq] at hnd
    exact (List.nodup_append.mp hnd).2.2 i ha i hi rfl
  have hperm : (entered c a b).Perm new := by
    refine (List.perm_ext_iff_of_nodup (h₁.imp ne_of_lt) (h₂.imp ne_of_lt)).mpr (fun i => ?_)
    simp only [entered, List.mem_filter, List.mem_finRange, true_and, decide_eq_true_eq, hq, List.mem_append]
    constructor
    · rintro ⟨hi | hi, hn⟩
      · exact absurd hi hn
      · exact hi
    · exact fun hi => ⟨Or.inr hi, hdis i hi⟩
  exact hperm.eq_of_pairwise (fun i j _ _ hij hji => absurd hij (lt_asymm hji)) h₁ h₂

/-- Nothing enters a queue that loses tasks only. -/
theorem entered_nil (hq : ∀ i ∈ (b.cores c).readyQueue, i ∈ (a.cores c).readyQueue) : entered c a b = [] := by
  unfold entered
  rw [List.filter_eq_nil_iff]
  intro i _
  simp only [decide_eq_true_eq, not_and, not_not]
  exact hq i

/-- A core that had a task, or has none, took none. -/
theorem takenBy_nil (h : (b.cores c).current = (a.cores c).current ∨ (b.cores c).current = none) :
    takenBy c a b = [] := by
  unfold takenBy
  split
  next hn =>
    rcases h with h | h
    · rw [h, hn]; rfl
    · rw [h]; rfl
  next => rfl

/-- What one call does to the queue and the current task of a core. -/
inductive Serves (c : Fin m) (a b : Engine n m) : Prop
  | push (new : List (Fin n)) (hs : new.Sublist (List.finRange n))
      (hq : (b.cores c).readyQueue = (a.cores c).readyQueue ++ new) (hc : (b.cores c).current = (a.cores c).current)
  | lose (i : Fin n) (hq : (a.cores c).readyQueue = i :: (b.cores c).readyQueue)
      (hc : (b.cores c).current = (a.cores c).current)
  | take (i : Fin n) (hn : (a.cores c).current = none) (hq : (a.cores c).readyQueue = i :: (b.cores c).readyQueue)
      (hc : (b.cores c).current = some i)
  | finish (x : Fin n) (hx : (a.cores c).current = some x) (hq : (b.cores c).readyQueue = (a.cores c).readyQueue)
      (hc : (b.cores c).current = none) (hs : (b.runtimes x).state = .blocked ∨ (b.runtimes x).state = .complete)

theorem Serves.same (h : b.cores c = a.cores c) : Serves c a b :=
  .push [] (List.nil_sublist _) (by rw [h]; simp) (by rw [h])

/-- The order of a queue through one call. -/
theorem Serves.order {ins outs : List (Fin n)} (h : Serves c a b) (hnd : (b.cores c).readyQueue.Nodup)
    (hord : ∃ left, ins = left ++ (a.cores c).readyQueue ∧ outs.Sublist left) :
    ∃ left, ins ++ entered c a b = left ++ (b.cores c).readyQueue ∧ (outs ++ takenBy c a b).Sublist left := by
  obtain ⟨left, hins, houts⟩ := hord
  cases h with
  | push new hs hq hc =>
    rw [entered_push hnd hq hs, takenBy_nil (Or.inl hc), List.append_nil, hins, hq]
    exact ⟨left, by simp, houts⟩
  | lose i hq hc =>
    rw [entered_nil (by simp +contextual [hq]), takenBy_nil (Or.inl hc), List.append_nil, List.append_nil, hins, hq]
    exact ⟨left ++ [i], by simp, houts.trans (List.sublist_append_left left [i])⟩
  | take i hn hq hc =>
    have htaken : takenBy c a b = [i] := by simp [takenBy, hn, hc]
    rw [entered_nil (by simp +contextual [hq]), htaken, List.append_nil, hins, hq]
    exact ⟨left ++ [i], by simp, houts.append (List.Sublist.refl _)⟩
  | finish x hx hq hc hs =>
    rw [entered_nil (by simp [hq]), takenBy_nil (Or.inr hc), List.append_nil, List.append_nil, hins, hq]
    exact ⟨left, rfl, houts⟩

/-- The current task through one call. -/
theorem Serves.keeps {x : Fin n} (h : Serves c a b) (hx : (a.cores c).current = some x) :
    (b.cores c).current = some x ∨ (b.runtimes x).state = .blocked ∨ (b.runtimes x).state = .complete := by
  cases h with
  | push new hs hq hc => exact Or.inl (by rw [hc]; exact hx)
  | lose i hq hc => exact Or.inl (by rw [hc]; exact hx)
  | take i hn hq hc =>
    rw [hn] at hx
    cases hx
  | finish y hy hq hc hs =>
    obtain rfl : y = x := Option.some.inj (hy.symm.trans hx)
    exact Or.inr hs

/-- Steps that serve the queues, under an invariant, serve them first come, first served. -/
theorem FirstServed.of_serves {M : Machine n m} {step : Point → Engine n m → Point → Engine n m → Prop}
    {s₀ : Engine n m} (hcov : ∀ k s, M.Run s₀ k s → ∀ c, ∃ ins outs, Trail step s₀ c .top s ins outs)
    {I : Engine n m → Prop} (h₀ : I s₀) (hq : ∀ c, (s₀.cores c).readyQueue = [])
    (hnodup : ∀ {s}, I s → ∀ c, (s.cores c).readyQueue.Nodup)
    (hstep : ∀ {p s q s'}, I s → step p s q s' → I s' ∧ ∀ c, Serves c s s') : FirstServed M step s₀ := by
  have hrun : ∀ c p s ins outs, Trail step s₀ c p s ins outs → I s ∧
      ∃ left, ins = left ++ (s.cores c).readyQueue ∧ outs.Sublist left := by
    intro c p s ins outs h
    induction h with
    | start => exact ⟨h₀, [], by simp [hq c], List.Sublist.refl _⟩
    | step _ hs ih =>
      obtain ⟨hp, hserves⟩ := hstep ih.1 hs
      exact ⟨hp, (hserves c).order (hnodup hp c) ih.2⟩
  refine ⟨hcov, fun c p s ins outs h => (hrun c p s ins outs h).2, fun c p s ins outs q s' x h hs hx => ?_⟩
  obtain ⟨-, hserves⟩ := hstep (hrun c p s ins outs h).1 hs
  exact (hserves c).keeps hx

end Changes

/-! ## The two engines -/

section Engines

theorem preempts_fcfs (q : Nat) (rt : Fin n → RuntimeTask) (core : CoreState n) : preempts .fcfs q rt core = false := by
  unfold preempts
  cases core.current <;> rfl

variable {s s' : Engine n m} {c : Fin m}

theorem serves_of_grown (h : ∃ new, new.Sublist (List.finRange n) ∧ CoreState.Grown (s.cores c) (s'.cores c) new) :
    Serves c s s' := by
  obtain ⟨new, hs, hg⟩ := h
  exact .push new hs (by rw [hg]) (by rw [hg])

/-- No current task is preempted. -/
theorem serves_of_released {q : Nat} {rt : Fin n → RuntimeTask}
    (h : CoreState.Released (preempts .fcfs q rt (s.cores c)) (s.cores c) (s'.cores c)) : s'.cores c = s.cores c := by
  cases h with
  | keep _ hb => exact hb
  | release i hp =>
    rw [preempts_fcfs] at hp
    cases hp

/-- A core takes the head of its queue. -/
theorem serves_of_taken {rt : Fin n → RuntimeTask} (h : CoreState.Taken
    (PolicyKind.fcfs.selectNextCore (s.cores c).readyQueue rt) (s.cores c) (s'.cores c)) : Serves c s s' := by
  cases h with
  | keep _ hb => exact .same hb
  | idle _ _ hb => exact .same hb
  | take i queue hn hs hb hq hz =>
    refine .take i hn ?_ hb
    rw [hq]
    exact selectNext_some hs

theorem serves_of_ran (h : CoreState.Ran s'.runtimes (s.cores c) (s'.cores c)) : Serves c s s' := by
  cases h with
  | idle _ hb => exact .same hb
  | run i outcome hc hs hb =>
    cases outcome with
    | running => exact .push [] (List.nil_sublist _) (by rw [hb]; simp) (by rw [hb]; rfl)
    | complete => exact .finish i hc (by rw [hb]; rfl) (by rw [hb]; rfl) (Or.inr hs)
    | block => exact .finish i hc (by rw [hb]; rfl) (by rw [hb]; rfl) (Or.inl hs)

/-- A migration appends to the queue of an idle core and takes the head of another queue. -/
theorem serves_of_migrate (h : rebalanceStep scenario s = .ok (some s')) (c : Fin m) : Serves c s s' := by
  obtain ⟨recipient, donor, i, rest, -, -, hne, hq, -, rfl⟩ := rebalanceStep_some h
  have hcores := migrateHead_cores hne hq
  by_cases hr : c = recipient
  · subst hr
    have hc : (migrateHead c donor s).cores c = { s.cores c with readyQueue := (s.cores c).readyQueue ++ [i] } := by
      rw [hcores, Function.update_self]
    exact .push [i] (List.singleton_sublist.mpr (List.mem_finRange i)) (by rw [hc]) (by rw [hc])
  · by_cases hd : c = donor
    · subst hd
      have hc : (migrateHead recipient c s).cores c = { s.cores c with readyQueue := rest } := by
        rw [hcores, Function.update_of_ne hr, Function.update_self]
      exact .lose i (by rw [hc, hq]) (by rw [hc])
    · exact .same (by rw [hcores, Function.update_of_ne hr, Function.update_of_ne hd])

theorem advanceTick_eq (h : advanceTick s = .ok s') : s' = { s with tick := s.tick + 1 } := by
  simp only [advanceTick, bind_eq_ok, addChecked_eq_ok, Except.ok.injEq] at h
  obtain ⟨t, ⟨-, rfl⟩, rfl⟩ := h
  rfl

theorem MultiStep.serves {p q : Point} (hp : Placed s) (h : MultiStep scenario .fcfs p s q s') :
    Placed s' ∧ ∀ c, Serves c s s' := by
  cases h with
  | unblock _ hs =>
    exact ⟨(processBlockedMulticore_ok hp hs).1, fun c => serves_of_grown (processBlockedMulticore_grown hs c)⟩
  | arrive hs =>
    exact ⟨(enqueueArrivalsMulticore_ok hp hs).1, fun c => serves_of_grown (enqueueArrivalsMulticore_grown hs c)⟩
  | preempt =>
    exact ⟨(preemptMulticore_ok _ _ hp).1, fun c => .same (serves_of_released (preemptMulticore_cores hp c))⟩
  | migrate hs =>
    refine ⟨?_, serves_of_migrate hs⟩
    obtain ⟨recipient, donor, i, rest, -, -, hne, hq, -, rfl⟩ := rebalanceStep_some hs
    exact (migrateHead_ok hp hne hq).1
  | balanced => exact ⟨hp, fun c => .same rfl⟩
  | dispatch => exact ⟨(dispatchMulticore_ok _ _ hp).1, fun c => serves_of_taken (dispatchMulticore_cores hp c)⟩
  | execute hs => exact ⟨(executeMulticore_ok hp hs).1, fun c => serves_of_ran (executeMulticore_cores hp hs c)⟩
  | tick hs =>
    rw [advanceTick_eq hs]
    exact ⟨⟨hp.slotted, hp.queued, hp.assigned, hp.ids⟩, fun c => .same rfl⟩

theorem SingleStep.serves {s s' : Engine n 1} {p q : Point} (hp : Solo .fcfs s)
    (h : SingleStep scenario .fcfs p s q s') : Solo .fcfs s' ∧ ∀ c, Serves c s s' := by
  cases h with
  | unblock _ hs =>
    exact ⟨(processBlockedSingleCore_ok hp hs).1, fun c => serves_of_grown (processBlockedSingleCore_grown hs c)⟩
  | arrive hs =>
    exact ⟨(enqueueArrivalsSingleCore_ok hp hs).1, fun c => serves_of_grown (enqueueArrivalsSingleCore_grown hs c)⟩
  | @dispatch _ s₃ excluded hs =>
    obtain ⟨hp₃, -, -, hsel⟩ := preemptSingleCore_ok hp hs
    obtain ⟨hrel, rfl⟩ := preemptSingleCore_cores rfl hs 0
    refine ⟨(dispatchSingleCore_ok scenario hp₃ hsel).1, fun c => ?_⟩
    obtain rfl : c = 0 := Subsingleton.elim c 0
    have htaken := dispatchSingleCore_cores scenario rfl hp₃ 0
    rw [serves_of_released hrel] at htaken
    exact serves_of_taken htaken
  | execute hs => exact ⟨(executeSingleCore_ok hp hs).1, fun c => serves_of_ran (executeSingleCore_cores hp hs c)⟩
  | tick hs =>
    rw [advanceTick_eq hs]
    exact ⟨⟨hp.slotted, hp.queued, hp.assigned, hp.dispatched, hp.ids⟩, fun c => .same rfl⟩

end Engines

/-! ## Runs and trails -/

section Covers

variable {policy : PolicyKind} {s₀ s s' : Engine n m} {c : Fin m}

/-- The iterations of `rebalanceReadyQueues` are steps of a trail. -/
theorem Trail.rebalance {fuel : Nat} {ins outs : List (Fin n)}
    (h : Trail (MultiStep scenario policy) s₀ c .balancing s ins outs) (hl : rebalanceLoop scenario fuel s = .ok s') :
    ∃ ins outs, Trail (MultiStep scenario policy) s₀ c .balancing s' ins outs := by
  induction fuel generalizing s ins outs with
  | zero =>
    obtain rfl : s = s' := by simpa [rebalanceLoop] using hl
    exact ⟨ins, outs, h⟩
  | succ fuel ih =>
    obtain ⟨r, hr, hl⟩ := bind_eq_ok.mp hl
    cases r with
    | none =>
      obtain rfl : s = s' := by simpa using hl
      exact ⟨ins, outs, h⟩
    | some s₁ => exact ih (h.step (.migrate hr)) hl

theorem multicore_trail {k : Nat} (h : (multicore scenario policy).Run s₀ k s) (c : Fin m) :
    ∃ ins outs, Trail (MultiStep scenario policy) s₀ c .top s ins outs := by
  induction h with
  | zero => exact ⟨[], [], .start⟩
  | succ _ hc hstep ih =>
    obtain ⟨ins, outs, ht⟩ := ih
    obtain ⟨mid, hmid, hexec⟩ := bind_eq_ok.mp hstep
    obtain ⟨e, he, htick⟩ := bind_eq_ok.mp hexec
    obtain ⟨s₁, s₂, s₄, h₁, h₂, h₄, rfl⟩ := scheduleMulticore_parts hmid
    have hbalancing := ((ht.step (.unblock hc h₁)).step (.arrive h₂)).step .preempt
    obtain ⟨ins', outs', hdone⟩ := hbalancing.rebalance h₄
    have hdispatched := (hdone.step (.balanced (rebalanceReadyQueues_ends h₄))).step .dispatch
    exact ⟨_, _, (hdispatched.step (.execute he)).step (.tick htick)⟩

theorem singleCore_trail {s₀ s : Engine n 1} {k : Nat} (h : (singleCore scenario policy).Run s₀ k s) (c : Fin 1) :
    ∃ ins outs, Trail (SingleStep scenario policy) s₀ c .top s ins outs := by
  induction h with
  | zero => exact ⟨[], [], .start⟩
  | succ _ hc hstep ih =>
    obtain ⟨ins, outs, ht⟩ := ih
    obtain ⟨mid, hmid, hexec⟩ := bind_eq_ok.mp hstep
    obtain ⟨e, he, htick⟩ := bind_eq_ok.mp hexec
    obtain ⟨s₁, s₂, s₃, excluded, h₁, h₂, h₃, rfl⟩ := scheduleSingleCore_parts hmid
    have hdispatched := ((ht.step (.unblock hc h₁)).step (.arrive h₂)).step (.dispatch h₃)
    exact ⟨_, _, (hdispatched.step (.execute he)).step (.tick htick)⟩

end Covers

/-! ## The result -/

section Results

theorem multicore_firstServed (hv : Valid scenario) : FirstServed (multicore scenario .fcfs)
    (MultiStep scenario .fcfs) (initEngine scenario scenario.coreCount) :=
  .of_serves (I := Placed) (fun _ _ h c => multicore_trail h c) (placed_init hv hv.core_pos) (fun _ => rfl)
    (fun hp c => hp.queued.nodup c) (fun hp hs => hs.serves hp)

theorem singleCore_firstServed (hv : Valid scenario) : FirstServed (singleCore scenario .fcfs)
    (SingleStep scenario .fcfs) (initEngine scenario 1) :=
  .of_serves (I := Solo .fcfs) (fun _ _ h c => singleCore_trail h c) (solo_init hv) (fun _ => rfl)
    (fun hp c => (hp.queued rfl).nodup c) (fun hp hs => hs.serves hp)

/-- **Policy order.** In every tick the task a core executes comes before all tasks that wait for the core, by virtual
runtime or by deadline and then by `inputOrder`, strictly since the loader numbers the tasks; under `fcfs` every core
serves its queue in order. -/
theorem policy_order (scenario : ScenarioOwned) (hv : scenario.validate = .ok ()) :
    ((∀ g ∈ scenario.groups, g.quotaTicks = 0) → ∀ τ c rt x R, Executes scenario .cfsLike τ c rt x R → ∀ y ∈ R, y ≠ x ∧
      toLex ((rt x).vruntime, (rt x).inputOrder) ≤ toLex ((rt y).vruntime, (rt y).inputOrder) ∧
      ((scenario.tasks.map TaskSpec.inputOrder).Nodup →
        toLex ((rt x).vruntime, (rt x).inputOrder) < toLex ((rt y).vruntime, (rt y).inputOrder))) ∧
    (∀ τ c rt x R, Executes scenario .deadline τ c rt x R → ∀ y ∈ R, y ≠ x ∧
      toLex ((rt x).deadlineTick.getD (2 ^ 32 - 1), (rt x).inputOrder) ≤
        toLex ((rt y).deadlineTick.getD (2 ^ 32 - 1), (rt y).inputOrder) ∧
      ((scenario.tasks.map TaskSpec.inputOrder).Nodup →
        toLex ((rt x).deadlineTick.getD (2 ^ 32 - 1), (rt x).inputOrder) <
          toLex ((rt y).deadlineTick.getD (2 ^ 32 - 1), (rt y).inputOrder))) ∧
    (scenario.coreCount ≤ 1 →
      FirstServed (singleCore scenario .fcfs) (SingleStep scenario .fcfs) (initEngine scenario 1)) ∧
    (1 < scenario.coreCount → FirstServed (multicore scenario .fcfs) (MultiStep scenario .fcfs)
      (initEngine scenario scenario.coreCount)) := by
  have hvalid := validate_ok hv
  refine ⟨fun hq τ c rt x R h y hy => ?_, fun τ c rt x R h y hy => ?_, fun _ => singleCore_firstServed hvalid,
    fun _ => multicore_firstServed hvalid⟩
  · obtain ⟨hle, hne, -⟩ := h.leads hvalid cfsLike_chooses (fun _ => hq) hy
    refine ⟨hne, ?_, fun horder => ?_⟩
    · rw [← not_lt, ← cfsLike_better_iff, hle]
      exact Bool.false_ne_true
    · exact cfsLike_better_iff.mp (h.first hvalid horder cfsLike_chooses (fun _ => hq) hy)
  · obtain ⟨hle, hne, -⟩ := h.leads hvalid deadline_chooses (by simp) hy
    refine ⟨hne, ?_, fun horder => ?_⟩
    · rw [← not_lt, ← deadline_better_iff, hle]
      exact Bool.false_ne_true
    · exact deadline_better_iff.mp (h.first hvalid horder deadline_chooses (by simp) hy)

theorem policy_order_waitingPair : waitingPair.validate = .ok () ∧ FirstServed (multicore waitingPair .fcfs)
    (MultiStep waitingPair .fcfs) (initEngine waitingPair waitingPair.coreCount) :=
  ⟨by decide, (policy_order waitingPair (by decide)).2.2.2 (by decide)⟩

end Results

end Exasphere.Sim

import Exasphere.Sim.Results

/-!
# What a tick does to one core

A tick takes a core through the stages of the loop body: woken and arriving tasks are appended to its queue (`Grown`),
it may give up its current task (`Released`), rebalancing drops a part of the queue from its head or gives one task to
an idle core (`Rebalanced`), the core takes the selected task (`Taken`) and executes it (`Ran`). `Stages` holds the
states of a tick together with these relations. Both engines go through them: the multicore engine under every policy,
the single-core engine under the policies with a ready queue.
-/

namespace Exasphere.Sim

open Exasphere.Lib

variable {n m : Nat} {scenario : ScenarioOwned} {policy : PolicyKind}

/-! ## The stages of a core -/

namespace CoreState

/-- Tasks were appended to the queue. -/
def Grown (a b : CoreState n) (new : List (Fin n)) : Prop := b = { a with readyQueue := a.readyQueue ++ new }

/-- The current task, if it is preempted, goes to the end of the queue. -/
inductive Released (preempts : Bool) (a b : CoreState n) : Prop
  | keep (hp : preempts = false) (hb : b = a)
  | release (i : Fin n) (hp : preempts = true) (ha : a.current = some i) (hb : b.current = none)
      (hq : b.readyQueue = a.readyQueue ++ [i])

/-- Rebalancing leaves no core without a task that had one, and gives at most one task to an idle core. -/
inductive Rebalanced (a b : CoreState n) : Prop
  | drop (k : Nat) (hk : a.current = none → k = 0 ∨ k < a.readyQueue.length)
      (hb : b = { a with readyQueue := a.readyQueue.drop k })
  | fill (i : Fin n) (hc : a.current = none) (hq : a.readyQueue = []) (hb : b = { a with readyQueue := [i] })

/-- A core without a current task takes the selected one. -/
inductive Taken (selected : Option (Fin n × List (Fin n))) (a b : CoreState n) : Prop
  | keep (hc : a.current ≠ none) (hb : b = a)
  | idle (hc : a.current = none) (hs : selected = none) (hb : b = a)
  | take (i : Fin n) (queue : List (Fin n)) (hc : a.current = none) (hs : selected = some (i, queue))
      (hb : b.current = some i) (hq : b.readyQueue = queue) (hz : b.currentQuantum = 0)

/-- The current task executed a tick and is in the state `rt` says. -/
inductive Ran (rt : Fin n → RuntimeTask) (a b : CoreState n) : Prop
  | idle (hc : a.current = none) (hb : b = a)
  | run (i : Fin n) (outcome : Outcome) (hc : a.current = some i) (hs : (rt i).state = outcome.state)
      (hb : b = a.after outcome)

theorem Rebalanced.refl (a : CoreState n) : Rebalanced a a := .drop 0 (fun _ => Or.inl rfl) (by simp)

end CoreState

open CoreState

theorem selectNext_some {queue rest : List (Fin n)} {i : Fin n} (h : selectNext queue = some (i, rest)) :
    queue = i :: rest := by
  cases queue with
  | nil => cases h
  | cons j q =>
    obtain ⟨rfl, rfl⟩ := Prod.mk.inj (Option.some.inj h)
    rfl

/-! ## Wakeups and arrivals -/

section Grow

/-- A loop over the tasks whose body appends at most the task it visits to one queue. -/
theorem taskLoop_grown {body : Engine n m → Fin n → Except SimError (Engine n m)} {s s' : Engine n m} {c : Fin m}
    (hbody : ∀ s s' i, body s i = .ok s' → s'.cores c = s.cores c ∨ Grown (s.cores c) (s'.cores c) [i])
    (h : (List.finRange n).foldlM body s = .ok s') :
    ∃ new, new.Sublist (List.finRange n) ∧ Grown (s.cores c) (s'.cores c) new := by
  refine foldlM_inv (P := fun done x => ∃ new, new.Sublist done ∧ Grown (s.cores c) (x.cores c) new)
    ⟨[], List.Sublist.refl _, by simp [Grown]⟩ ?_ h
  rintro done i rest a b - ⟨new, hsub, ha⟩ hb
  rcases hbody a b i hb with hkeep | hpush
  · exact ⟨new, hsub.trans (List.sublist_append_left done [i]), by rw [hkeep]; exact ha⟩
  · refine ⟨new ++ [i], hsub.append (List.Sublist.refl _), ?_⟩
    unfold Grown at ha hpush ⊢
    rw [hpush, ha]
    simp

theorem Engine.pushReady_grown (s : Engine n m) (c d : Fin m) (i : Fin n) :
    (s.pushReady c i).cores d = s.cores d ∨ Grown (s.cores d) ((s.pushReady c i).cores d) [i] := by
  by_cases h : d = c
  · subst h
    exact Or.inr (by simp [Grown])
  · exact Or.inl (by simp [Function.update_of_ne h])

variable {s s' : Engine n m}

theorem processBlockedMulticore_grown (h : processBlockedMulticore scenario s = .ok s') (c : Fin m) :
    ∃ new, new.Sublist (List.finRange n) ∧ Grown (s.cores c) (s'.cores c) new := by
  refine taskLoop_grown (fun s s' i h => ?_) h
  unfold processBlockedMulticoreAt at h
  simp only at h
  split at h
  · exact Or.inl (by rw [← Except.ok.inj h])
  · split at h
    · obtain ⟨y, -, h⟩ := bind_eq_ok.mp h
      obtain ⟨d, -, h⟩ := bind_eq_ok.mp h
      rw [← Except.ok.inj h]
      exact Engine.pushReady_grown (s.setTask i _) d c i
    · obtain ⟨b, -, h⟩ := bind_eq_ok.mp h
      exact Or.inl (by rw [← Except.ok.inj h]; rfl)

theorem enqueueArrivalsMulticore_grown (h : enqueueArrivalsMulticore scenario s = .ok s') (c : Fin m) :
    ∃ new, new.Sublist (List.finRange n) ∧ Grown (s.cores c) (s'.cores c) new := by
  refine taskLoop_grown (fun s s' i h => ?_) h
  unfold enqueueArrivalsMulticoreAt at h
  simp only at h
  split at h
  · obtain ⟨d, -, h⟩ := bind_eq_ok.mp h
    rw [← Except.ok.inj h]
    exact Engine.pushReady_grown (s.setTask i _) d c i
  · exact Or.inl (by rw [← Except.ok.inj h])

theorem pushSingle_grown (policy : PolicyKind) (s : Engine n 1) (c : Fin 1) (i : Fin n) :
    (pushSingle policy i s).cores c = s.cores c ∨ Grown (s.cores c) ((pushSingle policy i s).cores c) [i] := by
  unfold pushSingle
  split
  · exact Engine.pushReady_grown s 0 c i
  · exact Or.inl rfl

theorem processBlockedSingleCore_grown {s s' : Engine n 1} (h : processBlockedSingleCore scenario policy s = .ok s')
    (c : Fin 1) : ∃ new, new.Sublist (List.finRange n) ∧ Grown (s.cores c) (s'.cores c) new := by
  refine taskLoop_grown (fun s s' i h => ?_) h
  unfold processBlockedSingleCoreAt at h
  simp only at h
  split at h
  · exact Or.inl (by rw [← Except.ok.inj h])
  · split at h
    · obtain ⟨y, -, h⟩ := bind_eq_ok.mp h
      rw [← Except.ok.inj h]
      exact pushSingle_grown policy (s.setTask i _) c i
    · obtain ⟨b, -, h⟩ := bind_eq_ok.mp h
      exact Or.inl (by rw [← Except.ok.inj h]; rfl)

theorem enqueueArrivalsSingleCore_grown {s s' : Engine n 1} (h : enqueueArrivalsSingleCore scenario policy s = .ok s')
    (c : Fin 1) : ∃ new, new.Sublist (List.finRange n) ∧ Grown (s.cores c) (s'.cores c) new := by
  refine taskLoop_grown (fun s s' i h => ?_) h
  unfold enqueueArrivalsSingleCoreAt at h
  simp only at h
  split at h
  · rw [← Except.ok.inj h]
    exact pushSingle_grown policy (s.setTask i _) c i
  · exact Or.inl (by rw [← Except.ok.inj h])

end Grow

/-! ## Preemption -/

section Keys

/-- The fields of a task that the policies compare. -/
def Keyed (rt rt' : Fin n → RuntimeTask) : Prop :=
  ∀ i, (rt' i).vruntime = (rt i).vruntime ∧ (rt' i).toTaskInfo = (rt i).toTaskInfo

variable {rt rt' rt'' : Fin n → RuntimeTask}

theorem Keyed.refl (rt : Fin n → RuntimeTask) : Keyed rt rt := fun _ => ⟨rfl, rfl⟩

theorem Keyed.trans (h : Keyed rt rt') (h' : Keyed rt' rt'') : Keyed rt rt'' :=
  fun i => ⟨(h' i).1.trans (h i).1, (h' i).2.trans (h i).2⟩

theorem Keyed.cfsLike (h : Keyed rt rt') (i j : Fin n) :
    CfsLike.better (rt' i) (rt' j) = CfsLike.better (rt i) (rt j) := by
  unfold CfsLike.better
  rw [(h i).1, (h j).1, (h i).2, (h j).2]

theorem Keyed.deadline (h : Keyed rt rt') (i j : Fin n) :
    Deadline.better (rt' i) (rt' j) = Deadline.better (rt i) (rt j) := by
  unfold Deadline.better
  rw [(h i).2, (h j).2]

theorem Keyed.vruntimeChoice (h : Keyed rt rt') (queue : List (Fin n)) :
    chooseBestReadyTaskByVruntime rt' queue = chooseBestReadyTaskByVruntime rt queue := by
  unfold chooseBestReadyTaskByVruntime chooseBestReadyTask
  simp only [h.cfsLike]

theorem Keyed.deadlineChoice (h : Keyed rt rt') (queue : List (Fin n)) :
    chooseBestReadyTaskByDeadline rt' queue = chooseBestReadyTaskByDeadline rt queue := by
  unfold chooseBestReadyTaskByDeadline chooseBestReadyTask
  simp only [h.deadline]

theorem Keyed.shouldPreemptCore (h : Keyed rt rt') (current : Option (Fin n)) (x q : Nat) (queue : List (Fin n)) :
    policy.shouldPreemptCore current x q queue rt' = policy.shouldPreemptCore current x q queue rt := by
  unfold PolicyKind.shouldPreemptCore
  simp only [h.vruntimeChoice, h.deadlineChoice, h.cfsLike, h.deadline]

theorem Keyed.selectNextCore (h : Keyed rt rt') (queue : List (Fin n)) :
    policy.selectNextCore queue rt' = policy.selectNextCore queue rt := by
  unfold PolicyKind.selectNextCore
  simp only [h.vruntimeChoice, h.deadlineChoice]

/-- The stages of a life before the execution leave what the policies compare. -/
theorem Wake.keyed {t : Nat} {x y : View} (h : Wake t x y) :
    y.1.vruntime = x.1.vruntime ∧ y.1.toTaskInfo = x.1.toTaskInfo :=
  ⟨h.counters_eq.2.1, h.info_eq⟩

theorem Preempt.keyed {t : Nat} {x y : View} (h : Preempt t x y) :
    y.1.vruntime = x.1.vruntime ∧ y.1.toTaskInfo = x.1.toTaskInfo := by
  refine ⟨?_, h.info_eq⟩
  cases h <;> rfl

theorem Assign.keyed {t : Nat} {x y : View} (h : Assign t x y) :
    y.1.vruntime = x.1.vruntime ∧ y.1.toTaskInfo = x.1.toTaskInfo := by
  refine ⟨?_, h.info_eq⟩
  cases h <;> rfl

end Keys

section Release

/-- Whether the policy preempts the current task of a core. -/
def preempts (policy : PolicyKind) (quantum : Nat) (rt : Fin n → RuntimeTask) (core : CoreState n) : Bool :=
  policy.shouldPreemptCore core.current core.currentQuantum quantum core.readyQueue rt

theorem preemptMulticoreAt_cores (scenario : ScenarioOwned) (policy : PolicyKind) (s : Engine n m) (c : Fin m) :
    Released (preempts policy scenario.roundRobinQuantum s.runtimes (s.cores c)) (s.cores c)
      ((preemptMulticoreAt scenario policy s c).cores c) ∧
    ∀ d, d ≠ c → (preemptMulticoreAt scenario policy s c).cores d = s.cores d := by
  unfold preemptMulticoreAt preempts
  simp only
  split
  next hc => exact ⟨.keep (by rw [hc]; rfl) rfl, fun _ _ => rfl⟩
  next i hc =>
    split
    next hp => exact ⟨.release i hp hc (by simp) (by simp), fun d hd => by simp [Function.update_of_ne hd]⟩
    next hp => exact ⟨.keep (by simpa using hp) rfl, fun _ _ => rfl⟩

/-- The core of an iteration is not one of those before it. -/
theorem not_mem_done {done rest : List (Fin m)} {d : Fin m} (hl : List.finRange m = done ++ d :: rest) : d ∉ done := by
  intro hd
  have hnd := List.nodup_finRange m
  rw [hl, List.nodup_append] at hnd
  exact hnd.2.2 d hd d (by simp) rfl

/-- A loop over the cores whose iterations change their own core only: `Q` holds of every core. -/
theorem foldl_cores {f : Engine n m → Fin m → Engine n m} {I : Engine n m → Prop} {Q : Fin m → CoreState n → Prop}
    {s : Engine n m} (h₀ : I s) (hf : ∀ x d, I x → x.cores d = s.cores d →
      I (f x d) ∧ Q d ((f x d).cores d) ∧ ∀ e, e ≠ d → (f x d).cores e = x.cores e) (c : Fin m) :
    Q c (((List.finRange m).foldl f s).cores c) := by
  have hloop := foldl_inv (f := f) (l := List.finRange m) (s := s)
    (P := fun done x => I x ∧ (∀ d, d ∉ done → x.cores d = s.cores d) ∧ ∀ d ∈ done, Q d (x.cores d))
    ⟨h₀, fun _ _ => rfl, by simp⟩ ?_
  · exact hloop.2.2 c (List.mem_finRange c)
  · rintro done d rest x hl ⟨hx, hout, hin⟩
    have hd := not_mem_done hl
    obtain ⟨hx', hq, hother⟩ := hf x d hx (hout d hd)
    refine ⟨hx', fun e he => ?_, fun e he => ?_⟩
    · simp only [List.mem_append, List.mem_singleton, not_or] at he
      rw [hother e he.2, hout e he.1]
    · rcases List.mem_append.mp he with he | he
      · have hed : e ≠ d := fun h => hd (h ▸ he)
        rw [hother e hed]
        exact hin e he
      · obtain rfl := List.mem_singleton.mp he
        exact hq

/-- Every core decides about its own current task. -/
theorem preemptMulticore_cores {s : Engine n m} (hp : Placed s) (c : Fin m) :
    Released (preempts policy scenario.roundRobinQuantum s.runtimes (s.cores c)) (s.cores c)
      ((preemptMulticore scenario policy s).cores c) := by
  refine foldl_cores (f := preemptMulticoreAt scenario policy) (I := fun x => Placed x ∧ Keyed s.runtimes x.runtimes)
    (Q := fun d core => Released (preempts policy scenario.roundRobinQuantum s.runtimes (s.cores d)) (s.cores d) core)
    ⟨hp, Keyed.refl _⟩ ?_ c
  rintro x d ⟨hx, hk⟩ hcore
  obtain ⟨hx', -, hv⟩ := preemptMulticoreAt_ok scenario policy d hx
  obtain ⟨hrel, hother⟩ := preemptMulticoreAt_cores scenario policy x d
  have heq : preempts policy scenario.roundRobinQuantum x.runtimes (s.cores d) =
      preempts policy scenario.roundRobinQuantum s.runtimes (s.cores d) := hk.shouldPreemptCore _ _ _ _
  rw [hcore, heq] at hrel
  exact ⟨⟨hx', hk.trans (fun i => (hv i).keyed)⟩, hrel, hother⟩

/-- The policies with a ready queue preempt on one core as on several, and exclude no group. -/
theorem preemptSingleCore_cores (hu : policy.useSingleCoreReadyQueue = true) {s s' : Engine n 1} {excluded : Option Nat}
    (h : preemptSingleCore scenario policy s = (s', excluded)) (c : Fin 1) :
    Released (preempts policy scenario.roundRobinQuantum s.runtimes (s.cores c)) (s.cores c) (s'.cores c) ∧
      excluded = none := by
  have hne : policy ≠ .cfsLike := by
    rintro rfl
    cases hu
  have hquota : ∀ current k rt, shouldPreemptForGroupQuota policy (n := n) current k rt = false := by
    intro current k rt
    cases current <;> simp [shouldPreemptForGroupQuota, hne]
  have hsame : policy.shouldPreemptSingle (s.cores 0).current (s.cores 0).currentQuantum scenario.roundRobinQuantum
      (s.cores 0).readyQueue.length s.runtimes =
        preempts policy scenario.roundRobinQuantum s.runtimes (s.cores 0) := by
    unfold preempts
    cases policy with
    | fcfs => rfl
    | roundRobin => rfl
    | cfsLike => cases hu
    | deadline => cases hu
  obtain rfl : c = 0 := Subsingleton.elim c 0
  unfold preemptSingleCore at h
  simp only [hsame, hquota, Bool.or_false, hu, if_true, Bool.false_eq_true, and_false, if_false] at h
  split at h
  next hc =>
    obtain ⟨rfl, rfl⟩ := Prod.mk.inj h
    exact ⟨.keep (by unfold preempts; rw [hc]; rfl) rfl, rfl⟩
  next i hc =>
    split at h
    next hp =>
      obtain ⟨rfl, rfl⟩ := Prod.mk.inj h
      exact ⟨.release i hp hc (by simp) (by simp), rfl⟩
    next hp =>
      obtain ⟨rfl, rfl⟩ := Prod.mk.inj h
      exact ⟨.keep (by simpa using hp) rfl, rfl⟩

end Release

/-! ## Rebalancing -/

section Rebalance

variable {s s' : Engine n m} {c : Fin m}

/-- A core is idle after a part of the rebalancing only if it was idle before. -/
theorem CoreState.Rebalanced.idle {a b : CoreState n} (h : Rebalanced a b) (hc : b.current = none)
    (hq : b.readyQueue = []) : a.current = none ∧ a.readyQueue = [] ∧ b = a := by
  cases h with
  | drop k hk hb =>
    subst hb
    have hlen : a.readyQueue.length ≤ k := List.drop_eq_nil_iff.mp hq
    have ha : a.readyQueue = [] := by
      rcases hk hc with rfl | hlt
      · exact hq
      · omega
    refine ⟨hc, ha, ?_⟩
    cases a
    simp_all
  | fill i hc' hq' hb =>
    subst hb
    cases hq

/-- Moving the head of a queue: the donor keeps a task, the recipient was idle. -/
theorem migrateHead_rebalanced {recipient donor : Fin m} {i : Fin n} {rest : List (Fin n)} (hne : donor ≠ recipient)
    (hidle : (s'.cores recipient).current = none ∧ (s'.cores recipient).readyQueue = [])
    (hq : (s'.cores donor).readyQueue = i :: rest) (hload : 2 ≤ coreLoad (s'.cores donor))
    (h : Rebalanced (s.cores c) (s'.cores c)) : Rebalanced (s.cores c) ((migrateHead recipient donor s').cores c) := by
  rw [migrateHead_cores hne hq]
  by_cases hr : c = recipient
  · subst hr
    obtain ⟨hc, hnil, heq⟩ := h.idle hidle.1 hidle.2
    rw [Function.update_self, heq, hnil]
    exact .fill i hc hnil rfl
  · rw [Function.update_of_ne hr]
    by_cases hd : c = donor
    · subst hd
      rw [Function.update_self]
      unfold coreLoad at hload
      cases h with
      | drop k hk hb =>
        have hq' : (s.cores c).readyQueue.drop k = i :: rest := by rw [hb] at hq; exact hq
        have hlen : (s.cores c).readyQueue.length - k = rest.length + 1 := by
          rw [← List.length_drop, hq', List.length_cons]
        refine .drop (k + 1) (fun hc => Or.inr ?_) ?_
        · have hc' : (s'.cores c).current = none := by rw [hb]; exact hc
          rw [hq, if_pos hc', List.length_cons] at hload
          omega
        · rw [hb, ← List.drop_drop, hq']
          rfl
      | fill j hc hnil hb =>
        rw [hb, if_pos hc] at hload
        simp at hload
    · rw [Function.update_of_ne hd]
      exact h

theorem rebalanceLoop_rebalanced {fuel : Nat} {a : Engine n m} (ha : Rebalanced (s.cores c) (a.cores c))
    (h : rebalanceLoop scenario fuel a = .ok s') : Rebalanced (s.cores c) (s'.cores c) := by
  induction fuel generalizing a with
  | zero =>
    obtain rfl : a = s' := by simpa [rebalanceLoop] using h
    exact ha
  | succ fuel ih =>
    obtain ⟨r, hr, h⟩ := bind_eq_ok.mp h
    cases r with
    | none =>
      obtain rfl : a = s' := by simpa using h
      exact ha
    | some s₁ =>
      obtain ⟨recipient, donor, i, rest, hfi, -, hne, hq, hload, rfl⟩ := rebalanceStep_some hr
      exact ih (migrateHead_rebalanced hne (firstIdleCore_idle hfi) hq hload ha) h

theorem rebalanceReadyQueues_cores (h : rebalanceReadyQueues scenario s = .ok s') (c : Fin m) :
    Rebalanced (s.cores c) (s'.cores c) := rebalanceLoop_rebalanced (.refl _) h

end Rebalance

/-! ## Dispatch -/

section Take

theorem dispatchMulticoreAt_cores (scenario : ScenarioOwned) (policy : PolicyKind) (s : Engine n m) (c : Fin m) :
    Taken (policy.selectNextCore (s.cores c).readyQueue s.runtimes) (s.cores c)
      ((dispatchMulticoreAt scenario policy s c).cores c) := by
  unfold dispatchMulticoreAt
  simp only
  split
  next i hc => exact .keep (by simp [hc]) rfl
  next hc =>
    split
    next hs => exact .idle hc hs rfl
    next i queue hs =>
      exact .take i queue hc hs (by simp [dispatchTask]) (by simp [dispatchTask]) (by simp [dispatchTask])

/-- Every core takes its own selection. -/
theorem dispatchMulticore_cores {s : Engine n m} (hp : Placed s) (c : Fin m) :
    Taken (policy.selectNextCore (s.cores c).readyQueue s.runtimes) (s.cores c)
      ((dispatchMulticore scenario policy s).cores c) := by
  refine foldl_cores (f := dispatchMulticoreAt scenario policy) (I := fun x => Placed x ∧ Keyed s.runtimes x.runtimes)
    (Q := fun d core => Taken (policy.selectNextCore (s.cores d).readyQueue s.runtimes) (s.cores d) core)
    ⟨hp, Keyed.refl _⟩ ?_ c
  rintro x d ⟨hx, hk⟩ hcore
  obtain ⟨hx', -, hv, hother, -⟩ := dispatchMulticoreAt_ok scenario policy (c := d) hx
  have htaken := dispatchMulticoreAt_cores scenario policy x d
  rw [hcore, hk.selectNextCore] at htaken
  exact ⟨⟨hx', hk.trans (fun i => (hv i).keyed)⟩, htaken, hother⟩

/-- The policies with a ready queue select on one core as on several. -/
theorem dispatchSingleCore_cores (scenario : ScenarioOwned) (hu : policy.useSingleCoreReadyQueue = true)
    {s : Engine n 1} (hp : Solo policy s) (c : Fin 1) :
    Taken (policy.selectNextCore (s.cores c).readyQueue s.runtimes) (s.cores c)
      ((dispatchSingleCore scenario policy none s).cores c) := by
  have hsame : selectSingle policy none s = policy.selectNextCore (s.cores 0).readyQueue s.runtimes := by
    cases policy with
    | fcfs => rfl
    | roundRobin => rfl
    | cfsLike => cases hu
    | deadline => cases hu
  obtain rfl : c = 0 := Subsingleton.elim c 0
  rw [← hsame]
  rcases dispatchSingleCore_cases scenario none hp with ⟨hc, heq⟩ | ⟨hc, hs, heq⟩ | ⟨i, queue, hc, hs, heq⟩
  · rw [heq]
    exact .keep hc rfl
  · rw [heq]
    exact .idle hc hs rfl
  · rw [heq]
    exact .take i queue hc hs (by simp [dispatchTask]) (by simp [dispatchTask]) (by simp [dispatchTask])

end Take

/-! ## Execution -/

section Execute

variable {mid e : Engine n m}

/-- Every core executes its own current task. -/
theorem executeMulticore_cores (hmid : Placed mid) (h : executeMulticore scenario policy mid = .ok e) (c : Fin m) :
    CoreState.Ran e.runtimes (mid.cores c) (e.cores c) := by
  obtain ⟨⟨x, done⟩, hx, h⟩ := bind_eq_ok.mp h
  simp only [recordCompletions_eq, Except.ok.injEq] at h
  subst h
  have hloop := foldlM_inv (P := fun done (x : Engine n m × List (Fin n)) => ExecLoop policy mid done x ∧
    ∀ d ∈ done, CoreState.Ran x.1.runtimes (mid.cores d) (x.1.cores d)) ⟨.init hmid, by simp⟩ ?_ hx
  · exact hloop.2 c (List.mem_finRange c)
  · rintro done d rest ⟨a, la⟩ ⟨b, lb⟩ hl ⟨ha, hran⟩ hb
    have hd := not_mem_done hl
    refine ⟨executeMulticoreAt_ok hmid ha hd hb, fun f hf => ?_⟩
    have hcore := ha.cores d hd
    unfold executeMulticoreAt at hb
    simp only at hb
    split at hb
    next hcur =>
      obtain ⟨rfl, rfl⟩ := Prod.mk.inj (Except.ok.inj hb)
      rcases List.mem_append.mp hf with hf | hf
      · exact hran f hf
      · obtain rfl := List.mem_singleton.mp hf
        rw [hcore] at hcur
        exact .idle hcur hcore
    next i hcur =>
      obtain ⟨⟨outcome, s'⟩, he, hb⟩ := bind_eq_ok.mp hb
      obtain ⟨rfl, rfl⟩ := Prod.mk.inj (Except.ok.inj hb)
      obtain ⟨u, hex⟩ := executeCurrent_ok he
      have hmcur : (mid.cores d).current = some i := by rw [← hcore]; exact hcur
      have hst := (hex.frame (ha.placed.slotted.current_running d i hcur).1).2.2.1
      rcases List.mem_append.mp hf with hf | hf
      · -- another core has another task
        have hfd : f ≠ d := fun h => hd (h ▸ hf)
        have hsame : s'.cores f = a.cores f := by rw [hex.cores, Function.update_of_ne hfd]
        rw [hsame]
        cases hran f hf with
        | idle hc hb => exact .idle hc hb
        | run j o hc hs hb =>
          have hji : j ≠ i := by
            rintro rfl
            exact hfd (hmid.slotted.inj hc hmcur)
          exact .run j o hc (by rw [hex.runtimes, Function.update_of_ne hji]; exact hs) hb
      · obtain rfl := List.mem_singleton.mp hf
        refine .run i outcome hmcur ?_ ?_
        · rw [hex.runtimes, Function.update_self]
          exact hst
        · rw [hex.cores, Function.update_self, hcore]

theorem executeSingleCore_cores {mid e : Engine n 1} (hmid : Solo policy mid)
    (h : executeSingleCore scenario policy mid = .ok e) (c : Fin 1) :
    CoreState.Ran e.runtimes (mid.cores c) (e.cores c) := by
  obtain rfl : c = 0 := Subsingleton.elim c 0
  cases hc : (mid.cores 0).current with
  | none =>
    obtain rfl : mid.emit (idleEntry mid.tick 0) = e := by simpa [executeSingleCore, hc] using h
    exact .idle hc rfl
  | some i =>
    obtain ⟨outcome, u, e', hex, rfl⟩ := executeSingleCore_some hmid hc h
    have hst := (hex.frame (hmid.slotted.current_running 0 i hc).1).2.2.1
    have hrt : (withCompletion scenario i outcome e').runtimes = e'.runtimes := by unfold withCompletion; split <;> rfl
    have hcs : (withCompletion scenario i outcome e').cores = e'.cores := by unfold withCompletion; split <;> rfl
    refine .run i outcome hc ?_ ?_
    · rw [hrt, hex.runtimes, Function.update_self]
      exact hst
    · rw [hcs, hex.cores, Function.update_self]

end Execute

/-! ## The states of a tick -/

section Stages

/-- The states of a tick from its start `s`: after wakeups and arrivals (`s₂`), after preemption (`s₃`), after
rebalancing (`s₄`), and after dispatch (`mid`). -/
structure Stages (policy : PolicyKind) (quantum : Nat) (s s₂ s₃ s₄ mid : Engine n m) : Prop where
  wake : ∀ i, Wake s.tick (s.view i) (s₂.view i)
  preempt : ∀ i, Preempt s.tick (s₂.view i) (s₃.view i)
  move : ∀ i, Assign s.tick (s₃.view i) (s₄.view i)
  assign : ∀ i, Assign s.tick (s₄.view i) (mid.view i)
  placed : Placed s ∧ Placed s₂ ∧ Placed s₃ ∧ Placed s₄ ∧ Placed mid
  grown : ∀ c, ∃ new, Grown (s.cores c) (s₂.cores c) new
  released : ∀ c, Released (preempts policy quantum s₂.runtimes (s₂.cores c)) (s₂.cores c) (s₃.cores c)
  rebalanced : ∀ c, Rebalanced (s₃.cores c) (s₄.cores c)
  taken : ∀ c, Taken (policy.selectNextCore (s₄.cores c).readyQueue s₄.runtimes) (s₄.cores c) (mid.cores c)

theorem CoreState.Grown.trans {a b c : CoreState n} {new new' : List (Fin n)} (h : Grown a b new)
    (h' : Grown b c new') : Grown a c (new ++ new') := by
  unfold Grown at h h' ⊢
  rw [h', h]
  simp

theorem multicore_stages {s mid : Engine n m} (hp : Placed s) (h : scheduleMulticore scenario policy s = .ok mid) :
    ∃ s₂ s₃ s₄, Stages policy scenario.roundRobinQuantum s s₂ s₃ s₄ mid := by
  obtain ⟨s₁, s₂, s₄, h₁, h₂, h₄, rfl⟩ := scheduleMulticore_parts h
  obtain ⟨hp₂, hq₂, hv₂⟩ := wakeMulticore_ok hp h₁ h₂
  obtain ⟨hp₃, hq₃, hv₃⟩ := preemptMulticore_ok scenario policy hp₂
  obtain ⟨hp₄, hq₄, hv₄⟩ := rebalanceLoop_ok hp₃ h₄
  obtain ⟨hp₅, -, hv₅, -⟩ := dispatchMulticore_ok scenario policy hp₄
  have ht₃ := hq₂.trans hq₃
  have ht₄ := ht₃.trans hq₄
  refine ⟨s₂, preemptMulticore scenario policy s₂, s₄, hv₂, ?_, ?_, ?_, ⟨hp, hp₂, hp₃, hp₄, hp₅⟩, fun c => ?_,
    preemptMulticore_cores hp₂, rebalanceReadyQueues_cores h₄, dispatchMulticore_cores hp₄⟩
  · rw [← hq₂.tick]; exact hv₃
  · rw [← ht₃.tick]; exact hv₄
  · rw [← ht₄.tick]; exact hv₅
  · obtain ⟨new₁, -, hg₁⟩ := processBlockedMulticore_grown h₁ c
    obtain ⟨new₂, -, hg₂⟩ := enqueueArrivalsMulticore_grown h₂ c
    exact ⟨new₁ ++ new₂, hg₁.trans hg₂⟩

/-- A single core whose policy uses the queue is placed as a core of the multicore engine. -/
theorem Solo.placed (hu : policy.useSingleCoreReadyQueue = true) {s : Engine n 1} (h : Solo policy s) : Placed s :=
  ⟨h.slotted, h.queued hu, fun i => by rw [h.assigned i]; exact Nat.one_pos, h.ids⟩

theorem singleCore_stages (hu : policy.useSingleCoreReadyQueue = true) {s mid : Engine n 1} (hp : Solo policy s)
    (h : scheduleSingleCore scenario policy s = .ok mid) :
    ∃ s₂ s₃, Stages policy scenario.roundRobinQuantum s s₂ s₃ s₃ mid := by
  obtain ⟨s₁, s₂, s₃, excluded, h₁, h₂, h₃, rfl⟩ := scheduleSingleCore_parts h
  obtain ⟨-, rfl⟩ := preemptSingleCore_cores hu h₃ 0
  obtain ⟨hp₂, hq₂, hv₂⟩ := wakeSingleCore_ok hp h₁ h₂
  obtain ⟨hp₃, hq₃, hv₃, hsel⟩ := preemptSingleCore_ok hp₂ h₃
  obtain ⟨hp₄, -, hv₄, -⟩ := dispatchSingleCore_ok scenario hp₃ hsel
  have ht₃ := hq₂.trans hq₃
  refine ⟨s₂, s₃, hv₂, ?_, fun i => .keep _, ?_,
    ⟨hp.placed hu, hp₂.placed hu, hp₃.placed hu, hp₃.placed hu, hp₄.placed hu⟩, fun c => ?_,
    fun c => (preemptSingleCore_cores hu h₃ c).1, fun c => .refl _, dispatchSingleCore_cores scenario hu hp₃⟩
  · rw [← hq₂.tick]; exact hv₃
  · rw [← ht₃.tick]; exact hv₄
  · obtain ⟨new₁, -, hg₁⟩ := processBlockedSingleCore_grown h₁ c
    obtain ⟨new₂, -, hg₂⟩ := enqueueArrivalsSingleCore_grown h₂ c
    exact ⟨new₁ ++ new₂, hg₁.trans hg₂⟩

end Stages

end Exasphere.Sim

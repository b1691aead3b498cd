import Exasphere.Sim.OneCore
import Exasphere.Sim.Queues

/-!
# The order of the choosing policies

`cfs_like` and `deadline` compare tasks by a key (`Chooses`). In the dispatched state of every tick the current task of
a core comes before all tasks that wait for the core: on several cores before its queue, on one core before all ready
tasks. Rebalancing cannot disturb the order, since it takes tasks out of the queues of busy cores and gives tasks to
idle ones only.
-/

namespace Exasphere.Sim

open Exasphere.Lib

variable {n m : Nat} {scenario : ScenarioOwned} {policy : PolicyKind} {better : RuntimeTask → RuntimeTask → Bool}

/-- The policy compares tasks by `better`, in all its selections. -/
structure Chooses (policy : PolicyKind) (better : RuntimeTask → RuntimeTask → Bool) : Prop where
  ranking : Ranking better
  keyed : ∀ {n : Nat} {rt rt' : Fin n → RuntimeTask}, Keyed rt rt' → ∀ i j,
    better (rt' i) (rt' j) = better (rt i) (rt j)
  selectCore : ∀ {n : Nat} (queue : List (Fin n)) (rt : Fin n → RuntimeTask), policy.selectNextCore queue rt =
    (chooseBestReadyTask better rt queue).map (removeChoice queue)
  preemptCore : ∀ {n : Nat} (i : Fin n) (x q : Nat) (queue : List (Fin n)) (rt : Fin n → RuntimeTask),
    policy.shouldPreemptCore (some i) x q queue rt =
      (chooseBestReadyTask better rt queue).any (fun choice => better (rt choice.taskIndex) (rt i))
  selectSingle : ∀ {n : Nat} (queue : List (Fin n)) (rt : Fin n → RuntimeTask), policy.selectNextSingle queue rt =
    (chooseFrom better runnable rt).map (·, queue)
  preemptSingle : ∀ {n : Nat} (i : Fin n) (x q k : Nat) (rt : Fin n → RuntimeTask),
    policy.shouldPreemptSingle (some i) x q k rt = (chooseFrom better runnable rt).any (fun best => decide (best ≠ i))

theorem cfsLike_chooses : Chooses .cfsLike CfsLike.better :=
  ⟨cfsLike_ranking, fun h => h.cfsLike, fun _ _ => rfl, fun _ _ _ _ _ => rfl, fun _ _ => rfl, fun _ _ _ _ _ => rfl⟩

theorem deadline_chooses : Chooses .deadline Deadline.better :=
  ⟨deadline_ranking, fun h => h.deadline, fun _ _ => rfl, fun _ _ _ _ _ => rfl, fun _ _ => rfl, fun _ _ _ _ _ => rfl⟩

theorem cfsLike_better_iff {a b : RuntimeTask} : CfsLike.better a b = true ↔
    toLex (a.vruntime, a.inputOrder) < toLex (b.vruntime, b.inputOrder) := by
  simp [CfsLike.better, CfsLike.betterCandidate, Prod.Lex.toLex_lt_toLex]

theorem deadline_better_iff {a b : RuntimeTask} : Deadline.better a b = true ↔
    toLex (a.deadlineTick.getD (2 ^ 32 - 1), a.inputOrder) <
      toLex (b.deadlineTick.getD (2 ^ 32 - 1), b.inputOrder) := by
  simp [Deadline.better, Deadline.betterCandidate, Prod.Lex.toLex_lt_toLex]

/-- Nothing that waits for a core is better than its current task. -/
def Leads (better : RuntimeTask → RuntimeTask → Bool) (rt : Fin n → RuntimeTask) (core : CoreState n) : Prop :=
  ∀ x, core.current = some x → ∀ y ∈ core.readyQueue, better (rt y) (rt x) = false

/-! ## Several cores -/

section Multicore

variable {rt : Fin n → RuntimeTask} {queue rest : List (Fin n)} {x y : Fin n}

/-- No task of the queue is better than the choice from it. -/
theorem chooseBestReadyTask_best (hr : Ranking better) {choice : ReadyChoice n}
    (h : chooseBestReadyTask better rt queue = some choice) (hy : y ∈ queue) :
    better (rt y) (rt choice.taskIndex) = false := by
  have hbest : firstBest (fun i j => better (rt i) (rt j)) queue = some choice.taskIndex := by
    rw [← chooseBestReadyTask_eq, h]
    rfl
  exact firstBest_best (hr.weak.comp rt) hbest y hy

/-- A current task that is not preempted leads its queue. -/
theorem Chooses.not_better (h : Chooses policy better) {k q : Nat}
    (hp : policy.shouldPreemptCore (some x) k q queue rt = false) (hy : y ∈ queue) : better (rt y) (rt x) = false := by
  rw [h.preemptCore] at hp
  cases hc : chooseBestReadyTask better rt queue with
  | none =>
    have hnil : firstBest (fun i j => better (rt i) (rt j)) queue = none := by
      rw [← chooseBestReadyTask_eq, hc]
      rfl
    rw [firstBest_eq_none.mp hnil] at hy
    cases hy
  | some choice =>
    rw [hc, Option.any_some] at hp
    exact h.ranking.weak.weak _ _ _ (chooseBestReadyTask_best h.ranking hc hy) hp

/-- The selected task leads the rest of the queue. -/
theorem Chooses.selected_best (h : Chooses policy better) (hs : policy.selectNextCore queue rt = some (x, rest))
    (hy : y ∈ rest) : better (rt y) (rt x) = false := by
  have hmem : y ∈ queue := (selectNextCore_perm hs).mem_iff.mpr (by simp [hy])
  rw [h.selectCore] at hs
  obtain ⟨choice, hc, hr⟩ := Option.map_eq_some_iff.mp hs
  obtain ⟨rfl, -⟩ := Prod.mk.inj hr
  exact chooseBestReadyTask_best h.ranking hc hmem

variable {q : Nat} {s s₂ s₃ s₄ mid : Engine n m}

theorem Stages.keyed (h : Stages policy q s s₂ s₃ s₄ mid) : Keyed s.runtimes s₂.runtimes ∧
    Keyed s₂.runtimes s₃.runtimes ∧ Keyed s₃.runtimes s₄.runtimes ∧ Keyed s₄.runtimes mid.runtimes :=
  ⟨fun i => (h.wake i).keyed, fun i => (h.preempt i).keyed, fun i => (h.move i).keyed, fun i => (h.assign i).keyed⟩

/-- **One tick.** After dispatch every current task leads its queue. -/
theorem Stages.leads (h : Stages policy q s s₂ s₃ s₄ mid) (hc : Chooses policy better) (c : Fin m) :
    Leads better mid.runtimes (mid.cores c) := by
  obtain ⟨-, hk₃, hk₄, hk₅⟩ := h.keyed
  -- after preemption
  have h₃ : Leads better s₂.runtimes (s₃.cores c) := by
    intro x hx y hy
    cases h.released c with
    | keep hp hb =>
      rw [hb] at hx hy
      unfold preempts at hp
      rw [hx] at hp
      exact hc.not_better hp hy
    | release i hp ha hb hq =>
      rw [hb] at hx
      cases hx
  -- after rebalancing
  have h₄ : Leads better s₂.runtimes (s₄.cores c) := by
    intro x hx y hy
    cases h.rebalanced c with
    | drop k hk hb =>
      rw [hb] at hx hy
      exact h₃ x hx y (List.mem_of_mem_drop hy)
    | fill i hn hq hb =>
      rw [hb, hn] at hx
      cases hx
  intro x hx y hy
  have hkey := (hk₃.trans hk₄).trans hk₅
  rw [hc.keyed hkey]
  cases h.taken c with
  | keep hne hb =>
    rw [hb] at hx hy
    exact h₄ x hx y hy
  | idle hn hs hb =>
    rw [hb, hn] at hx
    cases hx
  | take i queue hn hs hb hq hz =>
    obtain rfl : i = x := Option.some.inj (hb.symm.trans hx)
    rw [hq] at hy
    rw [(hk₃.trans hk₄).selectNextCore] at hs
    exact hc.selected_best hs hy

end Multicore

/-! ## One core -/

section SingleCore

variable {s s₂ s₃ mid : Engine n 1} {rt : Fin n → RuntimeTask} {x y : Fin n}

/-- No runnable task is better than the choice among them. -/
theorem chooseFrom_best (hr : Ranking better) (h : chooseFrom better runnable rt = some x)
    (hy : runnable (rt y) = true) : better (rt y) (rt x) = false :=
  firstBest_best (hr.weak.comp rt) h y (by simpa using hy)

/-- No task has a group quota that the policy looks at. -/
def Unlimited (policy : PolicyKind) (rt : Fin n → RuntimeTask) : Prop :=
  policy = .cfsLike → ∀ i, (rt i).groupQuotaTicks = 0

theorem Unlimited.quota_false (h : Unlimited policy rt) (current : Option (Fin n)) (k : Nat) :
    shouldPreemptForGroupQuota policy current k rt = false := by
  cases current with
  | none => rfl
  | some i =>
    by_contra hq
    rw [Bool.not_eq_false, shouldPreemptForGroupQuota_iff] at hq
    exact hq.2.1 (h hq.1 i)

theorem Unlimited.of_keyed {rt' : Fin n → RuntimeTask} (h : Unlimited policy rt) (hk : Keyed rt rt') :
    Unlimited policy rt' := fun hp i => by rw [(hk i).2]; exact h hp i

/-- After preemption: nothing is excluded, and a current task that is left leads all ready tasks. -/
theorem preemptSingleCore_leads (hc : Chooses policy better) (hq : Unlimited policy s.runtimes) (hp : Solo policy s)
    {excluded : Option Nat} (h : preemptSingleCore scenario policy s = (s₃, excluded)) :
    excluded = none ∧ ∀ x, (s₃.cores 0).current = some x → ∀ y, (s₃.runtimes y).state = .ready →
      better (s₃.runtimes y) (s₃.runtimes x) = false := by
  unfold preemptSingleCore at h
  simp only at h
  split at h
  next hcur =>
    obtain ⟨rfl, rfl⟩ := Prod.mk.inj h
    refine ⟨rfl, fun x hx => ?_⟩
    rw [hcur] at hx
    cases hx
  next i hcur =>
    split at h
    next =>
      obtain ⟨rfl, rfl⟩ := Prod.mk.inj h
      refine ⟨if_neg (fun hx => ?_), fun x hx => by simp at hx⟩
      have hq' : Unlimited policy (s.setTask i { s.runtimes i with state := .ready }).runtimes := by
        refine hq.of_keyed (fun j => ?_)
        by_cases hj : j = i
        · subst hj; simp
        · simp [Function.update_of_ne hj]
      rw [hq'.quota_false] at hx
      cases hx.2
    next hpre =>
      obtain ⟨rfl, rfl⟩ := Prod.mk.inj h
      refine ⟨rfl, fun x hx y hy => ?_⟩
      obtain rfl : i = x := Option.some.inj (hcur.symm.trans hx)
      have hrun : runnable (s.runtimes i) = true := by
        simp [runnable, (hp.slotted.current_running 0 i hcur).1]
      simp only [hcur, hc.preemptSingle, hq.quota_false, Bool.or_false, Bool.not_eq_true] at hpre
      cases hch : chooseFrom better runnable s.runtimes with
      | none =>
        have := chooseFrom_eq_none.mp hch i
        rw [hrun] at this
        cases this
      | some b =>
        obtain rfl : b = i := by simpa [hch] using hpre
        exact chooseFrom_best hc.ranking hch (by simp [runnable, hy])

/-- **One tick.** After dispatch the current task leads all ready tasks. -/
theorem scheduleSingleCore_leads (hc : Chooses policy better) (hq : Unlimited policy s.runtimes) (hp : Solo policy s)
    (h : scheduleSingleCore scenario policy s = .ok mid) (hx : (mid.cores 0).current = some x)
    (hy : (mid.runtimes y).state = .ready) : better (mid.runtimes y) (mid.runtimes x) = false := by
  obtain ⟨s₁, s₂, s₃, excluded, h₁, h₂, h₃, rfl⟩ := scheduleSingleCore_parts h
  obtain ⟨hp₂, -, hv₂⟩ := wakeSingleCore_ok hp h₁ h₂
  obtain ⟨hp₃, -, -, -⟩ := preemptSingleCore_ok hp₂ h₃
  have hkey : Keyed s.runtimes s₂.runtimes := fun i => (hv₂ i).keyed
  obtain ⟨rfl, hlead⟩ := preemptSingleCore_leads hc (hq.of_keyed hkey) hp₂ h₃
  rcases dispatchSingleCore_cases scenario none hp₃ with ⟨-, heq⟩ | ⟨hn, -, heq⟩ | ⟨i, queue, hn, hsel, heq⟩
  · rw [heq] at hx hy ⊢
    exact hlead x hx y hy
  · rw [heq, hn] at hx
    cases hx
  · rw [heq] at hx hy ⊢
    obtain rfl : i = x := by simpa [dispatchTask] using hx
    have hyi : y ≠ i := by
      rintro rfl
      simp [dispatchTask] at hy
    -- the selection saw the same keys and states
    have hkeyed : Keyed s₃.runtimes (dispatchTask scenario 0 i queue s₃).runtimes := by
      intro j
      by_cases hj : j = i
      · subst hj; simp [dispatchTask]
      · simp [dispatchTask, Function.update_of_ne hj]
    have hy₃ : (s₃.runtimes y).state = .ready := by simpa [dispatchTask, Function.update_of_ne hyi] using hy
    have hch : chooseFrom better runnable s₃.runtimes = some i := by
      have hsel' : policy.selectNextSingle (s₃.cores 0).readyQueue s₃.runtimes = some (i, queue) := hsel
      rw [hc.selectSingle] at hsel'
      obtain ⟨j, hj, he⟩ := Option.map_eq_some_iff.mp hsel'
      rw [hj, (Prod.mk.inj he).1]
    rw [hc.keyed hkeyed]
    exact chooseFrom_best hc.ranking hch (by simp [runnable, hy₃])

end SingleCore

/-! ## Whole runs -/

section Runs

/-- The scheduling half of an iteration takes every task through the stages of a life. -/
def Staged (M : Machine n m) (Inv : Engine n m → Prop) : Prop :=
  ∀ {s mid : Engine n m}, Inv s → M.schedule s = .ok mid → mid.tick = s.tick ∧
    ∀ i, ∃ v₁ v₂, Wake s.tick (s.view i) v₁ ∧ Preempt s.tick v₁ v₂ ∧ Assign s.tick v₂ (mid.view i)

theorem singleCore_staged : Staged (singleCore (n := n) scenario policy) (fun s => Solo policy s ∧ s.Counted) := by
  intro s mid hp h
  obtain ⟨-, hq, hv, -⟩ := scheduleSingleCore_ok hp.1 h
  exact ⟨hq.tick, hv⟩

theorem multicore_staged : Staged (multicore (n := n) (m := m) scenario policy) (fun s => Placed s ∧ s.Counted) := by
  intro s mid hp h
  obtain ⟨-, hq, hv, -⟩ := scheduleMulticore_ok hp.1 h
  exact ⟨hq.tick, hv⟩

variable {M : Machine n m} {Inv : Engine n m → Prop} {info : Fin n → TaskInfo} {s₀ : Engine n m}

/-- The lives of all tasks in the dispatched state of a tick. -/
theorem Start.life_mid (hM : Lawful M policy Inv) (hst : Staged M Inv) (hs : Start info s₀) (h₀ : Inv s₀) {k : Nat}
    {mid : Engine n m} (h : M.Mid s₀ k mid) (i : Fin n) :
    Life (info i) 0 (k + 1) k (M.waited s₀ i k) (mid.view i).1 (mid.view i).2 := by
  obtain ⟨s, hr, -, hmid⟩ := h
  obtain ⟨hinv, hk⟩ := hs.inv hM h₀ hr
  obtain ⟨v₁, v₂, h₁, h₂, h₃⟩ := (hst hinv hmid).2 i
  have hlife := hs.life_run hM h₀ hr i
  rw [hk] at h₁ h₂ h₃
  exact ((hlife.wake (hs.valid i) h₁).preempt h₂).assign h₃

/-- In tick `τ` of a simulation core `c` executes task `x` while the tasks of `R` wait for the core: its ready queue
after dispatch, on a single core all ready tasks. The tasks are `rt` at that point. -/
def Executes (scenario : ScenarioOwned) (policy : PolicyKind) (τ : Nat) (c : CoreId)
    (rt : Fin scenario.tasks.length → RuntimeTask) (x : Fin scenario.tasks.length)
    (R : Set (Fin scenario.tasks.length)) : Prop :=
  if scenario.coreCount ≤ 1 then
    ∃ mid, (singleCore scenario policy).Mid (initEngine scenario 1) τ mid ∧ c = 0 ∧ mid.runtimes = rt ∧
      (mid.cores 0).current = some x ∧ R = {y | (mid.runtimes y).state = .ready}
  else
    ∃ mid d, (multicore scenario policy).Mid (initEngine scenario scenario.coreCount) τ mid ∧ d.val = c ∧
      mid.runtimes = rt ∧ (mid.cores d).current = some x ∧ R = {y | y ∈ (mid.cores d).readyQueue}

theorem unlimited_infos (hq : policy = .cfsLike → ∀ g ∈ scenario.groups, g.quotaTicks = 0)
    {rt : Fin scenario.tasks.length → RuntimeTask} (hi : ∀ i, (rt i).toTaskInfo = infos scenario i) :
    Unlimited policy rt := fun hp i => by rw [hi i]; exact infos_quota_zero (hq hp) i

/-- In every dispatched state of a single core the current task leads all ready tasks. -/
theorem singleCore_mid_leads (hv : Valid scenario) (hc : Chooses policy better)
    (hq : policy = .cfsLike → ∀ g ∈ scenario.groups, g.quotaTicks = 0) {τ : Nat}
    {mid : Engine scenario.tasks.length 1} (h : (singleCore scenario policy).Mid (initEngine scenario 1) τ mid)
    {x y : Fin scenario.tasks.length} (hx : (mid.cores 0).current = some x) (hy : (mid.runtimes y).state = .ready) :
    better (mid.runtimes y) (mid.runtimes x) = false := by
  obtain ⟨s, hr, -, hmid⟩ := h
  obtain ⟨hinv, -⟩ := (start_init hv 1).inv singleCore_lawful (solo_counted_init hv) hr
  have hlife := (start_init hv 1).life_run singleCore_lawful (solo_counted_init hv) hr
  exact scheduleSingleCore_leads hc (unlimited_infos hq (fun i => (hlife i).common.info_eq)) hinv.1 hmid hx hy

/-- The current task of a core is not one that waits, and nothing that waits is better. -/
theorem Executes.leads (hv : Valid scenario) (hc : Chooses policy better)
    (hq : policy = .cfsLike → ∀ g ∈ scenario.groups, g.quotaTicks = 0) {τ : Nat} {c : CoreId}
    {rt : Fin scenario.tasks.length → RuntimeTask} {x y : Fin scenario.tasks.length}
    {R : Set (Fin scenario.tasks.length)} (h : Executes scenario policy τ c rt x R) (hy : y ∈ R) :
    better (rt y) (rt x) = false ∧ y ≠ x ∧ ∀ i, (rt i).toTaskInfo = infos scenario i := by
  unfold Executes at h
  split at h
  · obtain ⟨mid, hmid, -, rfl, hx, rfl⟩ := h
    have hlife := (start_init hv 1).life_mid singleCore_lawful singleCore_staged (solo_counted_init hv) hmid
    refine ⟨singleCore_mid_leads hv hc hq hmid hx hy, ?_, fun i => (hlife i).common.info_eq⟩
    rintro rfl
    obtain ⟨s, hr, -, hs⟩ := hmid
    have hinv := ((start_init hv 1).inv singleCore_lawful (solo_counted_init hv) hr).1
    have hrun := ((scheduleSingleCore_ok hinv.1 hs).1.slotted.current_running 0 y hx).1
    have hready : (mid.runtimes y).state = .ready := hy
    rw [hrun] at hready
    cases hready
  · obtain ⟨mid, d, hmid, -, rfl, hx, rfl⟩ := h
    have hlife := (start_init hv _).life_mid multicore_lawful multicore_staged (placed_counted_init hv) hmid
    obtain ⟨s, hr, -, hs⟩ := hmid
    have hinv := ((start_init hv _).inv multicore_lawful (placed_counted_init hv) hr).1
    obtain ⟨s₂, s₃, s₄, hstages⟩ := multicore_stages hinv.1 hs
    refine ⟨hstages.leads hc d x hx y hy, ?_, fun i => (hlife i).common.info_eq⟩
    rintro rfl
    have hplaced := hstages.placed.2.2.2.2
    have hrun := (hplaced.slotted.current_running d y hx).1
    rw [(hplaced.queued.mem_ready d y hy).1] at hrun
    cases hrun

/-- With distinct `inputOrder` it is better than all that wait. -/
theorem Executes.first (hv : Valid scenario) (horder : (scenario.tasks.map TaskSpec.inputOrder).Nodup)
    (hc : Chooses policy better) (hq : policy = .cfsLike → ∀ g ∈ scenario.groups, g.quotaTicks = 0) {τ : Nat}
    {c : CoreId} {rt : Fin scenario.tasks.length → RuntimeTask} {x y : Fin scenario.tasks.length}
    {R : Set (Fin scenario.tasks.length)} (h : Executes scenario policy τ c rt x R) (hy : y ∈ R) :
    better (rt x) (rt y) = true := by
  obtain ⟨hle, hne, hinfo⟩ := h.leads hv hc hq hy
  by_contra hlt
  have htie := hc.ranking.tie _ _ hle (by simpa using hlt)
  rw [hinfo y, hinfo x] at htie
  exact hne (infos_inputOrder horder y x htie)

end Runs

end Exasphere.Sim

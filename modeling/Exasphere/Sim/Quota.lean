import Exasphere.Sim.Results

/-!
# Group quotas

On one core `cfs_like` preempts a group that has run its quota when a task outside the group is ready, and selects the
next task outside the group. What it counts is the ticks since the last dispatch: every preemption, completion and
block clears the counter, although a dispatch keeps it when the group stays the same. So the quota bounds the
consecutive ticks of a group only as long as the group is not handed over from one of its tasks to another.
-/

namespace Exasphere.Sim

open Exasphere.Lib

variable {scenario : ScenarioOwned}

/-! ## The ticks of a run -/

/-- The states of tick `τ` of a single-core `cfs_like` run: at the start, after wakeups and arrivals, after preemption,
and after dispatch. -/
structure SoloTick (scenario : ScenarioOwned) (τ : Nat) (s s₂ s₃ mid : Engine scenario.tasks.length 1) : Prop where
  run : (singleCore scenario .cfsLike).Run (initEngine scenario 1) τ s
  going : s.completed < scenario.tasks.length
  arrived : ∃ s₁, processBlockedSingleCore scenario .cfsLike s = .ok s₁ ∧
    enqueueArrivalsSingleCore scenario .cfsLike s₁ = .ok s₂
  dispatched : ∃ excluded, preemptSingleCore scenario .cfsLike s₂ = (s₃, excluded) ∧
    mid = dispatchSingleCore scenario .cfsLike excluded s₃

/-- Tick `τ` is executed by a task of group `g`. -/
def ExecutedBy (scenario : ScenarioOwned) (τ g : Nat) : Prop :=
  ∃ s s₂ s₃ mid i, SoloTick scenario τ s s₂ s₃ mid ∧ (mid.cores 0).current = some i ∧
    (mid.runtimes i).groupIndex = some g

/-- In tick `τ` the core takes a task of group `g`. -/
def DispatchedFrom (scenario : ScenarioOwned) (τ g : Nat) : Prop :=
  ∃ s s₂ s₃ mid i, SoloTick scenario τ s s₂ s₃ mid ∧ (s₃.cores 0).current = none ∧ (mid.cores 0).current = some i ∧
    (mid.runtimes i).groupIndex = some g

/-- In tick `τ`, after wakeups and arrivals, a task outside group `g` is ready. -/
def OutsiderReady (scenario : ScenarioOwned) (τ g : Nat) : Prop :=
  ∃ s s₂ s₃ mid j, SoloTick scenario τ s s₂ s₃ mid ∧ (s₂.runtimes j).state = .ready ∧
    (s₂.runtimes j).groupIndex ≠ some g

/-- Whether the states of tick `τ` satisfy `p`, computed. -/
def soloCheck (scenario : ScenarioOwned) (τ : Nat)
    (p : (arrived preempted mid : Engine scenario.tasks.length 1) → Bool) :
    Bool :=
  okAnd (fun s => decide (s.completed < scenario.tasks.length) &&
    okAnd (fun s₂ =>
      let (s₃, excluded) := preemptSingleCore scenario .cfsLike s₂
      p s₂ s₃ (dispatchSingleCore scenario .cfsLike excluded s₃))
    (processBlockedSingleCore scenario .cfsLike s >>= enqueueArrivalsSingleCore scenario .cfsLike))
    ((singleCore scenario .cfsLike).after (initEngine scenario 1) τ)

theorem soloCheck_iff {τ : Nat} {p : (arrived preempted mid : Engine scenario.tasks.length 1) → Bool} :
    soloCheck scenario τ p = true ↔ ∃ s s₂ s₃ mid, SoloTick scenario τ s s₂ s₃ mid ∧ p s₂ s₃ mid = true := by
  simp only [soloCheck, okAnd_eq_true, Bool.and_eq_true, decide_eq_true_eq, bind_eq_ok]
  constructor
  · rintro ⟨s, hs, hc, s₂, h₂, hp⟩
    exact ⟨s, s₂, _, _, ⟨.of_after hs, hc, h₂, ⟨_, rfl, rfl⟩⟩, hp⟩
  · rintro ⟨s, s₂, s₃, mid, ⟨hr, hc, h₂, ⟨excluded, h₃, rfl⟩⟩, hp⟩
    exact ⟨s, hr.after_eq, hc, s₂, h₂, by rw [h₃]; exact hp⟩

instance (τ g : Nat) : Decidable (ExecutedBy scenario τ g) :=
  decidable_of_iff (soloCheck scenario τ (fun _ _ mid =>
    decide (∃ i, (mid.cores 0).current = some i ∧ (mid.runtimes i).groupIndex = some g)) = true)
    (by simp [soloCheck_iff, ExecutedBy])

instance (τ g : Nat) : Decidable (DispatchedFrom scenario τ g) :=
  decidable_of_iff (soloCheck scenario τ (fun _ s₃ mid => decide ((s₃.cores 0).current = none ∧
    ∃ i, (mid.cores 0).current = some i ∧ (mid.runtimes i).groupIndex = some g)) = true)
    (by simp [soloCheck_iff, DispatchedFrom])

instance (τ g : Nat) : Decidable (OutsiderReady scenario τ g) :=
  decidable_of_iff (soloCheck scenario τ (fun s₂ _ _ =>
    decide (∃ j, (s₂.runtimes j).state = .ready ∧ (s₂.runtimes j).groupIndex ≠ some g)) = true)
    (by simp [soloCheck_iff, OutsiderReady])

/-- Group `g` has a quota and has executed that many ticks right before tick `t`. -/
structure Exhausted (scenario : ScenarioOwned) (g : Nat) (spec : GroupSpec) (t : Nat) : Prop where
  group : scenario.groups[g]? = some spec
  pos : 0 < spec.quotaTicks
  le : spec.quotaTicks ≤ t
  ran : ∀ τ, t ≤ τ + spec.quotaTicks → τ < t → ExecutedBy scenario τ g

/-- The ticks of an exhausted group come from one dispatch, and the core still has the task at the start of tick `t`. -/
structure Uninterrupted (scenario : ScenarioOwned) (g : Nat) (spec : GroupSpec) (t : Nat) : Prop where
  kept : ∀ τ, t < τ + spec.quotaTicks → τ < t → ¬DispatchedFrom scenario τ g
  current : ∀ s s₂ s₃ mid, SoloTick scenario t s s₂ s₃ mid → (s.cores 0).current ≠ none

section Ticks

variable {τ : Nat} {s s₂ s₃ mid : Engine scenario.tasks.length 1}

theorem SoloTick.unique {s' s₂' s₃' mid' : Engine scenario.tasks.length 1} (h : SoloTick scenario τ s s₂ s₃ mid)
    (h' : SoloTick scenario τ s' s₂' s₃' mid') : s = s' ∧ s₂ = s₂' ∧ s₃ = s₃' ∧ mid = mid' := by
  obtain rfl := h.run.unique h'.run
  obtain ⟨s₁, h₁, h₂⟩ := h.arrived
  obtain ⟨s₁', h₁', h₂'⟩ := h'.arrived
  obtain rfl : s₁ = s₁' := Except.ok.inj (h₁.symm.trans h₁')
  obtain rfl : s₂ = s₂' := Except.ok.inj (h₂.symm.trans h₂')
  obtain ⟨x, hx, rfl⟩ := h.dispatched
  obtain ⟨x', hx', rfl⟩ := h'.dispatched
  obtain ⟨rfl, rfl⟩ := Prod.mk.inj (hx.symm.trans hx')
  exact ⟨rfl, rfl, rfl, rfl⟩

/-- The last tick of a run. -/
theorem SoloTick.of_run {s' : Engine scenario.tasks.length 1}
    (h : (singleCore scenario .cfsLike).Run (initEngine scenario 1) (τ + 1) s') :
    ∃ s s₂ s₃ mid e, SoloTick scenario τ s s₂ s₃ mid ∧ executeSingleCore scenario .cfsLike mid = .ok e ∧
      s' = { e with tick := e.tick + 1 } := by
  obtain _ | ⟨hr, hc, hstep⟩ := h
  obtain ⟨mid, e, hmid, he, -, rfl⟩ := Machine.step_ok hstep
  obtain ⟨s₁, s₂, s₃, excluded, h₁, h₂, h₃, rfl⟩ := scheduleSingleCore_parts hmid
  exact ⟨_, s₂, s₃, _, e, ⟨hr, hc, ⟨s₁, h₁, h₂⟩, ⟨excluded, h₃, rfl⟩⟩, he, rfl⟩

theorem SoloTick.is_mid (h : SoloTick scenario τ s s₂ s₃ mid) :
    (singleCore scenario .cfsLike).Mid (initEngine scenario 1) τ mid := by
  obtain ⟨s₁, h₁, h₂⟩ := h.arrived
  obtain ⟨excluded, h₃, rfl⟩ := h.dispatched
  refine ⟨s, h.run, h.going, ?_⟩
  simp [singleCore, scheduleSingleCore, h₁, h₂, h₃]

theorem SoloTick.solo (hv : Valid scenario) (h : SoloTick scenario τ s s₂ s₃ mid) :
    Solo .cfsLike s ∧ Solo .cfsLike s₂ ∧ Solo .cfsLike s₃ ∧ Solo .cfsLike mid := by
  obtain ⟨⟨hp, -⟩, -⟩ := (start_init hv 1).inv singleCore_lawful (solo_counted_init hv) h.run
  obtain ⟨s₁, h₁, h₂⟩ := h.arrived
  obtain ⟨excluded, h₃, rfl⟩ := h.dispatched
  have hp₂ := (wakeSingleCore_ok hp h₁ h₂).1
  obtain ⟨hp₃, -, -, hsel⟩ := preemptSingleCore_ok hp₂ h₃
  exact ⟨hp, hp₂, hp₃, (dispatchSingleCore_ok scenario hp₃ hsel).1⟩

/-- The fixed parts of the tasks, at the start of a tick and after wakeups and arrivals. -/
theorem SoloTick.info_eq (hv : Valid scenario) (h : SoloTick scenario τ s s₂ s₃ mid) (i : Fin scenario.tasks.length) :
    (s.runtimes i).toTaskInfo = infos scenario i ∧ (s₂.runtimes i).toTaskInfo = infos scenario i := by
  obtain ⟨⟨hp, -⟩, hk⟩ := (start_init hv 1).inv singleCore_lawful (solo_counted_init hv) h.run
  have hlife := (start_init hv 1).life_run singleCore_lawful (solo_counted_init hv) h.run i
  obtain ⟨s₁, h₁, h₂⟩ := h.arrived
  have hwake := (wakeSingleCore_ok hp h₁ h₂).2.2 i
  rw [hk] at hwake
  exact ⟨hlife.common.info_eq, (hlife.wake ((start_init hv 1).valid i) hwake).common.info_eq⟩

/-- Without a ready queue, wakeups and arrivals do not touch the core. -/
theorem SoloTick.cores (h : SoloTick scenario τ s s₂ s₃ mid) : s₂.cores = s.cores := by
  have hpush : ∀ (i : Fin scenario.tasks.length) (a : Engine scenario.tasks.length 1),
      pushSingle .cfsLike i a = a := fun _ _ => rfl
  obtain ⟨s₁, h₁, h₂⟩ := h.arrived
  have hc₁ : s₁.cores = s.cores := by
    refine foldlM_keeps (P := fun x => x.cores = s.cores) rfl (fun i _ a b ha hb => ?_) h₁
    unfold processBlockedSingleCoreAt at hb
    simp only [hpush] at hb
    split at hb
    · obtain rfl := Except.ok.inj hb
      exact ha
    · split at hb
      · obtain ⟨y, -, hb⟩ := bind_eq_ok.mp hb
        obtain rfl := Except.ok.inj hb
        exact ha
      · obtain ⟨y, -, hb⟩ := bind_eq_ok.mp hb
        obtain rfl := Except.ok.inj hb
        exact ha
  rw [← hc₁]
  refine foldlM_keeps (P := fun x => x.cores = s₁.cores) rfl (fun i _ a b ha hb => ?_) h₂
  unfold enqueueArrivalsSingleCoreAt at hb
  simp only [hpush] at hb
  split at hb <;> obtain rfl := Except.ok.inj hb <;> exact ha

/-- A core that still has a task after preemption keeps it, with its counters. -/
theorem SoloTick.kept (h : SoloTick scenario τ s s₂ s₃ mid) (hc : (s₃.cores 0).current ≠ none) :
    s₃ = s₂ ∧ mid = s₂ := by
  obtain ⟨excluded, h₃, rfl⟩ := h.dispatched
  have hs : s₃ = s₂ := by
    unfold preemptSingleCore at h₃
    simp only at h₃
    split at h₃
    · exact (Prod.mk.inj h₃).1.symm
    · split at h₃
      · obtain ⟨rfl, -⟩ := Prod.mk.inj h₃
        simp at hc
      · exact (Prod.mk.inj h₃).1.symm
  refine ⟨hs, ?_⟩
  obtain ⟨i, hi⟩ := Option.ne_none_iff_exists'.mp hc
  rw [← hs]
  simp [dispatchSingleCore, hi]

end Ticks

/-! ## The counter -/

section Counter

variable {g q k : Nat} {s : Engine scenario.tasks.length 1}

/-- A task of the group is current, and the counter has counted its last `q` ticks, when the group executed them and was
not handed over in them. -/
theorem runTicks_ge (hv : Valid scenario) (hq : 0 < q) (hk : q ≤ k)
    (h : (singleCore scenario .cfsLike).Run (initEngine scenario 1) k s)
    (hran : ∀ τ, k ≤ τ + q → τ < k → ExecutedBy scenario τ g)
    (hkeep : ∀ τ, k < τ + q → τ < k → ¬DispatchedFrom scenario τ g) (hc : (s.cores 0).current ≠ none) :
    (∃ i, (s.cores 0).current = some i ∧ (s.runtimes i).groupIndex = some g) ∧
      q ≤ (s.cores 0).currentGroupRunTicks := by
  induction q generalizing k s with
  | zero => omega
  | succ q ih =>
    obtain ⟨k, rfl⟩ : ∃ j, k = j + 1 := ⟨k - 1, by omega⟩
    obtain ⟨a, a₂, a₃, mid, e, ht, he, rfl⟩ := SoloTick.of_run h
    obtain ⟨-, -, -, hmid⟩ := ht.solo hv
    obtain ⟨_, _, _, _, i, ht', hcur, hg⟩ := hran k (by omega) (by omega)
    obtain ⟨rfl, rfl, rfl, rfl⟩ := ht.unique ht'
    -- the task that executed the last tick is still current, so its counter grew by one
    obtain ⟨outcome, u, e', hex, rfl⟩ := executeSingleCore_some hmid hcur he
    obtain rfl : outcome = .running := by
      simp only [withCompletion_cores, hex.cores, Function.update_self] at hc
      cases outcome with
      | running => rfl
      | complete => simp [CoreState.after] at hc
      | block => simp [CoreState.after] at hc
    have hsame : withCompletion scenario i .running e' = e' := by simp [withCompletion]
    have hinfo := (hex.frame (hmid.slotted.current_running 0 i hcur).1).1
    simp only [hsame, hex.cores, hex.runtimes, Function.update_self, CoreState.after]
    refine ⟨⟨i, hcur, by rw [Function.update_self, hinfo]; exact hg⟩, ?_⟩
    rcases Nat.eq_zero_or_pos q with rfl | hpos
    · omega
    · have hcur₃ : (a₃.cores 0).current ≠ none := fun hn =>
        hkeep k (by omega) (by omega) ⟨a, a₂, a₃, mid, i, ht, hn, hcur, hg⟩
      obtain ⟨rfl, rfl⟩ := ht.kept hcur₃
      have := (ih hpos (by omega) ht.run (fun τ h₁ h₂ => hran τ (by omega) (by omega))
        (fun τ h₁ h₂ => hkeep τ (by omega) (by omega)) (by rw [← ht.cores]; exact hcur₃)).2
      rw [ht.cores]
      omega

/-- The quota of a task is that of its group. -/
theorem infos_quota {i : Fin scenario.tasks.length} {spec : GroupSpec} (hg : (infos scenario i).groupIndex = some g)
    (hs : scenario.groups[g]? = some spec) : (infos scenario i).groupQuotaTicks = spec.quotaTicks := by
  simp only [infos, initRuntimes, initRuntime] at hg ⊢
  cases hinfo : (scenario.tasks.get i).groupId.bind (findGroupInfo scenario) with
  | none =>
    rw [hinfo] at hg
    cases hg
  | some info =>
    obtain ⟨idx, found⟩ := info
    rw [hinfo] at hg
    obtain rfl : idx = g := Option.some.inj hg
    obtain ⟨id, -, hfind⟩ := Option.bind_eq_some_iff.mp hinfo
    obtain ⟨⟨found', idx'⟩, hmem, hpair⟩ := Option.map_eq_some_iff.mp hfind
    obtain ⟨rfl, rfl⟩ := Prod.mk.inj hpair
    have hget := List.mem_of_find?_eq_some hmem
    rw [List.mem_zipIdx_iff_getElem?] at hget
    rw [hget] at hs
    obtain rfl : found' = spec := Option.some.inj hs
    rfl

/-- A quota preemption takes the core from the task and excludes its group. -/
theorem preemptSingleCore_quota {s₃ : Engine scenario.tasks.length 1} {excluded : Option Nat}
    {i : Fin scenario.tasks.length} (hcur : (s.cores 0).current = some i) (hg : (s.runtimes i).groupIndex = some g)
    (hpre : shouldPreemptForGroupQuota .cfsLike (some i) (s.cores 0).currentGroupRunTicks s.runtimes = true)
    (h : preemptSingleCore scenario .cfsLike s = (s₃, excluded)) :
    (s₃.cores 0).current = none ∧ excluded = some g := by
  obtain ⟨-, hq, hle, j, hj, hjg⟩ := shouldPreemptForGroupQuota_iff.mp hpre
  have hji : j ≠ i := fun e => hjg (by rw [e])
  have hpre' : shouldPreemptForGroupQuota .cfsLike (some i) (s.cores 0).currentGroupRunTicks
      (Function.update s.runtimes i { s.runtimes i with state := .ready }) = true := by
    refine shouldPreemptForGroupQuota_iff.mpr ⟨rfl, by simpa using hq, by simpa using hle, j, ?_, ?_⟩
    · simpa [Function.update_of_ne hji] using hj
    · simpa [Function.update_of_ne hji] using hjg
  unfold preemptSingleCore at h
  simp only [hcur, hpre, Bool.or_true, if_true, Engine.setTask_runtimes, hpre', and_self, Function.update_self] at h
  obtain ⟨rfl, rfl⟩ := Prod.mk.inj h
  exact ⟨by simp, hg⟩

/-- A selection that excludes a group gives the core to a task outside it. -/
theorem dispatchSingleCore_excluded {i : Fin scenario.tasks.length} (hp : Solo .cfsLike s)
    (hcur : ((dispatchSingleCore scenario .cfsLike (some g) s).cores 0).current = some i)
    (hnone : (s.cores 0).current = none) :
    ((dispatchSingleCore scenario .cfsLike (some g) s).runtimes i).groupIndex ≠ some g := by
  rcases dispatchSingleCore_cases scenario (some g) hp with
    ⟨hc, -⟩ | ⟨-, -, heq⟩ | ⟨j, queue, -, hsel, heq⟩
  · exact absurd hnone hc
  · rw [heq, hnone] at hcur
    cases hcur
  · rw [heq] at hcur ⊢
    obtain rfl : j = i := by simpa [dispatchTask] using hcur
    obtain ⟨j', hj, hpair⟩ := Option.map_eq_some_iff.mp hsel
    obtain ⟨rfl, -⟩ := Prod.mk.inj hpair
    have hel := chooseFrom_runnable hj
    simpa [dispatchTask] using (Bool.and_eq_true_iff.mp hel).2

/-- **Group quota**, up to hand-overs. In a run in which a group that has executed its quota, with an outsider ready,
has always done so under one dispatch that is still in force, such a group never executes the next tick. -/
theorem quota_of_uninterrupted (scenario : ScenarioOwned) (hv : scenario.validate = .ok ())
    (hone : ∀ g spec t, Exhausted scenario g spec t → OutsiderReady scenario t g → Uninterrupted scenario g spec t) :
    ∀ g spec t, Exhausted scenario g spec t → OutsiderReady scenario t g → ¬ExecutedBy scenario t g := by
  have hvalid := validate_ok hv
  rintro g spec t hex hout ⟨s, s₂, s₃, mid, k, ht, hmid, hkg⟩
  obtain ⟨hkept, hcurrent⟩ := hone g spec t hex hout
  obtain ⟨_, _, _, _, j, ht', hj, hjg⟩ := hout
  obtain ⟨rfl, rfl, rfl, rfl⟩ := ht.unique ht'
  -- the core still has a task of the group, and the counter has reached the quota
  obtain ⟨⟨i, hcur, hg⟩, hcount⟩ := runTicks_ge hvalid hex.pos hex.le ht.run hex.ran hkept (hcurrent s s₂ s₃ mid ht)
  obtain ⟨hinfo, hinfo₂⟩ := ht.info_eq hvalid i
  have hig : (s₂.runtimes i).groupIndex = some g := by
    rw [hinfo₂, ← hinfo]
    exact hg
  have hquota : (s₂.runtimes i).groupQuotaTicks = spec.quotaTicks := by
    rw [hinfo₂] at hig ⊢
    exact infos_quota hig hex.group
  have hpos := hex.pos
  rw [← ht.cores] at hcur hcount
  have hpre : shouldPreemptForGroupQuota .cfsLike (some i) (s₂.cores 0).currentGroupRunTicks s₂.runtimes = true :=
    shouldPreemptForGroupQuota_iff.mpr ⟨rfl, by omega, by rw [hquota]; exact hcount, j, hj, by rw [hig]; exact hjg⟩
  -- so it is preempted, and its group excluded from the selection
  obtain ⟨-, -, hp₃, -⟩ := ht.solo hvalid
  obtain ⟨excluded, h₃, rfl⟩ := ht.dispatched
  obtain ⟨hnone, rfl⟩ := preemptSingleCore_quota hcur hig hpre h₃
  exact dispatchSingleCore_excluded hp₃ hmid hnone hkg

/-- A group of one task with a quota of one tick, and a task outside the group. -/
def quotaPair : ScenarioOwned where
  name := [113]
  groups := [{ id := [103], quotaTicks := 1 }]
  tasks := [{ id := [97], arrivalTick := 0, burstTicks := 2, groupId := some [103], inputOrder := 0 },
    { id := [98], arrivalTick := 0, burstTicks := 1, inputOrder := 1 }]

/-- The group executes tick 0, gives tick 1 to the outsider and is dispatched again in tick 2. -/
theorem quota_of_uninterrupted_quotaPair : ExecutedBy quotaPair 0 0 ∧ OutsiderReady quotaPair 1 0 ∧
    ∀ g spec t, Exhausted quotaPair g spec t → OutsiderReady quotaPair t g → ¬ExecutedBy quotaPair t g := by
  refine ⟨by decide +kernel, by decide +kernel, quota_of_uninterrupted quotaPair (by decide) ?_⟩
  rintro g spec t hex hout
  obtain ⟨rfl, rfl⟩ : g = 0 ∧ spec = { id := [103], quotaTicks := 1 } := by
    have hg := hex.group
    cases g with
    | zero => exact ⟨rfl, (Option.some.inj hg).symm⟩
    | succ g => simp [quotaPair] at hg
  -- the run has three ticks, and the group executes the first and the last
  have hlt : t < 3 := by
    obtain ⟨_, s₂, s₃, mid, _, ht, -⟩ := hout
    obtain ⟨s, hs, hc⟩ := okAnd_eq_true.mp (show okAnd (fun s => decide (quotaPair.tasks.length ≤ s.completed))
      ((singleCore quotaPair .cfsLike).after (initEngine quotaPair 1) 3) = true by decide +kernel)
    exact ht.is_mid.lt_end (.of_after hs) (by simpa using hc)
  have hpos := hex.le
  have hran := hex.ran
  simp only at hpos hran
  obtain rfl : t = 1 := by
    by_contra hne
    exact absurd (hran 1 (by omega) (by omega)) (by decide +kernel)
  refine ⟨fun τ h₁ h₂ => by simp only at h₁; omega, fun s s₂ s₃ mid ht hn => ?_⟩
  have hs : okAnd (fun s => decide ((s.cores 0).current ≠ none))
      ((singleCore quotaPair .cfsLike).after (initEngine quotaPair 1) 1) = true := by decide +kernel
  simp [ht.run.after_eq, okAnd, hn] at hs

/-- A group of two tasks with a quota of one tick, and a task outside the group. -/
def handover : ScenarioOwned where
  name := [104]
  groups := [{ id := [103], quotaTicks := 1 }]
  tasks := [{ id := [97], arrivalTick := 0, burstTicks := 1, groupId := some [103], inputOrder := 0 },
    { id := [98], arrivalTick := 0, burstTicks := 1, groupId := some [103], inputOrder := 1 },
    { id := [99], arrivalTick := 0, burstTicks := 1, inputOrder := 2 }]

/-- The first task completes in tick 0 and clears the counter, so the second one executes tick 1 although the third is
ready. -/
theorem handover_exceeds_quota : handover.validate = .ok () ∧
    ¬∀ g spec t, Exhausted handover g spec t → OutsiderReady handover t g → ¬ExecutedBy handover t g := by
  refine ⟨by decide, fun h => ?_⟩
  have hex : Exhausted handover 0 { id := [103], quotaTicks := 1 } 1 := by
    refine ⟨rfl, by decide, by decide, fun τ h₁ h₂ => ?_⟩
    obtain rfl : τ = 0 := by omega
    decide +kernel
  exact h 0 _ 1 hex (by decide +kernel) (by decide +kernel)

end Counter

end Exasphere.Sim

import Exasphere.Sim.Multi
import Exasphere.Sim.Single

/-!
# The order of the trace

Scheduling adds entries of the current tick, execution adds a `tick` or `idle` entry for each core in turn. A `block`
entry carries the next tick already and stands right after the entry of its core, so every later core of the same tick
writes an earlier tick after it; `complete` entries are deferred behind the last core. The ticks of a trace are
therefore non-decreasing exactly when only the last core blocks a task.
-/

namespace Exasphere.Sim

open Exasphere.Lib

variable {n m : Nat} {scenario : ScenarioOwned} {policy : PolicyKind}

/-- The ticks of the entries never decrease. -/
def Ordered (trace : List TraceEntry) : Prop := trace.Pairwise (fun a b => a.tick ≤ b.tick)

instance (trace : List TraceEntry) : Decidable (Ordered trace) :=
  inferInstanceAs (Decidable (trace.Pairwise (fun a b => a.tick ≤ b.tick)))

/-- The next tick is the last one of a CPU phase that another phase follows. -/
def EndsBeforeWait (x : RuntimeTask) : Prop :=
  x.phaseRemainingTicks = 1 ∧ ∃ ps, x.phases = some ps ∧ x.phaseIndex + 1 < ps.length

/-- The current task of core `c` is about to block. -/
def BlocksOn (mid : Engine n m) (c : Fin m) : Prop :=
  ∃ i, (mid.cores c).current = some i ∧ EndsBeforeWait (mid.runtimes i)

/-! ## Blocking -/

section Blocking

variable {info : TaskInfo} {t waited : Nat} {x y z u : RuntimeTask} {ev : List Event} {outcome : Outcome}

theorem endsBeforeWait_iff : EndsBeforeWait x ↔ x.phaseRemainingTicks = 1 ∧ x.phaseIndex + 1 < x.phaseList.length := by
  unfold EndsBeforeWait TaskInfo.phaseList
  cases x.phases <;> simp

/-- A running task blocks exactly at the end of such a phase. -/
theorem Life.block_iff (hv : info.Valid) (h : Life info 0 (t + 1) t waited x ev) (hs : x.state = .running)
    (hy : chargeTick t x = .ok y) (hz : policy.onTaskTick y = .ok z) (hu : settleTask t z = .ok (outcome, u)) :
    outcome = .block ↔ EndsBeforeWait x := by
  have hinfo := h.common.info_eq
  cases h.clause with
  | running _ p hp =>
    rw [endsBeforeWait_iff, hinfo]
    obtain ⟨-, -, -, d, rfl, -⟩ := chargeTick_onTaskTick hy hz
    rcases settleTask_ok hv hinfo hp hu with ⟨rfl, -, hnil, -⟩ | ⟨rfl, h1, q, hq, -⟩ | ⟨rfl, h1, -⟩
    · have := List.drop_eq_nil_iff.mp hnil
      simp only [reduceCtorEq, false_iff]
      omega
    · exact ⟨fun _ => ⟨h1, (List.getElem?_eq_some_iff.mp hq).1⟩, fun _ => rfl⟩
    · simp only [reduceCtorEq, false_iff]
      omega
  | pending hs' | ready hs' | blocked hs' | complete hs' => simp [hs'] at hs

end Blocking

/-! ## The entries of an execution -/

section Execute

/-- The entries of the cores in `done`, as they stand in the executing state `s`. -/
def ExecOrder (mid : Engine n m) (done : List (Fin m)) (s : Engine n m) : Prop :=
  ∃ new, s.traceEntries = mid.traceEntries ++ new ∧ (∀ e ∈ new, mid.tick ≤ e.tick ∧ e.tick ≤ mid.tick + 1) ∧
    ((∀ e ∈ new, e.tick = mid.tick) ↔ ∀ c ∈ done, ¬BlocksOn mid c) ∧
    (Ordered new ↔ ∀ c ∈ done.dropLast, ¬BlocksOn mid c)

/-- An entry of tick `t` after entries of the ticks `t` and `t + 1`. -/
theorem ordered_append_iff {t : Nat} {new tail : List TraceEntry} {entry : TraceEntry}
    (hnew : ∀ e ∈ new, t ≤ e.tick ∧ e.tick ≤ t + 1) (he : entry.tick = t) (htail : ∀ e ∈ tail, e.tick = t + 1) :
    Ordered (new ++ entry :: tail) ↔ ∀ e ∈ new, e.tick = t := by
  unfold Ordered
  rw [List.pairwise_append]
  constructor
  · rintro ⟨-, -, h⟩ e hm
    have h₁ := h e hm entry (by simp)
    have h₂ := hnew e hm
    omega
  · intro h
    refine ⟨List.pairwise_of_forall_mem_list (fun a ha b hb => by rw [h a ha, h b hb]), ?_, fun a ha b hb => ?_⟩
    · refine List.pairwise_cons.mpr ⟨fun b hb => by rw [he, htail b hb]; omega, ?_⟩
      exact List.pairwise_of_forall_mem_list (fun a ha b hb => by rw [htail a ha, htail b hb])
    · rw [h a ha]
      rcases List.mem_cons.mp hb with rfl | hb
      · omega
      · rw [htail b hb]; omega

/-- One more core adds its entry, and a `block` entry when it blocks. -/
theorem ExecOrder.step {mid s s' : Engine n m} {done : List (Fin m)} {c : Fin m} (entry : TraceEntry)
    (tail : List TraceEntry) (h : ExecOrder mid done s) (hs' : s'.traceEntries = s.traceEntries ++ entry :: tail)
    (he : entry.tick = mid.tick) (htail : ∀ e ∈ tail, e.tick = mid.tick + 1) (hb : tail ≠ [] ↔ BlocksOn mid c) :
    ExecOrder mid (done ++ [c]) s' := by
  obtain ⟨new, hs, hnew, hflat, -⟩ := h
  refine ⟨new ++ entry :: tail, by rw [hs', hs, List.append_assoc], fun e hm => ?_, ?_, ?_⟩
  · rcases List.mem_append.mp hm with hm | hm
    · exact hnew e hm
    · rcases List.mem_cons.mp hm with rfl | hm
      · omega
      · have := htail e hm
        omega
  · constructor
    · intro hall d hd
      rcases List.mem_append.mp hd with hd | hd
      · exact hflat.mp (fun e hm => hall e (by simp [hm])) d hd
      · rw [List.mem_singleton.mp hd, ← hb]
        intro hne
        obtain ⟨e, hm⟩ := List.exists_mem_of_ne_nil tail hne
        have h₁ := hall e (by simp [hm])
        have h₂ := htail e hm
        omega
    · intro hall e hm
      rcases List.mem_append.mp hm with hm | hm
      · exact hflat.mpr (fun d hd => hall d (by simp [hd])) e hm
      · rcases List.mem_cons.mp hm with rfl | hm
        · exact he
        · exact absurd (hb.mp (List.ne_nil_of_mem hm)) (hall c (by simp))
  · rw [ordered_append_iff hnew he htail, hflat, List.dropLast_concat]

variable {mid s : Engine n m}

/-- Entries of the next tick at the end keep the order. -/
theorem ordered_append_last {t : Nat} {new last : List TraceEntry} (hnew : ∀ e ∈ new, e.tick ≤ t + 1)
    (hlast : ∀ e ∈ last, e.tick = t + 1) : Ordered (new ++ last) ↔ Ordered new := by
  unfold Ordered
  rw [List.pairwise_append]
  refine ⟨fun h => h.1, fun h => ⟨h, List.pairwise_of_forall_mem_list (fun a ha b hb => ?_), fun a ha b hb => ?_⟩⟩
  · rw [hlast a ha, hlast b hb]
  · rw [hlast b hb]; exact hnew a ha

/-- What the execution of a dispatched state adds to the trace. -/
def ExecTrace (mid s : Engine n m) : Prop :=
  ∃ new, s.traceEntries = mid.traceEntries ++ new ∧ (∀ e ∈ new, mid.tick ≤ e.tick ∧ e.tick ≤ mid.tick + 1) ∧
    (Ordered new ↔ ∀ c : Fin m, BlocksOn mid c → c.val + 1 = m)

/-- All cores have executed, and completions follow. -/
theorem ExecOrder.execTrace {a : Engine n m} (h : ExecOrder mid (List.finRange m) a) (last : List TraceEntry)
    (hs : s.traceEntries = a.traceEntries ++ last) (hlast : ∀ e ∈ last, e.tick = mid.tick + 1) : ExecTrace mid s := by
  obtain ⟨new, ha, hnew, -, hord⟩ := h
  refine ⟨new ++ last, by rw [hs, ha, List.append_assoc], fun e hm => ?_, ?_⟩
  · rcases List.mem_append.mp hm with hm | hm
    · exact hnew e hm
    · have := hlast e hm
      omega
  · rw [ordered_append_last (fun e hm => (hnew e hm).2) hlast, hord]
    have hmem : ∀ c : Fin m, c ∈ (List.finRange m).dropLast ↔ c.val + 1 ≠ m := by
      intro c
      have hlt := c.isLt
      simp only [List.mem_iff_getElem, List.length_dropLast, List.length_finRange, List.getElem_dropLast,
        List.getElem_finRange]
      constructor
      · rintro ⟨k, hk, rfl⟩
        simp only [Fin.val_cast]
        omega
      · intro hne
        exact ⟨c, by omega, by ext; rfl⟩
    exact forall_congr' (fun c => by rw [hmem]; tauto)

/-- Every running task of the dispatched state lives by the rules. -/
def MidLives (info : Fin n → TaskInfo) (mid : Engine n m) : Prop :=
  ∀ i, (info i).Valid ∧ ∃ waited, Life (info i) 0 (mid.tick + 1) mid.tick waited (mid.view i).1 (mid.view i).2

/-- An executed core adds a `block` entry exactly when its task was about to block. -/
theorem Executed.blocks_iff {info : Fin n → TaskInfo} (hlife : MidLives info mid) {c : Fin m} {i : Fin n}
    {outcome : Outcome} {u : RuntimeTask} {a b : Engine n m} (h : Executed scenario policy c i outcome u a b)
    (hcur : (mid.cores c).current = some i) (hr : (mid.runtimes i).state = .running) (htick : a.tick = mid.tick)
    (hrt : a.runtimes i = mid.runtimes i) : outcome = .block ↔ BlocksOn mid c := by
  obtain ⟨hv, waited, hl⟩ := hlife i
  obtain ⟨y, z, hy, hz, hu⟩ := h.charged
  rw [htick, hrt] at hy
  rw [htick] at hu
  rw [hl.block_iff hv hr hy hz hu]
  constructor
  · exact fun he => ⟨i, hcur, he⟩
  · rintro ⟨j, hj, he⟩
    obtain rfl : i = j := Option.some.inj (hcur.symm.trans hj)
    exact he

theorem executeMulticore_trace {info : Fin n → TaskInfo} (hmid : Placed mid) (hlife : MidLives info mid)
    (h : executeMulticore scenario policy mid = .ok s) : ExecTrace mid s := by
  obtain ⟨⟨e, done⟩, he, h⟩ := bind_eq_ok.mp h
  simp only [recordCompletions_eq, Except.ok.injEq] at h
  subst h
  have hloop := foldlM_inv (P := fun done x => ExecLoop policy mid done x ∧ ExecOrder mid done x.1)
    ⟨.init hmid, [], by simp, by simp, by simp, by simp [Ordered]⟩ ?_ he
  · apply hloop.2.execTrace _ rfl
    intro x hx
    obtain ⟨i, -, rfl⟩ := List.mem_map.mp hx
    exact congrArg (· + 1) hloop.1.tick
  · rintro done c rest ⟨a, la⟩ ⟨b, lb⟩ hl ⟨hexec, hord⟩ hb
    have hdone : c ∉ done := fun hd => by
      have hnd := List.nodup_finRange m
      rw [hl, List.nodup_append] at hnd
      exact hnd.2.2 c hd c (by simp) rfl
    refine ⟨executeMulticoreAt_ok hmid hexec hdone hb, ?_⟩
    have hcore := hexec.cores c hdone
    unfold executeMulticoreAt at hb
    simp only at hb
    split at hb
    next hcur =>
      simp only [Except.ok.injEq, Prod.mk.injEq] at hb
      obtain ⟨rfl, rfl⟩ := hb
      refine hord.step (idleEntry a.tick c) [] rfl hexec.tick (by simp) ?_
      rw [hcore] at hcur
      simp [BlocksOn, hcur]
    next i hcur =>
      obtain ⟨⟨outcome, b'⟩, he', hb⟩ := bind_eq_ok.mp hb
      simp only [Except.ok.injEq, Prod.mk.injEq] at hb
      obtain ⟨rfl, rfl⟩ := hb
      obtain ⟨u, hex⟩ := executeCurrent_ok he'
      have hmcur : (mid.cores c).current = some i := by rw [← hcore]; exact hcur
      have hview := (hexec.rest i (fun d hd hdi => hdone (by rw [hmid.slotted.inj hmcur hdi]; exact hd))).1
      have hblk := hex.blocks_iff hlife hmcur (hmid.slotted.current_running c i hmcur).1 hexec.tick
        (congrArg Prod.fst hview)
      refine hord.step _ _ hex.trace hexec.tick (fun e hm => ?_) ?_
      · split at hm
        · obtain rfl := List.mem_singleton.mp hm
          exact congrArg (· + 1) hexec.tick
        · simp at hm
      · rw [← hblk]
        split <;> simp_all

theorem executeSingleCore_trace {mid s : Engine n 1} {info : Fin n → TaskInfo} (hmid : Solo policy mid)
    (hlife : MidLives info mid) (h : executeSingleCore scenario policy mid = .ok s) : ExecTrace mid s := by
  have h0 : ExecOrder mid [] mid := ⟨[], by simp, by simp, by simp, by simp [Ordered]⟩
  have hfin : List.finRange 1 = [] ++ [0] := rfl
  cases hc : (mid.cores 0).current with
  | none =>
    obtain rfl : mid.emit (idleEntry mid.tick 0) = s := by simpa [executeSingleCore, hc] using h
    have h1 : ExecOrder mid (List.finRange 1) (mid.emit (idleEntry mid.tick 0)) := by
      rw [hfin]
      exact h0.step (idleEntry mid.tick 0) [] rfl rfl (by simp) (by simp [BlocksOn, hc])
    exact h1.execTrace [] (by simp) (by simp)
  | some i =>
    obtain ⟨outcome, u, e, hex, rfl⟩ := executeSingleCore_some hmid hc h
    have hblk := hex.blocks_iff hlife hc (hmid.slotted.current_running 0 i hc).1 rfl rfl
    have h1 : ExecOrder mid (List.finRange 1) e := by
      rw [hfin]
      refine h0.step _ _ hex.trace rfl (fun x hm => ?_) ?_
      · split at hm
        · obtain rfl := List.mem_singleton.mp hm
          rfl
        · simp at hm
      · rw [← hblk]
        split <;> simp_all
    unfold withCompletion
    split
    · apply h1.execTrace [taskEntry scenario (e.tick + 1) .complete (e.runtimes i) 0] rfl
      intro x hm
      obtain rfl := List.mem_singleton.mp hm
      exact congrArg (· + 1) hex.tick
    · exact h1.execTrace [] (by simp) (by simp)

end Execute

/-! ## Runs -/

section Runs

/-- The iterations of a loop add entries of their tick, then those of an execution. -/
structure TraceLaw (M : Machine n m) (Inv : Engine n m → Prop) (info : Fin n → TaskInfo) : Prop where
  sched : ∀ {s mid}, Inv s → M.schedule s = .ok mid → Quiet s mid
  exec : ∀ {s mid e}, Inv s → M.schedule s = .ok mid → MidLives info mid → M.execute mid = .ok e → ExecTrace mid e

variable {M : Machine n m} {Inv : Engine n m → Prop} {info : Fin n → TaskInfo} {s₀ s : Engine n m} {k : Nat}

/-- **The trace of a run is ordered exactly when only the last core has blocked tasks.** -/
theorem Start.ordered_run (hM : Lawful M policy Inv) (hT : TraceLaw M Inv info) (hs : Start info s₀) (h₀ : Inv s₀)
    (h : M.Run s₀ k s) : (∀ e ∈ s.traceEntries, e.tick ≤ k) ∧
      (Ordered s.traceEntries ↔ ∀ τ mid c, τ < k → M.Mid s₀ τ mid → BlocksOn mid c → c.val + 1 = m) := by
  induction h with
  | zero =>
    rw [hs.trace]
    refine ⟨by simp, iff_of_true .nil ?_⟩
    intro τ mid c hτ
    omega
  | @succ k s s' hr hc hstep ih =>
    obtain ⟨mid, e, hmid, he, -, rfl⟩ := Machine.step_ok hstep
    obtain ⟨hinv, hk⟩ := hs.inv hM h₀ hr
    have ht := hM.spec hinv hmid he
    have hq := hT.sched hinv hmid
    have hlife : MidLives info mid := fun i =>
      ⟨hs.valid i, _, by rw [hq.tick, hk]; exact ht.life_mid hs hk (hs.life_run hM h₀ hr i)⟩
    obtain ⟨quiet, hquiet, hqt⟩ := hq.trace
    obtain ⟨new, hnew, hbound, hord⟩ := hT.exec hinv hmid hlife he
    rw [hq.tick, hk] at hbound
    rw [hk] at hqt
    have htrace : e.traceEntries = s.traceEntries ++ (quiet ++ new) := by rw [hnew, hquiet, List.append_assoc]
    show (∀ x ∈ e.traceEntries, x.tick ≤ k + 1) ∧ (Ordered e.traceEntries ↔ _)
    rw [htrace]
    constructor
    · intro x hx
      simp only [List.mem_append] at hx
      rcases hx with hx | hx | hx
      · have := ih.1 x hx; omega
      · have := (hqt x hx).1; omega
      · exact (hbound x hx).2
    · -- entries of ticks up to `k`, entries of tick `k`, entries of ticks `k` and `k + 1`
      have hsplit : Ordered (s.traceEntries ++ (quiet ++ new)) ↔ Ordered s.traceEntries ∧ Ordered new := by
        unfold Ordered
        simp only [List.pairwise_append]
        constructor
        · intro h
          exact ⟨h.1, h.2.1.2.1⟩
        · rintro ⟨h₁, h₂⟩
          refine ⟨h₁, ⟨?_, h₂, fun a ha b hb => ?_⟩, fun a ha b hb => ?_⟩
          · exact List.pairwise_of_forall_mem_list (fun a ha b hb => by rw [(hqt a ha).1, (hqt b hb).1])
          · have := (hqt a ha).1
            have := hbound b hb
            omega
          · have h₁ := ih.1 a ha
            rcases List.mem_append.mp hb with hb | hb
            · have := (hqt b hb).1; omega
            · have := hbound b hb; omega
      rw [hsplit, ih.2, hord]
      constructor
      · rintro ⟨h₁, h₂⟩ τ mid' c hτ hm hb
        by_cases hτk : τ = k
        · subst hτk
          obtain rfl := hm.unique ⟨s, hr, hc, hmid⟩
          exact h₂ c hb
        · exact h₁ τ mid' c (by omega) hm hb
      · intro h
        exact ⟨fun τ mid' c hτ => h τ mid' c (by omega), fun c hb => h k mid c (by omega) ⟨s, hr, hc, hmid⟩ hb⟩

theorem singleCore_traceLaw {n : Nat} {info : Fin n → TaskInfo} :
    TraceLaw (singleCore scenario policy) (fun s => Solo policy s ∧ s.Counted) info where
  sched := fun ⟨hp, _⟩ hmid => (scheduleSingleCore_ok hp hmid).2.1
  exec := fun ⟨hp, _⟩ hmid hlife he => executeSingleCore_trace (scheduleSingleCore_ok hp hmid).1 hlife he

theorem multicore_traceLaw {info : Fin n → TaskInfo} :
    TraceLaw (multicore (m := m) scenario policy) (fun s => Placed s ∧ s.Counted) info where
  sched := fun ⟨hp, _⟩ hmid => (scheduleMulticore_ok hp hmid).2.1
  exec := fun ⟨hp, _⟩ hmid hlife he => executeMulticore_trace (scheduleMulticore_ok hp hmid).1 hlife he

end Runs

end Exasphere.Sim

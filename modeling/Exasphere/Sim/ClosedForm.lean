import Exasphere.Sim.Fifo
import Exasphere.Sim.Loading
import Exasphere.Sim.Timeline

/-!
# The closed form of `fcfs` on one core

Without wait phases the current task and the queue of the core form one line, in order of arrival and of declaration
among arrivals of one tick (`fcfs_line`). So the timeline is greedy for that order, and the tasks run one after the
other: every task from its arrival or from the completion of the task before it.
-/

namespace Exasphere.Sim

open Exasphere.Lib

variable {n : Nat} {scenario : ScenarioOwned}

/-! ## The line at the core -/

/-- The current task and, behind it, the queue. -/
def Engine.line (s : Engine n 1) : List (Fin n) := (s.cores 0).current.toList ++ (s.cores 0).readyQueue

/-- Earlier arrival, or the same arrival and declared earlier. -/
def Precedes (scenario : ScenarioOwned) (i j : Fin scenario.tasks.length) : Prop :=
  toLex ((jobs scenario).arrival i, i.val) < toLex ((jobs scenario).arrival j, j.val)

section Line

variable {s s' : Engine n 1}

/-- A dispatch takes the head of the line and leaves it in its place. -/
theorem taken_line {rt : Fin n → RuntimeTask} (h : CoreState.Taken
    (PolicyKind.fcfs.selectNextCore (s.cores 0).readyQueue rt) (s.cores 0) (s'.cores 0)) : s'.line = s.line := by
  unfold Engine.line
  cases h with
  | keep _ hb => rw [hb]
  | idle _ _ hb => rw [hb]
  | take i queue hn hs hb hq hz =>
    rw [hb, hq, hn, selectNext_some hs]
    rfl

/-- An execution may take the current task out. -/
theorem ran_line {rt : Fin n → RuntimeTask} (h : CoreState.Ran rt (s.cores 0) (s'.cores 0)) :
    s'.line.Sublist s.line := by
  unfold Engine.line
  cases h with
  | idle _ hb => rw [hb]
  | run i outcome hc _ hb =>
    cases outcome with
    | running =>
      rw [hb]
      exact List.Sublist.refl _
    | complete | block =>
      rw [hb]
      exact List.sublist_append_right _ _

/-- A task that enters the queue was not ready before. -/
theorem not_ready_of_new {new : List (Fin n)} {i : Fin n} (hp : Solo .fcfs s) (hp' : Solo .fcfs s')
    (hq : (s'.cores 0).readyQueue = (s.cores 0).readyQueue ++ new) (hi : i ∈ new) :
    (s'.runtimes i).state = .ready ∧ (s.runtimes i).state ≠ .ready := by
  have hnew : i ∈ (s'.cores 0).readyQueue := by rw [hq]; simp [hi]
  refine ⟨((hp'.queued rfl).mem_ready 0 i hnew).1, fun hready => ?_⟩
  obtain ⟨c, hc⟩ := (hp.queued rfl).ready_mem i hready
  rw [Subsingleton.elim c 0] at hc
  have hnd := (hp'.queued rfl).nodup 0
  rw [hq] at hnd
  exact (List.nodup_append.mp hnd).2.2 i hc i hi rfl

/-- Nothing wakes when nothing is blocked. -/
theorem processBlocked_line (hp : Solo .fcfs s) (hb : ∀ i, (s.runtimes i).state ≠ .blocked)
    (h : processBlockedSingleCore scenario .fcfs s = .ok s') : s'.line.Sublist s.line := by
  obtain ⟨hp', -, hv⟩ := processBlockedSingleCore_ok hp h
  obtain ⟨new, -, hg⟩ := processBlockedSingleCore_grown h 0
  have hnil : new = [] := by
    refine List.eq_nil_iff_forall_not_mem.mpr (fun i hi => ?_)
    obtain ⟨hready, hnot⟩ := not_ready_of_new hp hp' (by rw [hg]) hi
    have hview := hv i
    generalize hx : s.view i = x, hy : s'.view i = y at hview
    cases hview with
    | keep hs =>
      rw [← hx] at hy
      rw [show s'.runtimes i = s.runtimes i from congrArg Prod.fst hy] at hready
      exact hnot hready
    | wake _ hs => exact hb i (by rw [← hx] at hs; exact hs)
  unfold Engine.line
  rw [hg, hnil]
  simp

/-- The arrivals of the tick line up in order of declaration. -/
theorem enqueueArrivals_line (hp : Solo .fcfs s) (h : enqueueArrivalsSingleCore scenario .fcfs s = .ok s') :
    ∃ new, s'.line = s.line ++ new ∧ new.Sublist (List.finRange n) ∧
      ∀ i ∈ new, (s.runtimes i).arrivalTick = s.tick := by
  obtain ⟨hp', -, hv⟩ := enqueueArrivalsSingleCore_ok hp h
  obtain ⟨new, hsub, hg⟩ := enqueueArrivalsSingleCore_grown h 0
  refine ⟨new, ?_, hsub, fun i hi => ?_⟩
  · unfold Engine.line
    rw [hg]
    simp
  · obtain ⟨hready, hnot⟩ := not_ready_of_new hp hp' (by rw [hg]) hi
    have hview := hv i
    generalize hx : s.view i = x, hy : s'.view i = y at hview
    cases hview with
    | keep _ hs =>
      rw [← hx] at hy
      rw [show s'.runtimes i = s.runtimes i from congrArg Prod.fst hy] at hready
      exact absurd hready hnot
    | arrive x ev c hs ha =>
      rw [show s.runtimes i = x from congrArg Prod.fst hx]
      exact ha

end Line

/-! ## The line along a run -/

section Runs

variable {k : Nat} {s mid : Engine scenario.tasks.length 1}

/-- The line is in order, and its tasks arrived before tick `k`. -/
def LinedUp (scenario : ScenarioOwned) (k : Nat) (l : List (Fin scenario.tasks.length)) : Prop :=
  l.Pairwise (Precedes scenario) ∧ ∀ i ∈ l, (jobs scenario).arrival i < k

theorem LinedUp.sublist {l l' : List (Fin scenario.tasks.length)} (h : LinedUp scenario k l) (hs : l'.Sublist l) :
    LinedUp scenario k l' :=
  ⟨h.1.sublist hs, fun i hi => h.2 i (hs.subset hi)⟩

/-- Arrivals of tick `k` join at the end. -/
theorem LinedUp.append {l new : List (Fin scenario.tasks.length)} (h : LinedUp scenario k l)
    (hs : new.Sublist (List.finRange _)) (ha : ∀ i ∈ new, (jobs scenario).arrival i = k) :
    LinedUp scenario (k + 1) (l ++ new) := by
  constructor
  · refine List.pairwise_append.mpr ⟨h.1, ?_, fun i hi j hj => ?_⟩
    · have hlt : new.Pairwise (· < ·) := (List.pairwise_lt_finRange _).sublist hs
      refine hlt.imp_of_mem (fun hi hj hij => ?_)
      rw [Precedes, ha _ hi, ha _ hj, Prod.Lex.toLex_lt_toLex]
      exact Or.inr ⟨rfl, hij⟩
    · rw [Precedes, Prod.Lex.toLex_lt_toLex, ha j hj]
      exact Or.inl (h.2 i hi)
  · intro i hi
    rcases List.mem_append.mp hi with hi | hi
    · exact Nat.lt_succ_of_lt (h.2 i hi)
    · rw [ha i hi]
      exact Nat.lt_succ_self k

/-- Scheduling keeps the line in order. -/
theorem scheduleSingleCore_line (hp : Solo .fcfs s) (hk : s.tick = k) (hb : ∀ i, (s.runtimes i).state ≠ .blocked)
    (hi : ∀ i, (s.runtimes i).arrivalTick = (jobs scenario).arrival i) (h : LinedUp scenario k s.line)
    (hmid : scheduleSingleCore scenario .fcfs s = .ok mid) : LinedUp scenario (k + 1) mid.line := by
  obtain ⟨s₁, s₂, s₃, excluded, h₁, h₂, h₃, rfl⟩ := scheduleSingleCore_parts hmid
  obtain ⟨hp₁, hq₁, hv₁⟩ := processBlockedSingleCore_ok hp h₁
  obtain ⟨hp₂, -, -⟩ := enqueueArrivalsSingleCore_ok hp₁ h₂
  obtain ⟨new, hline, hsub, harr⟩ := enqueueArrivals_line hp₁ h₂
  have h₂' : LinedUp scenario (k + 1) s₂.line := by
    rw [hline]
    refine (h.sublist (processBlocked_line hp hb h₁)).append hsub (fun i hmem => ?_)
    have hinfo : (s₁.runtimes i).arrivalTick = (s.runtimes i).arrivalTick :=
      congrArg TaskInfo.arrivalTick (hv₁ i).info_eq
    rw [← hi i, ← hinfo, harr i hmem, hq₁.tick, hk]
  obtain ⟨hp₃, -⟩ := preemptSingleCore_ok hp₂ h₃
  obtain ⟨hrel, rfl⟩ := preemptSingleCore_cores rfl h₃ 0
  have hsame : s₃.line = s₂.line := by rw [Engine.line, Engine.line, serves_of_released hrel]
  rw [taken_line (dispatchSingleCore_cores scenario rfl hp₃ 0), hsame]
  exact h₂'

/-- **The line at the core is in order of arrival**, in every tick. -/
theorem fcfs_line (hv : Valid scenario) (hw : scenario.Waitless)
    (hr : (singleCore scenario .fcfs).Run (initEngine scenario 1) k s) : LinedUp scenario k s.line ∧
    ∀ mid, s.completed < scenario.tasks.length → scheduleSingleCore scenario .fcfs s = .ok mid →
      LinedUp scenario (k + 1) mid.line := by
  have hsched : ∀ {k s}, (singleCore scenario .fcfs).Run (initEngine scenario 1) k s → LinedUp scenario k s.line →
      ∀ mid, s.completed < scenario.tasks.length → scheduleSingleCore scenario .fcfs s = .ok mid →
        LinedUp scenario (k + 1) mid.line := by
    intro k s hr hline mid _ hmid
    obtain ⟨hinv, hk⟩ := (start_init hv 1).inv singleCore_lawful (solo_counted_init hv) hr
    have hlife := (start_init hv 1).life_run singleCore_lawful (solo_counted_init hv) hr
    refine scheduleSingleCore_line hinv.1 hk (fun i => (hlife i).not_blocked (hw.infos i)) (fun i => ?_) hline hmid
    exact congrArg TaskInfo.arrivalTick (hlife i).common.info_eq
  suffices hline : LinedUp scenario k s.line from ⟨hline, hsched hr hline⟩
  induction hr with
  | zero => exact ⟨List.Pairwise.nil, by simp [Engine.line, initEngine]⟩
  | @succ k s s' hr hc hstep ih =>
    obtain ⟨mid, e, hmid, he, -, rfl⟩ := Machine.step_ok hstep
    have ht := singleTick hv hr hc hmid
    exact (hsched hr ih mid hc hmid).sublist (ran_line (executeSingleCore_cores ht.solo he 0))

end Runs

/-! ## The closed form -/

section Results

/-- What `normalizeAndValidate` returns is valid and numbered. -/
theorem normalizeAndValidate_ok {raw : ScenarioOwned} (h : normalizeAndValidate raw = .ok scenario) :
    Valid scenario ∧ ∀ i, (scenario.tasks.get i).inputOrder = i.val := by
  obtain ⟨tasks, ht, h⟩ := bind_eq_ok.mp h
  obtain ⟨u, hv, h⟩ := bind_eq_ok.mp h
  obtain rfl := Except.ok.inj h
  refine ⟨validate_ok hv, fun i => ?_⟩
  rcases orderTasks_eq raw.tasks with ⟨-, heq⟩ | ⟨-, heq⟩
  · rw [heq] at ht
    have htasks := Except.ok.inj ht
    subst htasks
    simp
  · rw [heq] at ht
    cases ht

/-- The tasks of a result, served one after the other in the given order. -/
structure ServedInOrder (scenario : ScenarioOwned) (r : SimulationResult)
    (order : List (Fin scenario.tasks.length)) : Prop where
  length : r.tasks.length = scenario.tasks.length
  completionOrder : r.completionOrder = order.map Fin.val
  completion : ∀ (i : Fin scenario.tasks.length) (t : TaskMetrics), r.tasks[i.val]? = some t →
    t.completionTime = t.firstDispatchTick + (scenario.tasks.get i).burstTicks
  first : ∀ i t, order.head? = some i → r.tasks[i.val]? = some t →
    t.firstDispatchTick = (scenario.tasks.get i).arrivalTick ∧ t.waitingTime = 0 ∧ t.responseTime = 0
  next : ∀ i j a b, [i, j] <:+: order → r.tasks[i.val]? = some a → r.tasks[j.val]? = some b →
    b.firstDispatchTick = max (scenario.tasks.get j).arrivalTick a.completionTime ∧
      b.waitingTime = a.completionTime - (scenario.tasks.get j).arrivalTick ∧
      b.responseTime = a.completionTime - (scenario.tasks.get j).arrivalTick

variable {r : SimulationResult} {k : Nat} {s : Engine scenario.tasks.length 1}
  {order done rest : List (Fin scenario.tasks.length)} {i : Fin scenario.tasks.length} {t : TaskMetrics}

/-- `fcfs` gives every tick to the first task of the line. -/
theorem fcfs_greedy {hv : Valid scenario} (h : Returns scenario .fcfs r (singleSimulation .fcfs hv) k s)
    (hw : scenario.Waitless) : (jobs scenario).Greedy (Precedes scenario) (timeline scenario .fcfs) := by
  refine timeline_greedy hv hw h.run h.ended (fun τ mid x y hm hx hy => ?_)
  obtain ⟨a, hra, hca, hmid⟩ := hm
  have hline := ((fcfs_line hv hw hra).2 mid hca hmid).1
  have ht := singleTick hv hra hca hmid
  obtain ⟨c, hc⟩ := (ht.solo.queued rfl).ready_mem y hy
  rw [Subsingleton.elim c 0] at hc
  rw [Engine.line, hx] at hline
  exact (List.pairwise_cons.mp hline).1 y hc

/-- A list of all tasks in order of arrival and number. -/
structure Sorted (scenario : ScenarioOwned) (order : List (Fin scenario.tasks.length)) : Prop where
  perm : order.Perm (List.finRange _)
  sorted : order.Pairwise (fun i j => toLex ((scenario.tasks.get i).arrivalTick, (scenario.tasks.get i).inputOrder) <
    toLex ((scenario.tasks.get j).arrivalTick, (scenario.tasks.get j).inputOrder))

theorem Sorted.precedes (h : Sorted scenario order) (hn : ∀ i, (scenario.tasks.get i).inputOrder = i.val) :
    order.Pairwise (Precedes scenario) :=
  h.sorted.imp (fun {i j} hij => by rw [hn i, hn j] at hij; exact hij)

/-- Every task of the list starts at its arrival or at the completion of the one before it. -/
theorem Returns.serial {hv : Valid scenario} (h : Returns scenario .fcfs r (singleSimulation .fcfs hv) k s)
    (hw : scenario.Waitless) (hn : ∀ i, (scenario.tasks.get i).inputOrder = i.val) (ho : Sorted scenario order)
    (hsplit : order = done ++ i :: rest) (ht : r.tasks[i.val]? = some t) :
    t.firstDispatchTick = (jobs scenario).start done i ∧
      t.completionTime = (jobs scenario).start done i + (jobs scenario).burst i := by
  have hprec := ho.precedes hn
  have hserial := (fcfs_greedy h hw).serial (fun j => ho.perm.mem_iff.mpr (List.mem_finRange j))
    (ho.perm.nodup_iff.mpr (List.nodup_finRange _))
    (hprec.imp (fun {i j} hij => (Prod.Lex.toLex_lt_toLex.mp hij).elim le_of_lt (fun h => h.1.le)))
    (hprec.imp (fun hij hji => lt_asymm hij hji)) hsplit
  obtain ⟨⟨hσf, hsf⟩, ⟨l, hl, hσl, hsl⟩, -⟩ := h.times ht
  have hpos : 0 < (jobs scenario).burst i := (hv.tasks _ (List.getElem_mem i.isLt)).1
  obtain ⟨hσ₀, hs₀⟩ := hserial 0 hpos
  obtain ⟨hσ₁, hs₁⟩ := hserial ((jobs scenario).burst i - 1) (by omega)
  have hfirst := served_inj hσf hσ₀ (hsf.trans hs₀.symm)
  have hlast : l = (jobs scenario).start done i + ((jobs scenario).burst i - 1) := by
    refine served_inj hσl hσ₁ ?_
    rw [hl, served_succ, if_pos hσl] at hsl
    omega
  exact ⟨hfirst, by omega⟩

/-- Waiting and response of a task without waits are the ticks before its first dispatch, if it then runs through. -/
theorem Returns.waiting {hv : Valid scenario} (h : Returns scenario .fcfs r (singleSimulation .fcfs hv) k s)
    (hw : scenario.Waitless) (ht : r.tasks[i.val]? = some t)
    (hc : t.completionTime = t.firstDispatchTick + (jobs scenario).burst i) :
    t.waitingTime = t.firstDispatchTick - (jobs scenario).arrival i ∧
      t.responseTime = t.firstDispatchTick - (jobs scenario).arrival i := by
  obtain ⟨-, -, hle, hresp, -⟩ := h.times ht
  refine ⟨?_, hresp⟩
  obtain ⟨t', ht', -, hacc⟩ := h.accounted hv i
  obtain rfl : t = t' := Option.some.inj (ht.symm.trans ht')
  have harr : t.arrivalTick = (jobs scenario).arrival i := hacc.arrival
  have hburst : t.burstTicks = (jobs scenario).burst i := hacc.burst
  have hblocked : t.blockedTime = 0 := by
    rw [hacc.blocked, waitTicks, hw.infos i]
    rfl
  have hturn := hacc.turnaround
  have hcomp := hacc.completion_eq
  omega

/-- The tasks complete in the order of the list. -/
theorem Returns.completionOrder {hv : Valid scenario} (h : Returns scenario .fcfs r (singleSimulation .fcfs hv) k s)
    (hw : scenario.Waitless) (hn : ∀ i, (scenario.tasks.get i).inputOrder = i.val) (ho : Sorted scenario order) :
    s.completionOrder = order := by
  have hledger := h.ledger hv
  have hperm : s.completionOrder.Perm order := by
    refine List.Perm.trans ?_ ho.perm.symm
    refine (List.perm_ext_iff_of_nodup hledger.nodup (List.nodup_finRange _)).mpr (fun i => ?_)
    rw [hledger.mem i]
    exact ⟨fun _ => List.mem_finRange i, fun _ => h.complete hv i⟩
  -- the list is in order of completion
  have hsorted : ∀ rest done, order = done ++ rest → rest.Pairwise (fun i j => ∀ a b,
      (s.runtimes i).completionTime = some a → (s.runtimes j).completionTime = some b → a ≤ b) := by
    intro rest
    induction rest with
    | nil => exact fun _ _ => List.Pairwise.nil
    | cons i rest ih =>
      intro done hsplit
      refine List.pairwise_cons.mpr ⟨fun j hj a b ha hb => ?_, ih (done ++ [i]) (by simpa using hsplit)⟩
      obtain ⟨mid, rest', rfl⟩ := List.append_of_mem hj
      obtain ⟨ti, hti, -, hai⟩ := h.accounted hv i
      obtain ⟨tj, htj, -, haj⟩ := h.accounted hv j
      have hi := (h.serial hw hn ho hsplit hti).2
      have hsplit' : order = (done ++ i :: mid) ++ j :: rest' := by simpa using hsplit
      have hj' := (h.serial hw hn ho hsplit' htj).2
      rw [← Jobs.finish_append] at hi hj'
      obtain rfl : a = ti.completionTime := Option.some.inj (ha.symm.trans hai.completion)
      obtain rfl : b = tj.completionTime := Option.some.inj (hb.symm.trans haj.completion)
      rw [hi, hj']
      have hle := Jobs.finish_le_append (jobs scenario) (done ++ [i]) (mid ++ [j])
      simpa using hle
  refine hperm.eq_of_pairwise (fun i j _ _ hij hji => ?_) hledger.sorted (hsorted order [] rfl)
  obtain ⟨ti, hti, -, hai⟩ := h.accounted hv i
  obtain ⟨tj, htj, -, haj⟩ := h.accounted hv j
  obtain ⟨-, ⟨l, hl, hσl, -⟩, -⟩ := h.times hti
  obtain ⟨-, ⟨l', hl', hσl', -⟩, -⟩ := h.times htj
  have h₁ := hij _ _ hai.completion haj.completion
  have h₂ := hji _ _ haj.completion hai.completion
  obtain rfl : l = l' := by omega
  exact Option.some.inj (hσl.symm.trans hσl')

/-- **The closed form of `fcfs`.** -/
theorem fcfs_closed_form (raw scenario : ScenarioOwned) (hv : normalizeAndValidate raw = .ok scenario)
    (hc : scenario.coreCount = 1) (hw : scenario.Waitless) (order : List (Fin scenario.tasks.length))
    (ho : Sorted scenario order) :
    (horizon scenario < 2 ^ 32 - 1 → ∃ r, simulate scenario .fcfs = .ok r) ∧
      ∀ r, simulate scenario .fcfs = .ok r → ServedInOrder scenario r order := by
  obtain ⟨hvalid, hn⟩ := normalizeAndValidate_ok hv
  refine ⟨simulate_returns .fcfs hvalid, fun r hr => ?_⟩
  obtain ⟨k, s, h⟩ := (singleSimulation_runs .fcfs hvalid hc.le).returns hvalid hr
  have hsplit : ∀ i, ∃ done rest, order = done ++ i :: rest := fun i =>
    List.append_of_mem (ho.perm.mem_iff.mpr (List.mem_finRange i))
  have hcomp : ∀ (i : Fin scenario.tasks.length) (t : TaskMetrics), r.tasks[i.val]? = some t →
      t.completionTime = t.firstDispatchTick + (jobs scenario).burst i := by
    intro i t ht
    obtain ⟨done, rest, hs⟩ := hsplit i
    obtain ⟨hf, hc⟩ := h.serial hw hn ho hs ht
    rw [hf, hc]
  refine ⟨h.finalized.length, ?_, hcomp, ?_, ?_⟩
  · rw [h.finalized.order, h.completionOrder hw hn ho]
  · intro i t hi ht
    obtain ⟨rest, hrest⟩ := List.head?_eq_some_iff.mp hi
    have hs : order = [] ++ i :: rest := hrest
    obtain ⟨hf, -⟩ := h.serial hw hn ho hs ht
    have hstart : (jobs scenario).start [] i = (jobs scenario).arrival i := by simp [Jobs.start, Jobs.finish]
    obtain ⟨hwait, hresp⟩ := h.waiting hw ht (hcomp i t ht)
    rw [hstart] at hf
    exact ⟨hf, by omega, by omega⟩
  · rintro i j a b ⟨done, rest, hs⟩ ha hb
    have hsi : order = done ++ i :: (j :: rest) := by simpa using hs.symm
    have hsj : order = (done ++ [i]) ++ j :: rest := by simpa using hs.symm
    obtain ⟨-, hci⟩ := h.serial hw hn ho hsi ha
    obtain ⟨hfj, -⟩ := h.serial hw hn ho hsj hb
    have hstart : (jobs scenario).start (done ++ [i]) j = max ((jobs scenario).arrival j) a.completionTime := by
      rw [Jobs.start, Jobs.finish_append, hci]
    obtain ⟨hwait, hresp⟩ := h.waiting hw hb (hcomp j b hb)
    rw [hstart] at hfj
    refine ⟨hfj, ?_, ?_⟩
    · show b.waitingTime = a.completionTime - (jobs scenario).arrival j
      omega
    · show b.responseTime = a.completionTime - (jobs scenario).arrival j
      omega

/-- One core; the second task arrives first, the third after a gap. -/
def lateTrio : ScenarioOwned where
  name := [108]
  tasks := [{ id := [97], arrivalTick := 1, burstTicks := 2 },
    { id := [98], arrivalTick := 0, burstTicks := 3, inputOrder := 1 },
    { id := [99], arrivalTick := 9, burstTicks := 1, inputOrder := 2 }]

/-- The tasks of `lateTrio` by arrival. -/
def lateTrioOrder : List (Fin lateTrio.tasks.length) := [(1 : Fin 3), (0 : Fin 3), (2 : Fin 3)]

theorem fcfs_closed_form_lateTrio :
    ∃ r, simulate lateTrio .fcfs = .ok r ∧ ServedInOrder lateTrio r lateTrioOrder := by
  obtain ⟨hret, hform⟩ := fcfs_closed_form lateTrio lateTrio rfl rfl (by unfold ScenarioOwned.Waitless; decide)
    lateTrioOrder ⟨by decide, by decide⟩
  obtain ⟨r, hr⟩ := hret (by decide)
  exact ⟨r, hr, hform r hr⟩

end Results

end Exasphere.Sim

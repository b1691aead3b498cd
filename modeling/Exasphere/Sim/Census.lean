import Exasphere.Lib.Counting
import Exasphere.Sim.Entries

/-!
# The census of a trace

How many entries of each kind a trace has, in total and core by core. The words of the trace grammar say how the kinds
of the entries of one task balance on each core; every entry that is not `idle` belongs to one task, so the balances add
up to those of the whole trace (`Census`).
-/

namespace Exasphere.Sim

open Exasphere.Lib

variable {scenario : ScenarioOwned} {policy : PolicyKind}

/-! ## Words -/

section Words

/-- An event of a kind on a core. -/
def Event.onCore (kind : TraceEventKind) (c : CoreId) (e : Event) : Bool := decide (e.kind = kind ∧ e.core = some c)

def Event.ofKind (kind : TraceEventKind) (e : Event) : Bool := decide (e.kind = kind)

theorem countP_segment {p : Event → Bool} {c : CoreId} (hp : ∀ τ, p ⟨.tick, τ, some c⟩ = false) (t k : Nat) :
    (segment c t k).countP p = if p ⟨.dispatch, t, some c⟩ then 1 else 0 := by
  have hticks : ((List.range' t k).map (fun τ => (⟨.tick, τ, some c⟩ : Event))).countP p = 0 := by
    rw [List.countP_eq_zero]
    intro e he
    obtain ⟨τ, -, rfl⟩ := List.mem_map.mp he
    simp [hp τ]
  rw [segment, List.countP_cons, hticks, Nat.zero_add]

theorem countP_segment_onCore {kind : TraceEventKind} (hk : kind ≠ .tick) (c d : CoreId) (t k : Nat) :
    (segment d t k).countP (Event.onCore kind c) = if kind = .dispatch ∧ d = c then 1 else 0 := by
  rw [countP_segment (fun τ => by simp [Event.onCore, hk.symm])]
  simp only [Event.onCore, Option.some.injEq, decide_eq_true_eq, @eq_comm _ .dispatch kind]

theorem countP_segment_ofKind {kind : TraceEventKind} (hk : kind ≠ .tick) (d : CoreId) (t k : Nat) :
    (segment d t k).countP (Event.ofKind kind) = if kind = .dispatch then 1 else 0 := by
  rw [countP_segment (fun τ => by simp [Event.ofKind, hk.symm])]
  simp [Event.ofKind, eq_comm]

variable {a e : Nat} {ws : List Nat} {w : List Event}

/-- Every closed segment ends with a preemption or a wait, on its core. -/
theorem Closed.balance (h : Closed a ws e w) (c : CoreId) :
    w.countP (Event.onCore .dispatch c) = w.countP (Event.onCore .preempt c) + w.countP (Event.onCore .block c) := by
  induction h with
  | nil => rfl
  | preempt d t k h ht hk ih =>
    simp only [List.countP_append, ih, countP_segment_onCore, ne_eq, reduceCtorEq, not_false_eq_true]
    by_cases hd : d = c
    · simp [Event.onCore, hd]
      omega
    · simp [Event.onCore, hd]
  | block d d' t k l h ht hk ih =>
    simp only [List.countP_append, ih, countP_segment_onCore, ne_eq, reduceCtorEq, not_false_eq_true]
    by_cases hd : d = c
    · simp [Event.onCore, hd]
      omega
    · simp [Event.onCore, hd]

/-- A closed word has one block and one wakeup for each wait, and neither arrival nor completion. -/
theorem Closed.kinds (h : Closed a ws e w) : w.countP (Event.ofKind .block) = ws.length ∧
    w.countP (Event.ofKind .wakeup) = ws.length ∧ w.countP (Event.ofKind .arrival) = 0 ∧
    w.countP (Event.ofKind .complete) = 0 := by
  induction h with
  | nil => exact ⟨rfl, rfl, rfl, rfl⟩
  | preempt d t k h ht hk ih =>
    obtain ⟨h₁, h₂, h₃, h₄⟩ := ih
    simp [h₁, h₂, h₃, h₄, countP_segment_ofKind, Event.ofKind]
  | block d d' t k l h ht hk ih =>
    obtain ⟨h₁, h₂, h₃, h₄⟩ := ih
    simp [h₁, h₂, h₃, h₄, countP_segment_ofKind, Event.ofKind]

/-- Every dispatch ends with a preemption, a wait or the completion, on its core. -/
theorem TraceWord.balance {ev : List Event} (h : TraceWord a ws ev) (c : CoreId) :
    ev.countP (Event.onCore .dispatch c) = ev.countP (Event.onCore .preempt c) + ev.countP (Event.onCore .block c) +
      ev.countP (Event.onCore .complete c) := by
  obtain ⟨c₀, e, w, d, t, k, hw, -, -, rfl⟩ := h
  have hcomplete : w.countP (Event.onCore .complete c) = 0 := by
    have hzero := hw.kinds.2.2.2
    rw [List.countP_eq_zero] at hzero ⊢
    intro e he
    have := hzero e he
    simp only [Event.ofKind, decide_eq_true_eq] at this
    simp [Event.onCore, this]
  simp only [List.countP_cons, List.countP_append, hw.balance c, hcomplete, countP_segment_onCore, ne_eq, reduceCtorEq,
    not_false_eq_true]
  by_cases hd : d = c
  · simp [Event.onCore, hd]
  · simp [Event.onCore, hd]

theorem TraceWord.kinds {ev : List Event} (h : TraceWord a ws ev) : ev.countP (Event.ofKind .block) = ws.length ∧
    ev.countP (Event.ofKind .wakeup) = ws.length ∧ ev.countP (Event.ofKind .arrival) = 1 ∧
    ev.countP (Event.ofKind .complete) = 1 := by
  obtain ⟨c₀, e, w, d, t, k, hw, -, -, rfl⟩ := h
  obtain ⟨h₁, h₂, h₃, h₄⟩ := hw.kinds
  simp [h₁, h₂, h₃, h₄, countP_segment_ofKind, Event.ofKind]

end Words

/-! ## Traces -/

section Traces

/-- The entries of a kind, and those of them on a core. -/
def countKind (kind : TraceEventKind) (trace : List TraceEntry) : Nat := trace.countP (fun e => decide (e.kind = kind))

def countOn (c : CoreId) (kind : TraceEventKind) (trace : List TraceEntry) : Nat :=
  trace.countP (fun e => decide (e.kind = kind ∧ e.coreId = some c))

/-- The total number of waits of the tasks. -/
def totalWaits (scenario : ScenarioOwned) : Nat := (scenario.tasks.map (fun task => task.waits.length)).sum

/-- The census of a finished trace. -/
structure Census (scenario : ScenarioOwned) (finalTick : Nat) (trace : List TraceEntry) : Prop where
  arrivals : countKind .arrival trace = scenario.tasks.length
  completions : countKind .complete trace = scenario.tasks.length
  ticks : countKind .tick trace = totalBurst scenario
  blocks : countKind .block trace = totalWaits scenario
  wakeups : countKind .wakeup trace = totalWaits scenario
  dispatches : ∀ c, countOn c .dispatch trace = countOn c .preempt trace + countOn c .block trace +
    countOn c .complete trace
  cells : ∀ c < scenario.coreCount, countOn c .tick trace + countOn c .idle trace = finalTick
  cores : ∀ kind, countKind kind trace = ∑ c ∈ Finset.range scenario.coreCount, countOn c kind trace

/-- A property of events that are not `idle`, counted task by task. -/
theorem countP_eq_sum_events {n m : Nat} {ids : Fin n → Bytes} {trace : List TraceEntry} (hids : Function.Injective ids)
    (h : ∀ e ∈ trace, Named ids m e) {p : Event → Bool} (hp : ∀ e, p e = true → e.kind ≠ .idle) :
    trace.countP (fun e => p e.event) = ∑ i, (events (ids i) trace).countP p := by
  rw [countP_eq_sum_index trace TraceEntry.taskId (fun i => some (ids i)) (fun i j hij => hids (Option.some.inj hij))
    (fun e he hpe => (h e he).task (hp _ hpe))]
  refine Finset.sum_congr rfl (fun i _ => ?_)
  unfold events
  rw [List.countP_map, List.countP_filter]
  rfl

theorem countOn_eq (c : CoreId) (kind : TraceEventKind) (trace : List TraceEntry) :
    countOn c kind trace = trace.countP (fun e => Event.onCore kind c e.event) := rfl

theorem countKind_eq (kind : TraceEventKind) (trace : List TraceEntry) :
    countKind kind trace = trace.countP (fun e => Event.ofKind kind e.event) := rfl

/-- The entries of a kind, core by core. -/
theorem countKind_eq_sum {n m : Nat} {ids : Fin n → Bytes} {trace : List TraceEntry}
    (h : ∀ e ∈ trace, Named ids m e) (kind : TraceEventKind) :
    countKind kind trace = ∑ c ∈ Finset.range m, countOn c kind trace := by
  have hkeys := countP_eq_sum_key (p := fun e => decide (e.kind = kind)) trace TraceEntry.coreId
    ((Finset.range m).image some) (fun e he _ => by
      obtain ⟨c, hc, hce⟩ := (h e he).core
      exact Finset.mem_image.mpr ⟨c, Finset.mem_range.mpr hc, hce.symm⟩)
  rw [Finset.sum_image (fun c _ d _ hcd => Option.some.inj hcd)] at hkeys
  rw [countKind, hkeys]
  refine Finset.sum_congr rfl (fun c _ => List.countP_congr (fun e _ => ?_))
  simp

/-- A core has one `tick` or `idle` entry for each tick. -/
theorem countOn_cells {c : CoreId} {finalTick : Nat} {trace : List TraceEntry}
    (h : ∀ τ, Sim.cells c τ trace = if τ < finalTick then 1 else 0) :
    countOn c .tick trace + countOn c .idle trace = finalTick := by
  have hor := countP_or (p := fun e => decide (e.kind = .tick ∧ e.coreId = some c))
    (q := fun e => decide (e.kind = .idle ∧ e.coreId = some c)) trace (by simp; grind)
  have hmem : ∀ e ∈ trace, (decide (e.kind = .tick ∧ e.coreId = some c) ||
      decide (e.kind = .idle ∧ e.coreId = some c)) = true → e.tick ∈ Finset.range finalTick := by
    intro e he hp
    by_contra hτ
    have hzero := h e.tick
    rw [if_neg (by simpa using hτ)] at hzero
    simp only [Sim.cells, List.countP_eq_zero, decide_eq_true_eq] at hzero
    refine hzero e he ?_
    simp only [Bool.or_eq_true, decide_eq_true_eq] at hp
    tauto
  rw [countOn, countOn, ← hor, countP_eq_sum_key trace TraceEntry.tick (Finset.range finalTick) hmem]
  have hone : ∀ τ ∈ Finset.range finalTick, trace.countP (fun e => (decide (e.kind = .tick ∧ e.coreId = some c) ||
      decide (e.kind = .idle ∧ e.coreId = some c)) && decide (e.tick = τ)) = 1 := by
    intro τ hτ
    have hcell := h τ
    rw [if_pos (Finset.mem_range.mp hτ)] at hcell
    rw [← hcell, Sim.cells]
    refine List.countP_congr (fun e _ => ?_)
    simp only [Bool.and_eq_true, Bool.or_eq_true, decide_eq_true_eq]
    tauto
  rw [Finset.sum_congr rfl hone]
  simp

variable {m : Nat} {r : SimulationResult} {S : Simulation scenario policy m} {k : Nat}
  {s : Engine scenario.tasks.length m}

theorem Returns.census (h : Returns scenario policy r S k s) (hv : Valid scenario) :
    Census scenario r.finalTick r.trace := by
  have hnamed := simulate_named hv h.result
  have hgram := h.grammatical hv
  have hacc := h.accounts hv
  have hword : ∀ i : Fin scenario.tasks.length, TraceWord (scenario.tasks[i]).arrivalTick (scenario.tasks[i]).waits
      (events (taskIds scenario i) r.trace) := fun i => hgram.word _ (List.getElem_mem i.isLt)
  -- a count of the trace is the sum of the counts of the words
  have hcount : ∀ p : Event → Bool, (∀ e, p e = true → e.kind ≠ .idle) →
      r.trace.countP (fun e => p e.event) = ∑ i, (events (taskIds scenario i) r.trace).countP p :=
    fun p hp => countP_eq_sum_events (taskIds_injective hv) hnamed hp
  have hkind : ∀ kind, kind ≠ .idle →
      countKind kind r.trace = ∑ i, (events (taskIds scenario i) r.trace).countP (Event.ofKind kind) := by
    intro kind hk
    rw [countKind_eq, hcount _ (fun e he => by simp only [Event.ofKind, decide_eq_true_eq] at he; rw [he]; exact hk)]
  have hon : ∀ c kind, kind ≠ .idle →
      countOn c kind r.trace = ∑ i, (events (taskIds scenario i) r.trace).countP (Event.onCore kind c) := by
    intro c kind hk
    rw [countOn_eq, hcount _ (fun e he => by simp only [Event.onCore, decide_eq_true_eq] at he; rw [he.1]; exact hk)]
  have hwaits : ∑ i : Fin scenario.tasks.length, (scenario.tasks[i]).waits.length = totalWaits scenario :=
    Fin.sum_univ_fun_getElem scenario.tasks (fun task => task.waits.length)
  refine ⟨?_, ?_, ?_, ?_, ?_, fun c => ?_, fun c hc => ?_, countKind_eq_sum hnamed⟩
  · rw [hkind .arrival (by decide), Finset.sum_congr rfl (fun i _ => (hword i).kinds.2.2.1)]
    simp
  · rw [hkind .complete (by decide), Finset.sum_congr rfl (fun i _ => (hword i).kinds.2.2.2)]
    simp
  · rw [hkind .tick (by decide)]
    have htick : ∀ i : Fin scenario.tasks.length,
        (events (taskIds scenario i) r.trace).countP (Event.ofKind .tick) = (scenario.tasks[i]).burstTicks := by
      intro i
      have hlt : i.val < r.tasks.length := by rw [hacc.length]; exact i.isLt
      have ht := hacc.task i _ (List.getElem?_eq_getElem hlt)
      rw [← ht.burst, ← ht.ticks]
      exact countP_events _ _
    rw [Finset.sum_congr rfl (fun i _ => htick i)]
    exact Fin.sum_univ_fun_getElem scenario.tasks TaskSpec.burstTicks
  · rw [hkind .block (by decide), Finset.sum_congr rfl (fun i _ => (hword i).kinds.1), hwaits]
  · rw [hkind .wakeup (by decide), Finset.sum_congr rfl (fun i _ => (hword i).kinds.2.1), hwaits]
  · rw [hon c .dispatch (by decide), hon c .preempt (by decide), hon c .block (by decide), hon c .complete (by decide),
      Finset.sum_congr rfl (fun i _ => (hword i).balance c), Finset.sum_add_distrib, Finset.sum_add_distrib]
  · refine countOn_cells (fun τ => ?_)
    have hc' : c < m := by rw [h.cores]; exact hc
    rw [h.finalized.trace, (start_init hv m).cells_run S.lawful S.init h.run ⟨c, hc'⟩ τ, h.finalTick hv]

end Traces

end Exasphere.Sim

import Exasphere.Sim.Census

/-!
# The report and its analysis (`cli/report.zig`, `analysis/derive.zig`)

`SimulationReport.report` is the report of a result; the analysis reads it back and `derive` counts its trace once over
all kinds and once for each core, in `u32` counters. The counters are those of the census (`derive_eq_ok`), so the
tables of the analysis balance (`Balanced`): every core is busy or idle in every tick, every dispatch ends, every task
arrives and completes once. The text of the report and of the tables is left out.
-/

namespace Exasphere.Sim

open Exasphere.Lib

variable {scenario : ScenarioOwned} {policy : PolicyKind}

/-! ## The report -/

/-- The fields of a report the analysis counts. -/
structure Report where
  coreCount : Nat
  completionOrder : List Bytes
  trace : List TraceEntry
  tasks : List TaskMetrics
  deriving DecidableEq, Repr

/-- `result.tasks[task_index].id`. -/
def taskIdAt (tasks : List TaskMetrics) (index : Nat) : Except SimError Bytes :=
  match tasks[index]? with
  | some task => .ok task.id
  | none => .error .indexOutOfBounds

def SimulationReport.report (result : SimulationResult) : Except SimError Report := do
  let completionOrder ← result.completionOrder.mapM (taskIdAt result.tasks)
  .ok { coreCount := result.coreCount, completionOrder, trace := result.trace, tasks := result.tasks }

/-! ## The analysis -/

structure EventCount where
  kind : TraceEventKind
  count : Nat
  deriving DecidableEq, Repr

structure CoreStats where
  coreId : CoreId
  arrivals : Nat := 0
  dispatches : Nat := 0
  busyTicks : Nat := 0
  preemptions : Nat := 0
  blocks : Nat := 0
  wakeups : Nat := 0
  completions : Nat := 0
  idleEvents : Nat := 0
  deriving DecidableEq, Repr

structure Derived where
  coreStats : List CoreStats
  tasksByInputOrder : List TaskMetrics
  eventCounts : List EventCount
  maxWaitingTime : Nat
  maxTurnaroundTime : Nat
  deriving DecidableEq, Repr

def publicTraceEventKinds : List TraceEventKind :=
  [.arrival, .dispatch, .tick, .preempt, .block, .wakeup, .complete, .idle]

/-- The first counter of the kind. -/
def incrementEventCount : List EventCount → TraceEventKind → Except SimError (List EventCount)
  | [], _ => .ok []
  | entry :: rest, kind =>
    if entry.kind = kind then do
      let count ← addU32 entry.count 1
      .ok ({ entry with count } :: rest)
    else do
      let rest ← incrementEventCount rest kind
      .ok (entry :: rest)

def updateCoreStats (stats : CoreStats) : TraceEventKind → Except SimError CoreStats
  | .arrival => do
    let arrivals ← addU32 stats.arrivals 1
    .ok { stats with arrivals }
  | .dispatch => do
    let dispatches ← addU32 stats.dispatches 1
    .ok { stats with dispatches }
  | .tick => do
    let busyTicks ← addU32 stats.busyTicks 1
    .ok { stats with busyTicks }
  | .preempt => do
    let preemptions ← addU32 stats.preemptions 1
    .ok { stats with preemptions }
  | .block => do
    let blocks ← addU32 stats.blocks 1
    .ok { stats with blocks }
  | .wakeup => do
    let wakeups ← addU32 stats.wakeups 1
    .ok { stats with wakeups }
  | .complete => do
    let completions ← addU32 stats.completions 1
    .ok { stats with completions }
  | .idle => do
    let idleEvents ← addU32 stats.idleEvents 1
    .ok { stats with idleEvents }

/-- The counters of the core of an entry, when the report has that core. -/
def deriveCore (coreStats : List CoreStats) (entry : TraceEntry) : Except SimError (List CoreStats) :=
  match entry.coreId with
  | none => .ok coreStats
  | some coreId =>
    match coreStats[coreId]? with
    | none => .ok coreStats
    | some stats => do
      let stats ← updateCoreStats stats entry.kind
      .ok (coreStats.set coreId stats)

/-- One entry of the trace loop of `derive`. -/
def deriveEntry (x : List CoreStats × List EventCount) (entry : TraceEntry) :
    Except SimError (List CoreStats × List EventCount) := do
  let eventCounts ← incrementEventCount x.2 entry.kind
  let coreStats ← deriveCore x.1 entry
  .ok (coreStats, eventCounts)

def lessThanTaskByInputOrder (lhs rhs : TaskMetrics) : Bool :=
  if lhs.inputOrder ≠ rhs.inputOrder then decide (lhs.inputOrder < rhs.inputOrder) else decide (lhs.id < rhs.id)

/-- `std.mem.sort` is stable. -/
def sortByInputOrder (tasks : List TaskMetrics) : List TaskMetrics :=
  tasks.insertionSort (fun lhs rhs => lessThanTaskByInputOrder rhs lhs = false)

def initCoreStats (coreCount : Nat) : List CoreStats := (List.range coreCount).map (fun index => { coreId := index })

def initEventCounts : List EventCount := publicTraceEventKinds.map (fun kind => ⟨kind, 0⟩)

def derive (report : Report) : Except SimError Derived := do
  let (coreStats, eventCounts) ← report.trace.foldlM deriveEntry (initCoreStats report.coreCount, initEventCounts)
  .ok { coreStats
        tasksByInputOrder := sortByInputOrder report.tasks
        eventCounts
        maxWaitingTime := report.tasks.foldl (fun v task => max v task.waitingTime) 0
        maxTurnaroundTime := report.tasks.foldl (fun v task => max v task.turnaroundTime) 0 }

/-! ## The counters -/

section Counters

/-- The counter of a kind. -/
def CoreStats.count (stats : CoreStats) : TraceEventKind → Nat
  | .arrival => stats.arrivals
  | .dispatch => stats.dispatches
  | .tick => stats.busyTicks
  | .preempt => stats.preemptions
  | .block => stats.blocks
  | .wakeup => stats.wakeups
  | .complete => stats.completions
  | .idle => stats.idleEvents

def CoreStats.ofCounts (c : CoreId) (f : TraceEventKind → Nat) : CoreStats :=
  ⟨c, f .arrival, f .dispatch, f .tick, f .preempt, f .block, f .wakeup, f .complete, f .idle⟩

@[simp] theorem CoreStats.count_ofCounts (c : CoreId) (f : TraceEventKind → Nat) (kind : TraceEventKind) :
    (CoreStats.ofCounts c f).count kind = f kind := by
  cases kind <;> rfl

variable {f : TraceEventKind → Nat} {kind : TraceEventKind}

/-- The counters after one more entry of a kind. -/
def bump (f : TraceEventKind → Nat) (kind : TraceEventKind) : TraceEventKind → Nat :=
  Function.update f kind (f kind + 1)

theorem updateCoreStats_eq_ok {c : CoreId} {stats : CoreStats} :
    updateCoreStats (.ofCounts c f) kind = .ok stats ↔ f kind + 1 < 2 ^ 32 ∧ stats = .ofCounts c (bump f kind) := by
  cases kind <;>
    simp [updateCoreStats, CoreStats.ofCounts, bump, addU32, eq_comm (b := stats)]

/-- The counter of the kind is the only one that moves. -/
theorem incrementEventCount_eq_ok {kinds : List TraceEventKind} (hnd : kinds.Nodup) (hk : kind ∈ kinds)
    {counts : List EventCount} : incrementEventCount (kinds.map (fun k => ⟨k, f k⟩)) kind = .ok counts ↔
      f kind + 1 < 2 ^ 32 ∧ counts = kinds.map (fun k => ⟨k, bump f kind k⟩) := by
  induction kinds generalizing counts with
  | nil => cases hk
  | cons k ks ih =>
    obtain ⟨hkn, hnd⟩ := List.nodup_cons.mp hnd
    by_cases h : k = kind
    · subst h
      have hrest : ks.map (fun k' => (⟨k', bump f k k'⟩ : EventCount)) = ks.map (fun k' => ⟨k', f k'⟩) := by
        refine List.map_congr_left (fun k' hk' => ?_)
        have hne : k' ≠ k := fun e => hkn (e ▸ hk')
        simp [bump, Function.update_of_ne hne]
      simp only [List.map_cons, incrementEventCount, if_true, bind_eq_ok, addChecked_eq_ok, Except.ok.injEq, hrest]
      simp [bump, eq_comm (b := counts)]
    · have hk' : kind ∈ ks := by simpa [Ne.symm h] using hk
      simp only [List.map_cons, incrementEventCount, h, if_false, bind_eq_ok, ih hnd hk', Except.ok.injEq]
      simp [bump, Function.update_of_ne h, eq_comm (b := counts)]

/-- The tables of a list of entries, in any numbers. -/
def tally (coreCount : Nat) (trace : List TraceEntry) : List CoreStats × List EventCount :=
  ((List.range coreCount).map (fun c => .ofCounts c (fun kind => countOn c kind trace)),
    publicTraceEventKinds.map (fun kind => ⟨kind, countKind kind trace⟩))

variable {trace : List TraceEntry} {e : TraceEntry} {coreCount : Nat}

theorem countKind_concat (kind : TraceEventKind) :
    countKind kind (trace ++ [e]) = bump (fun k => countKind k trace) e.kind kind := by
  by_cases h : kind = e.kind
  · subst h; simp [countKind, bump]
  · simp [countKind, bump, Function.update_of_ne h, Ne.symm h]

theorem countOn_concat (c : CoreId) (kind : TraceEventKind) : countOn c kind (trace ++ [e]) =
    if e.coreId = some c then bump (fun k => countOn c k trace) e.kind kind else countOn c kind trace := by
  by_cases hc : e.coreId = some c
  · by_cases h : kind = e.kind
    · subst h; simp [countOn, bump, hc]
    · simp [countOn, bump, hc, Function.update_of_ne h, Ne.symm h]
  · simp [countOn, hc]

theorem countOn_le_countKind (c : CoreId) (kind : TraceEventKind) (trace : List TraceEntry) :
    countOn c kind trace ≤ countKind kind trace := by
  refine List.countP_mono_left (fun e _ he => ?_)
  simp only [decide_eq_true_eq] at he ⊢
  exact he.1

theorem getElem?_tally (c : CoreId) : (tally coreCount trace).1[c]? =
    if c < coreCount then some (.ofCounts c (fun kind => countOn c kind trace)) else none := by
  by_cases hc : c < coreCount
  · simp [tally, hc]
  · simp [tally, hc]

/-- An entry on no core of the machine leaves the tables of the cores. -/
theorem tally_concat_other (h : ∀ c < coreCount, e.coreId ≠ some c) :
    (tally coreCount (trace ++ [e])).1 = (tally coreCount trace).1 := by
  refine List.map_congr_left (fun c hc => ?_)
  simp only [countOn_concat, h c (List.mem_range.mp hc), if_false]

theorem tally_concat_core {c : CoreId} (he : e.coreId = some c) : (tally coreCount (trace ++ [e])).1 =
    (tally coreCount trace).1.set c (.ofCounts c (bump (fun kind => countOn c kind trace) e.kind)) := by
  refine List.ext_getElem (by simp [tally]) (fun d hd hd' => ?_)
  simp only [tally, List.getElem_map, List.getElem_range, List.getElem_set, countOn_concat, he, Option.some.injEq]
  by_cases h : c = d
  · subst h
    simp
  · simp [h]

theorem deriveCore_eq_ok (hlt : countKind e.kind trace + 1 < 2 ^ 32) {stats : List CoreStats} :
    deriveCore (tally coreCount trace).1 e = .ok stats ↔ stats = (tally coreCount (trace ++ [e])).1 := by
  unfold deriveCore
  cases he : e.coreId with
  | none =>
    rw [tally_concat_other (fun c _ => by simp [he])]
    simp [eq_comm]
  | some c =>
    simp only [getElem?_tally]
    by_cases hc : c < coreCount
    · have hle := countOn_le_countKind c e.kind trace
      have hon : countOn c e.kind trace + 1 < 2 ^ 32 := by omega
      simp only [hc, if_true, bind_eq_ok, updateCoreStats_eq_ok, hon, true_and, exists_eq_left, tally_concat_core he]
      simp [eq_comm]
    · have hne : ∀ d < coreCount, e.coreId ≠ some d := by
        intro d hd hde
        obtain rfl : c = d := Option.some.inj (he.symm.trans hde)
        exact hc hd
      rw [if_neg hc, tally_concat_other hne]
      simp [eq_comm]

/-- One entry moves the counter of its kind, and the one of its kind on its core. -/
theorem deriveEntry_eq_ok {x : List CoreStats × List EventCount} : deriveEntry (tally coreCount trace) e = .ok x ↔
    countKind e.kind trace + 1 < 2 ^ 32 ∧ x = tally coreCount (trace ++ [e]) := by
  have hnd : publicTraceEventKinds.Nodup := by decide
  have hmem : e.kind ∈ publicTraceEventKinds := by cases e.kind <;> decide
  have hcounts : ∀ counts, incrementEventCount (tally coreCount trace).2 e.kind = .ok counts ↔
      countKind e.kind trace + 1 < 2 ^ 32 ∧ counts = (tally coreCount (trace ++ [e])).2 := by
    intro counts
    simp only [tally, countKind_concat, incrementEventCount_eq_ok hnd hmem]
  simp only [deriveEntry, bind_eq_ok, hcounts]
  constructor
  · rintro ⟨counts, ⟨hlt, rfl⟩, stats, hstats, h⟩
    rw [(deriveCore_eq_ok hlt).mp hstats] at h
    exact ⟨hlt, (Except.ok.inj h).symm⟩
  · rintro ⟨hlt, rfl⟩
    exact ⟨_, ⟨hlt, rfl⟩, _, (deriveCore_eq_ok hlt).mpr rfl, rfl⟩

/-- The trace loop returns the tables of the trace, unless a counter overflows. -/
theorem deriveLoop_eq_ok {x : List CoreStats × List EventCount} :
    trace.foldlM deriveEntry (initCoreStats coreCount, initEventCounts) = .ok x ↔
      (∀ kind, countKind kind trace < 2 ^ 32) ∧ x = tally coreCount trace := by
  induction trace using List.reverseRecOn generalizing x with
  | nil =>
    have h0 : (initCoreStats coreCount, initEventCounts) = tally coreCount [] := rfl
    simp [countKind, h0, eq_comm (b := x), pure, Except.pure]
  | append_singleton l e ih =>
    rw [List.foldlM_append, bind_eq_ok]
    have hlast : ∀ y, [e].foldlM deriveEntry y = deriveEntry y e := fun y => by simp
    simp only [hlast, ih]
    constructor
    · rintro ⟨y, ⟨hb, rfl⟩, hx⟩
      obtain ⟨hlt, rfl⟩ := deriveEntry_eq_ok.mp hx
      refine ⟨fun kind => ?_, rfl⟩
      rw [countKind_concat]
      by_cases hk : kind = e.kind
      · subst hk; simpa [bump] using hlt
      · simpa [bump, Function.update_of_ne hk] using hb kind
    · rintro ⟨hb, rfl⟩
      have hle : ∀ kind, countKind kind l ≤ countKind kind (l ++ [e]) := fun kind => by simp [countKind]
      refine ⟨tally coreCount l, ⟨fun kind => lt_of_le_of_lt (hle kind) (hb kind), rfl⟩,
        deriveEntry_eq_ok.mpr ⟨?_, rfl⟩⟩
      have h := hb e.kind
      simpa [countKind] using h

end Counters

/-! ## The order of the tasks -/

section Order

/-- Not after the other task in the order of the table. -/
def inOrder (lhs rhs : TaskMetrics) : Prop := lessThanTaskByInputOrder rhs lhs = false

instance : DecidableRel inOrder := fun lhs rhs => inferInstanceAs (Decidable (lessThanTaskByInputOrder rhs lhs = false))

theorem inOrder_iff {lhs rhs : TaskMetrics} : inOrder lhs rhs ↔
    lhs.inputOrder < rhs.inputOrder ∨ lhs.inputOrder = rhs.inputOrder ∧ lhs.id ≤ rhs.id := by
  rw [← List.not_lt]
  by_cases h : rhs.inputOrder = lhs.inputOrder
  · simp [inOrder, lessThanTaskByInputOrder, h]
  · simp only [inOrder, lessThanTaskByInputOrder, h, ne_eq, not_false_eq_true, if_true, decide_eq_false_iff_not,
      Ne.symm h, false_and, or_false]
    omega

instance : Std.Total inOrder := ⟨fun a b => by
  rw [inOrder_iff, inOrder_iff]
  rcases lt_trichotomy a.inputOrder b.inputOrder with h | h | h
  · exact Or.inl (Or.inl h)
  · exact (List.le_total a.id b.id).imp (fun hid => Or.inr ⟨h, hid⟩) (fun hid => Or.inr ⟨h.symm, hid⟩)
  · exact Or.inr (Or.inl h)⟩

instance : IsTrans TaskMetrics inOrder := ⟨fun a b c => by
  rw [inOrder_iff, inOrder_iff, inOrder_iff]
  rintro (h | ⟨h, hid⟩) (h' | ⟨h', hid'⟩)
  · exact Or.inl (h.trans h')
  · exact Or.inl (h' ▸ h)
  · exact Or.inl (h ▸ h')
  · exact Or.inr ⟨h.trans h', List.le_trans hid hid'⟩⟩

/-- The table lists every task once, by input order. -/
theorem sortByInputOrder_sorted (tasks : List TaskMetrics) : (sortByInputOrder tasks).Perm tasks ∧
    (sortByInputOrder tasks).Pairwise (fun a b => a.inputOrder ≤ b.inputOrder) := by
  refine ⟨List.perm_insertionSort _ _, (List.pairwise_insertionSort inOrder tasks).imp (fun {a b} h => ?_)⟩
  rcases inOrder_iff.mp h with h | ⟨h, -⟩ <;> omega

end Order

/-! ## The analysis of a simulation -/

section Analysis

variable {report : Report} {d : Derived} {r : SimulationResult}

/-- What `derive` returns when no counter overflows. -/
def derived (report : Report) : Derived where
  coreStats := (tally report.coreCount report.trace).1
  tasksByInputOrder := sortByInputOrder report.tasks
  eventCounts := (tally report.coreCount report.trace).2
  maxWaitingTime := maxOf (·.waitingTime) report.tasks
  maxTurnaroundTime := maxOf (·.turnaroundTime) report.tasks

theorem foldl_max_eq (f : TaskMetrics → Nat) (tasks : List TaskMetrics) :
    tasks.foldl (fun v task => max v (f task)) 0 = maxOf f tasks := by
  rw [← List.foldl_map, List.foldl_max, maxOf]
  simp

theorem derive_eq_ok : derive report = .ok d ↔ (∀ kind, countKind kind report.trace < 2 ^ 32) ∧ d = derived report := by
  simp only [derive, bind_eq_ok, deriveLoop_eq_ok, foldl_max_eq]
  constructor
  · rintro ⟨x, ⟨hlt, rfl⟩, h⟩
    exact ⟨hlt, (Except.ok.inj h).symm⟩
  · rintro ⟨hlt, rfl⟩
    exact ⟨_, ⟨hlt, rfl⟩, rfl⟩

/-- The tables of an analysis agree with each other and with the simulation. -/
structure Balanced (scenario : ScenarioOwned) (r : SimulationResult) (d : Derived) : Prop where
  cores : d.coreStats.map CoreStats.coreId = List.range scenario.coreCount
  cells : ∀ stats ∈ d.coreStats, stats.busyTicks + stats.idleEvents = r.finalTick
  segments : ∀ stats ∈ d.coreStats, stats.dispatches = stats.preemptions + stats.blocks + stats.completions
  arrivals : (d.coreStats.map CoreStats.arrivals).sum = scenario.tasks.length
  completions : (d.coreStats.map CoreStats.completions).sum = scenario.tasks.length
  busy : (d.coreStats.map CoreStats.busyTicks).sum = totalBurst scenario
  blocks : (d.coreStats.map CoreStats.blocks).sum = totalWaits scenario
  wakeups : (d.coreStats.map CoreStats.wakeups).sum = totalWaits scenario
  kinds : d.eventCounts.map EventCount.kind = publicTraceEventKinds
  events : ∀ entry ∈ d.eventCounts, entry.count = (d.coreStats.map (fun stats => stats.count entry.kind)).sum
  entries : (d.eventCounts.map EventCount.count).sum = r.trace.length
  tasks : d.tasksByInputOrder.Perm r.tasks
  sorted : d.tasksByInputOrder.Pairwise (fun a b => a.inputOrder ≤ b.inputOrder)
  waiting : d.maxWaitingTime = r.aggregate.maxWaitingTime
  turnaround : (∀ t ∈ r.tasks, t.turnaroundTime ≤ d.maxTurnaroundTime) ∧
    ∃ t ∈ r.tasks, t.turnaroundTime = d.maxTurnaroundTime

/-- Every kind has its counter, so the counters add up to the length of the trace. -/
theorem sum_countKind (trace : List TraceEntry) :
    (publicTraceEventKinds.map (fun kind => countKind kind trace)).sum = trace.length := by
  have hmem : ∀ e ∈ trace, e.kind ∈ publicTraceEventKinds.toFinset := by
    intro e _
    cases e.kind <;> decide
  rw [length_eq_sum_countP trace TraceEntry.kind publicTraceEventKinds.toFinset hmem, List.sum_toFinset _ (by decide)]
  rfl

theorem maxOf_spec (f : TaskMetrics → Nat) {tasks : List TaskMetrics} (h : tasks ≠ []) :
    (∀ t ∈ tasks, f t ≤ maxOf f tasks) ∧ ∃ t ∈ tasks, f t = maxOf f tasks := by
  refine ⟨fun t ht => List.le_max?_getD_of_mem (List.mem_map_of_mem ht), ?_⟩
  obtain ⟨v, hv⟩ := Option.isSome_iff_exists.mp (List.isSome_max?_of_ne_nil (l := tasks.map f) (by simpa using h))
  obtain ⟨t, ht, hft⟩ := List.mem_map.mp (List.max?_mem hv)
  exact ⟨t, ht, by rw [maxOf, hv, hft]; rfl⟩

/-- What a result takes over from its scenario and computes from its tasks. -/
theorem simulate_parts (h : simulate scenario policy = .ok r) :
    computeAggregate r.tasks = .ok r.aggregate ∧ r.coreCount = scenario.coreCount := by
  have hfin : ∀ {n m : Nat} {s : Engine n m}, finalizeResult scenario policy s = .ok r →
      computeAggregate r.tasks = .ok r.aggregate ∧ r.coreCount = scenario.coreCount := by
    intro n m s h
    obtain ⟨tasks, -, h⟩ := bind_eq_ok.mp h
    obtain ⟨aggregate, ha, h⟩ := bind_eq_ok.mp h
    obtain rfl := Except.ok.inj h
    exact ⟨ha, rfl⟩
  unfold simulate at h
  split at h
  · cases h
  · split at h
    · obtain ⟨s, -, h⟩ := bind_eq_ok.mp h
      exact hfin h
    · obtain ⟨s, -, h⟩ := bind_eq_ok.mp h
      exact hfin h

theorem computeAggregate_maxWaitingTime {tasks : List TaskMetrics} {aggregate : AggregateMetrics}
    (h : computeAggregate tasks = .ok aggregate) : aggregate.maxWaitingTime = maxOf (·.waitingTime) tasks := by
  simp only [computeAggregate, bind_eq_ok, Except.ok.injEq] at h
  obtain ⟨_, -, _, -, _, -, _, -, _, -, rfl⟩ := h
  rfl

section Returned

variable {m : Nat} {S : Simulation scenario policy m} {k : Nat} {s : Engine scenario.tasks.length m}

/-- A result lists its tasks in the order of the scenario. -/
theorem Returns.map_id (h : Returns scenario policy r S k s) (hv : Valid scenario) :
    r.tasks.map TaskMetrics.id = scenario.tasks.map TaskSpec.id := by
  refine List.ext_getElem (by simp [h.finalized.length]) (fun i hi hi' => ?_)
  have hi : i < scenario.tasks.length := by simpa using hi'
  obtain ⟨t, ht, -, hacc⟩ := h.accounted hv ⟨i, hi⟩
  have hid : t.id = scenario.tasks[i].id := hacc.id
  simp [← hid, (List.getElem?_eq_some_iff.mp ht).2]

/-- The report of a result can be written, with the tasks in the order of their completion. -/
theorem Returns.report_ok (h : Returns scenario policy r S k s) (hv : Valid scenario) :
    ∃ report, SimulationReport.report r = .ok report ∧
      report.completionOrder.Perm (scenario.tasks.map TaskSpec.id) := by
  have hacc := h.accounts hv
  have hget : ∀ i ∈ r.completionOrder, taskIdAt r.tasks i = .ok (((r.tasks.map TaskMetrics.id)[i]?).getD []) := by
    intro i hi
    have hlt : i < r.tasks.length := by
      rw [hacc.length]
      exact List.mem_range.mp (hacc.order_perm.mem_iff.mp hi)
    simp [taskIdAt, List.getElem?_eq_getElem hlt]
  have hmap : r.completionOrder.mapM (taskIdAt r.tasks) =
      .ok (r.completionOrder.map (fun i => ((r.tasks.map TaskMetrics.id)[i]?).getD [])) := by
    rw [mapM_eq_ok, List.forall₂_map_right_iff]
    exact List.forall₂_same.mpr hget
  refine ⟨_, by rw [SimulationReport.report, hmap]; rfl, (hacc.order_perm.map _).trans (List.Perm.of_eq ?_)⟩
  rw [h.map_id hv]
  refine List.ext_getElem (by simp) (fun i hi hi' => ?_)
  have hi : i < scenario.tasks.length := by simpa using hi'
  simp [hi]

end Returned

theorem derived_balanced (hv : Valid scenario) (h : simulate scenario policy = .ok r)
    (hreport : SimulationReport.report r = .ok report) : Balanced scenario r (derived report) := by
  obtain ⟨m, S, k, s, hs⟩ := simulate_ok hv h
  have hcensus := hs.census hv
  have hacc := hs.accounts hv
  obtain ⟨hagg, hcores⟩ := simulate_parts h
  obtain ⟨completionOrder, -, hreport⟩ := bind_eq_ok.mp hreport
  obtain rfl := Except.ok.inj hreport
  have hne : r.tasks ≠ [] := by
    intro hnil
    have := hacc.length
    rw [hnil] at this
    exact hv.tasks_ne (List.length_eq_zero_iff.mp this.symm)
  -- the sum of a counter over the cores is the count of its kind
  have hsum : ∀ kind, ((tally r.coreCount r.trace).1.map (fun stats => stats.count kind)).sum =
      countKind kind r.trace := by
    intro kind
    rw [hcensus.cores kind, ← List.toFinset_range, List.sum_toFinset _ List.nodup_range, hcores, tally, List.map_map]
    congr 1
    refine List.map_congr_left (fun c _ => ?_)
    simp
  have hmem : ∀ stats ∈ (tally r.coreCount r.trace).1, ∃ c < scenario.coreCount,
      stats = .ofCounts c (fun kind => countOn c kind r.trace) := by
    intro stats hstats
    obtain ⟨c, hc, rfl⟩ := List.mem_map.mp hstats
    exact ⟨c, by rw [← hcores]; exact List.mem_range.mp hc, rfl⟩
  obtain ⟨hperm, hsorted⟩ := sortByInputOrder_sorted r.tasks
  refine ⟨?_, fun stats hst => ?_, fun stats hst => ?_, (hsum .arrival).trans hcensus.arrivals,
    (hsum .complete).trans hcensus.completions, (hsum .tick).trans hcensus.ticks, (hsum .block).trans hcensus.blocks,
    (hsum .wakeup).trans hcensus.wakeups, ?_, fun entry he => ?_, ?_, hperm, hsorted,
    (computeAggregate_maxWaitingTime hagg).symm, maxOf_spec _ hne⟩
  · rw [← hcores]
    simp [derived, tally, CoreStats.ofCounts, Function.comp_def]
  · obtain ⟨c, hc, rfl⟩ := hmem stats hst
    exact hcensus.cells c hc
  · obtain ⟨c, -, rfl⟩ := hmem stats hst
    exact hcensus.dispatches c
  · simp [derived, tally, Function.comp_def]
  · obtain ⟨kind, -, rfl⟩ := List.mem_map.mp he
    exact (hsum kind).symm
  · rw [← sum_countKind r.trace]
    simp [derived, tally, Function.comp_def]

/-- **The analysis balances.** A simulation that fits a `u32` returns; its report can be written, with the tasks in the
order of completion. The analysis of the report returns exactly when no kind has `2 ^ 32` entries, and its tables then
balance. -/
theorem derive_simulate (scenario : ScenarioOwned) (policy : PolicyKind) (hv : scenario.validate = .ok ()) :
    (horizon scenario < 2 ^ 32 - 1 → ∃ r, simulate scenario policy = .ok r) ∧
      ∀ r, simulate scenario policy = .ok r → ∃ report, SimulationReport.report r = .ok report ∧
        report.completionOrder.Perm (scenario.tasks.map TaskSpec.id) ∧
        ((∃ d, derive report = .ok d) ↔ ∀ kind, countKind kind r.trace < 2 ^ 32) ∧
        ∀ d, derive report = .ok d → Balanced scenario r d := by
  have hv := validate_ok hv
  refine ⟨simulate_returns policy hv, fun r hr => ?_⟩
  obtain ⟨m, S, k, s, hs⟩ := simulate_ok hv hr
  obtain ⟨report, hreport, hperm⟩ := hs.report_ok hv
  have htrace : report.trace = r.trace := by
    obtain ⟨_, -, h⟩ := bind_eq_ok.mp hreport
    rw [← Except.ok.inj h]
  refine ⟨report, hreport, hperm, ?_, fun d hd => ?_⟩
  · simp only [derive_eq_ok, htrace, exists_and_left, exists_eq, and_true]
  · rw [(derive_eq_ok.mp hd).2]
    exact derived_balanced hv hr hreport

theorem derive_simulate_waitingPair :
    (horizon waitingPair < 2 ^ 32 - 1 → ∃ r, simulate waitingPair .cfsLike = .ok r) ∧
      ∀ r, simulate waitingPair .cfsLike = .ok r → ∃ report, SimulationReport.report r = .ok report ∧
        report.completionOrder.Perm (waitingPair.tasks.map TaskSpec.id) ∧
        ((∃ d, derive report = .ok d) ↔ ∀ kind, countKind kind r.trace < 2 ^ 32) ∧
        ∀ d, derive report = .ok d → Balanced waitingPair r d :=
  derive_simulate waitingPair .cfsLike (by decide)

end Analysis

end Exasphere.Sim

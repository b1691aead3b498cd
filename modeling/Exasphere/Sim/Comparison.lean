import Exasphere.Sim.Census

/-!
# Simulator and trace families (`observability/comparison.zig`)

The comparison of a simulation with an observed trace reduces both to three families of events, activation, selection
and retirement, and lists the families in the order of their first events. For a simulation the numbers follow from the
census, and the order is always the same: the word of every task starts with its arrival and its first dispatch. The
time span is the difference of the ticks of the last and the first entry. The manifests and the texts of the comparison
are left out.
-/

namespace Exasphere.Sim

open Exasphere.Lib

variable {scenario : ScenarioOwned} {policy : PolicyKind}

/-! ## Families -/

inductive NormalizedFamily
  | activation
  | selection
  | retirement
  deriving DecidableEq, Repr

def NormalizedFamily.label : NormalizedFamily → Bytes
  | .activation => utf8 "activation"
  | .selection => utf8 "selection"
  | .retirement => utf8 "retirement"

structure NormalizedSummary where
  activationCount : Nat := 0
  selectionCount : Nat := 0
  retirementCount : Nat := 0
  families : List Bytes := []

/-- The variables of the loops over events: the summary and `seen`. -/
structure FamilyLoop extends NormalizedSummary where
  seen : NormalizedFamily → Bool := fun _ => false

def FamilyLoop.count (s : FamilyLoop) : NormalizedFamily → FamilyLoop
  | .activation => { s with activationCount := s.activationCount + 1 }
  | .selection => { s with selectionCount := s.selectionCount + 1 }
  | .retirement => { s with retirementCount := s.retirementCount + 1 }

def appendFamilyOrder (s : FamilyLoop) (family : NormalizedFamily) : FamilyLoop :=
  if s.seen family then s
  else { s with seen := Function.update s.seen family true, families := s.families ++ [family.label] }

/-- The loop of both `summarize` functions. -/
def summarizeFamilies {α : Type*} (familyOf : α → Option NormalizedFamily) (events : List α) : NormalizedSummary :=
  (events.foldl (fun s event =>
    match familyOf event with
    | none => s
    | some family => appendFamilyOrder (s.count family) family) ({} : FamilyLoop)).toNormalizedSummary

def simulatorFamily : TraceEventKind → Option NormalizedFamily
  | .arrival => some .activation
  | .wakeup => some .activation
  | .dispatch => some .selection
  | .complete => some .retirement
  | _ => none

def summarizeSimulatorFamilies (result : SimulationResult) : NormalizedSummary :=
  summarizeFamilies (fun entry => simulatorFamily entry.kind) result.trace

/-- The number of keys of the hash map of core ids. -/
def computeSimulatorCpuCardinality (result : SimulationResult) : Nat :=
  (result.trace.filterMap TraceEntry.coreId).toFinset.card

/-- The difference in `u32`, before it becomes a float. -/
def computeSimulatorTimeSpan (result : SimulationResult) : Except SimError Nat :=
  match result.trace.head?, result.trace.getLast? with
  | some first, some last => subU32 last.tick first.tick
  | _, _ => .ok 0

/-! ## The loop -/

section Loop

variable {α : Type*} {familyOf : α → Option NormalizedFamily} {events : List α}

/-- Some event of the family has been seen. -/
def Seen (familyOf : α → Option NormalizedFamily) (events : List α) (family : NormalizedFamily) : Prop :=
  ∃ event ∈ events, familyOf event = some family

instance (family : NormalizedFamily) : Decidable (Seen familyOf events family) :=
  inferInstanceAs (Decidable (∃ event ∈ events, familyOf event = some family))

/-- In every beginning of the events, a selection comes after an activation and a retirement after a selection. -/
def InStages (familyOf : α → Option NormalizedFamily) (events : List α) : Prop :=
  ∀ before after, events = before ++ after →
    (Seen familyOf before .selection → Seen familyOf before .activation) ∧
      (Seen familyOf before .retirement → Seen familyOf before .selection)

def countFamily (familyOf : α → Option NormalizedFamily) (events : List α) (family : NormalizedFamily) : Nat :=
  events.countP (fun event => decide (familyOf event = some family))

/-- Where the first event of a family stands. -/
def firstEvent (familyOf : α → Option NormalizedFamily) (events : List α) (family : NormalizedFamily) : Nat :=
  events.findIdx (fun event => decide (familyOf event = some family))

/-- The seen families in the order of their first events. -/
structure FirstSeen (familyOf : α → Option NormalizedFamily) (events : List α) (order : List NormalizedFamily) :
    Prop where
  mem : ∀ family, family ∈ order ↔ Seen familyOf events family
  sorted : order.Pairwise (fun f g => firstEvent familyOf events f < firstEvent familyOf events g)

/-- What the loop knows of the events it is through. -/
structure FamilyLoop.Knows (familyOf : α → Option NormalizedFamily) (events : List α) (s : FamilyLoop) : Prop where
  activation : s.activationCount = countFamily familyOf events .activation
  selection : s.selectionCount = countFamily familyOf events .selection
  retirement : s.retirementCount = countFamily familyOf events .retirement
  seen : ∀ family, s.seen family = decide (Seen familyOf events family)
  families : ∃ order, s.families = order.map NormalizedFamily.label ∧ FirstSeen familyOf events order

theorem seen_concat {event : α} {family : NormalizedFamily} :
    Seen familyOf (events ++ [event]) family ↔ Seen familyOf events family ∨ familyOf event = some family := by
  simp [Seen, or_and_right, exists_or]

theorem countFamily_concat {event : α} {family : NormalizedFamily} : countFamily familyOf (events ++ [event]) family =
    countFamily familyOf events family + if familyOf event = some family then 1 else 0 := by
  by_cases h : familyOf event = some family <;> simp [countFamily, h]

theorem firstEvent_lt_length {family : NormalizedFamily} :
    firstEvent familyOf events family < events.length ↔ Seen familyOf events family := by
  simp [firstEvent, List.findIdx_lt_length, Seen]

theorem firstEvent_concat {event : α} {family : NormalizedFamily} (h : Seen familyOf events family) :
    firstEvent familyOf (events ++ [event]) family = firstEvent familyOf events family := by
  have hlt := firstEvent_lt_length.mpr h
  rw [firstEvent] at hlt ⊢
  rw [List.findIdx_append, if_pos hlt]
  rfl

theorem firstEvent_concat_new {event : α} {family : NormalizedFamily} (hf : familyOf event = some family)
    (h : ¬Seen familyOf events family) : firstEvent familyOf (events ++ [event]) family = events.length := by
  have hlt := mt firstEvent_lt_length.mp h
  rw [firstEvent] at hlt ⊢
  rw [List.findIdx_append, if_neg hlt]
  simp [hf]

/-- Of two lists of the families by their first events there is one. -/
theorem FirstSeen.unique {order order' : List NormalizedFamily} (h : FirstSeen familyOf events order)
    (h' : FirstSeen familyOf events order') : order = order' := by
  have hnodup : ∀ {l}, FirstSeen familyOf events l → l.Nodup := fun hl =>
    hl.sorted.imp fun {f g} hlt (heq : f = g) => lt_irrefl _ (heq ▸ hlt)
  have hperm : order.Perm order' :=
    (List.perm_ext_iff_of_nodup (hnodup h) (hnodup h')).mpr fun f => (h.mem f).trans (h'.mem f).symm
  exact hperm.eq_of_pairwise (fun f g _ _ hfg hgf => absurd hgf (lt_asymm hfg)) h.sorted h'.sorted

/-- More events of seen families change nothing. -/
theorem FirstSeen.concat {event : α} {order : List NormalizedFamily} (h : FirstSeen familyOf events order)
    (hs : ∀ family, familyOf event = some family → Seen familyOf events family) :
    FirstSeen familyOf (events ++ [event]) order where
  mem family := by
    rw [h.mem, seen_concat]
    exact ⟨Or.inl, fun h => h.elim id (hs family)⟩
  sorted := h.sorted.imp_of_mem fun {f g} hf hg hlt => by
    rwa [firstEvent_concat ((h.mem f).mp hf), firstEvent_concat ((h.mem g).mp hg)]

/-- A new family comes last. -/
theorem FirstSeen.concat_new {event : α} {family : NormalizedFamily} {order : List NormalizedFamily}
    (h : FirstSeen familyOf events order) (hf : familyOf event = some family) (hs : ¬Seen familyOf events family) :
    FirstSeen familyOf (events ++ [event]) (order ++ [family]) where
  mem f := by
    rw [List.mem_append, h.mem, seen_concat, hf, List.mem_singleton, Option.some.injEq, eq_comm]
  sorted := by
    refine List.pairwise_append.mpr ⟨?_, List.pairwise_singleton _ _, fun f hmem g hg => ?_⟩
    · exact h.sorted.imp_of_mem fun {f g} hf hg hlt => by
        rwa [firstEvent_concat ((h.mem f).mp hf), firstEvent_concat ((h.mem g).mp hg)]
    · obtain rfl := List.mem_singleton.mp hg
      have hseen := (h.mem f).mp hmem
      rw [firstEvent_concat hseen, firstEvent_concat_new hf hs]
      exact firstEvent_lt_length.mpr hseen

theorem FamilyLoop.Knows.step {event : α} {family : NormalizedFamily} {s : FamilyLoop} (hs : s.Knows familyOf events)
    (hf : familyOf event = some family) :
    (appendFamilyOrder (s.count family) family).Knows familyOf (events ++ [event]) := by
  have hseen : (s.count family).seen = s.seen := by cases family <;> rfl
  have hfam : (s.count family).families = s.families := by cases family <;> rfl
  obtain ⟨order, horder, hfirst⟩ := hs.families
  have hcount : ∀ f, countFamily familyOf (events ++ [event]) f =
      countFamily familyOf events f + if family = f then 1 else 0 := by
    intro f
    rw [countFamily_concat, hf]
    simp
  have hcounts : ∀ t : FamilyLoop, t.toNormalizedSummary.activationCount = (s.count family).activationCount →
      t.selectionCount = (s.count family).selectionCount → t.retirementCount = (s.count family).retirementCount →
      t.activationCount = countFamily familyOf (events ++ [event]) .activation ∧
        t.selectionCount = countFamily familyOf (events ++ [event]) .selection ∧
        t.retirementCount = countFamily familyOf (events ++ [event]) .retirement := by
    intro t h₁ h₂ h₃
    rw [h₁, h₂, h₃, hcount, hcount, hcount, ← hs.activation, ← hs.selection, ← hs.retirement]
    cases family <;> exact ⟨rfl, rfl, rfl⟩
  unfold appendFamilyOrder
  rw [hseen, hfam, hs.seen family]
  by_cases hold : Seen familyOf events family
  · obtain ⟨h₁, h₂, h₃⟩ := hcounts (s.count family) rfl rfl rfl
    simp only [hold, decide_true, if_true]
    refine ⟨h₁, h₂, h₃, fun f => ?_, order, hfam.trans horder, hfirst.concat fun f h => ?_⟩
    · rw [hseen, hs.seen, decide_eq_decide, seen_concat, hf]
      exact ⟨Or.inl, fun h => h.elim id (fun h => Option.some.inj h ▸ hold)⟩
    · exact Option.some.inj (hf.symm.trans h) ▸ hold
  · simp only [hold, decide_false, Bool.false_eq_true, if_false]
    obtain ⟨h₁, h₂, h₃⟩ := hcounts { s.count family with
      seen := Function.update s.seen family true, families := s.families ++ [family.label] } rfl rfl rfl
    refine ⟨h₁, h₂, h₃, fun f => ?_, order ++ [family], by simp [horder], hfirst.concat_new hf hold⟩
    by_cases hff : f = family
    · subst hff
      simp [seen_concat, hf]
    · simp only [Function.update_of_ne hff, hs.seen, decide_eq_decide, seen_concat, hf, Option.some.injEq]
      exact ⟨Or.inl, fun h => h.elim id (fun h => absurd h.symm hff)⟩

/-- Each family is counted, and listed at its first event. -/
theorem summarizeFamilies_knows (familyOf : α → Option NormalizedFamily) (events : List α) :
    (summarizeFamilies familyOf events).activationCount = countFamily familyOf events .activation ∧
      (summarizeFamilies familyOf events).selectionCount = countFamily familyOf events .selection ∧
      (summarizeFamilies familyOf events).retirementCount = countFamily familyOf events .retirement ∧
      ∃ order, (summarizeFamilies familyOf events).families = order.map NormalizedFamily.label ∧
        FirstSeen familyOf events order := by
  have hloop : FamilyLoop.Knows familyOf events (events.foldl (fun s event =>
      match familyOf event with
      | none => s
      | some family => appendFamilyOrder (s.count family) family) ({} : FamilyLoop)) := by
    refine foldl_inv (P := FamilyLoop.Knows familyOf)
      ⟨rfl, rfl, rfl, fun _ => by simp [Seen], [], rfl, fun _ => by simp [Seen], .nil⟩ ?_
    intro done event rest s _ hs
    cases hf : familyOf event with
    | none =>
      have hseen : ∀ f, Seen familyOf (done ++ [event]) f ↔ Seen familyOf done f := fun f => by simp [seen_concat, hf]
      obtain ⟨order, horder, hfirst⟩ := hs.families
      refine ⟨?_, ?_, ?_, fun f => ?_, order, horder, hfirst.concat (by simp [hf])⟩
      · rw [countFamily_concat, hf]; exact hs.activation
      · rw [countFamily_concat, hf]; exact hs.selection
      · rw [countFamily_concat, hf]; exact hs.retirement
      · simpa only [hseen] using hs.seen f
    | some family => exact hs.step hf
  exact ⟨hloop.activation, hloop.selection, hloop.retirement, hloop.families⟩

/-- Of two families where the second is never first, the first one starts earlier. -/
theorem firstEvent_lt {f g : NormalizedFamily} (hne : f ≠ g)
    (h : ∀ before after, events = before ++ after → Seen familyOf before g → Seen familyOf before f)
    (hg : Seen familyOf events g) : firstEvent familyOf events f < firstEvent familyOf events g := by
  have hlt := firstEvent_lt_length.mpr hg
  have hlast : familyOf events[firstEvent familyOf events g] = some g :=
    of_decide_eq_true (List.findIdx_getElem (p := fun event => decide (familyOf event = some g)) (w := hlt))
  obtain ⟨event, hmem, hevent⟩ := h (events.take (firstEvent familyOf events g + 1)) _ (List.take_append_drop ..).symm
    ⟨_, List.mem_take_iff_getElem.mpr ⟨_, by omega, rfl⟩, hlast⟩
  obtain ⟨i, hi, rfl⟩ := List.mem_take_iff_getElem.mp hmem
  have hi' : i < firstEvent familyOf events g ∨ i = firstEvent familyOf events g := by omega
  have hle : firstEvent familyOf events f ≤ i := by
    by_contra hcon
    exact of_decide_eq_false (List.not_of_lt_findIdx (not_le.mp hcon)) hevent
  rcases hi' with hi' | rfl
  · exact hle.trans_lt hi'
  · exact absurd (Option.some.inj (hevent.symm.trans hlast)) hne

/-- Staged events that reach the last stage are listed in the order of the stages. -/
theorem InStages.firstSeen (h : InStages familyOf events) (hr : Seen familyOf events .retirement) :
    FirstSeen familyOf events [.activation, .selection, .retirement] := by
  obtain ⟨hsel, hret⟩ := h events [] (by simp)
  have hs := hret hr
  have h₁ : firstEvent familyOf events .activation < firstEvent familyOf events .selection :=
    firstEvent_lt (by decide) (fun before after he => (h before after he).1) hs
  have h₂ : firstEvent familyOf events .selection < firstEvent familyOf events .retirement :=
    firstEvent_lt (by decide) (fun before after he => (h before after he).2) hr
  refine ⟨fun family => ?_, by simp [h₁, h₂, h₁.trans h₂]⟩
  cases family <;> simp [hr, hs, hsel hs]

end Loop

/-! ## The first and the last entry -/

section Edges

variable {n m : Nat}

/-- An execution starts with an entry of its tick; when it completes a task it ends with one of the next tick. -/
structure EdgeLaw (M : Machine n m) (Inv : Engine n m → Prop) : Prop where
  first : ∀ {s mid e}, Inv s → M.schedule s = .ok mid → M.execute mid = .ok e →
    ∃ entry rest, e.traceEntries = mid.traceEntries ++ entry :: rest ∧ entry.tick = mid.tick
  last : ∀ {s mid e}, Inv s → M.schedule s = .ok mid → M.execute mid = .ok e → mid.completed < e.completed →
    ∃ rest entry, e.traceEntries = rest ++ [entry] ∧ entry.tick = mid.tick + 1

theorem singleCore_edgeLaw :
    EdgeLaw (singleCore (n := n) scenario policy) (fun s => Solo policy s ∧ s.Counted) where
  first := by
    intro s mid e ⟨hp, _⟩ hmid he
    have hsolo := (scheduleSingleCore_ok hp hmid).1
    cases hc : (mid.cores 0).current with
    | none =>
      obtain rfl : mid.emit (idleEntry mid.tick 0) = e := by simpa [singleCore, executeSingleCore, hc] using he
      exact ⟨idleEntry mid.tick 0, [], rfl, rfl⟩
    | some i =>
      obtain ⟨outcome, u, a, hex, rfl⟩ := executeSingleCore_some hsolo hc he
      unfold withCompletion
      split
      · exact ⟨_, _, by rw [Engine.emit_traceEntries, hex.trace, execEntries, List.append_assoc, List.cons_append], rfl⟩
      · exact ⟨_, _, hex.trace, rfl⟩
  last := by
    intro s mid e ⟨hp, _⟩ hmid he hlt
    have hsolo := (scheduleSingleCore_ok hp hmid).1
    cases hc : (mid.cores 0).current with
    | none =>
      obtain rfl : mid.emit (idleEntry mid.tick 0) = e := by simpa [singleCore, executeSingleCore, hc] using he
      simp at hlt
    | some i =>
      obtain ⟨outcome, u, a, hex, rfl⟩ := executeSingleCore_some hsolo hc he
      unfold withCompletion at hlt ⊢
      split at hlt
      next ho =>
        rw [if_pos ho]
        exact ⟨_, _, rfl, congrArg (· + 1) hex.tick⟩
      next ho =>
        rw [hex.completed, if_neg ho] at hlt
        omega

/-- One core adds an entry of the tick first. -/
theorem executeMulticoreAt_entries {s s' : Engine n m} {l l' : List (Fin n)} {c : Fin m}
    (h : executeMulticoreAt scenario policy (s, l) c = .ok (s', l')) :
    ∃ entry rest, s'.traceEntries = s.traceEntries ++ entry :: rest ∧ entry.tick = s.tick := by
  unfold executeMulticoreAt at h
  split at h
  next =>
    obtain ⟨rfl, rfl⟩ := Prod.mk.inj (Except.ok.inj h)
    exact ⟨idleEntry s.tick c, [], rfl, rfl⟩
  next =>
    obtain ⟨⟨outcome, b⟩, he, h⟩ := bind_eq_ok.mp h
    obtain ⟨rfl, rfl⟩ := Prod.mk.inj (Except.ok.inj h)
    obtain ⟨u, hex⟩ := executeCurrent_ok he
    exact ⟨_, _, hex.trace, rfl⟩

theorem multicore_edgeLaw (hm : 0 < m) :
    EdgeLaw (multicore (n := n) (m := m) scenario policy) (fun s => Placed s ∧ s.Counted) where
  first := by
    intro s mid e _ _ he
    obtain ⟨⟨a, done⟩, ha, he⟩ := bind_eq_ok.mp he
    simp only [recordCompletions_eq, Except.ok.injEq] at he
    subst he
    obtain ⟨m, rfl⟩ := Nat.exists_eq_succ_of_ne_zero hm.ne'
    rw [List.finRange_succ, List.foldlM_cons] at ha
    obtain ⟨⟨b, l⟩, hb, ha⟩ := bind_eq_ok.mp ha
    obtain ⟨entry, rest, hentry, ht⟩ := executeMulticoreAt_entries hb
    obtain ⟨more, hmore⟩ := foldlM_keeps (P := fun x : Engine n (m + 1) × List (Fin n) =>
        ∃ rest, x.1.traceEntries = mid.traceEntries ++ entry :: rest) ⟨rest, hentry⟩
      (fun c _ x y hx hy => by
        obtain ⟨rest, hx⟩ := hx
        obtain ⟨entry', rest', hy, -⟩ := executeMulticoreAt_entries hy
        exact ⟨_, by rw [hy, hx, List.append_assoc, List.cons_append]⟩) ha
    exact ⟨entry, _, by rw [withCompletions, hmore, List.append_assoc, List.cons_append], ht⟩
  last := by
    intro s mid e hs hmid he hlt
    have hplaced := (scheduleMulticore_ok hs.1 hmid).1
    obtain ⟨⟨a, done⟩, ha, he⟩ := bind_eq_ok.mp he
    have hloop := executeLoop_ok hplaced ha
    simp only [recordCompletions_eq, Except.ok.injEq] at he
    subst he
    have hne : done ≠ [] := by
      rintro rfl
      have := hloop.completed
      simp only [withCompletions, List.length_nil, Nat.add_zero] at hlt this
      omega
    obtain ⟨front, i, rfl⟩ : ∃ front i, done = front ++ [i] :=
      ⟨done.dropLast, done.getLast hne, (List.dropLast_append_getLast hne).symm⟩
    refine ⟨a.traceEntries ++ front.map (completeEntry scenario a), completeEntry scenario a i, ?_,
      congrArg (· + 1) hloop.tick⟩
    simp [withCompletions]

variable {M : Machine n m} {Inv : Engine n m → Prop} {info : Fin n → TaskInfo} {s₀ s : Engine n m} {k : Nat}

/-- The first entry of a run is of tick 0. -/
theorem Start.first_run (hM : Lawful M policy Inv) (hT : TraceLaw M Inv info) (hE : EdgeLaw M Inv)
    (hs : Start info s₀) (h₀ : Inv s₀) (h : M.Run s₀ k s) (hk : 0 < k) :
    ∃ entry rest, s.traceEntries = entry :: rest ∧ entry.tick = 0 := by
  induction h with
  | zero => omega
  | @succ k s s' hr hc hstep ih =>
    obtain ⟨mid, e, hmid, he, -, rfl⟩ := Machine.step_ok hstep
    obtain ⟨hinv, htick⟩ := hs.inv hM h₀ hr
    obtain ⟨quiet, hquiet, hqt⟩ := (hT.sched hinv hmid).trace
    obtain ⟨entry, rest, hentry, ht⟩ := hE.first hinv hmid he
    have htrace : e.traceEntries = s.traceEntries ++ (quiet ++ entry :: rest) := by
      rw [hentry, hquiet, List.append_assoc]
    show ∃ entry rest, e.traceEntries = entry :: rest ∧ entry.tick = 0
    rw [htrace]
    rcases Nat.eq_zero_or_pos k with rfl | hk'
    · -- the first iteration starts from an empty trace
      obtain rfl := hr.unique .zero
      rw [hs.trace, List.nil_append]
      cases quiet with
      | nil => exact ⟨entry, rest, rfl, by rw [ht, (hT.sched hinv hmid).tick, htick]⟩
      | cons q quiet => exact ⟨q, _, rfl, by rw [(hqt q List.mem_cons_self).1, htick]⟩
    · obtain ⟨first, more, hfirst, hzero⟩ := ih hk'
      exact ⟨first, _, by rw [hfirst, List.cons_append], hzero⟩

/-- The last entry of a run that has just completed its last task is of its last tick. -/
theorem Start.last_run (hM : Lawful M policy Inv) (hT : TraceLaw M Inv info) (hE : EdgeLaw M Inv)
    (hs : Start info s₀) (h₀ : Inv s₀) (h : M.Run s₀ k s) (hk : 0 < k) (he : n ≤ s.completed) :
    ∃ rest entry, s.traceEntries = rest ++ [entry] ∧ entry.tick = k := by
  cases h with
  | zero => omega
  | @succ k a _ hr hc hstep =>
    obtain ⟨mid, e, hmid, hexec, -, rfl⟩ := Machine.step_ok hstep
    obtain ⟨hinv, htick⟩ := hs.inv hM h₀ hr
    have hq := hT.sched hinv hmid
    have hlt : mid.completed < e.completed := by
      rw [hq.completed]
      exact lt_of_lt_of_le hc he
    obtain ⟨rest, entry, hentry, ht⟩ := hE.last hinv hmid hexec hlt
    exact ⟨rest, entry, hentry, by rw [ht, hq.tick, htick]⟩

end Edges

/-! ## The comparison of a simulation -/

section Comparison

variable {m : Nat} {r : SimulationResult} {S : Simulation scenario policy m} {k : Nat}
  {s : Engine scenario.tasks.length m}

theorem Returns.finalTick_pos (h : Returns scenario policy r S k s) (hv : Valid scenario) : 0 < r.finalTick := by
  have hacc := h.accounts hv
  obtain ⟨t, ht, hfin⟩ := hacc.completion_max
  obtain ⟨i, hi, rfl⟩ := List.mem_iff_getElem.mp ht
  have hi' : i < scenario.tasks.length := by rw [← hacc.length]; exact hi
  have htask := hacc.task ⟨i, hi'⟩ _ (List.getElem?_eq_getElem hi)
  have hburst := (hv.tasks _ (List.getElem_mem hi')).1
  have h₁ := htask.burst
  have h₂ := htask.turnaround
  have h₃ := htask.completion
  simp only [Fin.getElem_fin] at h₁ h₃
  omega

/-- The first entry of the trace of a result is of tick 0, the last one of the last tick. -/
theorem simulate_edges (hv : Valid scenario) (h : simulate scenario policy = .ok r) :
    (∃ entry rest, r.trace = entry :: rest ∧ entry.tick = 0) ∧
      ∃ rest entry, r.trace = rest ++ [entry] ∧ entry.tick = r.finalTick := by
  by_cases hc : scenario.coreCount ≤ 1
  · obtain ⟨k, s, hs⟩ := (singleSimulation_runs policy hv hc).returns hv h
    have hk := hs.finalTick_pos hv
    have hstart := start_init hv 1
    rw [hs.finalTick hv] at hk ⊢
    rw [hs.finalized.trace]
    exact ⟨hstart.first_run singleCore_lawful singleCore_traceLaw singleCore_edgeLaw (solo_counted_init hv) hs.run hk,
      hstart.last_run singleCore_lawful singleCore_traceLaw singleCore_edgeLaw
        (solo_counted_init hv) hs.run hk hs.ended⟩
  · obtain ⟨k, s, hs⟩ := (multiSimulation_runs policy hv hc).returns hv h
    have hk := hs.finalTick_pos hv
    have hstart := start_init hv scenario.coreCount
    have hedge : EdgeLaw (multicore (n := scenario.tasks.length) scenario policy) _ := multicore_edgeLaw hv.core_pos
    rw [hs.finalTick hv] at hk ⊢
    rw [hs.finalized.trace]
    exact ⟨hstart.first_run multicore_lawful multicore_traceLaw hedge (placed_counted_init hv) hs.run hk,
      hstart.last_run multicore_lawful multicore_traceLaw hedge (placed_counted_init hv) hs.run hk hs.ended⟩

theorem Closed.head {a e : Nat} {ws : List Nat} {w : List Event} (h : Closed a ws e w) :
    w = [] ∨ ∃ dispatch rest, w = dispatch :: rest ∧ dispatch.kind = .dispatch := by
  cases h with
  | nil => exact Or.inl rfl
  | @preempt _ _ w c t k h =>
    right
    rcases h.head with rfl | ⟨d, rest, rfl, hd⟩
    · exact ⟨_, _, rfl, rfl⟩
    · exact ⟨d, _, rfl, hd⟩
  | @block _ _ w c d t k l h =>
    right
    rcases h.head with rfl | ⟨d, rest, rfl, hd⟩
    · exact ⟨_, _, rfl, rfl⟩
    · exact ⟨d, _, rfl, hd⟩

/-- A word starts with its arrival and its first dispatch. -/
theorem TraceWord.start {a : Nat} {ws : List Nat} {ev : List Event} (h : TraceWord a ws ev) :
    ∃ arrival dispatch rest,
      ev = arrival :: dispatch :: rest ∧ arrival.kind = .arrival ∧ dispatch.kind = .dispatch := by
  obtain ⟨c₀, e, w, c, t, k, hw, -, -, rfl⟩ := h
  rcases hw.head with rfl | ⟨d, rest, rfl, hd⟩
  · exact ⟨_, _, _, rfl, rfl, rfl⟩
  · exact ⟨_, d, _, rfl, rfl, hd⟩

theorem mem_events {id : Bytes} {trace : List TraceEntry} {x : Event} :
    x ∈ events id trace ↔ ∃ e ∈ trace, e.taskId = some id ∧ e.event = x := by
  simp [events, and_assoc]

/-- A beginning of a word with an event has the first event, and with a later event also the second. -/
theorem mem_of_append_eq {α : Type*} {x a b : α} {before after rest : List α} (h : before ++ after = a :: b :: rest)
    (hx : x ∈ before) : a ∈ before ∧ (x ≠ a → b ∈ before) := by
  cases before with
  | nil => cases hx
  | cons c before =>
    rw [List.cons_append, List.cons.injEq] at h
    obtain ⟨rfl, htail⟩ := h
    refine ⟨List.mem_cons_self, fun hne => ?_⟩
    cases before with
    | nil => exact absurd (List.mem_singleton.mp hx) hne
    | cons d before =>
      rw [List.cons_append, List.cons.injEq] at htail
      simp [htail.1]

@[simp] theorem simulatorFamily_eq_selection {kind : TraceEventKind} :
    simulatorFamily kind = some .selection ↔ kind = .dispatch := by
  cases kind <;> simp [simulatorFamily]

@[simp] theorem simulatorFamily_eq_retirement {kind : TraceEventKind} :
    simulatorFamily kind = some .retirement ↔ kind = .complete := by
  cases kind <;> simp [simulatorFamily]

@[simp] theorem simulatorFamily_eq_activation {kind : TraceEventKind} :
    simulatorFamily kind = some .activation ↔ kind = .arrival ∨ kind = .wakeup := by
  cases kind <;> simp [simulatorFamily]

/-- Before a dispatch comes the arrival of its task, before a completion the first dispatch. -/
theorem Returns.staged (h : Returns scenario policy r S k s) (hv : Valid scenario) :
    InStages (fun entry : TraceEntry => simulatorFamily entry.kind) r.trace := by
  intro before after hsplit
  have hword : ∀ e ∈ before, e.kind ≠ .idle → ∃ arrival ∈ before, arrival.kind = .arrival ∧
      (e.kind ≠ .arrival → ∃ dispatch ∈ before, dispatch.kind = .dispatch) := by
    intro e he hk
    obtain ⟨i, hi⟩ := (simulate_named hv h.result e (by rw [hsplit]; simp [he])).task hk
    have hmem : e.event ∈ events (taskIds scenario i) before := mem_events.mpr ⟨e, he, hi, rfl⟩
    obtain ⟨arrival, dispatch, rest, hev, ha, hd⟩ := ((h.grammatical hv).word _ (List.getElem_mem i.isLt)).start
    rw [hsplit, events_append] at hev
    obtain ⟨h₁, h₂⟩ := mem_of_append_eq hev hmem
    obtain ⟨x, hx, -, rfl⟩ := mem_events.mp h₁
    refine ⟨x, hx, ha, fun hne => ?_⟩
    obtain ⟨y, hy, -, rfl⟩ := mem_events.mp (h₂ (fun hex => hne (by rw [← ha, ← hex]; rfl)))
    exact ⟨y, hy, hd⟩
  constructor
  · rintro ⟨e, he, hf⟩
    have hk := simulatorFamily_eq_selection.mp hf
    obtain ⟨x, hx, ha, -⟩ := hword e he (by simp [hk])
    exact ⟨x, hx, simulatorFamily_eq_activation.mpr (Or.inl ha)⟩
  · rintro ⟨e, he, hf⟩
    have hk := simulatorFamily_eq_retirement.mp hf
    obtain ⟨-, -, -, hd⟩ := hword e he (by simp [hk])
    obtain ⟨y, hy, hd⟩ := hd (by simp [hk])
    exact ⟨y, hy, simulatorFamily_eq_selection.mpr hd⟩

/-- The families of a trace, counted by kinds. -/
theorem countFamily_simulator (trace : List TraceEntry) :
    countFamily (fun entry : TraceEntry => simulatorFamily entry.kind) trace .activation =
        countKind .arrival trace + countKind .wakeup trace ∧
      countFamily (fun entry : TraceEntry => simulatorFamily entry.kind) trace .selection = countKind .dispatch trace ∧
      countFamily (fun entry : TraceEntry => simulatorFamily entry.kind) trace .retirement =
        countKind .complete trace := by
  refine ⟨?_, ?_, ?_⟩
  · rw [countKind, countKind, ← countP_or trace (by simp; grind)]
    exact List.countP_congr (fun e _ => by simp)
  · exact List.countP_congr (fun e _ => by simp)
  · exact List.countP_congr (fun e _ => by simp)

theorem Returns.cpuCardinality (h : Returns scenario policy r S k s) (hv : Valid scenario) :
    computeSimulatorCpuCardinality r = scenario.coreCount := by
  have hkeys : (r.trace.filterMap TraceEntry.coreId).toFinset = Finset.range scenario.coreCount := by
    ext c
    simp only [List.mem_toFinset, List.mem_filterMap, Finset.mem_range]
    constructor
    · rintro ⟨e, he, hc⟩
      obtain ⟨d, hd, hcd⟩ := (simulate_named hv h.result e he).core
      obtain rfl : c = d := Option.some.inj (hc.symm.trans hcd)
      exact hd
    · intro hc
      have hcell := (h.grammatical hv).cells c 0 hc (h.finalTick_pos hv)
      have hpos : 0 < Sim.cells c 0 r.trace := by omega
      obtain ⟨e, he, hp⟩ := List.countP_pos_iff.mp hpos
      exact ⟨e, he, (of_decide_eq_true hp).2.1⟩
  rw [computeSimulatorCpuCardinality, hkeys, Finset.card_range]

theorem simulate_timeSpan (hv : Valid scenario) (h : simulate scenario policy = .ok r) :
    computeSimulatorTimeSpan r = .ok r.finalTick := by
  obtain ⟨⟨first, _, hfirst, hzero⟩, _, last, hlast, hend⟩ := simulate_edges hv h
  have hhead : r.trace.head? = some first := by rw [hfirst]; rfl
  have hgetLast : r.trace.getLast? = some last := by rw [hlast, List.getLast?_concat]
  simp only [computeSimulatorTimeSpan, hhead, hgetLast, hzero, hend, subChecked_eq_ok]
  omega

/-- The numbers of a simulation: each family counts what the census says. -/
theorem simulate_families (hv : Valid scenario) (hr : simulate scenario policy = .ok r) :
    (summarizeSimulatorFamilies r).activationCount = scenario.tasks.length + totalWaits scenario ∧
      (summarizeSimulatorFamilies r).selectionCount =
        (summarizeSimulatorFamilies r).activationCount + countKind .preempt r.trace ∧
      (summarizeSimulatorFamilies r).retirementCount = scenario.tasks.length ∧
      (summarizeSimulatorFamilies r).families = [utf8 "activation", utf8 "selection", utf8 "retirement"] ∧
      computeSimulatorCpuCardinality r = scenario.coreCount ∧ computeSimulatorTimeSpan r = .ok r.finalTick := by
  obtain ⟨m, S, k, s, hs⟩ := simulate_ok hv hr
  have hcensus := hs.census hv
  obtain ⟨hact, hsel, hret, order, hfam, hfirst⟩ := summarizeFamilies_knows
    (fun entry : TraceEntry => simulatorFamily entry.kind) r.trace
  obtain ⟨h₁, h₂, h₃⟩ := countFamily_simulator r.trace
  rw [h₁, hcensus.arrivals, hcensus.wakeups] at hact
  rw [h₃, hcensus.completions] at hret
  -- a dispatch ends with a preemption, a wait or a completion
  have hdispatch : countKind .dispatch r.trace =
      countKind .preempt r.trace + totalWaits scenario + scenario.tasks.length := by
    rw [← hcensus.blocks, ← hcensus.completions, hcensus.cores .dispatch, hcensus.cores .preempt, hcensus.cores .block,
      hcensus.cores .complete, ← Finset.sum_add_distrib, ← Finset.sum_add_distrib]
    exact Finset.sum_congr rfl (fun c _ => hcensus.dispatches c)
  have hpos : 0 < scenario.tasks.length := List.length_pos_iff.mpr hv.tasks_ne
  refine ⟨hact, ?_, hret, ?_, hs.cpuCardinality hv, simulate_timeSpan hv hr⟩
  · show (summarizeFamilies _ r.trace).selectionCount = (summarizeFamilies _ r.trace).activationCount + _
    rw [hsel, h₂, hact, hdispatch]
    omega
  · have hretired : Seen (fun entry : TraceEntry => simulatorFamily entry.kind) r.trace .retirement := by
      have hcount : 0 < countFamily (fun entry : TraceEntry => simulatorFamily entry.kind) r.trace .retirement := by
        rw [h₃, hcensus.completions]
        exact hpos
      obtain ⟨e, he, hp⟩ := List.countP_pos_iff.mp hcount
      exact ⟨e, he, of_decide_eq_true hp⟩
    obtain rfl := hfirst.unique ((hs.staged hv).firstSeen hretired)
    exact hfam

/-- **The comparison of a simulation.** A simulation that fits a `u32` returns. For every result, each family counts
what the census says, the families come in the order of the stages, every core is seen, and the time span is the last
tick. -/
theorem summarizeSimulatorFamilies_simulate (scenario : ScenarioOwned) (policy : PolicyKind)
    (hv : scenario.validate = .ok ()) : (horizon scenario < 2 ^ 32 - 1 → ∃ r, simulate scenario policy = .ok r) ∧
      ∀ r, simulate scenario policy = .ok r →
        (summarizeSimulatorFamilies r).activationCount = scenario.tasks.length + totalWaits scenario ∧
        (summarizeSimulatorFamilies r).selectionCount =
          (summarizeSimulatorFamilies r).activationCount + countKind .preempt r.trace ∧
        (summarizeSimulatorFamilies r).retirementCount = scenario.tasks.length ∧
        (summarizeSimulatorFamilies r).families = [utf8 "activation", utf8 "selection", utf8 "retirement"] ∧
        computeSimulatorCpuCardinality r = scenario.coreCount ∧ computeSimulatorTimeSpan r = .ok r.finalTick := by
  have hv := validate_ok hv
  exact ⟨simulate_returns policy hv, fun r hr => simulate_families hv hr⟩

theorem summarizeSimulatorFamilies_waitingPair :
    (horizon waitingPair < 2 ^ 32 - 1 → ∃ r, simulate waitingPair .roundRobin = .ok r) ∧
      ∀ r, simulate waitingPair .roundRobin = .ok r →
        (summarizeSimulatorFamilies r).activationCount = waitingPair.tasks.length + totalWaits waitingPair ∧
        (summarizeSimulatorFamilies r).selectionCount =
          (summarizeSimulatorFamilies r).activationCount + countKind .preempt r.trace ∧
        (summarizeSimulatorFamilies r).retirementCount = waitingPair.tasks.length ∧
        (summarizeSimulatorFamilies r).families = [utf8 "activation", utf8 "selection", utf8 "retirement"] ∧
        computeSimulatorCpuCardinality r = waitingPair.coreCount ∧ computeSimulatorTimeSpan r = .ok r.finalTick :=
  summarizeSimulatorFamilies_simulate waitingPair .roundRobin (by decide)

end Comparison

end Exasphere.Sim

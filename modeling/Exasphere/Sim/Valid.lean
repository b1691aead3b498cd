import Exasphere.Sim.Engine

/-!
# What an accepted scenario satisfies

`validate_ok`: a scenario that `ScenarioOwned.validate` accepts is `Valid`. For the engines the important part is the
shape of the phase list of a task (`phaseList`, one CPU phase when the task declares none): it starts and ends with a
CPU phase, kinds alternate, no phase is empty and its CPU ticks are the burst (`WellPhased`).
-/

namespace Exasphere.Sim

open Exasphere.Lib

/-! ## Phase lists -/

def cpuTicks (ps : List TaskPhase) : Nat := ((ps.filter (fun p => p.kind = .cpu)).map (·.ticks)).sum

/-- The wait phases of a list, as their lengths. -/
def waitList (ps : List TaskPhase) : List Nat := (ps.filter (fun p => p.kind = .wait)).map (·.ticks)

def waitTicks (ps : List TaskPhase) : Nat := (waitList ps).sum

@[simp] theorem cpuTicks_nil : cpuTicks [] = 0 := rfl
@[simp] theorem waitList_nil : waitList [] = [] := rfl
@[simp] theorem waitTicks_nil : waitTicks [] = 0 := rfl

theorem cpuTicks_cons (p : TaskPhase) (ps : List TaskPhase) :
    cpuTicks (p :: ps) = (if p.kind = .cpu then p.ticks else 0) + cpuTicks ps := by
  unfold cpuTicks
  by_cases h : p.kind = .cpu <;> simp [h]

theorem waitList_append (ps qs : List TaskPhase) : waitList (ps ++ qs) = waitList ps ++ waitList qs := by
  simp [waitList]

theorem waitList_singleton (p : TaskPhase) : waitList [p] = if p.kind = .wait then [p.ticks] else [] := by
  unfold waitList
  by_cases h : p.kind = .wait <;> simp [h]

def TaskPhaseKind.other : TaskPhaseKind → TaskPhaseKind
  | .cpu => .wait
  | .wait => .cpu

/-- Kinds alternate from `kind` on and no phase is empty. -/
def Alternating : TaskPhaseKind → List TaskPhase → Prop
  | _, [] => True
  | kind, p :: ps => p.kind = kind ∧ 0 < p.ticks ∧ Alternating kind.other ps

theorem Alternating.pos {kind : TaskPhaseKind} {ps : List TaskPhase} (h : Alternating kind ps) :
    ∀ p ∈ ps, 0 < p.ticks := by
  induction ps generalizing kind with
  | nil => simp
  | cons p ps ih =>
    obtain ⟨-, hp, hr⟩ := h
    simpa using ⟨hp, ih hr⟩

theorem Alternating.drop {kind : TaskPhaseKind} {ps : List TaskPhase} (h : Alternating kind ps) :
    ∀ k, ∃ kind', Alternating kind' (ps.drop k) := by
  induction ps generalizing kind with
  | nil => exact fun k => ⟨.cpu, by simp [Alternating]⟩
  | cons p ps ih =>
    rintro (_ | k)
    · exact ⟨kind, h⟩
    · exact ih h.2.2 k

/-- Neighbouring phases have different kinds. -/
theorem Alternating.next {kind : TaskPhaseKind} {ps : List TaskPhase} (h : Alternating kind ps) {k : Nat}
    {p q : TaskPhase} (hp : ps[k]? = some p) (hq : ps[k + 1]? = some q) : q.kind = p.kind.other := by
  induction ps generalizing kind k with
  | nil => simp at hp
  | cons x ps ih =>
    obtain ⟨hx, -, hr⟩ := h
    cases k with
    | succ k => exact ih hr (by simpa using hp) (by simpa using hq)
    | zero =>
      obtain rfl : x = p := by simpa using hp
      cases ps with
      | nil => simp at hq
      | cons y ps =>
        obtain rfl : y = q := by simpa using hq
        rw [hx]
        exact hr.1

/-- The shape of a phase list that `validate` accepts. -/
structure WellPhased (ps : List TaskPhase) : Prop where
  alternating : Alternating .cpu ps
  last : ∃ qs p, ps = qs ++ [p] ∧ p.kind = .cpu

/-- The phases an engine runs through; a task without declared phases has one CPU phase. -/
def TaskInfo.phaseList (info : TaskInfo) : List TaskPhase := info.phases.getD [⟨.cpu, info.burstTicks⟩]

/-- A task as the engines rely on it. -/
structure TaskInfo.Valid (info : TaskInfo) : Prop where
  burst_pos : 0 < info.burstTicks
  phased : WellPhased info.phaseList
  cpu_total : cpuTicks info.phaseList = info.burstTicks
  weight_pos : 0 < info.effectiveWeight

/-- No CPU phase follows when no CPU ticks follow. -/
theorem WellPhased.drop_eq_nil {ps : List TaskPhase} (h : WellPhased ps) {k : Nat}
    (hz : cpuTicks (ps.drop k) = 0) : ps.drop k = [] := by
  obtain ⟨qs, p, hps, hp⟩ := h.last
  by_contra hne
  have hlen : k < ps.length := by
    by_contra hk
    exact hne (List.drop_eq_nil_of_le (by omega))
  have hmem : p ∈ ps.drop k := by
    have hk : k ≤ qs.length := by simp [hps] at hlen; omega
    rw [hps, List.drop_append_of_le_length hk]
    simp
  have hle : p.ticks ≤ cpuTicks (ps.drop k) :=
    List.single_le_sum (by simp) _ (List.mem_map_of_mem (List.mem_filter.mpr ⟨hmem, by simpa using hp⟩))
  have := h.alternating.pos p (List.mem_of_mem_drop hmem)
  omega

/-- A phase after which nothing follows is not a wait phase. -/
theorem WellPhased.next_of_wait {ps : List TaskPhase} (h : WellPhased ps) {k : Nat} {p : TaskPhase}
    (hp : ps[k]? = some p) (hk : p.kind = .wait) : ∃ q, ps[k + 1]? = some q ∧ q.kind = .cpu := by
  obtain ⟨qs, l, hps, hl⟩ := h.last
  have hlen : k + 1 < ps.length := by
    by_contra hn
    have hlt : k < ps.length := (List.getElem?_eq_some_iff.mp hp).1
    have hke : k = qs.length := by rw [hps] at hlt hn; simp at hlt hn; omega
    rw [hps, hke] at hp
    simp at hp
    rw [← hp, hl] at hk
    cases hk
  refine ⟨ps[k + 1], List.getElem?_eq_getElem hlen, ?_⟩
  have := h.alternating.next hp (List.getElem?_eq_getElem hlen)
  rw [this, hk]
  rfl

/-! ## Validation -/

theorem validatePhases_ok {ps : List TaskPhase} {kind : TaskPhaseKind} {total r : Nat}
    (h : validatePhases ps kind total = .ok r) : Alternating kind ps ∧ r = total + cpuTicks ps := by
  induction ps generalizing kind total with
  | nil =>
    simp only [validatePhases, Except.ok.injEq] at h
    exact ⟨trivial, by simp [h]⟩
  | cons p ps ih =>
    simp only [validatePhases, ne_eq, ite_error_eq_ok, not_not] at h
    obtain ⟨hkind, hticks, h⟩ := h
    cases kind with
    | cpu =>
      obtain ⟨t, ht, h⟩ := bind_eq_ok.mp h
      obtain ⟨ha, hr⟩ := ih h
      obtain ⟨-, ht⟩ := addChecked_eq_ok.mp ht
      refine ⟨⟨hkind, by omega, ha⟩, ?_⟩
      rw [cpuTicks_cons, if_pos hkind]
      omega
    | wait =>
      obtain ⟨ha, hr⟩ := ih h
      refine ⟨⟨hkind, by omega, ha⟩, ?_⟩
      rw [cpuTicks_cons, if_neg (by simp [hkind])]
      omega

/-- An accepted scenario. -/
structure Valid (s : ScenarioOwned) : Prop where
  quantum_pos : 0 < s.roundRobinQuantum
  core_pos : 0 < s.coreCount
  tasks_ne : s.tasks ≠ []
  domain_cores : ∀ d ∈ s.domains, d.cores ≠ [] ∧ ∀ c ∈ d.cores, c < s.coreCount
  tasks : ∀ t ∈ s.tasks, 0 < t.burstTicks ∧
    ∀ ps, t.phases = some ps → WellPhased ps ∧ cpuTicks ps = t.burstTicks
  ids : (s.tasks.map TaskSpec.id).Nodup

theorem domainValidate_ok {d : DomainSpec} {k : Nat} (h : d.validate k = .ok ()) :
    d.cores ≠ [] ∧ ∀ c ∈ d.cores, c < k := by
  simp only [DomainSpec.validate, ite_error_eq_ok] at h
  obtain ⟨-, hne, hany, -⟩ := h
  exact ⟨hne, by simpa using hany⟩

theorem validateDomains_ok {k : Nat} {ds : List DomainSpec} (h : validateDomains k ds = .ok ()) :
    ∀ d ∈ ds, d.cores ≠ [] ∧ ∀ c ∈ d.cores, c < k := by
  induction ds with
  | nil => simp
  | cons d ds ih =>
    obtain ⟨_, hd, h⟩ := bind_eq_ok.mp h
    simp only [ite_error_eq_ok] at h
    simpa using ⟨domainValidate_ok hd, ih h.2.2⟩

theorem validateTaskPhases_ok {t : TaskSpec} (h : validateTaskPhases t = .ok ()) :
    ∀ ps, t.phases = some ps → WellPhased ps ∧ cpuTicks ps = t.burstTicks := by
  intro ps hps
  simp only [validateTaskPhases, hps, ite_error_eq_ok, not_or, not_not] at h
  obtain ⟨hne, ⟨-, hlast⟩, h⟩ := h
  obtain ⟨total, ht, h⟩ := bind_eq_ok.mp h
  simp only [ite_error_eq_ok, ne_eq, not_not] at h
  obtain ⟨ha, hr⟩ := validatePhases_ok ht
  refine ⟨⟨ha, ps.dropLast, ps.getLast hne, (List.dropLast_append_getLast hne).symm, ?_⟩, by omega⟩
  simpa [List.getLast?_eq_getLast_of_ne_nil hne] using hlast

theorem taskValidate_ok {t : TaskSpec} (h : t.validate = .ok ()) : 0 < t.burstTicks ∧
    ∀ ps, t.phases = some ps → WellPhased ps ∧ cpuTicks ps = t.burstTicks := by
  simp only [TaskSpec.validate, ite_error_eq_ok] at h
  obtain ⟨-, hb, -, -, -, h⟩ := h
  obtain ⟨_, -, h⟩ := bind_eq_ok.mp h
  obtain ⟨_, -, h⟩ := bind_eq_ok.mp h
  exact ⟨by omega, validateTaskPhases_ok h⟩

theorem validateTasks_ok {s : ScenarioOwned} {ts : List TaskSpec} (h : validateTasks s ts = .ok ()) :
    (∀ t ∈ ts, 0 < t.burstTicks ∧ ∀ ps, t.phases = some ps → WellPhased ps ∧ cpuTicks ps = t.burstTicks) ∧
      (ts.map TaskSpec.id).Nodup := by
  induction ts with
  | nil => simp
  | cons t ts ih =>
    obtain ⟨_, ht, h⟩ := bind_eq_ok.mp h
    simp only [ite_error_eq_ok] at h
    obtain ⟨-, hany, h⟩ := h
    obtain ⟨hall, hnd⟩ := ih h
    refine ⟨by simpa using ⟨taskValidate_ok ht, hall⟩, ?_⟩
    rw [List.map_cons, List.nodup_cons]
    refine ⟨fun hm => hany ?_, hnd⟩
    obtain ⟨other, ho, he⟩ := List.mem_map.mp hm
    exact List.any_eq_true.mpr ⟨other, ho, by simp [he]⟩

/-- **An accepted scenario is valid.** -/
theorem validate_ok {s : ScenarioOwned} (h : s.validate = .ok ()) : Valid s := by
  simp only [ScenarioOwned.validate, ite_error_eq_ok] at h
  obtain ⟨-, hq, hc, ht, h⟩ := h
  have hdom : ∀ d ∈ s.domains, d.cores ≠ [] ∧ ∀ c ∈ d.cores, c < s.coreCount := by
    by_cases hd : s.domains = []
    · simp [hd]
    · simp only [ne_eq, hd, not_false_eq_true, if_true] at h
      obtain ⟨_, h, -⟩ := bind_eq_ok.mp h
      exact validateDomains_ok h
  have htasks : validateTasks s s.tasks = .ok () := by
    by_cases hd : s.domains = []
    · simp only [hd, ne_eq, not_true_eq_false, if_false] at h
      obtain ⟨_, -, h⟩ := bind_eq_ok.mp h
      exact h
    · simp only [ne_eq, hd, not_false_eq_true, if_true] at h
      obtain ⟨_, -, h⟩ := bind_eq_ok.mp h
      obtain ⟨_, -, h⟩ := bind_eq_ok.mp h
      obtain ⟨_, -, h⟩ := bind_eq_ok.mp h
      exact h
  obtain ⟨hall, hnd⟩ := validateTasks_ok htasks
  exact ⟨by omega, by omega, ht, hdom, hall, hnd⟩

end Exasphere.Sim

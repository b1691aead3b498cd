import Exasphere.Sim.Valid

/-!
# Loading a scenario (`sim/scenario.zig`)

What `parseScenarioZon` does with a decoded document: `buildParsedTaskSpec` for every task, then `finalizeScenario`
with `normalizeAndValidate`. The fields of a decoded document are `u32`, of any value.

The arithmetic of `buildParsedTaskSpec` comes before the checks of `TaskSpec.validate` that refuse the same values, and
the deadline check adds two unchecked `u32`. `Traps` lists the documents on which one of these operations leaves its
range; on all others the loader returns a validated scenario or a declared error (`loadParsed_safe_iff`).
-/

namespace Exasphere.Sim

open Exasphere.Lib

inductive ParsedZonTaskPhaseKind
  | cpu
  | wait
  deriving DecidableEq, Repr

structure ParsedZonTaskPhase where
  kind : ParsedZonTaskPhaseKind
  ticks : UInt32
  deriving DecidableEq, Repr

structure ParsedZonDomain where
  id : Bytes
  cores : List UInt32
  deriving DecidableEq, Repr

structure ParsedZonGroup where
  id : Bytes
  weight : Option UInt32 := none
  quotaTicks : Option UInt32 := none
  deriving DecidableEq, Repr

structure ParsedZonTask where
  id : Bytes
  arrivalTick : UInt32
  burstTicks : Option UInt32 := none
  weight : Option UInt32 := none
  groupId : Option Bytes := none
  sleepAfterTicks : Option UInt32 := none
  sleepDuration : Option UInt32 := none
  phases : Option (List ParsedZonTaskPhase) := none
  deadlineTick : Option UInt32 := none
  deriving DecidableEq, Repr

structure ParsedZonScenario where
  name : Bytes
  quantum : Option UInt32 := none
  rrQuantum : Option UInt32 := none
  coreCount : Option UInt32 := none
  cpuCount : Option UInt32 := none
  topologyDomains : Option (List ParsedZonDomain) := none
  groups : Option (List ParsedZonGroup) := none
  tasks : List ParsedZonTask
  deriving DecidableEq, Repr

/-! ## The loader -/

def ParsedZonTaskPhaseKind.taskPhaseKind : ParsedZonTaskPhaseKind → TaskPhaseKind
  | .cpu => .cpu
  | .wait => .wait

def ParsedZonTaskPhase.taskPhase (phase : ParsedZonTaskPhase) : TaskPhase :=
  ⟨phase.kind.taskPhaseKind, phase.ticks.toNat⟩

def resolveTaskWeight (weight : Option UInt32) : Nat := weight.elim defaultTaskWeight UInt32.toNat

def resolveSleepDuration (sleepDuration : Option UInt32) : Nat := sleepDuration.elim 0 UInt32.toNat

/-- The loop of `buildParsedTaskSpec`: the CPU ticks of the phases, added in a `u32`. -/
def totalCpuTicks (phases : List ParsedZonTaskPhase) (total : Nat) : Except ValidationError Nat :=
  phases.foldlM (fun total phase =>
    if phase.kind = .cpu then addChecked .integerOverflow 32 total phase.ticks.toNat else .ok total) total

def buildParsedTaskSpec (task : ParsedZonTask) : Except ValidationError TaskSpec :=
  if task.phases ≠ none ∧ (task.sleepAfterTicks ≠ none ∨ task.sleepDuration ≠ none) then .error .invalidTaskPhases
  else match task.phases with
    | some phases => do
      let total ← totalCpuTicks phases 0
      .ok { id := task.id
            arrivalTick := task.arrivalTick.toNat
            burstTicks := total
            weight := resolveTaskWeight task.weight
            groupId := task.groupId
            phases := some (phases.map ParsedZonTaskPhase.taskPhase)
            deadlineTick := task.deadlineTick.map UInt32.toNat }
    | none =>
      match task.burstTicks with
      | none => .error .zeroBurstTicks
      | some burst =>
        match task.sleepAfterTicks with
        | some after => do
          let remaining ← subChecked .integerOverflow burst.toNat after.toNat
          .ok { id := task.id
                arrivalTick := task.arrivalTick.toNat
                burstTicks := burst.toNat
                weight := resolveTaskWeight task.weight
                groupId := task.groupId
                sleepAfterTicks := some after.toNat
                sleepDuration := resolveSleepDuration task.sleepDuration
                phases := some [⟨.cpu, after.toNat⟩, ⟨.wait, resolveSleepDuration task.sleepDuration⟩,
                  ⟨.cpu, remaining⟩]
                deadlineTick := task.deadlineTick.map UInt32.toNat }
        | none =>
          if task.sleepDuration ≠ none then .error .invalidSleepDuration
          else .ok { id := task.id
                     arrivalTick := task.arrivalTick.toNat
                     burstTicks := burst.toNat
                     weight := resolveTaskWeight task.weight
                     groupId := task.groupId
                     deadlineTick := task.deadlineTick.map UInt32.toNat }

/-- Two spellings of one field that must agree, and the default. -/
def resolveParsed (conflict : ValidationError) (value legacy : Option UInt32) : Except ValidationError Nat :=
  match value with
  | some v =>
    match legacy with
    | some l => if l ≠ v then .error conflict else .ok v.toNat
    | none => .ok v.toNat
  | none =>
    match legacy with
    | some l => .ok l.toNat
    | none => .ok 1

def resolveParsedQuantum (parsed : ParsedZonScenario) : Except ValidationError Nat :=
  resolveParsed .invalidQuantum parsed.quantum parsed.rrQuantum

def resolveParsedCoreCount (parsed : ParsedZonScenario) : Except ValidationError Nat :=
  resolveParsed .invalidCoreCount parsed.coreCount parsed.cpuCount

def ParsedZonDomain.domainSpec (domain : ParsedZonDomain) : DomainSpec := ⟨domain.id, domain.cores.map UInt32.toNat⟩

def ParsedZonGroup.groupSpec (group : ParsedZonGroup) : GroupSpec :=
  { id := group.id
    weight := group.weight.elim defaultGroupWeight UInt32.toNat
    quotaTicks := group.quotaTicks.elim 0 UInt32.toNat }

/-- The index of a task as a `u32`. -/
def orderTask (task : TaskSpec × Nat) : Except ValidationError TaskSpec :=
  if task.2 < 2 ^ 32 then .ok { task.1 with inputOrder := task.2 } else .error .integerOverflow

def normalizeAndValidate (scenario : ScenarioOwned) : Except ValidationError ScenarioOwned := do
  let tasks ← scenario.tasks.zipIdx.mapM orderTask
  let scenario := { scenario with tasks }
  scenario.validate
  .ok scenario

def finalizeScenario (scenario : ScenarioOwned) (expectedName : Bytes) : Except ValidationError ScenarioOwned :=
  if expectedName ≠ [] ∧ expectedName ≠ scenario.name then .error .scenarioNameMismatch
  else normalizeAndValidate scenario

/-- `parseScenarioZon`, from the decoded document on. -/
def loadParsed (parsed : ParsedZonScenario) (expectedName : Bytes) : Except ValidationError ScenarioOwned := do
  let roundRobinQuantum ← resolveParsedQuantum parsed
  let coreCount ← resolveParsedCoreCount parsed
  let domains := (parsed.topologyDomains.getD []).map ParsedZonDomain.domainSpec
  let groups := (parsed.groups.getD []).map ParsedZonGroup.groupSpec
  let tasks ← parsed.tasks.mapM buildParsedTaskSpec
  finalizeScenario { name := parsed.name, roundRobinQuantum, coreCount, domains, groups, tasks } expectedName

/-! ## Building a task -/

section Build

/-- `buildParsedTaskSpec` refuses the task with a declared error. -/
def ParsedZonTask.Refused (t : ParsedZonTask) : Prop :=
  (t.phases ≠ none ∧ (t.sleepAfterTicks ≠ none ∨ t.sleepDuration ≠ none)) ∨
    (t.phases = none ∧ (t.burstTicks = none ∨ (t.sleepAfterTicks = none ∧ t.sleepDuration ≠ none)))

/-- The CPU ticks of the phases do not fit a `u32`, or the task sleeps after more ticks than its burst. -/
def ParsedZonTask.Overflows (t : ParsedZonTask) : Prop :=
  (∃ phases, t.phases = some phases ∧ t.sleepAfterTicks = none ∧ t.sleepDuration = none ∧
      2 ^ 32 ≤ cpuTicks (phases.map ParsedZonTaskPhase.taskPhase)) ∨
    (t.phases = none ∧ ∃ burst after, t.burstTicks = some burst ∧ t.sleepAfterTicks = some after ∧
      burst.toNat < after.toNat)

/-- Neither refused nor out of range. -/
def ParsedZonTask.Buildable (t : ParsedZonTask) : Prop := ¬t.Refused ∧ ¬t.Overflows

/-- The specification of a buildable task, in unbounded arithmetic. -/
def ParsedZonTask.spec (t : ParsedZonTask) : TaskSpec where
  id := t.id
  arrivalTick := t.arrivalTick.toNat
  burstTicks := t.phases.elim (t.burstTicks.elim 0 UInt32.toNat)
    (fun phases => cpuTicks (phases.map ParsedZonTaskPhase.taskPhase))
  weight := resolveTaskWeight t.weight
  groupId := t.groupId
  sleepAfterTicks := t.sleepAfterTicks.map UInt32.toNat
  sleepDuration := resolveSleepDuration t.sleepDuration
  phases := t.phases.elim
    (t.sleepAfterTicks.map (fun after =>
      [⟨.cpu, after.toNat⟩, ⟨.wait, resolveSleepDuration t.sleepDuration⟩,
        ⟨.cpu, t.burstTicks.elim 0 UInt32.toNat - after.toNat⟩]))
    (fun phases => some (phases.map ParsedZonTaskPhase.taskPhase))
  deadlineTick := t.deadlineTick.map UInt32.toNat

theorem totalCpuTicks_eq (phases : List ParsedZonTaskPhase) {total : Nat} (h : total < 2 ^ 32) :
    totalCpuTicks phases total =
      addChecked .integerOverflow 32 total (cpuTicks (phases.map ParsedZonTaskPhase.taskPhase)) := by
  induction phases generalizing total with
  | nil => exact (if_pos h).symm
  | cons phase phases ih =>
    unfold totalCpuTicks at ih ⊢
    rw [List.foldlM_cons, List.map_cons, cpuTicks_cons]
    cases hk : phase.kind with
    | wait => simpa [hk, ParsedZonTaskPhase.taskPhase, ParsedZonTaskPhaseKind.taskPhaseKind] using ih h
    | cpu =>
      simp only [hk, ParsedZonTaskPhase.taskPhase, ParsedZonTaskPhaseKind.taskPhaseKind, if_true]
      by_cases hlt : total + phase.ticks.toNat < 2 ^ 32
      · have hadd : addChecked ValidationError.integerOverflow 32 total phase.ticks.toNat =
            .ok (total + phase.ticks.toNat) := if_pos hlt
        rw [hadd, ok_bind, ih hlt, addChecked, Nat.add_assoc]
        rfl
      · have hadd : addChecked ValidationError.integerOverflow 32 total phase.ticks.toNat = .error .integerOverflow :=
          if_neg hlt
        rw [hadd, error_bind, addChecked, if_neg (by omega)]

/-- A task that is not refused is built, or its arithmetic overflows. -/
theorem buildParsedTaskSpec_eq (t : ParsedZonTask) (h : ¬t.Refused) :
    (t.Overflows ∧ buildParsedTaskSpec t = .error .integerOverflow) ∨
      (¬t.Overflows ∧ buildParsedTaskSpec t = .ok t.spec) := by
  simp only [ParsedZonTask.Refused, not_or, not_and] at h
  unfold buildParsedTaskSpec ParsedZonTask.Overflows ParsedZonTask.spec
  cases hp : t.phases with
  | some phases =>
    have hs := h.1 (by simp [hp])
    simp only [ne_eq, not_not] at hs
    simp only [hs.1, hs.2, ne_eq, not_true_eq_false, or_self, and_false, if_false,
      totalCpuTicks_eq phases (show 0 < 2 ^ 32 by omega), addChecked, Nat.zero_add]
    by_cases hlt : cpuTicks (phases.map ParsedZonTaskPhase.taskPhase) < 2 ^ 32
    · refine Or.inr ⟨?_, by rw [if_pos hlt]; rfl⟩
      simpa using hlt
    · exact Or.inl ⟨Or.inl ⟨phases, rfl, trivial, trivial, by omega⟩, by rw [if_neg hlt]; rfl⟩
  | none =>
    have hs := h.2 hp
    cases hb : t.burstTicks with
    | none => simp [hb] at hs
    | some burst =>
      cases ha : t.sleepAfterTicks with
      | none =>
        have hd : t.sleepDuration = none := by simpa [hb, ha] using hs
        simp [hd, resolveSleepDuration]
      | some after =>
        simp only [ne_eq, not_true_eq_false, false_and, if_false]
        by_cases hlt : burst.toNat < after.toNat
        · refine Or.inl ⟨Or.inr ⟨trivial, burst, after, rfl, rfl, hlt⟩, ?_⟩
          simp [subChecked, Nat.not_le.mpr hlt]
        · refine Or.inr ⟨by simpa using hlt, ?_⟩
          simp [subChecked, Nat.not_lt.mp hlt]

end Build

/-! ## The faults of `validate` -/

section Validate

/-- How many entries of the domains name a core. -/
def matchCount (domains : List DomainSpec) (core : CoreId) : Nat :=
  (domains.map (fun d => d.cores.count core)).sum

theorem domainValidate_ne (d : DomainSpec) (k : Nat) : d.validate k ≠ .error .integerOverflow := by
  unfold DomainSpec.validate
  split_ifs <;> simp

theorem validateDomains_ne (k : Nat) (ds : List DomainSpec) : validateDomains k ds ≠ .error .integerOverflow := by
  induction ds with
  | nil => simp [validateDomains]
  | cons d ds ih =>
    refine bind_ne_error (domainValidate_ne d k) (fun _ _ => ?_)
    split_ifs <;> simp [ih]

theorem groupValidate_ne (g : GroupSpec) : g.validate ≠ .error .integerOverflow := by
  unfold GroupSpec.validate
  split_ifs <;> simp

theorem validateGroups_ne (gs : List GroupSpec) : validateGroups gs ≠ .error .integerOverflow := by
  induction gs with
  | nil => simp [validateGroups]
  | cons g gs ih =>
    refine bind_ne_error (groupValidate_ne g) (fun _ _ => ?_)
    split_ifs <;> simp [ih]

/-- The coverage loop overflows at the first core that is not covered once, if its matches do not fit a `u32`. -/
theorem validateCoverage_fault (ds : List DomainSpec) (a k : Nat) :
    validateCoverage ds (List.range' a k) = .error .integerOverflow ↔
      ∃ c, a ≤ c ∧ c < a + k ∧ (∀ d, a ≤ d → d < c → matchCount ds d = 1) ∧ 2 ^ 32 ≤ matchCount ds c := by
  induction k generalizing a with
  | zero =>
    simp only [List.range'_zero, validateCoverage, reduceCtorEq, false_iff]
    rintro ⟨c, h₁, h₂, -⟩
    omega
  | succ k ih =>
    rw [List.range'_succ, validateCoverage]
    change (if matchCount ds a ≥ 2 ^ 32 then _ else if matchCount ds a = 0 then _ else
      if matchCount ds a > 1 then _ else _) = _ ↔ _
    by_cases hone : matchCount ds a = 1
    · rw [if_neg (by omega), if_neg (by omega), if_neg (by omega), ih]
      constructor
      · rintro ⟨c, h₁, h₂, hpre, hc⟩
        refine ⟨c, by omega, by omega, fun d hd hdc => ?_, hc⟩
        by_cases hda : d = a
        · rw [hda, hone]
        · exact hpre d (by omega) hdc
      · rintro ⟨c, h₁, h₂, hpre, hc⟩
        have hca : c ≠ a := by
          rintro rfl
          omega
        exact ⟨c, by omega, by omega, fun d hd hdc => hpre d (by omega) hdc, hc⟩
    · constructor
      · intro h
        simp only [ite_error_eq_error, reduceCtorEq, and_true, and_false, false_or] at h
        rcases h with hbig | ⟨-, h₀, h₁, -⟩
        · exact ⟨a, le_refl a, by omega, fun d h₁ h₂ => by omega, hbig⟩
        · omega
      · rintro ⟨c, h₁, h₂, hpre, hc⟩
        have hca : c = a := by
          by_contra hne
          exact hone (hpre a (le_refl a) (by omega))
        rw [if_pos (by rw [← hca]; exact hc)]

/-- The loop over the tasks faults at the first task that is not accepted, if its own checks do. -/
theorem validateTasks_fault (s : ScenarioOwned) (ts : List TaskSpec) :
    validateTasks s ts = .error .integerOverflow ↔ ∃ pre t post, ts = pre ++ t :: post ∧ validateTasks s pre = .ok () ∧
      (∀ u ∈ pre, ∀ v ∈ t :: post, u.id ≠ v.id) ∧ t.validate = .error .integerOverflow := by
  induction ts with
  | nil => simp [validateTasks]
  | cons x ts ih =>
    rw [validateTasks, bind_eq_error]
    constructor
    · rintro (hx | ⟨_, hx, h⟩)
      · exact ⟨[], x, ts, rfl, rfl, by simp, hx⟩
      · simp only [ite_error_eq_error, reduceCtorEq, and_false, false_or] at h
        obtain ⟨hg, hdup, h⟩ := h
        obtain ⟨pre, t, post, rfl, hpre, hids, ht⟩ := ih.mp h
        simp only [List.any_eq_true, decide_eq_true_eq, not_exists, not_and] at hdup
        refine ⟨x :: pre, t, post, rfl, ?_, ?_, ht⟩
        · refine bind_eq_ok.mpr ⟨(), hx, ?_⟩
          rw [if_neg hg, if_neg ?_]
          · exact hpre
          · simp only [List.any_eq_true, decide_eq_true_eq, not_exists, not_and]
            exact fun y hy => hdup y (by simp [hy])
        · intro u hu v hv
          rcases List.mem_cons.mp hu with rfl | hu
          · exact hdup v (List.mem_append_right pre hv)
          · exact hids u hu v hv
    · rintro ⟨pre, t, post, hsplit, hpre, hids, ht⟩
      cases pre with
      | nil =>
        obtain ⟨rfl, rfl⟩ := List.cons.inj hsplit
        exact Or.inl ht
      | cons y pre =>
        obtain ⟨rfl, rfl⟩ := List.cons.inj hsplit
        obtain ⟨_, hx, h⟩ := bind_eq_ok.mp hpre
        simp only [ite_error_eq_ok] at h
        obtain ⟨hg, hdup, h⟩ := h
        refine Or.inr ⟨(), hx, ?_⟩
        rw [if_neg hg, if_neg ?_]
        · exact ih.mpr ⟨pre, t, post, rfl, h, fun u hu => hids u (by simp [hu]), ht⟩
        · simp only [List.any_eq_true, decide_eq_true_eq, not_exists, not_and] at hdup ⊢
          intro v hv
          rcases List.mem_append.mp hv with hv | hv
          · exact hdup v hv
          · exact hids x (by simp) v hv

/-- The phase loop overflows only if the CPU ticks do. -/
theorem validatePhases_ne {ps : List TaskPhase} {kind : TaskPhaseKind} {total : Nat}
    (h : total + cpuTicks ps < 2 ^ 32) : validatePhases ps kind total ≠ .error .integerOverflow := by
  induction ps generalizing kind total with
  | nil => simp [validatePhases]
  | cons p ps ih =>
    rw [cpuTicks_cons] at h
    unfold validatePhases
    split_ifs with hk ht
    · simp
    · simp
    · rw [not_not] at hk
      cases kind with
      | wait =>
        rw [if_neg (by simp [hk])] at h
        exact ih (by omega)
      | cpu =>
        rw [if_pos hk] at h
        refine bind_ne_error ?_ (fun a ha => ?_)
        · simp only [ne_eq, addChecked_eq_error, and_true, not_le]
          omega
        · obtain ⟨-, rfl⟩ := addChecked_eq_ok.mp ha
          exact ih (by omega)

/-- The checks of a task before its deadline check. -/
def TaskSpec.beforeDeadline (t : TaskSpec) : TaskSpec := { t with deadlineTick := none, phases := none }

/-- A task whose phases fit a `u32` overflows in the deadline check only. -/
theorem taskValidate_fault {t : TaskSpec} (h : ∀ ps, t.phases = some ps → cpuTicks ps < 2 ^ 32) :
    t.validate = .error .integerOverflow ↔ t.beforeDeadline.validate = .ok () ∧ t.deadlineTick ≠ none ∧
      2 ^ 32 ≤ t.arrivalTick + t.burstTicks := by
  have hsleep : validateSleep t.beforeDeadline = validateSleep t := rfl
  have hlast : ∀ x, validateTaskPhases t = .error x → x ≠ .integerOverflow := by
    rintro x hx rfl
    unfold validateTaskPhases at hx
    split at hx
    next phases hps =>
      simp only [ite_error_eq_error, reduceCtorEq, and_false, false_or] at hx
      have hcpu : 0 + cpuTicks phases < 2 ^ 32 := by simpa using h phases hps
      refine bind_ne_error (validatePhases_ne hcpu) (fun total _ => ?_) hx.2.2
      split_ifs <;> simp
    next => cases hx
  have hne : validateSleep t ≠ .error .integerOverflow := by
    unfold validateSleep
    split
    · split_ifs <;> simp
    · split_ifs <;> simp
  have hdead : validateDeadline t = .error .integerOverflow ↔
      t.deadlineTick ≠ none ∧ 2 ^ 32 ≤ t.arrivalTick + t.burstTicks := by
    unfold validateDeadline
    cases t.deadlineTick with
    | none => simp
    | some d =>
      simp only [bind_eq_error, addChecked_eq_error, ne_eq, reduceCtorEq, not_false_eq_true, true_and, and_true]
      refine or_iff_left ?_
      rintro ⟨a, -, ha⟩
      simp [ite_error_eq_error] at ha
  unfold TaskSpec.validate
  simp only [ite_error_eq_error, ite_error_eq_ok, reduceCtorEq, and_false, false_or, hsleep]
  constructor
  · rintro ⟨h₁, h₂, h₃, h₄, h₅, h₆⟩
    rcases bind_eq_error.mp h₆ with hs | ⟨_, hs, hd⟩
    · exact absurd hs hne
    · rcases bind_eq_error.mp hd with hd | ⟨_, -, hp⟩
      · exact ⟨⟨h₁, h₂, h₃, h₄, h₅, bind_eq_ok.mpr ⟨(), hs, rfl⟩⟩, hdead.mp hd⟩
      · exact absurd rfl (hlast _ hp)
  · rintro ⟨⟨h₁, h₂, h₃, h₄, h₅, h₆⟩, hd⟩
    obtain ⟨_, hs, -⟩ := bind_eq_ok.mp h₆
    exact ⟨h₁, h₂, h₃, h₄, h₅, bind_eq_error.mpr (Or.inr ⟨(), hs, bind_eq_error.mpr (Or.inl (hdead.mpr hd))⟩)⟩

end Validate

/-! ## Documents on which the loader overflows -/

section Loading

/-- The two spellings of a field agree. -/
def Agreed (value legacy : Option UInt32) : Prop := ∀ v l, value = some v → legacy = some l → l = v

/-- The value of a field with two spellings. -/
def resolved (value legacy : Option UInt32) : Nat := (value.or legacy).elim 1 UInt32.toNat

/-- The scenario of a document whose tasks are buildable, in unbounded arithmetic. -/
def ParsedZonScenario.scenario (parsed : ParsedZonScenario) : ScenarioOwned where
  name := parsed.name
  roundRobinQuantum := resolved parsed.quantum parsed.rrQuantum
  coreCount := resolved parsed.coreCount parsed.cpuCount
  domains := (parsed.topologyDomains.getD []).map ParsedZonDomain.domainSpec
  groups := (parsed.groups.getD []).map ParsedZonGroup.groupSpec
  tasks := parsed.tasks.zipIdx.map (fun t => { t.1.spec with inputOrder := t.2 })

/-- The loader comes to `normalizeAndValidate`. -/
structure ParsedZonScenario.Reaches (parsed : ParsedZonScenario) (expectedName : Bytes) : Prop where
  quantum : Agreed parsed.quantum parsed.rrQuantum
  cores : Agreed parsed.coreCount parsed.cpuCount
  built : ∀ t ∈ parsed.tasks, t.Buildable
  name : expectedName = [] ∨ expectedName = parsed.name

/-- The checks of `validate` on single fields pass. -/
structure ScenarioOwned.Headed (s : ScenarioOwned) : Prop where
  name : s.name ≠ []
  quantum : s.roundRobinQuantum ≠ 0
  cores : s.coreCount ≠ 0
  tasks : s.tasks ≠ []

/-- The checks of `validate` on the domains pass. -/
def ScenarioOwned.Covered (s : ScenarioOwned) : Prop :=
  s.domains ≠ [] → validateDomains s.coreCount s.domains = .ok () ∧
    validateCoverage s.domains (List.range s.coreCount) = .ok ()

/-- The documents on which an operation of the loader leaves its range, by the operation that is reached. -/
inductive Traps (parsed : ParsedZonScenario) (expectedName : Bytes) : Prop
  /-- The CPU ticks of a task's phases, or its burst without the ticks before its sleep. -/
  | build (hq : Agreed parsed.quantum parsed.rrQuantum) (hc : Agreed parsed.coreCount parsed.cpuCount)
      (pre : List ParsedZonTask) (t : ParsedZonTask) (post : List ParsedZonTask)
      (hsplit : parsed.tasks = pre ++ t :: post) (hpre : ∀ u ∈ pre, u.Buildable) (ht : t.Overflows)
  /-- The index of a task as its input order. -/
  | index (hr : parsed.Reaches expectedName) (hlen : 2 ^ 32 < parsed.tasks.length)
  /-- The count of the domains of a core. -/
  | coverage (hr : parsed.Reaches expectedName) (hlen : parsed.tasks.length ≤ 2 ^ 32) (hs : parsed.scenario.Headed)
      (hd : validateDomains parsed.scenario.coreCount parsed.scenario.domains = .ok ()) (c : CoreId)
      (hc : c < parsed.scenario.coreCount) (hpre : ∀ d < c, matchCount parsed.scenario.domains d = 1)
      (hm : 2 ^ 32 ≤ matchCount parsed.scenario.domains c)
  /-- The earliest completion of a task with a deadline. -/
  | deadline (hr : parsed.Reaches expectedName) (hlen : parsed.tasks.length ≤ 2 ^ 32) (hs : parsed.scenario.Headed)
      (hcov : parsed.scenario.Covered) (hg : validateGroups parsed.scenario.groups = .ok ())
      (pre : List TaskSpec) (t : TaskSpec) (post : List TaskSpec) (hsplit : parsed.scenario.tasks = pre ++ t :: post)
      (hpre : validateTasks parsed.scenario pre = .ok ()) (hids : ∀ u ∈ pre, ∀ v ∈ t :: post, u.id ≠ v.id)
      (hb : t.beforeDeadline.validate = .ok ()) (hd : t.deadlineTick ≠ none)
      (hm : 2 ^ 32 ≤ t.arrivalTick + t.burstTicks)

variable {parsed : ParsedZonScenario} {expectedName : Bytes}

theorem resolveParsed_eq (conflict : ValidationError) (value legacy : Option UInt32) :
    (Agreed value legacy ∧ resolveParsed conflict value legacy = .ok (resolved value legacy)) ∨
      (¬Agreed value legacy ∧ resolveParsed conflict value legacy = .error conflict) := by
  unfold Agreed resolveParsed resolved
  cases value with
  | none => cases legacy <;> simp
  | some v =>
    cases legacy with
    | none => simp
    | some l =>
      by_cases h : l = v
      · simp [h]
      · simp [h]

theorem buildParsedTaskSpec_refused {t : ParsedZonTask} (h : t.Refused) :
    ∃ e, buildParsedTaskSpec t = .error e ∧ e ≠ .integerOverflow := by
  unfold buildParsedTaskSpec
  rcases h with ⟨hp, hs⟩ | ⟨hp, hs⟩
  · exact ⟨.invalidTaskPhases, if_pos ⟨hp, hs⟩, by simp⟩
  · simp only [hp, ne_eq, not_true_eq_false, false_and, if_false]
    cases hb : t.burstTicks with
    | none => exact ⟨.zeroBurstTicks, rfl, by simp⟩
    | some burst =>
      have hs' : t.sleepAfterTicks = none ∧ t.sleepDuration ≠ none := by simpa [hb] using hs
      refine ⟨.invalidSleepDuration, ?_, by simp⟩
      simp [hs'.1, hs'.2]

theorem buildParsedTaskSpec_fault (t : ParsedZonTask) :
    buildParsedTaskSpec t = .error .integerOverflow ↔ ¬t.Refused ∧ t.Overflows := by
  by_cases hr : t.Refused
  · obtain ⟨e, he, hne⟩ := buildParsedTaskSpec_refused hr
    simp [he, hne, hr]
  · rcases buildParsedTaskSpec_eq t hr with ⟨ho, h⟩ | ⟨ho, h⟩
    · simp [h, hr, ho]
    · simp [h, ho]

theorem buildParsedTaskSpec_ok (t : ParsedZonTask) : (∃ s, buildParsedTaskSpec t = .ok s) ↔ t.Buildable := by
  unfold ParsedZonTask.Buildable
  by_cases hr : t.Refused
  · obtain ⟨e, he, -⟩ := buildParsedTaskSpec_refused hr
    simp [he, hr]
  · rcases buildParsedTaskSpec_eq t hr with ⟨ho, h⟩ | ⟨ho, h⟩
    · simp [h, ho]
    · simp [h, ho, hr]

/-- A task that overflows is not refused. -/
theorem ParsedZonTask.Overflows.not_refused {t : ParsedZonTask} (h : t.Overflows) : ¬t.Refused := by
  unfold ParsedZonTask.Refused
  rcases h with ⟨phases, hp, ha, hd, -⟩ | ⟨hp, burst, after, hb, ha, -⟩
  · simp [hp, ha, hd]
  · simp [hp, hb, ha]

/-- The CPU ticks of a built task fit a `u32`. -/
theorem ParsedZonTask.Buildable.cpuTicks_lt {t : ParsedZonTask} (h : t.Buildable) (ps : List TaskPhase)
    (hps : t.spec.phases = some ps) : cpuTicks ps < 2 ^ 32 := by
  obtain ⟨hr, ho⟩ := h
  simp only [ParsedZonTask.spec] at hps
  cases hp : t.phases with
  | some phases =>
    obtain rfl : phases.map ParsedZonTaskPhase.taskPhase = ps := by simpa [hp] using hps
    by_contra hge
    refine ho (Or.inl ⟨phases, hp, ?_, ?_, by omega⟩)
    · by_contra hne
      exact hr (Or.inl ⟨by simp [hp], Or.inl hne⟩)
    · by_contra hne
      exact hr (Or.inl ⟨by simp [hp], Or.inr hne⟩)
  | none =>
    cases ha : t.sleepAfterTicks with
    | none => simp [hp, ha] at hps
    | some after =>
      cases hb : t.burstTicks with
      | none => exact absurd (Or.inr ⟨hp, Or.inl hb⟩) hr
      | some burst =>
        simp only [hp, ha, hb, Option.elim_none, Option.elim_some, Option.map_some, Option.some.injEq] at hps
        subst hps
        have hle : after.toNat ≤ burst.toNat := by
          by_contra hlt
          exact ho (Or.inr ⟨hp, burst, after, hb, ha, by omega⟩)
        have hlt := burst.toNat_lt
        simp only [cpuTicks_cons, cpuTicks_nil, if_true, reduceCtorEq, if_false]
        omega

theorem scenarioValidate_fault (s : ScenarioOwned) : s.validate = .error .integerOverflow ↔ s.Headed ∧
    ((s.domains ≠ [] ∧ validateDomains s.coreCount s.domains = .ok () ∧
        validateCoverage s.domains (List.range s.coreCount) = .error .integerOverflow) ∨
      (s.Covered ∧ validateGroups s.groups = .ok () ∧ validateTasks s s.tasks = .error .integerOverflow)) := by
  -- the groups and the tasks, after the domains have passed
  have htail : (validateGroups s.groups >>= fun _ => validateTasks s s.tasks) = .error .integerOverflow ↔
      validateGroups s.groups = .ok () ∧ validateTasks s s.tasks = .error .integerOverflow := by
    rw [bind_eq_error, or_iff_right (validateGroups_ne _)]
    constructor
    · rintro ⟨_, hg, h⟩
      exact ⟨hg, h⟩
    · rintro ⟨hg, h⟩
      exact ⟨(), hg, h⟩
  unfold ScenarioOwned.validate ScenarioOwned.Covered
  simp only [ite_error_eq_error, reduceCtorEq, and_false, false_or]
  have hhead : (¬s.name = [] ∧ ¬s.roundRobinQuantum = 0 ∧ ¬s.coreCount = 0 ∧ ¬s.tasks = []) ↔ s.Headed := by
    constructor
    · rintro ⟨h₁, h₂, h₃, h₄⟩
      exact ⟨h₁, h₂, h₃, h₄⟩
    · exact fun h => ⟨h.name, h.quantum, h.cores, h.tasks⟩
  rw [← hhead, and_assoc, and_assoc, and_assoc]
  refine and_congr_right (fun _ => and_congr_right (fun _ => and_congr_right (fun _ => and_congr_right (fun _ => ?_))))
  by_cases hd : s.domains = []
  · simpa [hd] using htail
  · simp only [ne_eq, hd, not_false_eq_true, if_true, true_and, forall_const]
    rw [bind_eq_error, or_iff_right (validateDomains_ne _ _)]
    constructor
    · rintro ⟨_, hdom, h⟩
      rcases bind_eq_error.mp h with h | ⟨_, hcov, h⟩
      · exact Or.inl ⟨hdom, h⟩
      · exact Or.inr ⟨⟨hdom, hcov⟩, htail.mp h⟩
    · rintro (⟨hdom, h⟩ | ⟨⟨hdom, hcov⟩, h⟩)
      · exact ⟨(), hdom, bind_eq_error.mpr (Or.inl h)⟩
      · exact ⟨(), hdom, bind_eq_error.mpr (Or.inr ⟨(), hcov, htail.mpr h⟩)⟩

/-- The numbering of the tasks faults with more than `2 ^ 32` tasks. -/
theorem orderTasks_eq (ts : List TaskSpec) :
    (ts.length ≤ 2 ^ 32 ∧
      ts.zipIdx.mapM orderTask = .ok (ts.zipIdx.map (fun t => { t.1 with inputOrder := t.2 }))) ∨
    (2 ^ 32 < ts.length ∧ ts.zipIdx.mapM orderTask = .error .integerOverflow) := by
  by_cases hlen : ts.length ≤ 2 ^ 32
  · refine Or.inl ⟨hlen, mapM_eq_ok.mpr ?_⟩
    rw [List.forall₂_map_right_iff, List.forall₂_same]
    intro t ht
    have := List.snd_lt_of_mem_zipIdx ht
    exact if_pos (by omega)
  · refine Or.inr ⟨by omega, ?_⟩
    cases h : ts.zipIdx.mapM orderTask with
    | ok tasks =>
      have hmem : (ts.get ⟨2 ^ 32, by omega⟩, 2 ^ 32) ∈ ts.zipIdx := by
        rw [List.mem_zipIdx_iff_getElem?]
        exact List.getElem?_eq_getElem (by omega)
      obtain ⟨t, -, ht⟩ := exists_of_forall₂ (mapM_eq_ok.mp h) hmem
      simp [orderTask] at ht
    | error e =>
      obtain ⟨pre, t, post, -, -, ht⟩ := mapM_eq_error.mp h
      simp only [orderTask] at ht
      split_ifs at ht
      rw [Except.error.inj ht]

theorem finalizeScenario_eq (s : ScenarioOwned) (expectedName : Bytes) :
    (¬(expectedName = [] ∨ expectedName = s.name) ∧
      finalizeScenario s expectedName = .error .scenarioNameMismatch) ∨
    ((expectedName = [] ∨ expectedName = s.name) ∧ finalizeScenario s expectedName = normalizeAndValidate s) := by
  unfold finalizeScenario
  by_cases h : expectedName ≠ [] ∧ expectedName ≠ s.name
  · exact Or.inl ⟨by simpa using h, if_pos h⟩
  · refine Or.inr ⟨?_, if_neg h⟩
    by_contra hne
    exact h (by simpa using hne)

/-- The scenario a document is built to, before its tasks are numbered. -/
def ParsedZonScenario.unordered (parsed : ParsedZonScenario) : ScenarioOwned :=
  { parsed.scenario with tasks := parsed.tasks.map ParsedZonTask.spec }

theorem ParsedZonScenario.ordered_tasks (parsed : ParsedZonScenario) :
    parsed.unordered.tasks.zipIdx.map (fun t => { t.1 with inputOrder := t.2 }) = parsed.scenario.tasks := by
  simp only [ParsedZonScenario.unordered, ParsedZonScenario.scenario, List.zipIdx_map, List.map_map]
  rfl

/-- A document whose tasks are buildable is built. -/
theorem loadParsed_built (hq : Agreed parsed.quantum parsed.rrQuantum)
    (hc : Agreed parsed.coreCount parsed.cpuCount) (hb : ∀ t ∈ parsed.tasks, t.Buildable) :
    loadParsed parsed expectedName = finalizeScenario parsed.unordered expectedName := by
  have hquantum : resolveParsedQuantum parsed = .ok parsed.scenario.roundRobinQuantum := by
    rcases resolveParsed_eq .invalidQuantum parsed.quantum parsed.rrQuantum with ⟨-, h⟩ | ⟨hn, -⟩
    · exact h
    · exact absurd hq hn
  have hcores : resolveParsedCoreCount parsed = .ok parsed.scenario.coreCount := by
    rcases resolveParsed_eq .invalidCoreCount parsed.coreCount parsed.cpuCount with ⟨-, h⟩ | ⟨hn, -⟩
    · exact h
    · exact absurd hc hn
  have htasks : parsed.tasks.mapM buildParsedTaskSpec = .ok (parsed.tasks.map ParsedZonTask.spec) := by
    rw [mapM_eq_ok, List.forall₂_map_right_iff, List.forall₂_same]
    intro t ht
    rcases buildParsedTaskSpec_eq t (hb t ht).1 with ⟨ho, -⟩ | ⟨-, h⟩
    · exact absurd ho (hb t ht).2
    · exact h
  unfold loadParsed
  rw [hquantum, ok_bind, hcores, ok_bind]
  simp only [htasks, ok_bind]
  rfl

/-- A document with a task that is not buildable faults if the first such task overflows. -/
theorem loadParsed_unbuilt (hb : ¬∀ t ∈ parsed.tasks, t.Buildable) :
    loadParsed parsed expectedName = .error .integerOverflow ↔
      Agreed parsed.quantum parsed.rrQuantum ∧ Agreed parsed.coreCount parsed.cpuCount ∧
        parsed.tasks.mapM buildParsedTaskSpec = .error .integerOverflow := by
  have hnot : ∀ specs, parsed.tasks.mapM buildParsedTaskSpec ≠ .ok specs := by
    intro specs hspecs
    refine hb (fun t ht => (buildParsedTaskSpec_ok t).mp ?_)
    obtain ⟨spec, -, h⟩ := exists_of_forall₂ (mapM_eq_ok.mp hspecs) ht
    exact ⟨spec, h⟩
  unfold loadParsed resolveParsedQuantum resolveParsedCoreCount
  rcases resolveParsed_eq .invalidQuantum parsed.quantum parsed.rrQuantum with ⟨hq, h⟩ | ⟨hq, h⟩
  · rcases resolveParsed_eq .invalidCoreCount parsed.coreCount parsed.cpuCount with ⟨hc, h'⟩ | ⟨hc, h'⟩
    · simp only [h, h', ok_bind, bind_eq_error, hq, hc, true_and]
      refine or_iff_left ?_
      rintro ⟨specs, hspecs, -⟩
      exact hnot specs hspecs
    · simp [h, h', hc]
  · simp [h, hq]

theorem normalizeAndValidate_fault (parsed : ParsedZonScenario) :
    normalizeAndValidate parsed.unordered = .error .integerOverflow ↔ 2 ^ 32 < parsed.tasks.length ∨
      (parsed.tasks.length ≤ 2 ^ 32 ∧ parsed.scenario.validate = .error .integerOverflow) := by
  have hlen : parsed.unordered.tasks.length = parsed.tasks.length := by simp [ParsedZonScenario.unordered]
  have hord := parsed.ordered_tasks
  unfold normalizeAndValidate
  rcases orderTasks_eq parsed.unordered.tasks with ⟨hle, h⟩ | ⟨hlt, h⟩
  · rw [hlen] at hle
    rw [h, ok_bind, hord, or_iff_right (by omega)]
    simp only [hle, true_and]
    constructor
    · intro hv
      rcases bind_eq_error.mp hv with hv | ⟨_, -, hv⟩
      · exact hv
      · cases hv
    · exact fun hv => bind_eq_error.mpr (Or.inl hv)
  · rw [hlen] at hlt
    rw [h, error_bind]
    exact ⟨fun _ => Or.inl hlt, fun _ => rfl⟩

/-- A document whose tasks are buildable overflows behind the loop over them only. -/
theorem loadParsed_built_fault (hb : ∀ t ∈ parsed.tasks, t.Buildable) :
    loadParsed parsed expectedName = .error .integerOverflow ↔ parsed.Reaches expectedName ∧
      (2 ^ 32 < parsed.tasks.length ∨
        (parsed.tasks.length ≤ 2 ^ 32 ∧ parsed.scenario.validate = .error .integerOverflow)) := by
  by_cases hagree : Agreed parsed.quantum parsed.rrQuantum ∧ Agreed parsed.coreCount parsed.cpuCount
  · obtain ⟨hq, hc⟩ := hagree
    rw [loadParsed_built hq hc hb, ← normalizeAndValidate_fault]
    rcases finalizeScenario_eq parsed.unordered expectedName with ⟨hname, h⟩ | ⟨hname, h⟩
    · rw [h]
      constructor
      · intro hf
        cases hf
      · exact fun hr => absurd hr.1.name hname
    · rw [h]
      exact ⟨fun hf => ⟨⟨hq, hc, hb, hname⟩, hf⟩, fun hf => hf.2⟩
  · constructor
    · intro h
      unfold loadParsed resolveParsedQuantum resolveParsedCoreCount at h
      rcases resolveParsed_eq .invalidQuantum parsed.quantum parsed.rrQuantum with ⟨hq, h₁⟩ | ⟨-, h₁⟩
      · rcases resolveParsed_eq .invalidCoreCount parsed.coreCount parsed.cpuCount with ⟨hc, -⟩ | ⟨-, h₂⟩
        · exact absurd ⟨hq, hc⟩ hagree
        · simp [h₁, h₂] at h
      · simp [h₁] at h
    · exact fun hr => absurd ⟨hr.1.quantum, hr.1.cores⟩ hagree

/-- The tasks of a built document overflow in their deadline check only. -/
theorem scenario_taskValidate_fault (hb : ∀ t ∈ parsed.tasks, t.Buildable) {t : TaskSpec}
    (ht : t ∈ parsed.scenario.tasks) : t.validate = .error .integerOverflow ↔
      t.beforeDeadline.validate = .ok () ∧ t.deadlineTick ≠ none ∧ 2 ^ 32 ≤ t.arrivalTick + t.burstTicks := by
  refine taskValidate_fault (fun ps hps => ?_)
  obtain ⟨⟨x, k⟩, hx, rfl⟩ := List.mem_map.mp ht
  exact (hb x (List.fst_mem_of_mem_zipIdx hx)).cpuTicks_lt ps hps

/-- The loader overflows exactly on the documents of `Traps`. -/
theorem loadParsed_fault (parsed : ParsedZonScenario) (expectedName : Bytes) :
    loadParsed parsed expectedName = .error .integerOverflow ↔ Traps parsed expectedName := by
  by_cases hb : ∀ t ∈ parsed.tasks, t.Buildable
  · rw [loadParsed_built_fault hb]
    constructor
    · rintro ⟨hr, hlen | ⟨hlen, h⟩⟩
      · exact .index hr hlen
      · obtain ⟨hs, ⟨-, hd, h⟩ | ⟨hcov, hg, h⟩⟩ := (scenarioValidate_fault _).mp h
        · rw [List.range_eq_range', validateCoverage_fault] at h
          obtain ⟨c, -, hc, hpre, hm⟩ := h
          exact .coverage hr hlen hs hd c (by simpa using hc) (fun d hd => hpre d (Nat.zero_le d) hd) hm
        · obtain ⟨pre, t, post, hsplit, hpre, hids, hv⟩ := (validateTasks_fault _ _).mp h
          obtain ⟨h₁, h₂, h₃⟩ := (scenario_taskValidate_fault hb (by simp [hsplit])).mp hv
          exact .deadline hr hlen hs hcov hg pre t post hsplit hpre hids h₁ h₂ h₃
    · intro h
      cases h with
      | build hq hc pre t post hsplit hpre ht => exact absurd ht (hb t (by simp [hsplit])).2
      | index hr hlen => exact ⟨hr, Or.inl hlen⟩
      | coverage hr hlen hs hd c hc hpre hm =>
        refine ⟨hr, Or.inr ⟨hlen, (scenarioValidate_fault _).mpr ⟨hs, Or.inl ⟨?_, hd, ?_⟩⟩⟩⟩
        · intro hnil
          simp [hnil, matchCount] at hm
        · rw [List.range_eq_range', validateCoverage_fault]
          exact ⟨c, Nat.zero_le c, by simpa using hc, fun d _ => hpre d, hm⟩
      | deadline hr hlen hs hcov hg pre t post hsplit hpre hids h₁ h₂ h₃ =>
        refine ⟨hr, Or.inr ⟨hlen, (scenarioValidate_fault _).mpr ⟨hs, Or.inr ⟨hcov, hg, ?_⟩⟩⟩⟩
        refine (validateTasks_fault _ _).mpr ⟨pre, t, post, hsplit, hpre, hids, ?_⟩
        exact (scenario_taskValidate_fault hb (by simp [hsplit])).mpr ⟨h₁, h₂, h₃⟩
  · rw [loadParsed_unbuilt hb]
    constructor
    · rintro ⟨hq, hc, h⟩
      obtain ⟨pre, t, post, hsplit, hpre, ht⟩ := mapM_eq_error.mp h
      exact .build hq hc pre t post hsplit (fun u hu => (buildParsedTaskSpec_ok u).mp (hpre u hu))
        ((buildParsedTaskSpec_fault t).mp ht).2
    · intro h
      cases h with
      | build hq hc pre t post hsplit hpre ht =>
        refine ⟨hq, hc, mapM_eq_error.mpr ⟨pre, t, post, hsplit, fun u hu => ?_, ?_⟩⟩
        · exact (buildParsedTaskSpec_ok u).mpr (hpre u hu)
        · exact (buildParsedTaskSpec_fault t).mpr ⟨ht.not_refused, ht⟩
      | index hr => exact absurd hr.built hb
      | coverage hr => exact absurd hr.built hb
      | deadline hr => exact absurd hr.built hb

/-- What the loader promises: a validated scenario or a declared error. -/
def LoadsSafely (parsed : ParsedZonScenario) (expectedName : Bytes) : Prop :=
  (∃ s, loadParsed parsed expectedName = .ok s ∧ s.validate = .ok ()) ∨
    ∃ e, loadParsed parsed expectedName = .error e ∧ e ≠ .integerOverflow

/-- What the loader returns is validated. -/
theorem loadParsed_validated {s : ScenarioOwned} (h : loadParsed parsed expectedName = .ok s) :
    s.validate = .ok () := by
  unfold loadParsed at h
  obtain ⟨q, -, h⟩ := bind_eq_ok.mp h
  obtain ⟨c, -, h⟩ := bind_eq_ok.mp h
  obtain ⟨tasks, -, h⟩ := bind_eq_ok.mp h
  unfold finalizeScenario at h
  obtain ⟨-, h⟩ := ite_error_eq_ok.mp h
  obtain ⟨ordered, -, h⟩ := bind_eq_ok.mp h
  obtain ⟨_, hv, h⟩ := bind_eq_ok.mp h
  rw [← Except.ok.inj h]
  exact hv

/-- **When loading is safe.** The loader returns a validated scenario or a declared error on every document but those on
which one of its `u32` operations leaves its range. -/
theorem loadParsed_safe_iff (parsed : ParsedZonScenario) (expectedName : Bytes) :
    LoadsSafely parsed expectedName ↔ ¬Traps parsed expectedName := by
  rw [← loadParsed_fault]
  unfold LoadsSafely
  cases h : loadParsed parsed expectedName with
  | ok s => simp [loadParsed_validated h]
  | error e => simp

/-- A task that sleeps after two ticks of a burst of one. -/
def oversleeper : ParsedZonScenario where
  name := [115]
  tasks := [{ id := [97], arrivalTick := 0, burstTicks := some 1, sleepAfterTicks := some 2, sleepDuration := some 1 }]

/-- `burst_ticks - sleep_after_ticks` underflows before `TaskSpec.validate` can refuse the task. -/
theorem oversleeper_traps : ¬LoadsSafely oversleeper [] := by
  have h : loadParsed oversleeper [] = .error .integerOverflow := by decide
  rintro (⟨s, hs, -⟩ | ⟨e, he, hne⟩)
  · rw [h] at hs
    cases hs
  · rw [h] at he
    exact hne (Except.error.inj he).symm

end Loading

end Exasphere.Sim

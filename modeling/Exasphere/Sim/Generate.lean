import Mathlib.Data.Bool.AllAny
import Exasphere.Lib.Draw
import Exasphere.Sim.Loading
import Exasphere.Sim.Results
import Exasphere.Sim.Shrink

/-!
# Generated scenarios (`testing/property.zig`)

`generateScenario` draws a scenario, and `materialize` writes it out as a document, loads that document and validates
what was loaded. `Sound` is what the two need of each other: a sound scenario materializes to the scenario it describes
(`materialize_ok`), every generated scenario is sound when the options leave room in a `u32`
(`generateScenario_within`, `Within.sound`), and so is every candidate of the shrinker (`Sound.of_candidate`).
-/

namespace Exasphere.Sim

open Exasphere.Lib

/-! ## The generator -/

/-- What the generator uses of `std.Random`: a source of words, seeded by a number, and its draws. -/
structure Random (σ : Type) where
  init : UInt64 → σ
  boolean : σ → Bool × σ
  /-- A number of the given width from `0` to the bound. -/
  uintAtMost : (bits atMost : Nat) → σ → Nat × σ
  uintAtMost_le : ∀ bits atMost s, (uintAtMost bits atMost s).1 ≤ atMost

def Random.intRangeAtMost {σ : Type} (random : Random σ) (bits atLeast atMost : Nat) (s : σ) : Nat × σ :=
  let drawn := random.uintAtMost bits (atMost - atLeast) s
  (atLeast + drawn.1, drawn.2)

structure GeneratorOptions where
  seed : UInt64
  maxTasks : UInt8 := 5
  maxArrivalTick : UInt32 := 6
  maxBurstTicks : UInt32 := 6
  maxCoreCount : UInt32 := 4
  allowWeights : Bool := true
  allowDeadlines : Bool := true
  allowGroups : Bool := true
  allowTopology : Bool := true
  deriving DecidableEq, Repr

section Generator

variable {σ : Type} (random : Random σ) (options : GeneratorOptions)

/-- `allowed and random.boolean()`: nothing is drawn for what is not allowed. -/
def drawAllowed (allowed : Bool) : StateT σ (Except ValidationError) Bool :=
  if allowed then draw random.boolean else pure false

def generateGroup (index : Nat) : StateT σ (Except ValidationError) GeneratedGroup := do
  let quota ← drawAllowed random (decide (index = 0))
  return { weight := if index = 0 then 2048 else 768, quotaTicks := if quota then 1 else 0 }

def generateWeight : StateT σ (Except ValidationError) (Option UInt32) := do
  if ← drawAllowed random options.allowWeights then
    return match ← draw (random.uintAtMost 8 3) with
      | 0 => some 256
      | 1 => some 512
      | 2 => some 2048
      | _ => some 4096
  else return none

/-- The deadline of a task; its sum is taken in a `u32`. -/
def generateDeadline (arrivalTick burstTicks : Nat) : StateT σ (Except ValidationError) (Option UInt32) := do
  if ← drawAllowed random options.allowDeadlines then
    let earliest ← checked (addChecked .integerOverflow 32 arrivalTick burstTicks)
    let slack ← draw (random.intRangeAtMost 32 0 6)
    let deadline ← checked (addChecked .integerOverflow 32 earliest slack)
    return some (UInt32.ofNat deadline)
  else return none

def generateGroupIndex (groupCount : Nat) : StateT σ (Except ValidationError) (Option Nat) :=
  if groupCount = 0 then pure none else some <$> draw (random.uintAtMost 64 (groupCount - 1))

def generateTask (groupCount index : Nat) : StateT σ (Except ValidationError) GeneratedTask := do
  let arrivalTick ← draw (random.intRangeAtMost 32 0 options.maxArrivalTick.toNat)
  let burstTicks ← draw (random.intRangeAtMost 32 1 (max options.maxBurstTicks.toNat 1))
  let weight ← generateWeight random options
  let deadlineTick ← generateDeadline random options arrivalTick burstTicks
  let groupIndex ← generateGroupIndex random groupCount
  return { arrivalTick := UInt32.ofNat arrivalTick
           burstTicks := UInt32.ofNat burstTicks
           weight
           groupIndex := if groupCount ≠ 0 ∧ index = 0 then some 0 else groupIndex
           deadlineTick }

def generateRawCoreCount (taskCount : Nat) : StateT σ (Except ValidationError) Nat :=
  if taskCount > 1 then draw (random.intRangeAtMost 32 1 (max 1 options.maxCoreCount.toNat)) else pure 1

def generateDrawn : StateT σ (Except ValidationError) GeneratedScenario := do
  let taskCount ← draw (random.intRangeAtMost 8 1 (max options.maxTasks.toNat 1))
  let rawCoreCount ← generateRawCoreCount random options taskCount
  let coreCount := min rawCoreCount taskCount
  let useGroups ← drawAllowed random (options.allowGroups && decide (taskCount ≥ 2))
  let groupCount := if useGroups then 2 else 0
  let groups ← (List.range groupCount).mapM (generateGroup random)
  let tasks ← (List.range taskCount).mapM (generateTask random options groupCount)
  let roundRobinQuantum ← draw (random.intRangeAtMost 32 1 4)
  let useTopologyDomains ← drawAllowed random (options.allowTopology && decide (coreCount > 1))
  return { name := utf8 "generated-property-" ++ decimal options.seed.toNat
           roundRobinQuantum := UInt32.ofNat roundRobinQuantum
           coreCount := UInt32.ofNat coreCount
           useTopologyDomains, groups, tasks }

def generateScenario : Except ValidationError GeneratedScenario :=
  (generateDrawn random options (random.init options.seed)).map Prod.fst

end Generator

/-! ## The document of a scenario -/

namespace GeneratedScenario

variable (s : GeneratedScenario)

def taskId (index : Nat) : Bytes := utf8 "T" ++ decimal index
def groupId (index : Nat) : Bytes := utf8 "g" ++ decimal index

def writeCoreList (start stop : Nat) : List UInt32 := (List.range' start (stop - start)).map UInt32.ofNat

/-- The two halves of the cores. The first is rounded up in a `u32`. -/
def renderDomains : Except ValidationError (List ParsedZonDomain) := do
  let count ← addChecked .integerOverflow 32 s.coreCount.toNat 1
  .ok [⟨utf8 "node0", writeCoreList 0 (count / 2)⟩, ⟨utf8 "node1", writeCoreList (count / 2) s.coreCount.toNat⟩]

def renderTopology : Except ValidationError (Option (List ParsedZonDomain)) :=
  if s.usesTopologyDomains then some <$> s.renderDomains else .ok none

def renderGroup (group : GeneratedGroup × Nat) : ParsedZonGroup :=
  { id := groupId group.2, weight := some group.1.weight, quotaTicks := some group.1.quotaTicks }

def renderTask (task : GeneratedTask × Nat) : ParsedZonTask :=
  { id := taskId task.2
    arrivalTick := task.1.arrivalTick
    burstTicks := some task.1.burstTicks
    weight := task.1.weight
    groupId := task.1.groupIndex.map groupId
    deadlineTick := task.1.deadlineTick }

/-- What the text of `renderZonAlloc` decodes to, for a name that needs no escapes in a string. -/
def renderZon : Except ValidationError ParsedZonScenario := do
  let topologyDomains ← s.renderTopology
  .ok { name := s.name
        quantum := some s.roundRobinQuantum
        coreCount := some s.coreCount
        topologyDomains
        groups := if s.groups.length ≠ 0 then some (s.groups.zipIdx.map renderGroup) else none
        tasks := s.tasks.zipIdx.map renderTask }

def materialize : Except ValidationError ScenarioOwned := do
  let parsed ← s.renderZon
  let scenario ← loadParsed parsed s.name
  scenario.validate
  .ok scenario

end GeneratedScenario

/-! ## What the generator draws -/

section Drawn

variable {σ : Type} {random : Random σ} {options : GeneratorOptions}

theorem Random.intRangeAtMost_mem (random : Random σ) (bits : Nat) {atLeast atMost : Nat} (h : atLeast ≤ atMost)
    (s : σ) : atLeast ≤ (random.intRangeAtMost bits atLeast atMost s).1 ∧
      (random.intRangeAtMost bits atLeast atMost s).1 ≤ atMost := by
  have hle := random.uintAtMost_le bits (atMost - atLeast) s
  simp only [Random.intRangeAtMost]
  omega

/-- A draw from a range gives a number of the range. -/
theorem draw_intRange (bits : Nat) {atLeast atMost : Nat} (h : atLeast ≤ atMost) :
    Gives (ε := ValidationError) (fun k => atLeast ≤ k ∧ k ≤ atMost)
      (draw (random.intRangeAtMost bits atLeast atMost)) :=
  .draw (random.intRangeAtMost_mem bits h)

theorem drawAllowed_gives (allowed : Bool) :
    Gives (fun drawn => drawn = true → allowed = true) (drawAllowed random allowed) :=
  .ite (fun h => .draw fun _ _ => h) fun _ => .pure fun h => nomatch h

/-- The bounds of a generated group. -/
structure GroupWithin (group : GeneratedGroup) : Prop where
  weight_pos : 0 < group.weight.toNat
  weight_le : group.weight.toNat ≤ maxTaskWeight
  quota : group.quotaTicks.toNat ≤ 1

theorem generateGroup_gives (index : Nat) : Gives GroupWithin (generateGroup random index) := by
  refine (drawAllowed_gives _).map fun quota _ => ?_
  constructor <;> split_ifs <;> decide

theorem generateWeight_gives : Gives (fun weight => ∀ w ∈ weight, options.allowWeights = true ∧ 0 < w.toNat ∧
    w.toNat ≤ maxTaskWeight) (generateWeight random options) := by
  refine (drawAllowed_gives _).bind fun allowed hallowed => .ite (fun h => ?_) fun _ => .pure (by simp)
  refine (Gives.draw (P := fun _ => True) fun _ => trivial).map fun drawn _ => ?_
  have hw := hallowed h
  split <;> simp [hw, maxTaskWeight]

/-- The options leave room for every tick of a scenario in a `u32`. -/
def GeneratorOptions.Fits (options : GeneratorOptions) : Prop :=
  options.maxArrivalTick.toNat + max options.maxTasks.toNat 1 * max options.maxBurstTicks.toNat 1 + 6 < 2 ^ 32 - 1

/-- A task may come last and have the longest burst. -/
theorem GeneratorOptions.Fits.burst (h : options.Fits) :
    options.maxArrivalTick.toNat + max options.maxBurstTicks.toNat 1 + 6 < 2 ^ 32 - 1 := by
  unfold GeneratorOptions.Fits at h
  have hle : 1 * max options.maxBurstTicks.toNat 1 ≤ max options.maxTasks.toNat 1 * max options.maxBurstTicks.toNat 1 :=
    Nat.mul_le_mul_right _ (Nat.le_max_right _ _)
  omega

theorem generateDeadline_gives {arrivalTick burstTicks : Nat} (h : arrivalTick + burstTicks + 6 < 2 ^ 32) :
    Gives (fun deadline => ∀ d ∈ deadline, options.allowDeadlines = true ∧ arrivalTick + burstTicks ≤ d.toNat ∧
      d.toNat ≤ arrivalTick + burstTicks + 6) (generateDeadline random options arrivalTick burstTicks) := by
  refine (drawAllowed_gives _).bind fun allowed hallowed => .ite (fun h => ?_) fun _ => .pure (by simp)
  refine (Gives.checked (addChecked_eq_ok.mpr ⟨by omega, rfl⟩)).bind fun earliest he => ?_
  refine (draw_intRange 32 (Nat.zero_le 6)).bind fun slack hslack => ?_
  refine (Gives.checked (addChecked_eq_ok.mpr ⟨by omega, rfl⟩)).map fun deadline hd d hmem => ?_
  obtain rfl := Option.mem_some_iff.mp hmem
  have hlt : deadline < 2 ^ 32 := by omega
  have hnat : (UInt32.ofNat deadline).toNat = deadline := UInt32.toNat_ofNat_of_lt' (by simpa using hlt)
  exact ⟨hallowed h, by omega, by omega⟩

theorem generateGroupIndex_gives (groupCount : Nat) :
    Gives (fun g => (∀ i ∈ g, i < groupCount) ∧ (groupCount ≠ 0 → g ≠ none))
      (generateGroupIndex random groupCount) := by
  refine .ite (fun h => .pure ⟨by simp, fun hne => absurd h hne⟩) fun h => ?_
  refine (Gives.draw (P := fun i => i ≤ groupCount - 1) (random.uintAtMost_le 64 _)).map fun g hg => ⟨?_, by simp⟩
  rintro i hi
  obtain rfl := Option.mem_some_iff.mp hi
  omega

/-- The bounds of a generated task. -/
structure TaskWithin (options : GeneratorOptions) (groupCount : Nat) (task : GeneratedTask) : Prop where
  arrival : task.arrivalTick.toNat ≤ options.maxArrivalTick.toNat
  burst_pos : 0 < task.burstTicks.toNat
  burst_le : task.burstTicks.toNat ≤ max options.maxBurstTicks.toNat 1
  weight : ∀ w ∈ task.weight, options.allowWeights = true ∧ 0 < w.toNat ∧ w.toNat ≤ maxTaskWeight
  deadline : ∀ d ∈ task.deadlineTick, options.allowDeadlines = true ∧
    task.arrivalTick.toNat + task.burstTicks.toNat ≤ d.toNat ∧
    d.toNat ≤ task.arrivalTick.toNat + task.burstTicks.toNat + 6
  group : ∀ g ∈ task.groupIndex, g < groupCount
  grouped : groupCount ≠ 0 → task.groupIndex ≠ none

theorem generateTask_gives (hfit : options.Fits) (groupCount index : Nat) :
    Gives (TaskWithin options groupCount) (generateTask random options groupCount index) := by
  have hroom := hfit.burst
  refine (draw_intRange 32 (Nat.zero_le _)).bind fun arrivalTick ha => ?_
  refine (draw_intRange 32 (Nat.le_max_right _ _)).bind fun burstTicks hb => ?_
  have hmax : (max options.maxBurstTicks.toNat 1) < 2 ^ 32 := by omega
  have harrival : (UInt32.ofNat arrivalTick).toNat = arrivalTick :=
    UInt32.toNat_ofNat_of_lt' (by simpa using (by omega : arrivalTick < 2 ^ 32))
  have hburst : (UInt32.ofNat burstTicks).toNat = burstTicks :=
    UInt32.toNat_ofNat_of_lt' (by simpa using (by omega : burstTicks < 2 ^ 32))
  refine generateWeight_gives.bind fun weight hweight => ?_
  refine (generateDeadline_gives (by omega)).bind fun deadlineTick hdeadline => ?_
  refine (generateGroupIndex_gives groupCount).map fun groupIndex hg => ?_
  refine ⟨by simp only [harrival]; omega, by simp only [hburst]; omega, by simp only [hburst]; omega,
    hweight, ?_, ?_, ?_⟩
  · simpa only [harrival, hburst] using hdeadline
  · simp only
    split_ifs with hfirst
    · simp only [Option.mem_some_iff, forall_eq']
      omega
    · exact hg.1
  · simp only
    split_ifs with hfirst
    · simp
    · exact hg.2

/-- The bounds of a generated scenario. -/
structure Within (options : GeneratorOptions) (s : GeneratedScenario) : Prop where
  name : s.name = utf8 "generated-property-" ++ decimal options.seed.toNat
  quantum : 0 < s.roundRobinQuantum.toNat ∧ s.roundRobinQuantum.toNat ≤ 4
  tasks : 0 < s.tasks.length ∧ s.tasks.length ≤ max options.maxTasks.toNat 1
  cores_pos : 0 < s.coreCount.toNat
  cores_le : s.coreCount.toNat ≤ max 1 options.maxCoreCount.toNat
  cores_tasks : s.coreCount.toNat ≤ s.tasks.length
  topology : s.useTopologyDomains = true → options.allowTopology = true ∧ 1 < s.coreCount.toNat
  grouped : s.groups = [] ∨ (options.allowGroups = true ∧ s.groups.length = 2 ∧ 2 ≤ s.tasks.length)
  group : ∀ group ∈ s.groups, GroupWithin group
  task : ∀ task ∈ s.tasks, TaskWithin options s.groups.length task

theorem generateRawCoreCount_gives {taskCount : Nat} :
    Gives (fun c => 0 < c ∧ c ≤ max 1 options.maxCoreCount.toNat) (generateRawCoreCount random options taskCount) :=
  .ite (fun _ => draw_intRange 32 (Nat.le_max_left _ _)) fun _ => .pure ⟨by omega, Nat.le_max_left _ _⟩

/-- **Every draw is within the options.** The generator returns from every seed and for every source of numbers. -/
theorem generateScenario_within (random : Random σ) (options : GeneratorOptions) (hfit : options.Fits) :
    ∃ s, generateScenario random options = .ok s ∧ Within options s := by
  suffices h : Gives (Within options) (generateDrawn random options) by
    obtain ⟨s, s', hs, hw⟩ := h (random.init options.seed)
    exact ⟨s, by rw [generateScenario, hs]; rfl, hw⟩
  have hmaxTasks := options.maxTasks.toNat_lt
  refine (draw_intRange 8 (Nat.le_max_right _ _)).bind fun taskCount ht => ?_
  refine generateRawCoreCount_gives.bind fun raw hraw => ?_
  refine (drawAllowed_gives _).bind fun useGroups hgroups => ?_
  refine (Gives.mapM generateGroup_gives _).bind fun groups hgs => ?_
  refine (Gives.mapM (generateTask_gives hfit _) _).bind fun tasks hts => ?_
  refine (draw_intRange 32 (by omega)).bind fun quantum hq => ?_
  refine (drawAllowed_gives _).map fun topology htop => ?_
  simp only [List.length_range] at hgs hts
  obtain ⟨hglen, hgs⟩ := hgs
  obtain ⟨htlen, hts⟩ := hts
  have hquantum : (UInt32.ofNat quantum).toNat = quantum :=
    UInt32.toNat_ofNat_of_lt' (by simpa using (by omega : quantum < 2 ^ 32))
  have hcores : (UInt32.ofNat (min raw taskCount)).toNat = min raw taskCount :=
    UInt32.toNat_ofNat_of_lt' (by simpa using (by omega : min raw taskCount < 2 ^ 32))
  refine ⟨rfl, ?_, ?_, ?_, ?_, ?_, ?_, ?_, hgs, by simpa only [hglen] using hts⟩ <;>
    simp only [hquantum, hcores, htlen, hglen]
  · omega
  · exact ⟨by omega, ht.2⟩
  · omega
  · omega
  · omega
  · intro h
    simpa using htop h
  · by_cases hu : useGroups = true
    · exact Or.inr (by simpa [hu] using hgroups hu)
    · exact Or.inl (List.eq_nil_of_length_eq_zero (by rw [hglen, if_neg hu]))

end Drawn

/-! ## Checks that pass -/

section Checks

theorem hasRepeat_eq_false {cores : List CoreId} (h : cores.Nodup) : hasRepeat cores = false := by
  induction cores with
  | nil => rfl
  | cons c cores ih =>
    rw [List.nodup_cons] at h
    simp [hasRepeat, h.1, ih h.2]

theorem validateDomains_of {k : Nat} {ds : List DomainSpec} (hd : ∀ d ∈ ds, d.validate k = .ok () ∧ d.cores.Nodup)
    (hids : (ds.map DomainSpec.id).Nodup) : validateDomains k ds = .ok () := by
  induction ds with
  | nil => rfl
  | cons d ds ih =>
    rw [List.forall_mem_cons] at hd
    rw [List.map_cons, List.nodup_cons] at hids
    refine bind_eq_ok.mpr ⟨(), hd.1.1, ?_⟩
    rw [if_neg, if_neg (by simp [hasRepeat_eq_false hd.1.2])]
    · exact ih hd.2 hids.2
    · rw [List.any_eq_true]
      rintro ⟨other, ho, he⟩
      exact hids.1 (of_decide_eq_true he ▸ List.mem_map_of_mem ho)

theorem validateCoverage_of {ds : List DomainSpec} {cores : List CoreId} (h : ∀ c ∈ cores, matchCount ds c = 1) :
    validateCoverage ds cores = .ok () := by
  induction cores with
  | nil => rfl
  | cons c cores ih =>
    rw [List.forall_mem_cons] at h
    have hc : (ds.map (fun d => d.cores.count c)).sum = 1 := h.1
    simp only [validateCoverage, hc]
    exact ih h.2

theorem validateGroups_of {gs : List GroupSpec} (hg : ∀ g ∈ gs, g.validate = .ok ())
    (hids : (gs.map GroupSpec.id).Nodup) : validateGroups gs = .ok () := by
  induction gs with
  | nil => rfl
  | cons g gs ih =>
    rw [List.forall_mem_cons] at hg
    rw [List.map_cons, List.nodup_cons] at hids
    refine bind_eq_ok.mpr ⟨(), hg.1, ?_⟩
    rw [if_neg]
    · exact ih hg.2 hids.2
    · rw [List.any_eq_true]
      rintro ⟨other, ho, he⟩
      exact hids.1 (of_decide_eq_true he ▸ List.mem_map_of_mem ho)

theorem validateTasks_of {s : ScenarioOwned} {ts : List TaskSpec}
    (ht : ∀ t ∈ ts, t.validate = .ok () ∧ ∀ g ∈ t.groupId, groupById s g ≠ none)
    (hids : (ts.map TaskSpec.id).Nodup) : validateTasks s ts = .ok () := by
  induction ts with
  | nil => rfl
  | cons t ts ih =>
    rw [List.forall_mem_cons] at ht
    rw [List.map_cons, List.nodup_cons] at hids
    refine bind_eq_ok.mpr ⟨(), ht.1.1, ?_⟩
    rw [if_neg, if_neg]
    · exact ih ht.2 hids.2
    · rw [List.any_eq_true]
      rintro ⟨other, ho, he⟩
      exact hids.1 (of_decide_eq_true he ▸ List.mem_map_of_mem ho)
    · rintro ⟨g, hg, hnone⟩
      exact ht.1.2 g hg hnone

end Checks

/-! ## Sound scenarios -/

namespace GeneratedScenario

/-- A name that a string of the document holds as it is: printable, without quotes and escapes. -/
def PlainName (name : Bytes) : Prop := ∀ c ∈ name, 32 ≤ c.toNat ∧ c.toNat < 127 ∧ c ≠ 34 ∧ c ≠ 92

def totalBurst (s : GeneratedScenario) : Nat := (s.tasks.map (fun t => t.burstTicks.toNat)).sum

/-- What `materialize` and the engines need of a scenario. -/
structure Sound (s : GeneratedScenario) : Prop where
  name_ne : s.name ≠ []
  name : PlainName s.name
  quantum : 0 < s.roundRobinQuantum.toNat
  cores : 0 < s.coreCount.toNat
  /-- The cores can be halved. -/
  split : s.coreCount.toNat + 1 < 2 ^ 32
  tasks_ne : s.tasks ≠ []
  groupWeight : ∀ g ∈ s.groups, 0 < g.weight.toNat ∧ g.weight.toNat ≤ maxTaskWeight
  groupQuota : ∀ g ∈ s.groups, g.quotaTicks.toNat ≤ 64
  task : ∀ t ∈ s.tasks, ValidTask s.groups.length t
  weight : ∀ t ∈ s.tasks, ∀ w ∈ t.weight, 0 < w.toNat ∧ w.toNat ≤ maxTaskWeight
  /-- A simulation is over before its clock is. -/
  fits : ∀ t ∈ s.tasks, t.arrivalTick.toNat + s.totalBurst < 2 ^ 32 - 1

variable (s : GeneratedScenario)

/-- The domains of a scenario with more than one core. -/
def halves (count : Nat) : List DomainSpec :=
  [⟨utf8 "node0", List.range' 0 ((count + 1) / 2)⟩,
    ⟨utf8 "node1", List.range' ((count + 1) / 2) (count - (count + 1) / 2)⟩]

def groupSpec (group : GeneratedGroup × Nat) : GroupSpec :=
  { id := groupId group.2, weight := group.1.weight.toNat, quotaTicks := group.1.quotaTicks.toNat }

def taskSpec (task : GeneratedTask × Nat) : TaskSpec :=
  { id := taskId task.2
    arrivalTick := task.1.arrivalTick.toNat
    burstTicks := task.1.burstTicks.toNat
    weight := resolveTaskWeight task.1.weight
    groupId := task.1.groupIndex.map groupId
    deadlineTick := task.1.deadlineTick.map UInt32.toNat
    inputOrder := task.2 }

/-- The scenario that is meant: everything of `s`, with the numbers of its groups and tasks as their names. -/
def meant : ScenarioOwned where
  name := s.name
  roundRobinQuantum := s.roundRobinQuantum.toNat
  coreCount := s.coreCount.toNat
  domains := if s.usesTopologyDomains then halves s.coreCount.toNat else []
  groups := s.groups.zipIdx.map groupSpec
  tasks := s.tasks.zipIdx.map taskSpec

variable {s}

theorem taskId_inj {i j : Nat} (h : taskId i = taskId j) : i = j := decimal_inj (List.append_cancel_left h)

theorem groupId_inj {i j : Nat} (h : groupId i = groupId j) : i = j := decimal_inj (List.append_cancel_left h)

theorem taskId_ne_nil (i : Nat) : taskId i ≠ [] := by simp [taskId, decimal_ne_nil]

theorem groupId_ne_nil (i : Nat) : groupId i ≠ [] := by simp [groupId, decimal_ne_nil]

theorem writeCoreList_toNat {start stop : Nat} (h : stop < 2 ^ 32) :
    (writeCoreList start stop).map UInt32.toNat = List.range' start (stop - start) := by
  rw [writeCoreList, List.map_map]
  conv_rhs => rw [← List.map_id (List.range' start (stop - start))]
  refine List.map_congr_left fun c hc => ?_
  rw [List.mem_range'_1] at hc
  exact UInt32.toNat_ofNat_of_lt' (by simpa using (by omega : c < 2 ^ 32))

/-- The two spellings of a field agree where one of them is not used. -/
theorem agreed_none (value : Option UInt32) : Agreed value none := fun _ _ _ h => nomatch h

theorem renderTask_buildable (task : GeneratedTask × Nat) : (renderTask task).Buildable := by
  simp [renderTask, ParsedZonTask.Buildable, ParsedZonTask.Refused, ParsedZonTask.Overflows]

theorem renderTopology_ok (h : s.coreCount.toNat + 1 < 2 ^ 32) : ∃ domains, s.renderTopology = .ok domains ∧
    (domains.getD []).map ParsedZonDomain.domainSpec = s.meant.domains := by
  unfold meant renderTopology
  by_cases hu : s.usesTopologyDomains = true
  · have hadd : addChecked ValidationError.integerOverflow 32 s.coreCount.toNat 1 = .ok (s.coreCount.toNat + 1) :=
      addChecked_eq_ok.mpr ⟨h, rfl⟩
    refine ⟨_, by rw [if_pos hu, renderDomains, hadd]; rfl, ?_⟩
    simp only [Option.getD_some, List.map_cons, List.map_nil, ParsedZonDomain.domainSpec, hu, if_true, halves]
    rw [writeCoreList_toNat (by omega), writeCoreList_toNat (by omega), Nat.sub_zero]
  · exact ⟨none, by rw [if_neg hu], by simp [hu]⟩

/-- The document of a sound scenario says what the scenario means. -/
theorem Sound.renderZon_ok (h : s.Sound) : ∃ parsed, s.renderZon = .ok parsed ∧ parsed.scenario = s.meant ∧
    parsed.Reaches s.name ∧ parsed.tasks.length = s.tasks.length := by
  obtain ⟨topologyDomains, htop, hdomains⟩ := renderTopology_ok h.split
  have hgroups : ((if s.groups.length ≠ 0 then some (s.groups.zipIdx.map renderGroup) else none).getD []).map
      ParsedZonGroup.groupSpec = s.meant.groups := by
    by_cases hg : s.groups.length ≠ 0
    · rw [if_pos hg, Option.getD_some, List.map_map]
      rfl
    · rw [if_neg hg]
      simp [meant, List.eq_nil_of_length_eq_zero (not_not.mp hg)]
  have htasks : (s.tasks.zipIdx.map renderTask).zipIdx.map (fun t => { t.1.spec with inputOrder := t.2 }) =
      s.meant.tasks := by
    refine List.ext_getElem (by simp [meant]) fun i hi hi' => ?_
    simp only [meant, List.getElem_map, List.getElem_zipIdx, Nat.zero_add]
    rfl
  refine ⟨_, by rw [renderZon, htop]; rfl, ?_, ⟨agreed_none _, agreed_none _, ?_, Or.inr rfl⟩, by simp⟩
  · simp only [ParsedZonScenario.scenario, hdomains, hgroups, htasks]
    rfl
  · intro t ht
    obtain ⟨task, -, rfl⟩ := List.mem_map.mp ht
    exact renderTask_buildable task

/-! ## What is meant is accepted -/

/-- Each core is in one of the halves. -/
theorem halves_count {count core : Nat} (h : core < count) : matchCount (halves count) core = 1 := by
  have hc : ∀ a n, (List.range' a n).count core = if a ≤ core ∧ core < a + n then 1 else 0 := by
    intro a n
    rw [List.Nodup.count List.nodup_range']
    simp only [List.mem_range'_1]
  simp only [matchCount, halves, List.map_cons, List.map_nil, List.sum_cons, List.sum_nil, hc]
  split_ifs <;> omega

/-- A domain of consecutive cores. -/
theorem rangeDomain_valid {id : Bytes} {a n count : Nat} (hid : id ≠ []) (hn : 0 < n) (hle : a + n ≤ count) :
    DomainSpec.validate ⟨id, List.range' a n⟩ count = .ok () := by
  simp only [DomainSpec.validate, ite_error_eq_ok]
  refine ⟨hid, by simp; omega, ?_, trivial⟩
  simp only [List.any_eq_true, decide_eq_true_eq, List.mem_range'_1, not_exists, not_and, not_le]
  omega

theorem halves_valid {count : Nat} (h : 1 < count) : validateDomains count (halves count) = .ok () ∧
    validateCoverage (halves count) (List.range count) = .ok () := by
  have hids : [utf8 "node0", utf8 "node1"].Nodup := by decide
  refine ⟨validateDomains_of ?_ hids, validateCoverage_of fun c hc => halves_count (List.mem_range.mp hc)⟩
  simp only [halves, List.forall_mem_cons, List.not_mem_nil, false_implies, implies_true, and_true]
  exact ⟨⟨rangeDomain_valid (by decide) (by omega) (by omega), List.nodup_range'⟩,
    rangeDomain_valid (by decide) (by omega) (by omega), List.nodup_range'⟩

theorem groupSpec_valid {group : GeneratedGroup × Nat} (hw : 0 < group.1.weight.toNat)
    (hle : group.1.weight.toNat ≤ maxTaskWeight) (hq : group.1.quotaTicks.toNat ≤ 64) :
    (groupSpec group).validate = .ok () := by
  unfold GroupSpec.validate groupSpec
  rw [if_neg (groupId_ne_nil _), if_neg (by simp only; omega), if_neg (by simp only; omega)]

theorem taskSpec_valid {n : Nat} {task : GeneratedTask × Nat} (h : ValidTask n task.1)
    (hw : ∀ w ∈ task.1.weight, 0 < w.toNat ∧ w.toNat ≤ maxTaskWeight)
    (hfit : task.1.arrivalTick.toNat + task.1.burstTicks.toNat < 2 ^ 32) : (taskSpec task).validate = .ok () := by
  have hweight : 0 < resolveTaskWeight task.1.weight ∧ resolveTaskWeight task.1.weight ≤ maxTaskWeight := by
    cases hc : task.1.weight with
    | none => decide
    | some w => exact hw w hc
  have hgroup : task.1.groupIndex.map groupId ≠ some [] := by
    cases task.1.groupIndex with
    | none => simp
    | some g => simpa using groupId_ne_nil g
  have hdead : validateDeadline (taskSpec task) = .ok () := by
    unfold validateDeadline taskSpec
    cases hd : task.1.deadlineTick with
    | none => rfl
    | some d =>
      have := h.deadline_le d hd
      refine bind_eq_ok.mpr ⟨_, addChecked_eq_ok.mpr ⟨hfit, rfl⟩, ?_⟩
      rw [if_neg (by simpa using this)]
  have hpos := h.burst_pos
  simp only [TaskSpec.validate, ite_error_eq_ok]
  refine ⟨taskId_ne_nil _, by simp only [taskSpec]; omega, by simp only [taskSpec]; omega,
    by simp only [taskSpec]; omega, hgroup, ?_⟩
  exact bind_eq_ok.mpr ⟨(), rfl, bind_eq_ok.mpr ⟨(), hdead, rfl⟩⟩

/-- The names of numbered entries are distinct. -/
theorem nodup_numbered {α β : Type} {f : α × Nat → β} {g : β → Bytes} {name : Nat → Bytes} (l : List α)
    (hname : ∀ a, g (f a) = name a.2) (hinj : Function.Injective name) : ((l.zipIdx.map f).map g).Nodup := by
  have hmap : (l.zipIdx.map f).map g = (List.range l.length).map name := by
    rw [List.map_map, List.range_eq_range', ← List.zipIdx_map_snd, List.map_map]
    exact List.map_congr_left fun a _ => hname a
  rw [hmap]
  exact List.nodup_range.map hinj

theorem burst_le_total {t : GeneratedTask} (ht : t ∈ s.tasks) : t.burstTicks.toNat ≤ s.totalBurst :=
  List.single_le_sum (fun _ _ => Nat.zero_le _) _ (List.mem_map_of_mem (f := fun t => t.burstTicks.toNat) ht)

theorem Sound.validate (h : s.Sound) : s.meant.validate = .ok () := by
  have hgroups : validateGroups s.meant.groups = .ok () := by
    refine validateGroups_of (fun g hg => ?_) (nodup_numbered s.groups (fun _ => rfl) fun _ _ => groupId_inj)
    obtain ⟨⟨group, i⟩, hmem, rfl⟩ := List.mem_map.mp hg
    have hmem := List.fst_mem_of_mem_zipIdx hmem
    exact groupSpec_valid (h.groupWeight group hmem).1 (h.groupWeight group hmem).2 (h.groupQuota group hmem)
  have htasks : validateTasks s.meant s.meant.tasks = .ok () := by
    refine validateTasks_of (fun t ht => ?_) (nodup_numbered s.tasks (fun _ => rfl) fun _ _ => taskId_inj)
    obtain ⟨⟨task, i⟩, hmem, rfl⟩ := List.mem_map.mp ht
    have hmem := List.fst_mem_of_mem_zipIdx hmem
    have hfit := h.fits task hmem
    have hle : task.burstTicks.toNat ≤ s.totalBurst := burst_le_total hmem
    refine ⟨taskSpec_valid (h.task task hmem) (h.weight task hmem) ?_, fun g hg => ?_⟩
    · show task.arrivalTick.toNat + task.burstTicks.toNat < 2 ^ 32
      omega
    -- the group of a task is one of the groups, and is found under its number
    obtain ⟨k, hk, rfl⟩ := Option.mem_map.mp hg
    have hlt := (h.task task hmem).group_lt k hk
    have hin : (s.meant.groups)[k]? = some (groupSpec (s.groups[k], k)) := by
      simp [meant, hlt]
    intro hnone
    have := List.find?_eq_none.mp hnone _ (List.mem_of_getElem? hin)
    simp [groupSpec] at this
  have hrest : (validateGroups s.meant.groups >>= fun _ => validateTasks s.meant s.meant.tasks) = .ok () :=
    bind_eq_ok.mpr ⟨(), hgroups, htasks⟩
  have hq := h.quantum
  have hc := h.cores
  simp only [ScenarioOwned.validate, ite_error_eq_ok]
  refine ⟨h.name_ne, by simp only [meant]; omega, by simp only [meant]; omega, ?_, ?_⟩
  · simpa [meant] using h.tasks_ne
  · by_cases hu : s.usesTopologyDomains = true
    · have hd : s.meant.domains = halves s.coreCount.toNat := if_pos hu
      have hone : 1 < s.coreCount.toNat := by
        simp only [usesTopologyDomains, Bool.and_eq_true, decide_eq_true_eq] at hu
        exact UInt32.lt_iff_toNat_lt.mp hu.2
      obtain ⟨hdomains, hcoverage⟩ := halves_valid hone
      rw [if_pos (by simp [hd, halves]), hd]
      exact bind_eq_ok.mpr ⟨(), hdomains, bind_eq_ok.mpr ⟨(), hcoverage, hrest⟩⟩
    · rw [if_neg (by simp [meant, hu])]
      exact hrest

/-- Every task has a burst, so the tasks are no more than the ticks. -/
theorem Sound.length_le (h : s.Sound) : s.tasks.length ≤ 2 ^ 32 := by
  obtain ⟨t, ht⟩ := List.exists_mem_of_ne_nil _ h.tasks_ne
  have hfit := h.fits t ht
  have hle : s.tasks.length ≤ s.totalBurst := by
    have hpos : ∀ b ∈ s.tasks.map (fun t => t.burstTicks.toNat), 1 ≤ b :=
      List.forall_mem_map.mpr fun t ht => (h.task t ht).burst_pos
    simpa [totalBurst] using List.length_le_sum_of_one_le _ hpos
  omega

/-- **A sound scenario materializes** to the scenario it means, which is accepted. -/
theorem Sound.materialize_ok (h : s.Sound) : s.materialize = .ok s.meant := by
  obtain ⟨parsed, hrender, hscenario, hreach, hlen⟩ := h.renderZon_ok
  have hfinal : finalizeScenario parsed.unordered s.name = normalizeAndValidate parsed.unordered := by
    rcases finalizeScenario_eq parsed.unordered s.name with ⟨hname, -⟩ | ⟨-, hfinal⟩
    · exact absurd hreach.name hname
    · exact hfinal
  have hunordered : parsed.unordered.tasks.length = s.tasks.length := by
    rw [← hlen, ParsedZonScenario.unordered, List.length_map]
  have hnormalized : normalizeAndValidate parsed.unordered = .ok s.meant := by
    rcases orderTasks_eq parsed.unordered.tasks with ⟨-, hord⟩ | ⟨hlt, -⟩
    · rw [parsed.ordered_tasks] at hord
      have hmeant : { parsed.unordered with tasks := parsed.scenario.tasks } = s.meant := by rw [← hscenario]; rfl
      rw [normalizeAndValidate, hord, ok_bind, hmeant]
      exact bind_eq_ok.mpr ⟨(), h.validate, rfl⟩
    · have := h.length_le
      omega
  rw [materialize, hrender, ok_bind, loadParsed_built hreach.quantum hreach.cores hreach.built, hfinal, hnormalized,
    ok_bind]
  exact bind_eq_ok.mpr ⟨(), h.validate, rfl⟩

/-- A simulation of a sound scenario ends before the clock does. -/
theorem Sound.horizon_lt (h : s.Sound) : horizon s.meant < 2 ^ 32 - 1 := by
  have hburst : Sim.totalBurst s.meant = s.totalBurst := by
    simp only [Sim.totalBurst, meant, totalBurst, List.map_map]
    rw [← List.zipIdx_map_fst 0 s.tasks, List.map_map]
    simp [taskSpec, Function.comp_def]
  have hwait : totalWait s.meant = 0 := by
    refine List.sum_eq_zero fun w hw => ?_
    obtain ⟨t, ht, rfl⟩ := List.mem_map.mp hw
    obtain ⟨task, -, rfl⟩ := List.mem_map.mp ht
    simp [TaskSpec.waits, taskSpec]
  have harrival : maxArrival s.meant + s.totalBurst < 2 ^ 32 - 1 := by
    have hne : s.meant.tasks.map TaskSpec.arrivalTick ≠ [] := by simpa [meant] using h.tasks_ne
    obtain ⟨a, ha⟩ := Option.isSome_iff_exists.mp (List.isSome_max?_of_ne_nil hne)
    obtain ⟨t, ht, hta⟩ := List.mem_map.mp (List.max?_mem ha)
    obtain ⟨task, hmem, rfl⟩ := List.mem_map.mp ht
    have := h.fits task.1 (List.fst_mem_of_mem_zipIdx hmem)
    rw [maxArrival, ha, Option.getD_some, ← hta]
    exact this
  rw [horizon, hburst, hwait]
  omega

end GeneratedScenario

/-- **A generated scenario is sound.** -/
theorem Within.sound {options : GeneratorOptions} {s : GeneratedScenario} (hfit : options.Fits)
    (h : Within options s) : s.Sound := by
  have hlen := h.tasks.2
  have hmax := options.maxTasks.toNat_lt
  have hcores := h.cores_tasks
  have hplain : GeneratedScenario.PlainName s.name := by
    have hlead : GeneratedScenario.PlainName (utf8 "generated-property-") := List.all_iff_forall_prop.mp (by decide)
    rw [h.name]
    intro c hc
    rcases List.mem_append.mp hc with hc | hc
    · exact hlead c hc
    · have hdigit := of_decide_eq_true (isDigit_decimal hc)
      simp only [UInt8.le_iff_toNat_le] at hdigit
      refine ⟨?_, ?_, ?_, ?_⟩
      · exact le_trans (by decide) hdigit.1
      · exact lt_of_le_of_lt hdigit.2 (by decide)
      · rintro rfl
        exact absurd hdigit.1 (by decide)
      · rintro rfl
        exact absurd hdigit.2 (by decide)
  refine ⟨by simp [h.name, decimal_ne_nil], hplain, h.quantum.1, h.cores_pos, by omega,
    List.ne_nil_of_length_pos h.tasks.1, fun g hg => ⟨(h.group g hg).weight_pos, (h.group g hg).weight_le⟩,
    fun g hg => le_trans (h.group g hg).quota (by omega), fun t ht => ?_,
    fun t ht w hw => ((h.task t ht).weight w hw).2, fun t ht => ?_⟩
  · have ht := h.task t ht
    exact ⟨ht.burst_pos, fun d hd => (ht.deadline d hd).2.1, ht.group⟩
  · have harrival := (h.task t ht).arrival
    have hsum : s.totalBurst ≤ s.tasks.length * max options.maxBurstTicks.toNat 1 := by
      have := List.sum_le_card_nsmul (s.tasks.map fun t => t.burstTicks.toNat) (max options.maxBurstTicks.toNat 1)
        (List.forall_mem_map.mpr fun t ht => (h.task t ht).burst_le)
      simpa [GeneratedScenario.totalBurst] using this
    have hmul := Nat.mul_le_mul_right (max options.maxBurstTicks.toNat 1) hlen
    unfold GeneratorOptions.Fits at hfit
    omega

namespace GeneratedScenario

theorem taskScore_le {t : GeneratedTask} (h : Scorable t) : taskScore t ≤ 2 ^ 34 := by
  have hburst := h.burst
  have harrival := t.arrivalTick.toNat_lt
  have hdeadline : deadlineScore t ≤ 2 ^ 32 + 10 := by
    unfold deadlineScore
    cases t.deadlineTick with
    | none => simp
    | some d =>
      have := d.toNat_lt
      simp only [Option.elim_some]
      omega
  unfold taskScore
  split_ifs <;> omega

theorem groupScore_le (g : GeneratedGroup) : groupScore g ≤ 2 ^ 33 := by
  have hweight := (g.weight / 256).toNat_lt
  have hquota := g.quotaTicks.toNat_lt
  unfold groupScore
  omega

end GeneratedScenario

/-- A generated scenario can be scored, if ten bursts of the longest kind fit a `u32`. -/
theorem Within.valid {options : GeneratorOptions} {s : GeneratedScenario} (h : Within options s)
    (hburst : options.maxBurstTicks.toNat * 10 < 2 ^ 32) : s.Valid := by
  have hscorable : ∀ t ∈ s.tasks, GeneratedScenario.Scorable t := by
    intro t ht
    have ht := h.task t ht
    have hle := ht.burst_le
    refine ⟨by omega, fun d hd => ?_⟩
    have := (ht.deadline d hd).2.1
    omega
  have htasks := List.sum_le_card_nsmul (s.tasks.map GeneratedScenario.taskScore) _
    (List.forall_mem_map.mpr fun t ht => GeneratedScenario.taskScore_le (hscorable t ht))
  have hgroups := List.sum_le_card_nsmul (s.groups.map GeneratedScenario.groupScore) _
    (List.forall_mem_map.mpr fun g _ => GeneratedScenario.groupScore_le g)
  simp only [List.length_map, smul_eq_mul] at htasks hgroups
  have hcount : s.groups.length ≤ 2 := by
    rcases h.grouped with hg | hg <;> simp [hg]
  have hlen := h.tasks.2
  have hmax := options.maxTasks.toNat_lt
  have hcores := h.cores_tasks
  have hquantum := h.quantum.2
  refine ⟨fun t ht => ?_, s.score, GeneratedScenario.sizeScore_eq_ok.mpr ⟨rfl, ?_, hscorable⟩⟩
  · have ht := h.task t ht
    exact ⟨ht.burst_pos, fun d hd => (ht.deadline d hd).2.1, ht.group⟩
  · unfold GeneratedScenario.score GeneratedScenario.domainScore
    split_ifs <;> omega

/-! ## Shrinking keeps a scenario sound -/

namespace GeneratedScenario

variable {s : GeneratedScenario}

/-- Soundness of a scenario on the same name, with fewer ticks. -/
theorem Sound.of_fewer {c : GeneratedScenario} (h : s.Sound) (hname : c.name = s.name)
    (hq : 0 < c.roundRobinQuantum.toNat) (hc : 0 < c.coreCount.toNat) (hcle : c.coreCount.toNat ≤ s.coreCount.toNat)
    (hne : c.tasks ≠ []) (hgroups : ∀ g ∈ c.groups, g ∈ s.groups) (hburst : c.totalBurst ≤ s.totalBurst)
    (htask : ∀ t ∈ c.tasks, ValidTask c.groups.length t ∧
      ∃ u ∈ s.tasks, t.arrivalTick.toNat ≤ u.arrivalTick.toNat ∧ (t.weight = u.weight ∨ t.weight = none)) :
    c.Sound := by
  refine ⟨hname ▸ h.name_ne, hname ▸ h.name, hq, hc, by have := h.split; omega, hne,
    fun g hg => h.groupWeight g (hgroups g hg), fun g hg => h.groupQuota g (hgroups g hg), fun t ht => (htask t ht).1,
    fun t ht w hw => ?_, fun t ht => ?_⟩
  · obtain ⟨-, u, hu, -, hweight | hweight⟩ := htask t ht
    · exact h.weight u hu w (hweight ▸ hw)
    · simp [hweight] at hw
  · obtain ⟨-, u, hu, hle, -⟩ := htask t ht
    have := h.fits u hu
    omega

/-- A mutation takes nothing on: no later arrival, no longer burst, no new weight. -/
theorem mutation_fewer {t t' : GeneratedTask} (hpos : 0 < t.burstTicks.toNat) : ∀ mutation ∈ mutations,
    mutation t = .ok t' → t'.arrivalTick.toNat ≤ t.arrivalTick.toNat ∧ t'.burstTicks.toNat ≤ t.burstTicks.toNat ∧
      (t'.weight = t.weight ∨ t'.weight = none) := by
  simp only [mutations, List.forall_mem_cons, List.not_mem_nil, false_implies, implies_true, and_true]
  refine ⟨?_, ?_, ?_, ?_, ?_⟩
  · rintro ⟨⟩
    simp
  · rintro ⟨⟩
    simp
  · rintro ⟨⟩
    simp
  · rintro ⟨⟩
    simp
  · unfold reduceBurstMutation
    cases t.deadlineTick with
    | none =>
      rintro ⟨⟩
      simpa [Nat.succ_le_iff] using hpos
    | some d =>
      simp only [bind_eq_ok]
      rintro ⟨_, -, ⟨⟩⟩
      simpa [Nat.succ_le_iff] using hpos

/-- Every candidate the shrinker builds of a sound scenario is sound. -/
theorem Sound.of_candidate {c : GeneratedScenario} (h : s.Sound) (hv : s.Valid) (hc : .ok c ∈ s.candidates) :
    c.Sound := by
  have hself : ∀ t ∈ s.tasks, ∃ u ∈ s.tasks, t.arrivalTick.toNat ≤ u.arrivalTick.toNat ∧
      (t.weight = u.weight ∨ t.weight = none) := fun t ht => ⟨t, ht, le_refl _, Or.inl rfl⟩
  rw [candidates, List.mem_append, List.mem_map] at hc
  rcases hc with ⟨c', hc, heq⟩ | hc
  · obtain rfl := Except.ok.inj heq
    simp only [removals, machineReductions, List.mem_append, List.mem_ite_nil_right, List.mem_map, List.mem_reverse,
      List.mem_range, List.mem_singleton] at hc
    rcases hc with ⟨hlen, index, hi, rfl⟩ | (((⟨-, rfl⟩ | ⟨-, rfl⟩) | ⟨-, rfl⟩) | ⟨-, rfl⟩)
    · have hsub := s.removeTaskAt_sublist index
      have hne : (s.removeTaskAt index).tasks ≠ [] := by
        refine List.ne_nil_of_length_pos ?_
        simp only [removeTaskAt, List.length_append, List.length_take, List.length_drop]
        omega
      exact h.of_fewer rfl h.quantum h.cores (le_refl _) hne (fun _ hg => hg)
        ((hsub.map _).sum_le_sum fun _ _ => Nat.zero_le _)
        fun t ht => ⟨h.task t (hsub.subset ht), hself t (hsub.subset ht)⟩
    · exact h.of_fewer rfl h.quantum h.cores (le_refl _) h.tasks_ne (fun _ hg => hg) (le_refl _)
        fun t ht => ⟨h.task t ht, hself t ht⟩
    · exact h.of_fewer rfl h.quantum (by simp [onOneCore])
        (by simpa [onOneCore, Nat.succ_le_iff] using h.cores) h.tasks_ne
        (fun _ hg => hg) (le_refl _) fun t ht => ⟨h.task t ht, hself t ht⟩
    · refine h.of_fewer rfl h.quantum h.cores (le_refl _) (by simpa [withoutGroups] using h.tasks_ne)
        (by simp [withoutGroups]) (by simp [totalBurst, withoutGroups, Function.comp_def]) fun t ht => ?_
      obtain ⟨u, hu, rfl⟩ := List.mem_map.mp ht
      have hu' := h.task u hu
      exact ⟨⟨hu'.burst_pos, hu'.deadline_le, by simp⟩, hself u hu⟩
    · exact h.of_fewer rfl (by simp [withQuantumOne]) h.cores (le_refl _) h.tasks_ne (fun _ hg => hg) (le_refl _)
        fun t ht => ⟨h.task t ht, hself t ht⟩
  · obtain ⟨index, t, hi, mutation, hm, heq⟩ := mem_simplifications.mp hc
    have ht := List.mem_of_getElem? hi
    obtain ⟨t', ht', hsimpler⟩ := mutation_simpler (h.task t ht) (hv.scorable t ht) mutation hm
    obtain ⟨harrival, hburst, hweight⟩ := mutation_fewer (h.task t ht).burst_pos mutation hm ht'
    obtain rfl : c = s.withTask index t' := by
      rw [ht'] at heq
      exact Except.ok.inj heq
    refine h.of_fewer rfl h.quantum h.cores (le_refl _) (by simpa [withTask] using h.tasks_ne) (fun _ hg => hg)
      (sum_set_le hi hburst) fun u hu => ?_
    rcases List.mem_or_eq_of_mem_set hu with hu | rfl
    · exact ⟨h.task u hu, hself u hu⟩
    · exact ⟨hsimpler.valid, t, ht, harrival, hweight⟩

end GeneratedScenario

end Exasphere.Sim

import Exasphere.Lib.Bytes
import Exasphere.Lib.Descent
import Exasphere.Sim.Types

/-!
# Shrinking generated scenarios (`testing/property.zig`)

`shrinkScenario` looks for a smaller scenario on which a property test still fails. Each stage of its loop builds
candidates from the current scenario and takes the first whose score is smaller and of which the predicate holds; taking
one starts the loop over, so a pass takes the first accepted candidate of all stages in order (`candidates`).

`Reduction` lists the single reductions without the guards of the stages. On a valid scenario the guards leave out only
reductions that do not lower the score (`Reduction.tried`), and the removal of the only task.
-/

namespace Exasphere.Sim

open Exasphere.Lib

/-- The name of an error value; the predicate may raise any. -/
abbrev AnyError := Bytes

/-- What ends a run of the shrinker early: a safety panic, or an error of the predicate. -/
inductive ShrinkFault
  | integerOverflow
  | raised (error : AnyError)
  deriving DecidableEq, Repr

structure GeneratedGroup where
  weight : UInt32 := 1024
  quotaTicks : UInt32 := 0
  deriving DecidableEq, Repr

structure GeneratedTask where
  arrivalTick : UInt32
  burstTicks : UInt32
  weight : Option UInt32 := none
  groupIndex : Option Nat := none
  deadlineTick : Option UInt32 := none
  deriving DecidableEq, Repr

structure GeneratedScenario where
  name : Bytes
  roundRobinQuantum : UInt32
  coreCount : UInt32
  useTopologyDomains : Bool
  groups : List GeneratedGroup
  tasks : List GeneratedTask
  deriving DecidableEq, Repr

namespace GeneratedScenario

def usesTopologyDomains (s : GeneratedScenario) : Bool :=
  s.useTopologyDomains && decide (1 < s.coreCount)

/-! ## The score -/

/-- `score += amount` on a `usize`. -/
def addScore (score amount : Nat) : Except ShrinkFault Nat :=
  addChecked .integerOverflow 64 score amount

def scoreGroup (score : Nat) (group : GeneratedGroup) : Except ShrinkFault Nat := do
  let score ← addScore score (group.weight / 256).toNat
  addScore score group.quotaTicks.toNat

def scoreDeadline (score : Nat) (task : GeneratedTask) : Except ShrinkFault Nat :=
  match task.deadlineTick with
  | none => .ok score
  | some deadlineTick => do
    let score ← addScore score 10
    let slack ← subChecked .integerOverflow deadlineTick.toNat task.arrivalTick.toNat
    addScore score slack

def scoreTask (score : Nat) (task : GeneratedTask) : Except ShrinkFault Nat := do
  let score ← addScore score task.arrivalTick.toNat
  -- the product is taken in a `u32`, before it is widened to the score
  let burst ← mulChecked .integerOverflow 32 task.burstTicks.toNat 10
  let score ← addScore score burst
  let score ← addScore score (if task.weight.isSome then 10 else 0)
  let score ← addScore score (if task.groupIndex.isSome then 10 else 0)
  scoreDeadline score task

def sizeScore (s : GeneratedScenario) : Except ShrinkFault Nat := do
  let score ← mulChecked .integerOverflow 64 s.tasks.length 1000
  let groups ← mulChecked .integerOverflow 64 s.groups.length 200
  let score ← addScore score groups
  let cores ← mulChecked .integerOverflow 64 s.coreCount.toNat 50
  let score ← addScore score cores
  let quantum ← mulChecked .integerOverflow 64 s.roundRobinQuantum.toNat 20
  let score ← addScore score quantum
  let score ← addScore score (if s.usesTopologyDomains then 100 else 0)
  let score ← s.groups.foldlM scoreGroup score
  s.tasks.foldlM scoreTask score

end GeneratedScenario

/-! ## The reductions -/

section Mutations

variable (task : GeneratedTask)

def clearGroupMutation : Except ShrinkFault GeneratedTask :=
  .ok { task with groupIndex := none }

def clearWeightMutation : Except ShrinkFault GeneratedTask :=
  .ok { task with weight := none }

def clearDeadlineMutation : Except ShrinkFault GeneratedTask :=
  .ok { task with deadlineTick := none }

def reduceArrivalMutation : Except ShrinkFault GeneratedTask :=
  .ok { task with arrivalTick := 0 }

def reduceBurstMutation : Except ShrinkFault GeneratedTask :=
  match task.deadlineTick with
  | none => .ok { task with burstTicks := 1 }
  | some deadlineTick => do
    let earliest ← addChecked .integerOverflow 32 task.arrivalTick.toNat 1
    .ok { task with burstTicks := 1, deadlineTick := some (UInt32.ofNat (min deadlineTick.toNat earliest)) }

end Mutations

def mutations : List (GeneratedTask → Except ShrinkFault GeneratedTask) :=
  [clearGroupMutation, clearWeightMutation, clearDeadlineMutation, reduceArrivalMutation, reduceBurstMutation]

namespace GeneratedScenario

variable (s : GeneratedScenario)

def removeTaskAt (index : Nat) : GeneratedScenario :=
  { s with tasks := s.tasks.take index ++ s.tasks.drop (index + 1) }

def withoutDomains : GeneratedScenario :=
  { s with useTopologyDomains := false }

def onOneCore : GeneratedScenario :=
  { s with coreCount := 1, useTopologyDomains := false }

def withoutGroups : GeneratedScenario :=
  { s with groups := [], tasks := s.tasks.map fun task => { task with groupIndex := none } }

def withQuantumOne : GeneratedScenario :=
  { s with roundRobinQuantum := 1 }

def withTask (index : Nat) (task : GeneratedTask) : GeneratedScenario :=
  { s with tasks := s.tasks.set index task }

/-- The candidates of the first stage, from the last task to the first. -/
def removals : List GeneratedScenario :=
  if 1 < s.tasks.length then (List.range s.tasks.length).reverse.map s.removeTaskAt else []

/-- The candidates of the four stages that reduce the machine. -/
def machineReductions : List GeneratedScenario :=
  (if s.useTopologyDomains then [s.withoutDomains] else []) ++
  (if 1 < s.coreCount then [s.onOneCore] else []) ++
  (if s.groups.length ≠ 0 then [s.withoutGroups] else []) ++
  (if 1 < s.roundRobinQuantum then [s.withQuantumOne] else [])

/-- The candidates `trySimplifyTask` builds, task by task. -/
def simplifications : List (Except ShrinkFault GeneratedScenario) :=
  s.tasks.zipIdx.flatMap fun entry => mutations.map fun mutation => (mutation entry.1).map (s.withTask entry.2)

def candidates : List (Except ShrinkFault GeneratedScenario) :=
  (s.removals ++ s.machineReductions).map .ok ++ s.simplifications

end GeneratedScenario

/-! ## The search -/

section Search

variable (predicate : GeneratedScenario → Except AnyError Bool)

/-- Whether `candidate` replaces `current`; the predicate is asked only of a smaller one. -/
def accept (current candidate : GeneratedScenario) : Except ShrinkFault (Option GeneratedScenario) := do
  let candidateScore ← candidate.sizeScore
  let currentScore ← current.sizeScore
  if candidateScore < currentScore then
    let holds ← (predicate candidate).mapError .raised
    pure (if holds then some candidate else none)
  else pure none

/-- One turn of the outer loop: the scenario it starts over with, if it `changed`. -/
def shrinkPass (current : GeneratedScenario) : Except ShrinkFault (Option GeneratedScenario) :=
  firstM (fun candidate => candidate >>= accept predicate current) current.candidates

/-- The shrinker, with a bound on the turns of its loop; `none` if the loop is still running after them. -/
def shrinkScenario (turns : Nat) (initial : GeneratedScenario) : Except ShrinkFault (Option GeneratedScenario) :=
  descend (shrinkPass predicate) turns initial

end Search

/-! ## When the score does not overflow -/

namespace GeneratedScenario

def groupScore (group : GeneratedGroup) : Nat :=
  (group.weight / 256).toNat + group.quotaTicks.toNat

def deadlineScore (task : GeneratedTask) : Nat :=
  task.deadlineTick.elim 0 fun deadlineTick => 10 + (deadlineTick.toNat - task.arrivalTick.toNat)

def taskScore (task : GeneratedTask) : Nat :=
  task.arrivalTick.toNat + task.burstTicks.toNat * 10 + (if task.weight.isSome then 10 else 0) +
    (if task.groupIndex.isSome then 10 else 0) + deadlineScore task

def domainScore (s : GeneratedScenario) : Nat :=
  if s.usesTopologyDomains then 100 else 0

/-- The score in unbounded arithmetic. -/
def score (s : GeneratedScenario) : Nat :=
  s.tasks.length * 1000 + s.groups.length * 200 + s.coreCount.toNat * 50 + s.roundRobinQuantum.toNat * 20 +
    s.domainScore + (s.groups.map groupScore).sum + (s.tasks.map taskScore).sum

/-- The products and differences of a task's score stay in a `u32`. -/
structure Scorable (task : GeneratedTask) : Prop where
  burst : task.burstTicks.toNat * 10 < 2 ^ 32
  deadline : ∀ d ∈ task.deadlineTick, task.arrivalTick.toNat ≤ d.toNat

theorem addScore_eq_ok {a b n : Nat} : addScore a b = .ok n ↔ a + b = n ∧ n < 2 ^ 64 := by
  rw [addScore, addChecked_eq_ok]
  constructor
  · rintro ⟨hlt, rfl⟩
    exact ⟨rfl, hlt⟩
  · rintro ⟨rfl, hlt⟩
    exact ⟨hlt, rfl⟩

theorem scoreGroup_eq_ok {group : GeneratedGroup} {a n : Nat} :
    scoreGroup a group = .ok n ↔ a + groupScore group = n ∧ n < 2 ^ 64 := by
  simp only [scoreGroup, bind_eq_ok, addScore_eq_ok, groupScore]
  constructor
  · rintro ⟨b, ⟨hb, _⟩, hn, hlt⟩
    exact ⟨by omega, hlt⟩
  · rintro ⟨hn, hlt⟩
    exact ⟨a + (group.weight / 256).toNat, ⟨rfl, by omega⟩, by omega, hlt⟩

theorem scoreDeadline_eq_ok {task : GeneratedTask} {a n : Nat} (ha : a < 2 ^ 64) : scoreDeadline a task = .ok n ↔
    a + deadlineScore task = n ∧ n < 2 ^ 64 ∧ ∀ d ∈ task.deadlineTick, task.arrivalTick.toNat ≤ d.toNat := by
  unfold scoreDeadline deadlineScore
  cases task.deadlineTick with
  | none =>
    simp only [Except.ok.injEq, Option.elim_none, Nat.add_zero, Option.not_mem_none]
    constructor
    · rintro rfl
      exact ⟨rfl, ha, by simp⟩
    · exact And.left
  | some d =>
    simp only [bind_eq_ok, addScore_eq_ok, subChecked_eq_ok, Option.elim_some, Option.mem_some_iff, forall_eq']
    constructor
    · rintro ⟨b, ⟨rfl, _⟩, c, ⟨hle, rfl⟩, hn, hlt⟩
      exact ⟨by omega, hlt, hle⟩
    · rintro ⟨hn, hlt, hle⟩
      exact ⟨a + 10, ⟨rfl, by omega⟩, _, ⟨hle, rfl⟩, by omega, hlt⟩

theorem scoreTask_eq_ok {task : GeneratedTask} {a n : Nat} :
    scoreTask a task = .ok n ↔ a + taskScore task = n ∧ n < 2 ^ 64 ∧ Scorable task := by
  simp only [scoreTask, bind_eq_ok, addScore_eq_ok, mulChecked_eq_ok, taskScore]
  constructor
  · rintro ⟨b, ⟨hb, _⟩, c, ⟨hburst, hc⟩, e, ⟨he, _⟩, f, ⟨hf, _⟩, g, ⟨hg, hglt⟩, h⟩
    obtain ⟨hn, hlt, hd⟩ := (scoreDeadline_eq_ok hglt).mp h
    exact ⟨by omega, hlt, hburst, hd⟩
  · rintro ⟨hn, hlt, hburst, hd⟩
    refine ⟨_, ⟨rfl, by omega⟩, _, ⟨hburst, rfl⟩, _, ⟨rfl, by omega⟩, _, ⟨rfl, by omega⟩, _, ⟨rfl, by omega⟩, ?_⟩
    exact (scoreDeadline_eq_ok (by omega)).mpr ⟨by omega, hlt, hd⟩

/-- A loop that adds up one amount per element. -/
theorem foldlM_score {α : Type} {g : Nat → α → Except ShrinkFault Nat} {w : α → Nat} {Q : α → Prop}
    (hg : ∀ a x n, g a x = .ok n ↔ a + w x = n ∧ n < 2 ^ 64 ∧ Q x) {l : List α} {a n : Nat} (ha : a < 2 ^ 64) :
    l.foldlM g a = .ok n ↔ a + (l.map w).sum = n ∧ n < 2 ^ 64 ∧ ∀ x ∈ l, Q x := by
  induction l generalizing a with
  | nil =>
    simp only [List.foldlM_nil, pure_eq_ok, List.map_nil, List.sum_nil, Nat.add_zero]
    constructor
    · rintro rfl
      exact ⟨rfl, ha, by simp⟩
    · exact And.left
  | cons x l ih =>
    simp only [List.foldlM_cons, bind_eq_ok, hg, List.map_cons, List.sum_cons, List.forall_mem_cons]
    constructor
    · rintro ⟨b, ⟨hb, hblt, hx⟩, h⟩
      obtain ⟨hn, hlt, hl⟩ := (ih hblt).mp h
      exact ⟨by omega, hlt, hx, hl⟩
    · rintro ⟨hn, hlt, hx, hl⟩
      exact ⟨a + w x, ⟨rfl, by omega, hx⟩, (ih (by omega)).mpr ⟨by omega, hlt, hl⟩⟩

/-- `sizeScore` returns the score of a scenario exactly when nothing in it overflows. -/
theorem sizeScore_eq_ok {s : GeneratedScenario} {n : Nat} :
    s.sizeScore = .ok n ↔ s.score = n ∧ n < 2 ^ 64 ∧ ∀ t ∈ s.tasks, Scorable t := by
  have hgroups : ∀ {a n : Nat}, a < 2 ^ 64 → (s.groups.foldlM scoreGroup a = .ok n ↔
      a + (s.groups.map groupScore).sum = n ∧ n < 2 ^ 64) := by
    intro a n ha
    rw [foldlM_score (w := groupScore) (Q := fun _ => True) (fun a x n => by rw [scoreGroup_eq_ok, and_true]) ha]
    simp
  have htasks : ∀ {a n : Nat}, a < 2 ^ 64 → (s.tasks.foldlM scoreTask a = .ok n ↔
      a + (s.tasks.map taskScore).sum = n ∧ n < 2 ^ 64 ∧ ∀ t ∈ s.tasks, Scorable t) := by
    intro a n ha
    exact foldlM_score (w := taskScore) (Q := Scorable) (fun _ _ _ => scoreTask_eq_ok) ha
  simp only [sizeScore, bind_eq_ok, addScore_eq_ok, mulChecked_eq_ok, score, domainScore]
  constructor
  · rintro ⟨_, ⟨-, rfl⟩, _, ⟨-, rfl⟩, _, ⟨rfl, -⟩, _, ⟨-, rfl⟩, _, ⟨rfl, -⟩, _, ⟨-, rfl⟩, _, ⟨rfl, -⟩, _, ⟨rfl, hlt⟩, _,
      hgroup, htask⟩
    obtain ⟨rfl, hlt⟩ := (hgroups hlt).mp hgroup
    exact (htasks hlt).mp htask
  · rintro ⟨hn, hlt, hq⟩
    refine ⟨_, ⟨by omega, rfl⟩, _, ⟨by omega, rfl⟩, _, ⟨rfl, by omega⟩, _, ⟨by omega, rfl⟩, _, ⟨rfl, by omega⟩, _,
      ⟨by omega, rfl⟩, _, ⟨rfl, by omega⟩, _, ⟨rfl, by omega⟩, _, (hgroups (by omega)).mpr ⟨rfl, by omega⟩, ?_⟩
    exact (htasks (by omega)).mpr ⟨by omega, hlt, hq⟩

/-! ## Valid scenarios and single reductions -/

/-- The rules for one task of a scenario with `groups` groups. -/
structure ValidTask (groups : Nat) (task : GeneratedTask) : Prop where
  burst_pos : 0 < task.burstTicks.toNat
  deadline_le : ∀ d ∈ task.deadlineTick, task.arrivalTick.toNat + task.burstTicks.toNat ≤ d.toNat
  group_lt : ∀ g ∈ task.groupIndex, g < groups

/-- The rules a generated scenario keeps. -/
structure Valid (s : GeneratedScenario) : Prop where
  task : ∀ t ∈ s.tasks, ValidTask s.groups.length t
  noOverflow : ∃ n, s.sizeScore = .ok n

/-- One reduction of `s`, whether or not a stage of the shrinker offers it. -/
inductive Reduction (s : GeneratedScenario) : GeneratedScenario → Prop
  | removeTask (index : Nat) (hi : index < s.tasks.length) : Reduction s (s.removeTaskAt index)
  | dropDomains : Reduction s s.withoutDomains
  | oneCore : Reduction s s.onOneCore
  | dropGroups : Reduction s s.withoutGroups
  | oneQuantum : Reduction s s.withQuantumOne
  | mutate (index : Nat) (task task' : GeneratedTask) (mutation : GeneratedTask → Except ShrinkFault GeneratedTask)
      (hi : s.tasks[index]? = some task) (hm : mutation ∈ mutations) (ht : mutation task = .ok task') :
      Reduction s (s.withTask index task')

theorem Valid.scorable {s : GeneratedScenario} (h : s.Valid) : ∀ t ∈ s.tasks, Scorable t := by
  obtain ⟨n, hn⟩ := h.noOverflow
  exact (sizeScore_eq_ok.mp hn).2.2

theorem Valid.sizeScore_eq {s : GeneratedScenario} (h : s.Valid) : s.sizeScore = .ok s.score := by
  obtain ⟨n, hn⟩ := h.noOverflow
  obtain ⟨rfl, -⟩ := sizeScore_eq_ok.mp hn
  exact hn

/-- A scenario with valid tasks and a score no larger than that of a valid one is valid. -/
theorem Valid.of_le {s c : GeneratedScenario} (h : s.Valid) (ht : ∀ t ∈ c.tasks, ValidTask c.groups.length t)
    (hq : ∀ t ∈ c.tasks, Scorable t) (hle : c.score ≤ s.score) : c.Valid := by
  obtain ⟨n, hn⟩ := h.noOverflow
  obtain ⟨rfl, hlt, -⟩ := sizeScore_eq_ok.mp hn
  exact ⟨ht, c.score, sizeScore_eq_ok.mpr ⟨rfl, by omega, hq⟩⟩

/-- What a mutation of a valid task gives. -/
structure Simpler (groups : Nat) (task task' : GeneratedTask) : Prop where
  valid : ValidTask groups task'
  scorable : Scorable task'
  score_le : taskScore task' ≤ taskScore task

theorem clearGroup_simpler {n : Nat} {t : GeneratedTask} (hv : ValidTask n t) (hs : Scorable t) :
    ∃ t', clearGroupMutation t = .ok t' ∧ Simpler n t t' := by
  refine ⟨_, rfl, ⟨hv.burst_pos, hv.deadline_le, by simp⟩, ⟨hs.burst, hs.deadline⟩, ?_⟩
  simp [taskScore, deadlineScore]

theorem clearWeight_simpler {n : Nat} {t : GeneratedTask} (hv : ValidTask n t) (hs : Scorable t) :
    ∃ t', clearWeightMutation t = .ok t' ∧ Simpler n t t' := by
  refine ⟨_, rfl, ⟨hv.burst_pos, hv.deadline_le, hv.group_lt⟩, ⟨hs.burst, hs.deadline⟩, ?_⟩
  simp [taskScore, deadlineScore]

theorem clearDeadline_simpler {n : Nat} {t : GeneratedTask} (hv : ValidTask n t) (hs : Scorable t) :
    ∃ t', clearDeadlineMutation t = .ok t' ∧ Simpler n t t' := by
  refine ⟨_, rfl, ⟨hv.burst_pos, by simp, hv.group_lt⟩, ⟨hs.burst, by simp⟩, ?_⟩
  simp [taskScore, deadlineScore]

/-- With a deadline the score only moves from the arrival to the slack. -/
theorem reduceArrival_simpler {n : Nat} {t : GeneratedTask} (hv : ValidTask n t) (hs : Scorable t) :
    ∃ t', reduceArrivalMutation t = .ok t' ∧ Simpler n t t' := by
  refine ⟨_, rfl, ⟨hv.burst_pos, ?_, hv.group_lt⟩, ⟨hs.burst, ?_⟩, ?_⟩
  · intro d hd
    have := hv.deadline_le d hd
    simp only [UInt32.toNat_zero]
    omega
  · intro d _
    simp
  · simp only [taskScore, deadlineScore, UInt32.toNat_zero]
    cases hd : t.deadlineTick with
    | none =>
      simp only [Option.elim_none]
      omega
    | some d =>
      have := hs.deadline d hd
      simp only [Option.elim_some]
      omega

/-- A valid deadline is after the arrival, so that the earliest one the mutation asks for is a `u32`. -/
theorem reduceBurst_simpler {n : Nat} {t : GeneratedTask} (hv : ValidTask n t) :
    ∃ t', reduceBurstMutation t = .ok t' ∧ Simpler n t t' := by
  have hpos := hv.burst_pos
  unfold reduceBurstMutation
  cases hd : t.deadlineTick with
  | none =>
    refine ⟨_, rfl, ⟨by simp, by simp, hv.group_lt⟩, ⟨by simp, by simp⟩, ?_⟩
    simp only [taskScore, deadlineScore, UInt32.toNat_one, hd]
    omega
  | some d =>
    have hle := hv.deadline_le d hd
    have hlt := d.toNat_lt
    have hearliest : (UInt32.ofNat (t.arrivalTick.toNat + 1)).toNat = t.arrivalTick.toNat + 1 := by
      rw [UInt32.toNat_ofNat_of_lt' (by simpa using (by omega : t.arrivalTick.toNat + 1 < 2 ^ 32))]
    have hmin : min d.toNat (t.arrivalTick.toNat + 1) = t.arrivalTick.toNat + 1 := by omega
    have hadd : addChecked ShrinkFault.integerOverflow 32 t.arrivalTick.toNat 1 = .ok (t.arrivalTick.toNat + 1) :=
      addChecked_eq_ok.mpr ⟨by omega, rfl⟩
    simp only [hadd, ok_bind, hmin]
    refine ⟨_, rfl, ⟨by simp, ?_, hv.group_lt⟩, ⟨by simp, ?_⟩, ?_⟩
    · intro d' hd'
      obtain rfl := Option.mem_some_iff.mp hd'
      rw [hearliest, UInt32.toNat_one]
    · intro d' hd'
      obtain rfl := Option.mem_some_iff.mp hd'
      rw [hearliest]
      exact Nat.le_succ _
    · simp only [taskScore, deadlineScore, UInt32.toNat_one, hd, Option.elim_some, hearliest]
      omega

theorem mutation_simpler {n : Nat} {t : GeneratedTask} (hv : ValidTask n t) (hs : Scorable t) :
    ∀ mutation ∈ mutations, ∃ t', mutation t = .ok t' ∧ Simpler n t t' := by
  simp only [mutations, List.forall_mem_cons, List.not_mem_nil, false_implies, implies_true, and_true]
  exact ⟨clearGroup_simpler hv hs, clearWeight_simpler hv hs, clearDeadline_simpler hv hs, reduceArrival_simpler hv hs,
    reduceBurst_simpler hv⟩

theorem removeTaskAt_sublist (s : GeneratedScenario) (index : Nat) :
    (s.removeTaskAt index).tasks.Sublist s.tasks := by
  have h : (s.tasks.drop (index + 1)).Sublist (s.tasks.drop index) := 
    List.drop_sublist_drop_left s.tasks (Nat.le_succ index)
  have happ := h.append_left (s.tasks.take index)
  rwa [List.take_append_drop] at happ

/-- Replacing an element by one of less weight does not raise the sum. -/
theorem sum_set_le {w : GeneratedTask → Nat} {l : List GeneratedTask} {i : Nat} {t t' : GeneratedTask}
    (hi : l[i]? = some t) (hle : w t' ≤ w t) : ((l.set i t').map w).sum ≤ (l.map w).sum := by
  induction l generalizing i with
  | nil => simp at hi
  | cons x l ih =>
    cases i with
    | zero =>
      obtain rfl : x = t := by simpa using hi
      simp only [List.set_cons_zero, List.map_cons, List.sum_cons]
      omega
    | succ i =>
      have := ih (by simpa using hi)
      simp only [List.set_cons_succ, List.map_cons, List.sum_cons]
      omega

section Candidates

variable {s : GeneratedScenario}

theorem removeTaskAt_valid (h : s.Valid) (index : Nat) :
    (s.removeTaskAt index).Valid ∧ (s.removeTaskAt index).score ≤ s.score := by
  have hsub := s.removeTaskAt_sublist index
  have hlen := hsub.length_le
  have hsum : ((s.removeTaskAt index).tasks.map taskScore).sum ≤ (s.tasks.map taskScore).sum :=
    (hsub.map taskScore).sum_le_sum fun _ _ => Nat.zero_le _
  have hle : (s.removeTaskAt index).score ≤ s.score := by
    have hdomain : (s.removeTaskAt index).domainScore = s.domainScore := rfl
    simp only [score, hdomain]
    simp only [removeTaskAt] at hsum hlen ⊢
    omega
  exact ⟨h.of_le (fun t ht => h.task t (hsub.subset ht)) (fun t ht => h.scorable t (hsub.subset ht)) hle, hle⟩

theorem withoutDomains_valid (h : s.Valid) : s.withoutDomains.Valid ∧ s.withoutDomains.score ≤ s.score := by
  have hle : s.withoutDomains.score ≤ s.score := by
    have hdomain : s.withoutDomains.domainScore = 0 := rfl
    simp only [score, hdomain]
    simp only [withoutDomains]
    omega
  exact ⟨h.of_le h.task h.scorable hle, hle⟩

theorem onOneCore_valid (h : s.Valid) (hc : 1 < s.coreCount) : s.onOneCore.Valid ∧ s.onOneCore.score ≤ s.score := by
  have hc : 1 < s.coreCount.toNat := UInt32.lt_iff_toNat_lt.mp hc
  have hle : s.onOneCore.score ≤ s.score := by
    have hdomain : s.onOneCore.domainScore = 0 := rfl
    simp only [score, hdomain]
    simp only [onOneCore, UInt32.toNat_one]
    omega
  exact ⟨h.of_le h.task h.scorable hle, hle⟩

theorem withoutGroups_valid (h : s.Valid) : s.withoutGroups.Valid ∧ s.withoutGroups.score ≤ s.score := by
  have hsimpler : ∀ t ∈ s.tasks, Simpler 0 t { t with groupIndex := none } := by
    intro t ht
    obtain ⟨t', ht', hs⟩ := clearGroup_simpler (h.task t ht) (h.scorable t ht)
    obtain rfl := Except.ok.inj ht'
    exact ⟨⟨hs.valid.burst_pos, hs.valid.deadline_le, by simp⟩, hs.scorable, hs.score_le⟩
  have hsum : (s.withoutGroups.tasks.map taskScore).sum ≤ (s.tasks.map taskScore).sum := by
    rw [withoutGroups, List.map_map]
    exact List.sum_le_sum fun t ht => (hsimpler t ht).score_le
  have hle : s.withoutGroups.score ≤ s.score := by
    have hdomain : s.withoutGroups.domainScore = s.domainScore := rfl
    simp only [score, hdomain]
    simp only [withoutGroups, List.length_map, List.length_nil, List.map_nil, List.sum_nil] at hsum ⊢
    omega
  refine ⟨h.of_le ?_ ?_ hle, hle⟩
  · intro t ht
    obtain ⟨u, hu, rfl⟩ := List.mem_map.mp ht
    exact (hsimpler u hu).valid
  · intro t ht
    obtain ⟨u, hu, rfl⟩ := List.mem_map.mp ht
    exact (hsimpler u hu).scorable

theorem withQuantumOne_valid (h : s.Valid) (hq : 1 < s.roundRobinQuantum) :
    s.withQuantumOne.Valid ∧ s.withQuantumOne.score ≤ s.score := by
  have hq : 1 < s.roundRobinQuantum.toNat := UInt32.lt_iff_toNat_lt.mp hq
  have hle : s.withQuantumOne.score ≤ s.score := by
    have hdomain : s.withQuantumOne.domainScore = s.domainScore := rfl
    simp only [score, hdomain]
    simp only [withQuantumOne, UInt32.toNat_one]
    omega
  exact ⟨h.of_le h.task h.scorable hle, hle⟩

theorem withTask_valid (h : s.Valid) {index : Nat} {t t' : GeneratedTask} (hi : s.tasks[index]? = some t)
    (ht : Simpler s.groups.length t t') : (s.withTask index t').Valid ∧ (s.withTask index t').score ≤ s.score := by
  have hle : (s.withTask index t').score ≤ s.score := by
    have hsum := sum_set_le hi ht.score_le
    have hdomain : (s.withTask index t').domainScore = s.domainScore := rfl
    simp only [score, hdomain]
    simp only [withTask, List.length_set]
    omega
  refine ⟨h.of_le ?_ ?_ hle, hle⟩
  · intro u hu
    rcases List.mem_or_eq_of_mem_set hu with hu | rfl
    · exact h.task u hu
    · exact ht.valid
  · intro u hu
    rcases List.mem_or_eq_of_mem_set hu with hu | rfl
    · exact h.scorable u hu
    · exact ht.scorable

theorem mem_simplifications {x : Except ShrinkFault GeneratedScenario} : x ∈ s.simplifications ↔
    ∃ index t, s.tasks[index]? = some t ∧ ∃ mutation ∈ mutations, x = (mutation t).map (s.withTask index) := by
  simp only [simplifications, List.mem_flatMap, List.mem_map, Prod.exists, List.mem_zipIdx_iff_getElem?]
  constructor
  · rintro ⟨t, index, hi, mutation, hm, rfl⟩
    exact ⟨index, t, hi, mutation, hm, rfl⟩
  · rintro ⟨index, t, hi, mutation, hm, rfl⟩
    exact ⟨t, index, hi, mutation, hm, rfl⟩

/-- Every candidate of a valid scenario can be built, is valid and has no larger score. -/
theorem candidates_valid (h : s.Valid) {x : Except ShrinkFault GeneratedScenario} (hx : x ∈ s.candidates) :
    ∃ c, x = .ok c ∧ c.Valid ∧ c.score ≤ s.score := by
  rw [candidates, List.mem_append, List.mem_map] at hx
  rcases hx with ⟨c, hc, rfl⟩ | hx
  · refine ⟨c, rfl, ?_⟩
    simp only [removals, machineReductions, List.mem_append, List.mem_ite_nil_right, List.mem_map,
      List.mem_singleton] at hc
    rcases hc with ⟨-, index, -, rfl⟩ | (((⟨-, rfl⟩ | ⟨hcore, rfl⟩) | ⟨-, rfl⟩) | ⟨hq, rfl⟩)
    · exact removeTaskAt_valid h index
    · exact withoutDomains_valid h
    · exact onOneCore_valid h hcore
    · exact withoutGroups_valid h
    · exact withQuantumOne_valid h hq
  · obtain ⟨index, t, hi, mutation, hm, rfl⟩ := mem_simplifications.mp hx
    have ht := List.mem_of_getElem? hi
    obtain ⟨t', ht', hs⟩ := mutation_simpler (h.task t ht) (h.scorable t ht) mutation hm
    exact ⟨s.withTask index t', by rw [ht']; rfl, withTask_valid h hi hs⟩

/-- Without groups no valid task is in one. -/
theorem withoutGroups_self (h : s.Valid) (hg : s.groups.length = 0) : s.withoutGroups = s := by
  have htasks : s.tasks.map (fun task => { task with groupIndex := none }) = s.tasks := by
    conv_rhs => rw [← List.map_id s.tasks]
    apply List.map_congr_left
    intro t ht
    cases hgi : t.groupIndex with
    | none => rw [← hgi]; rfl
    | some g =>
      have := (h.task t ht).group_lt g hgi
      omega
  rw [withoutGroups, htasks, ← List.eq_nil_of_length_eq_zero hg]

theorem score_le_withoutDomains (hd : s.useTopologyDomains = false) : s.score ≤ s.withoutDomains.score := by
  have hdomain : s.domainScore = 0 := by simp [domainScore, usesTopologyDomains, hd]
  simp only [score, hdomain]
  simp only [withoutDomains]
  omega

theorem score_le_onOneCore (hc : ¬1 < s.coreCount) : s.score ≤ s.onOneCore.score := by
  have hc' : ¬1 < s.coreCount.toNat := fun hlt => hc (UInt32.lt_iff_toNat_lt.mpr hlt)
  have hdomain : s.domainScore = 0 := by simp [domainScore, usesTopologyDomains, hc]
  simp only [score, hdomain]
  simp only [onOneCore, UInt32.toNat_one]
  omega

theorem score_le_withQuantumOne (hq : ¬1 < s.roundRobinQuantum) : s.score ≤ s.withQuantumOne.score := by
  have hq' : ¬1 < s.roundRobinQuantum.toNat := fun hlt => hq (UInt32.lt_iff_toNat_lt.mpr hlt)
  have hdomain : s.withQuantumOne.domainScore = s.domainScore := rfl
  simp only [score, hdomain]
  simp only [withQuantumOne, UInt32.toNat_one]
  omega

/-- A single reduction is tried in every pass, unless it does not lower the score or removes the only task. -/
theorem Reduction.tried {c : GeneratedScenario} (hr : Reduction s c) (h : s.Valid)
    (hlast : s.tasks.length = 1 → c.tasks ≠ []) : .ok c ∈ s.candidates ∨ s.score ≤ c.score := by
  have hstage : c ∈ s.removals ++ s.machineReductions → .ok c ∈ s.candidates :=
    fun hc => List.mem_append_left _ (List.mem_map_of_mem hc)
  have hmachine : c ∈ s.machineReductions → .ok c ∈ s.candidates :=
    fun hc => hstage (List.mem_append_right _ hc)
  simp only [machineReductions, List.mem_append, List.mem_ite_nil_right, List.mem_singleton] at hmachine
  cases hr with
  | removeTask index hi =>
    have hlen : 1 < s.tasks.length := by
      by_contra hle
      have hone : s.tasks.length = 1 := by omega
      apply hlast hone
      obtain rfl : index = 0 := by omega
      rw [removeTaskAt, List.take_zero, List.nil_append, List.drop_eq_nil_of_le (by omega)]
    refine Or.inl (hstage (List.mem_append_left _ ?_))
    rw [removals, if_pos hlen, List.mem_map]
    exact ⟨index, by simpa using hi, rfl⟩
  | dropDomains =>
    by_cases hd : s.useTopologyDomains = true
    · exact Or.inl (hmachine (Or.inl (Or.inl (Or.inl ⟨hd, rfl⟩))))
    · exact Or.inr (score_le_withoutDomains (by simpa using hd))
  | oneCore =>
    by_cases hc : 1 < s.coreCount
    · exact Or.inl (hmachine (Or.inl (Or.inl (Or.inr ⟨hc, rfl⟩))))
    · exact Or.inr (score_le_onOneCore hc)
  | dropGroups =>
    by_cases hg : s.groups.length = 0
    · exact Or.inr (Nat.le_of_eq (congrArg score (withoutGroups_self h hg).symm))
    · exact Or.inl (hmachine (Or.inl (Or.inr ⟨hg, rfl⟩)))
  | oneQuantum =>
    by_cases hq : 1 < s.roundRobinQuantum
    · exact Or.inl (hmachine (Or.inr ⟨hq, rfl⟩))
    · exact Or.inr (score_le_withQuantumOne hq)
  | mutate index t t' mutation hi hm ht =>
    refine Or.inl (List.mem_append_right _ (mem_simplifications.mpr ⟨index, t, hi, mutation, hm, ?_⟩))
    rw [ht]
    rfl

end Candidates

end GeneratedScenario

/-! ## What the shrinker returns -/

open GeneratedScenario

section Shrunk

variable {predicate : GeneratedScenario → Except AnyError Bool} {s c : GeneratedScenario}

/-- No single reduction of `s` is smaller and still satisfies the predicate, the removal of the only task apart. -/
def OneMinimal (predicate : GeneratedScenario → Except AnyError Bool) (s : GeneratedScenario) : Prop :=
  ∀ c, Reduction s c → (s.tasks.length = 1 → c.tasks ≠ []) → ∀ n m, c.sizeScore = .ok n → s.sizeScore = .ok m →
    n < m → predicate c = .ok false

/-- What the shrinker promises of the scenario `r` it makes of `initial`. -/
structure Shrunk (predicate : GeneratedScenario → Except AnyError Bool) (initial r : GeneratedScenario) : Prop where
  holds : predicate r = .ok true
  valid : r.Valid
  score_le : ∃ n m, r.sizeScore = .ok n ∧ initial.sizeScore = .ok m ∧ n ≤ m
  minimal : OneMinimal predicate r

/-- A candidate of a valid scenario is compared by score, and the predicate decides over the smaller ones. -/
theorem accept_eq (hs : s.Valid) (hc : c.Valid) : accept predicate s c =
    if c.score < s.score then ((predicate c).mapError ShrinkFault.raised >>= fun holds =>
      .ok (if holds then some c else none)) else .ok none := by
  unfold accept
  rw [hc.sizeScore_eq, hs.sizeScore_eq]
  rfl

theorem accept_some {t : GeneratedScenario} (hs : s.Valid) (hc : c.Valid) (h : accept predicate s c = .ok (some t)) :
    t = c ∧ predicate c = .ok true ∧ c.score < s.score := by
  rw [accept_eq hs hc] at h
  by_cases hlt : c.score < s.score
  · rw [if_pos hlt] at h
    cases hp : predicate c with
    | error e => simp [hp, Except.mapError] at h
    | ok holds =>
      cases holds with
      | false => simp [hp, Except.mapError] at h
      | true => exact ⟨by simpa [hp, Except.mapError] using h.symm, rfl, hlt⟩
  · rw [if_neg hlt] at h
    simp at h

theorem accept_none (hs : s.Valid) (hc : c.Valid) (h : accept predicate s c = .ok none) (hlt : c.score < s.score) :
    predicate c = .ok false := by
  rw [accept_eq hs hc, if_pos hlt] at h
  cases hp : predicate c with
  | error e => simp [hp, Except.mapError] at h
  | ok holds =>
    cases holds with
    | false => rfl
    | true => simp [hp, Except.mapError] at h

theorem accept_error {e : ShrinkFault} (hs : s.Valid) (hc : c.Valid) (h : accept predicate s c = .error e) :
    ∃ error, predicate c = .error error ∧ e = .raised error := by
  rw [accept_eq hs hc] at h
  by_cases hlt : c.score < s.score
  · rw [if_pos hlt] at h
    cases hp : predicate c with
    | error error => exact ⟨error, rfl, by simpa [hp, Except.mapError] using h.symm⟩
    | ok holds => simp [hp, Except.mapError] at h
  · rw [if_neg hlt] at h
    simp at h

/-- A pass that takes a scenario lowers the score and keeps what the search needs. -/
theorem shrinkPass_some {t : GeneratedScenario} (hs : s.Valid) (h : shrinkPass predicate s = .ok (some t)) :
    t.Valid ∧ predicate t = .ok true ∧ t.score < s.score := by
  obtain ⟨x, hx, h⟩ := firstM_some h
  obtain ⟨c, rfl, hc, -⟩ := candidates_valid hs hx
  obtain ⟨rfl, hp, hlt⟩ := accept_some hs hc h
  exact ⟨hc, hp, hlt⟩

/-- A pass that takes nothing has refused every single reduction. -/
theorem shrinkPass_none (hs : s.Valid) (h : shrinkPass predicate s = .ok none) : OneMinimal predicate s := by
  intro c hr hlast n m hn hm hlt
  obtain ⟨rfl, -⟩ := sizeScore_eq_ok.mp hn
  obtain ⟨rfl, -⟩ := sizeScore_eq_ok.mp hm
  rcases hr.tried hs hlast with hmem | hle
  · obtain ⟨c', hc', hv, -⟩ := candidates_valid hs hmem
    obtain rfl := Except.ok.inj hc'
    exact accept_none hs hv (firstM_eq_none.mp h _ hmem) hlt
  · omega

theorem shrinkPass_error {e : ShrinkFault} (hs : s.Valid) (h : shrinkPass predicate s = .error e) :
    ∃ c error, predicate c = .error error ∧ e = .raised error := by
  obtain ⟨x, hx, h⟩ := firstM_error h
  obtain ⟨c, rfl, hc, -⟩ := candidates_valid hs hx
  obtain ⟨error, hp, rfl⟩ := accept_error hs hc h
  exact ⟨c, error, hp, rfl⟩

/-- The shrinker ends within as many turns as the score of its input allows, and returns a scenario that is minimal
under the reductions it offers, or the error the predicate raised on a candidate. -/
theorem shrinkScenario_shrunk {predicate : GeneratedScenario → Except AnyError Bool} {initial : GeneratedScenario}
    (hv : initial.Valid) (hp : predicate initial = .ok true) (turns : Nat) (hturns : initial.score < turns) :
    (∃ r, shrinkScenario predicate turns initial = .ok (some r) ∧ Shrunk predicate initial r) ∨
      ∃ c error, predicate c = .error error ∧ shrinkScenario predicate turns initial = .error (.raised error) := by
  have hstep : ∀ s t : GeneratedScenario, s.Valid ∧ predicate s = .ok true → shrinkPass predicate s = .ok (some t) →
      (t.Valid ∧ predicate t = .ok true) ∧ t.score < s.score := by
    intro s t hs h
    obtain ⟨hvalid, hholds, hlt⟩ := shrinkPass_some hs.1 h
    exact ⟨⟨hvalid, hholds⟩, hlt⟩
  rcases descend_end hstep ⟨hv, hp⟩ hturns with ⟨r, hr, ⟨hvalid, hholds⟩, hle, hend⟩ | ⟨r, e, ⟨hvalid, -⟩, hend, herr⟩
  · exact Or.inl ⟨r, hr, hholds, hvalid, ⟨_, _, hvalid.sizeScore_eq, hv.sizeScore_eq, hle⟩, shrinkPass_none hvalid hend⟩
  · obtain ⟨c, error, hraise, rfl⟩ := shrinkPass_error hvalid hend
    exact Or.inr ⟨c, error, hraise, herr⟩

end Shrunk

/-- One task that cannot be made simpler. -/
def onlyTask : GeneratedScenario where
  name := []
  roundRobinQuantum := 1
  coreCount := 1
  useTopologyDomains := false
  groups := []
  tasks := [{ arrivalTick := 0, burstTicks := 1 }]

theorem onlyTask_sizeScore : onlyTask.sizeScore = .ok 1080 := by decide

theorem onlyTask_valid : onlyTask.Valid := by
  refine ⟨?_, 1080, onlyTask_sizeScore⟩
  intro t ht
  obtain rfl := List.mem_singleton.mp ht
  exact ⟨by decide, by simp, by simp⟩

def holdsAlways (_ : GeneratedScenario) : Except AnyError Bool :=
  .ok true

/-- The first stage keeps one task, even when the predicate holds of the scenario without any. -/
theorem shrinkScenario_keeps_onlyTask : onlyTask.Valid ∧ holdsAlways onlyTask = .ok true ∧
    shrinkScenario holdsAlways 1081 onlyTask = .ok (some onlyTask) ∧ Reduction onlyTask (onlyTask.removeTaskAt 0) ∧
    (onlyTask.removeTaskAt 0).sizeScore = .ok 70 ∧ onlyTask.sizeScore = .ok 1080 ∧
    holdsAlways (onlyTask.removeTaskAt 0) = .ok true :=
  ⟨onlyTask_valid, rfl, by decide, .removeTask 0 (by decide), by decide, onlyTask_sizeScore, rfl⟩

/-- A longer task beside it, which a predicate on the bursts asks for. -/
def twoTasks : GeneratedScenario :=
  { onlyTask with
    tasks := [{ arrivalTick := 3, burstTicks := 6, deadlineTick := some 9 }, { arrivalTick := 0, burstTicks := 1 }] }

def hasLongBurst (s : GeneratedScenario) : Except AnyError Bool :=
  .ok (s.tasks.any fun task => decide (4 < task.burstTicks))

theorem twoTasks_valid : twoTasks.Valid := by
  refine ⟨?_, 2159, by decide⟩
  simp only [twoTasks, List.forall_mem_cons, List.not_mem_nil, false_implies, implies_true, and_true]
  refine ⟨⟨by decide, ?_, by simp⟩, by decide, by simp, by simp⟩
  intro d hd
  obtain rfl := Option.mem_some_iff.mp hd
  decide

theorem shrinkScenario_shrunk_twoTasks :
    (∃ r, shrinkScenario hasLongBurst 2160 twoTasks = .ok (some r) ∧ Shrunk hasLongBurst twoTasks r) ∨
      ∃ c error, hasLongBurst c = .error error ∧ shrinkScenario hasLongBurst 2160 twoTasks = .error (.raised error) :=
  shrinkScenario_shrunk twoTasks_valid rfl 2160 (by decide)

end Exasphere.Sim

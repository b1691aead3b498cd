import Mathlib.Data.List.ReduceOption
import Exasphere.Collectors.Buddyinfo
import Exasphere.Json.Access
import Exasphere.Lib.StableSort

/-!
# The performance advisor (`advisor/advisor.cpp`)

Seven rules look at the aggregates of a capture; each gives one finding or none, with its evidence and with suggestions
that nothing applies. The findings are sorted by severity. Ratios and thresholds are `Float`s, divided and compared as
the `double`s of the source; how one is printed is a parameter.
-/

namespace Exasphere.Advisor

open Exasphere.Lib Exasphere.Json Exasphere.Collectors

inductive Severity
  | info
  | warning
  | critical
  deriving DecidableEq, Repr

inductive Confidence
  | measured
  | heuristic
  deriving DecidableEq, Repr

def severityName : Severity → String
  | .info => "info"
  | .warning => "warning"
  | .critical => "critical"

def confidenceName : Confidence → String
  | .measured => "measured"
  | .heuristic => "heuristic"

structure Recommendation where
  kind : Bytes
  detail : Bytes
  rationale : Bytes
  deriving DecidableEq, Repr

structure Finding where
  id : Bytes
  sev : Severity := .info
  confidence : Confidence := .measured
  summary : Bytes
  evidence : List Bytes
  recs : List Recommendation := []
  deriving DecidableEq, Repr

def Recommendation.toJson (r : Recommendation) : Value :=
  Value.makeObject
    |>.set "kind" (.string r.kind)
    |>.set "detail" (.string r.detail)
    |>.set "rationale" (.string r.rationale)

def Finding.toJson (f : Finding) : Value :=
  Value.makeObject
    |>.set "id" (.string f.id)
    |>.set "severity" (.ofLiteral (severityName f.sev))
    |>.set "confidence" (.ofLiteral (confidenceName f.confidence))
    |>.set "summary" (.string f.summary)
    |>.set "evidence" (.array (f.evidence.map .string))
    |>.set "recommendations" (.array (f.recs.map Recommendation.toJson))

structure Thresholds where
  falseSharingHitmMin : Float := 0.05
  excessiveLockWaitMs : Float := 1.0
  excessiveLockContentionsMin : Int := 1
  unnecessaryWakeupRatio : Float := 0.30
  affinityChurnMigrationsMin : Int := 100
  numaRemoteFaultRatio : Float := 0.20
  allocatorFragmentationMin : Float := 0.50
  priorityInversionEnabled : Bool := true

/-- The texts of a `double`: `std::to_string`, and what a stream prints. -/
structure Texts where
  toString : Float → Bytes
  printed : Float → Bytes

def severityRank : Severity → Nat
  | .critical => 2
  | .warning => 1
  | .info => 0

/-! ## The rules -/

section Rules

variable (texts : Texts) (T : Thresholds) (agg : Aggregates)

/-- The only suggestion of most rules. -/
def tuning (detail rationale : Bytes) : List Recommendation := [⟨utf8 "tuning", detail, rationale⟩]

def poorNumaPlacement : Option Finding :=
  if T.numaRemoteFaultRatio < agg.remoteFaultRatio ∧ 0 ≤ agg.dominantNode ∧ 0 ≤ agg.taskCpuNode ∧
      agg.dominantNode ≠ agg.taskCpuNode then
    let node := IStream.signedText agg.dominantNode
    some {
      id := utf8 "poor-numa-placement"
      sev := .warning
      summary := utf8 "Task memory is dominated by a NUMA node different from where it runs."
      evidence := [utf8 "remote_fault_ratio=" ++ texts.printed agg.remoteFaultRatio ++ utf8 " dominant_mem_node=" ++
        node ++ utf8 " task_cpu_node=" ++ IStream.signedText agg.taskCpuNode]
      recs := [⟨utf8 "numa_bind", utf8 "numactl --membind=" ++ node ++ utf8 " --cpunodebind=" ++ node ++ utf8 " ./app",
        utf8 "Bind memory and CPU to node " ++ node ++ utf8 " to raise the local-fault ratio toward >0.9."⟩] }
  else none

def cpuAffinityChurn : Option Finding :=
  if agg.schedCollected ∧ agg.crossLlcMigration ∧ T.affinityChurnMigrationsMin < agg.migrations then
    some {
      id := utf8 "cpu-affinity-churn"
      sev := .warning
      summary := utf8 "Frequent cross-LLC migrations are cooling caches for a migratory task group."
      evidence := [utf8 "migrations=" ++ IStream.signedText agg.migrations ++ utf8 " llc_domains=" ++
        IStream.signedText agg.llcDomains]
      recs := [⟨utf8 "sched_setaffinity",
        utf8 "sched_setaffinity(<pid>, mask_of_one_llc_domain);  // e.g. cpus 0-7 for domain 0",
        utf8 "Pin the task group to a single LLC domain to stop cross-LLC migration."⟩] }
  else none

def unnecessaryWakeups : Option Finding :=
  if agg.schedCollected ∧ 0 < agg.wakeups ∧
      T.unnecessaryWakeupRatio < Float.ofInt agg.unnecessaryWakeups / Float.ofInt agg.wakeups then
    some {
      id := utf8 "unnecessary-wakeups"
      summary := utf8 "A large share of wakeups are not followed by a run within the window."
      evidence := [utf8 "unnecessary_wakeups=" ++ IStream.signedText agg.unnecessaryWakeups ++ utf8 "/" ++
        IStream.signedText agg.wakeups]
      recs := tuning (utf8 "Batch/coalesce wakeups or use polling for the affected producer/consumer pair.")
        (utf8 "Reduce wakeup-to-idle churn that wastes CPU and perturbs the scheduler.") }
  else none

/-- The ratio is rounded before it is compared: this one is above the threshold, and its `double` is not. -/
example : unnecessaryWakeups {} { schedCollected := true, unnecessaryWakeups := 3 * 10 ^ 17 + 1, wakeups := 10 ^ 18 } =
    none := by
  decide

def excessiveLocking : Option Finding :=
  if T.excessiveLockContentionsMin ≤ agg.lockContentions ∧ T.excessiveLockWaitMs < agg.avgLockWaitMs then
    some {
      id := utf8 "excessive-locking"
      sev := .warning
      summary := utf8 "Lock contention wait time is high relative to useful work."
      evidence := [utf8 "lock_contentions=" ++ IStream.signedText agg.lockContentions ++ utf8 " avg_wait_ms=" ++
        texts.toString agg.avgLockWaitMs]
      recs := tuning (utf8 "Shard the contended lock, reduce critical-section length, or go lock-free.")
        (utf8 "Cut average lock wait below ~1ms to remove the serialization bottleneck.") }
  else none

/-- With the counters of the PMU, and without them by the misses of the last cache. -/
def falseSharing : Option Finding :=
  if agg.pmuCollected ∧ T.falseSharingHitmMin < agg.remoteHitm then
    some {
      id := utf8 "false-sharing"
      sev := .critical
      summary := utf8 "Cross-core cache-line ping-pong (remote HITM) indicates false sharing."
      evidence := [utf8 "remote_hitm_rate=" ++ texts.toString agg.remoteHitm]
      recs := tuning (utf8 "Pad hot fields to a 64B cache line (alignas(64)) or split per-thread.")
        (utf8 "Eliminate shared writable cache lines between cores.") }
  else if ¬agg.pmuCollected ∧ 0 < agg.llcMisses then
    some {
      id := utf8 "false-sharing"
      confidence := .heuristic
      summary := utf8 "Elevated LLC misses may indicate false sharing (PMU HITM unavailable)."
      evidence := [utf8 "llc_misses=" ++ IStream.signedText agg.llcMisses ++
        utf8 " (heuristic; CAP_PERFMON needed for confirmation)"] }
  else none

def allocatorFragmentation : Option Finding :=
  if T.allocatorFragmentationMin < agg.buddyFragmentation then
    some {
      id := utf8 "allocator-fragmentation"
      summary := utf8 "High-order buddy lists are depleted relative to low-order (fragmentation)."
      evidence := [utf8 "buddy_fragmentation_index=" ++ texts.toString agg.buddyFragmentation]
      recs := tuning (utf8 "Use huge pages / a slab-friendly allocator; reduce small-allocation churn.")
        (utf8 "Lower fragmentation to keep high-order allocations cheap.") }
  else none

def priorityInversion : Option Finding :=
  if T.priorityInversionEnabled ∧ agg.priorityInversionObserved then
    some {
      id := utf8 "priority-inversion"
      sev := .critical
      summary := utf8 "A high-priority task was blocked on a lock held by a preempted low-priority task."
      evidence := [utf8 "priority_inversion observed via lock-owner + sched_switch chain"]
      recs := tuning (utf8 "Use priority-inheritance mutexes (PTHREAD_PRIO_INHERIT) or shorten the hold.")
        (utf8 "Prevent unbounded priority inversion on the critical lock.") }
  else none

/-- The findings in the order of the rules. -/
def fired : List Finding :=
  [poorNumaPlacement texts T agg, cpuAffinityChurn T agg, unnecessaryWakeups T agg, excessiveLocking texts T agg,
    falseSharing texts T agg, allocatorFragmentation texts T agg, priorityInversion T agg].reduceOption

/-- The comparison of the sort: the higher severity, then more evidence. -/
def precedes (a b : Finding) : Bool :=
  if severityRank a.sev ≠ severityRank b.sev then decide (severityRank b.sev < severityRank a.sev)
  else decide (b.evidence.length < a.evidence.length)

def analyze : List Finding := (fired texts T agg).mergeSort fun a b => !precedes b a

def reportJson : Value :=
  Value.makeObject
    |>.set "schema" (.ofLiteral "xsprof/advisor-report/v1")
    |>.set "capabilities" (Value.makeObject
      |>.set "pmu_collected" (.bool agg.pmuCollected)
      |>.set "sched_collected" (.bool agg.schedCollected))
    |>.set "findings" (.array ((analyze texts T agg).map Finding.toJson))
    |>.set "host_mutation" (.bool false)

def yesNo (b : Bool) : Bytes := if b then utf8 "yes" else utf8 "no"

def findingRow (row : Finding × Nat) : Bytes :=
  utf8 "| " ++ decimal (row.2 + 1) ++ utf8 " | " ++ utf8 (severityName row.1.sev) ++ utf8 " | " ++ row.1.id ++
    utf8 " | " ++ utf8 (confidenceName row.1.confidence) ++ utf8 " |\n"

def findingDetail (f : Finding) : Bytes :=
  utf8 "### " ++ f.id ++ utf8 " (" ++ utf8 (severityName f.sev) ++ utf8 ", " ++ utf8 (confidenceName f.confidence) ++
    utf8 ")\n\n" ++ f.summary ++ utf8 "\n\n" ++ utf8 "Evidence:\n" ++
    f.evidence.flatMap (fun e => utf8 "- `" ++ e ++ utf8 "`\n") ++
    (if f.recs.isEmpty then [] else utf8 "\nRecommendations (suggestions only — never auto-applied):\n" ++
      f.recs.flatMap fun r => utf8 "- **" ++ r.kind ++ utf8 "**: `" ++ r.detail ++ utf8 "` — " ++ r.rationale ++
        utf8 "\n") ++ utf8 "\n"

def reportMarkdown : Bytes :=
  let findings := analyze texts T agg
  utf8 "# xsprof Performance Advisor Report\n\n" ++ utf8 "- PMU collected: " ++ yesNo agg.pmuCollected ++ utf8 "\n" ++
    utf8 "- Scheduler collected: " ++ yesNo agg.schedCollected ++ utf8 "\n\n" ++
    if findings.isEmpty then
      utf8 "No findings. Either the workload is healthy or the signals needed for detection " ++
        utf8 "were not collected (see capabilities above; the framework fails closed).\n"
    else
      utf8 "| # | Severity | Finding | Confidence |\n|---|----------|---------|------------|\n" ++
        findings.zipIdx.flatMap findingRow ++ utf8 "\n## Detail\n\n" ++ findings.flatMap findingDetail

end Rules

/-! ## What the advisor finds -/

/-- The rules by their ids, in their order. -/
def ruleIds : List Bytes :=
  ["poor-numa-placement", "cpu-affinity-churn", "unnecessary-wakeups", "excessive-locking", "false-sharing",
    "allocator-fragmentation", "priority-inversion"].map utf8

/-- What stands behind a finding: one piece of evidence, the collector of its signal, and a suggestion where the signal
is measured. -/
structure Finding.Backed (agg : Aggregates) (f : Finding) : Prop where
  evidence : f.evidence.length = 1
  sched : f.id = utf8 "cpu-affinity-churn" ∨ f.id = utf8 "unnecessary-wakeups" → agg.schedCollected = true
  pmu : f.id = utf8 "false-sharing" → (agg.pmuCollected = true ↔ f.confidence = .measured)
  heuristic : f.confidence = .heuristic → f.id = utf8 "false-sharing" ∧ f.sev = .info
  recs : f.recs.length = if f.confidence = .measured then 1 else 0

section Findings

variable {texts : Texts} {T : Thresholds} {agg : Aggregates} {f : Finding}

/-- A measured finding of a rule other than the one for false sharing. -/
theorem backed_measured {rule : String} (hid : f.id = utf8 rule) (hevidence : f.evidence.length = 1)
    (hmeasured : f.confidence = .measured) (hrecs : f.recs.length = 1) (hrule : rule ≠ "false-sharing")
    (hsched : rule = "cpu-affinity-churn" ∨ rule = "unnecessary-wakeups" → agg.schedCollected = true) :
    f.Backed agg ∧ f.id = utf8 rule := by
  refine ⟨⟨hevidence, ?_, ?_, ?_, ?_⟩, hid⟩
  · rw [hid, utf8_inj, utf8_inj]
    exact hsched
  · rw [hid, utf8_inj]
    exact fun h => absurd h hrule
  · rw [hmeasured]
    exact nofun
  · rw [hmeasured, hrecs, if_pos rfl]

theorem poorNumaPlacement_backed (h : poorNumaPlacement texts T agg = some f) :
    f.Backed agg ∧ f.id = utf8 "poor-numa-placement" := by
  unfold poorNumaPlacement at h
  split at h
  · obtain rfl := Option.some.inj h
    exact backed_measured rfl rfl rfl rfl (by decide) (by simp)
  · cases h

theorem cpuAffinityChurn_backed (h : cpuAffinityChurn T agg = some f) :
    f.Backed agg ∧ f.id = utf8 "cpu-affinity-churn" := by
  unfold cpuAffinityChurn at h
  split at h
  next hc =>
    obtain rfl := Option.some.inj h
    exact backed_measured rfl rfl rfl rfl (by decide) (fun _ => hc.1)
  · cases h

theorem unnecessaryWakeups_backed (h : unnecessaryWakeups T agg = some f) :
    f.Backed agg ∧ f.id = utf8 "unnecessary-wakeups" := by
  unfold unnecessaryWakeups at h
  split at h
  next hc =>
    obtain rfl := Option.some.inj h
    exact backed_measured rfl rfl rfl rfl (by decide) (fun _ => hc.1)
  · cases h

theorem excessiveLocking_backed (h : excessiveLocking texts T agg = some f) :
    f.Backed agg ∧ f.id = utf8 "excessive-locking" := by
  unfold excessiveLocking at h
  split at h
  · obtain rfl := Option.some.inj h
    exact backed_measured rfl rfl rfl rfl (by decide) (by simp)
  · cases h

theorem falseSharing_backed (h : falseSharing texts T agg = some f) : f.Backed agg ∧ f.id = utf8 "false-sharing" := by
  have hrules : ¬(utf8 "false-sharing" = utf8 "cpu-affinity-churn" ∨
      utf8 "false-sharing" = utf8 "unnecessary-wakeups") := by
    decide
  unfold falseSharing at h
  split at h
  next hc =>
    obtain rfl := Option.some.inj h
    exact ⟨⟨rfl, fun h => absurd h hrules, fun _ => ⟨fun _ => rfl, fun _ => hc.1⟩, nofun, rfl⟩, rfl⟩
  · split at h
    next hc =>
      obtain rfl := Option.some.inj h
      exact ⟨⟨rfl, fun h => absurd h hrules, fun _ => ⟨fun hp => absurd hp hc.1, nofun⟩, fun _ => ⟨rfl, rfl⟩, rfl⟩, rfl⟩
    · cases h

theorem allocatorFragmentation_backed (h : allocatorFragmentation texts T agg = some f) :
    f.Backed agg ∧ f.id = utf8 "allocator-fragmentation" := by
  unfold allocatorFragmentation at h
  split at h
  · obtain rfl := Option.some.inj h
    exact backed_measured rfl rfl rfl rfl (by decide) (by simp)
  · cases h

theorem priorityInversion_backed (h : priorityInversion T agg = some f) :
    f.Backed agg ∧ f.id = utf8 "priority-inversion" := by
  unfold priorityInversion at h
  split at h
  · obtain rfl := Option.some.inj h
    exact backed_measured rfl rfl rfl rfl (by decide) (by simp)
  · cases h

/-- Rules that give a finding of their own id each give the ids of those that fire. -/
theorem reduceOption_ids {rules : List (Option Finding)} {ids : List Bytes}
    (h : List.Forall₂ (fun rule id => ∀ f, rule = some f → f.Backed agg ∧ f.id = id) rules ids) :
    (rules.reduceOption.map Finding.id).Sublist ids ∧ ∀ f ∈ rules.reduceOption, f.Backed agg := by
  induction h with
  | nil => exact ⟨List.Sublist.refl _, fun f hf => absurd hf List.not_mem_nil⟩
  | @cons rule id rules ids hrule _ ih =>
    obtain ⟨hsub, hall⟩ := ih
    cases rule with
    | none => exact ⟨hsub.cons _, hall⟩
    | some f =>
      obtain ⟨hf, rfl⟩ := hrule f rfl
      rw [List.reduceOption_cons_of_some, List.map_cons]
      exact ⟨hsub.cons_cons _, List.forall_mem_cons.mpr ⟨hf, hall⟩⟩

theorem fired_backed :
    ((fired texts T agg).map Finding.id).Sublist ruleIds ∧ ∀ f ∈ fired texts T agg, f.Backed agg := by
  refine reduceOption_ids ?_
  simp only [ruleIds, List.map_cons, List.map_nil, List.forall₂_cons, List.forall₂_nil_left_iff, and_true]
  exact ⟨fun _ h => poorNumaPlacement_backed h, fun _ h => cpuAffinityChurn_backed h,
    fun _ h => unnecessaryWakeups_backed h, fun _ h => excessiveLocking_backed h, fun _ h => falseSharing_backed h,
    fun _ h => allocatorFragmentation_backed h, fun _ h => priorityInversion_backed h⟩

/-- The rank of a finding: its severity, then its evidence. -/
def rank (f : Finding) : Nat ×ₗ Nat := toLex (severityRank f.sev, f.evidence.length)

/-- The sort is one by rank. -/
theorem not_precedes (a b : Finding) : (!precedes b a) = byRank rank a b := by
  unfold precedes byRank rank
  rw [Bool.eq_iff_iff, Bool.not_eq_true', decide_eq_true_eq, Prod.Lex.toLex_le_toLex]
  split
  next hne =>
    rw [decide_eq_false_iff_not]
    omega
  next heq =>
    rw [decide_eq_false_iff_not]
    omega

/-- Every finding has one piece of evidence, so its rank is that of its severity. -/
theorem rank_fired (hf : f ∈ fired texts T agg) (sev : Severity) :
    rank f = toLex (severityRank sev, 1) ↔ f.sev = sev := by
  have hevidence := (fired_backed.2 f hf).evidence
  have hinj : severityRank f.sev = severityRank sev ↔ f.sev = sev := by
    cases f.sev <;> cases sev <;> simp [severityRank]
  rw [rank, hevidence, toLex_inj, Prod.mk.injEq, hinj]
  simp

/-- The findings by severity, and those of one severity in the order of the rules. -/
theorem analyze_eq : analyze texts T agg = [Severity.critical, .warning, .info].flatMap fun sev =>
    (fired texts T agg).filter fun f => decide (f.sev = sev) := by
  have hsort : analyze texts T agg = (fired texts T agg).mergeSort (byRank rank) := by
    unfold analyze
    congr 1
    funext a b
    exact not_precedes a b
  have hranks : ([Severity.critical, .warning, .info].map fun sev => toLex (severityRank sev, 1)).Pairwise (· > ·) := by
    decide
  rw [hsort, mergeSort_eq_flatMap hranks, List.flatMap_map]
  · exact List.flatMap_congr fun sev _ => List.filter_congr fun f hf => by simp only [rank_fired hf]
  · intro f hf
    have hrank := (rank_fired hf f.sev).mpr rfl
    rw [hrank]
    cases f.sev <;> simp

/-- **What the advisor finds**: each rule at most once, by severity and then in the order of the rules, every finding
with its evidence, from a collector that ran. -/
theorem analyze_spec (texts : Texts) (T : Thresholds) (agg : Aggregates) :
    (analyze texts T agg = [Severity.critical, .warning, .info].flatMap fun sev =>
      (fired texts T agg).filter fun f => decide (f.sev = sev)) ∧
    ((fired texts T agg).map Finding.id).Sublist ruleIds ∧ ∀ f ∈ analyze texts T agg, f.Backed agg :=
  ⟨analyze_eq, fired_backed.1, fun f hf => fired_backed.2 f (List.mem_mergeSort.mp hf)⟩

end Findings

/-! ## The advisor on the facts of a host -/

section Facts

variable {texts : Texts} {facts : SystemFacts} {agg : Aggregates}

/-- From the facts of a host come the fragmentation index and what was collected. -/
theorem aggregatesFromFacts_defaults (h : aggregatesFromFacts facts = .ok agg) :
    agg = {
      pmuCollected := agg.pmuCollected
      llcDomains := agg.llcDomains
      buddyFragmentation := agg.buddyFragmentation } := by
  unfold aggregatesFromFacts at h
  dsimp only at h
  split at h
  · exact Except.ok.inj h ▸ rfl
  · obtain ⟨index, -, h⟩ := bind_eq_ok.mp h
    cases index with
    | none => exact Except.ok.inj h ▸ rfl
    | some index => exact Except.ok.inj h ▸ rfl

/-- With the default thresholds, only the rule for fragmentation can fire. -/
theorem fired_facts (h : aggregatesFromFacts facts = .ok agg) :
    fired texts {} agg = (allocatorFragmentation texts {} agg).toList := by
  have hdefaults := aggregatesFromFacts_defaults h
  have h₁ : poorNumaPlacement texts {} agg = none := by
    have hlow : ¬(0.20 : Float) < 0.0 := by decide
    rw [hdefaults]
    exact if_neg fun h => hlow h.1
  have h₂ : cpuAffinityChurn {} agg = none := by
    rw [hdefaults]
    exact if_neg (by simp)
  have h₃ : unnecessaryWakeups {} agg = none := by
    rw [hdefaults]
    exact if_neg (by simp)
  have h₄ : excessiveLocking texts {} agg = none := by
    rw [hdefaults]
    exact if_neg (by simp)
  have h₅ : falseSharing texts {} agg = none := by
    have hlow : ¬(0.05 : Float) < 0.0 := by decide
    rw [hdefaults]
    exact (if_neg fun h => hlow h.2).trans (if_neg (by simp))
  have h₇ : priorityInversion {} agg = none := by
    rw [hdefaults]
    exact if_neg (by simp)
  rw [fired, h₁, h₂, h₃, h₄, h₅, h₇]
  cases allocatorFragmentation texts {} agg <;> rfl

/-- **The advisor on a host** finds fragmentation or nothing; and where the last line of `/proc/buddyinfo` is one of the
kernel it finds nothing, whatever the counts are. -/
theorem analyze_facts (texts : Texts) (facts : SystemFacts) :
    (∀ agg, aggregatesFromFacts facts = .ok agg →
      analyze texts {} agg = (allocatorFragmentation texts {} agg).toList) ∧
    ∀ line : ZoneLine, facts.buddyinfo.getLast? = some line.text →
      ∃ agg, aggregatesFromFacts facts = .ok agg ∧ analyze texts {} agg = [] := by
  have hsingle : ∀ agg, aggregatesFromFacts facts = .ok agg →
      analyze texts {} agg = (allocatorFragmentation texts {} agg).toList := by
    intro agg h
    rw [analyze, fired_facts h]
    cases allocatorFragmentation texts {} agg with
    | none => exact List.mergeSort_nil
    | some f => exact List.mergeSort_singleton f
  refine ⟨hsingle, fun line hlast => ?_⟩
  obtain ⟨agg, hagg, hzero⟩ := aggregatesFromFacts_line hlast
  have hnone : allocatorFragmentation texts {} agg = none := by
    have hlow : ¬(0.50 : Float) < 0.0 := by decide
    rw [allocatorFragmentation, hzero]
    exact if_neg hlow
  exact ⟨agg, hagg, by rw [hsingle agg hagg, hnone]; rfl⟩

end Facts

/-! ## The report -/

section Report

variable {texts : Texts} {T : Thresholds} {agg : Aggregates}

theorem Recommendation.toJson_plain (r : Recommendation) : r.toJson.Plain :=
  ((Value.plain_makeObject.set Value.plain_string).set Value.plain_string).set Value.plain_string

theorem Finding.toJson_plain (f : Finding) : f.toJson.Plain := by
  have hevidence : (Value.array (f.evidence.map .string)).Plain := Value.plain_array fun v hv => by
    obtain ⟨e, -, rfl⟩ := List.mem_map.mp hv
    exact Value.plain_string
  have hrecs : (Value.array (f.recs.map Recommendation.toJson)).Plain := Value.plain_array fun v hv => by
    obtain ⟨r, -, rfl⟩ := List.mem_map.mp hv
    exact r.toJson_plain
  exact (((((Value.plain_makeObject.set Value.plain_string).set Value.plain_literal).set Value.plain_literal).set
    Value.plain_string).set hevidence).set hrecs

theorem reportJson_plain : (reportJson texts T agg).Plain := by
  have hfindings : (Value.array ((analyze texts T agg).map Finding.toJson)).Plain := Value.plain_array fun v hv => by
    obtain ⟨f, -, rfl⟩ := List.mem_map.mp hv
    exact f.toJson_plain
  have hcapabilities : (Value.makeObject |>.set "pmu_collected" (.bool agg.pmuCollected)
      |>.set "sched_collected" (.bool agg.schedCollected)).Plain :=
    (Value.plain_makeObject.set Value.plain_bool).set Value.plain_bool
  exact (((Value.plain_makeObject.set Value.plain_literal).set hcapabilities).set hfindings).set Value.plain_bool

end Report

end Exasphere.Advisor

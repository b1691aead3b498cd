import Exasphere.Observability.Fixture
import Exasphere.Sim.Comparison

/-!
# The approved comparison (`observability/comparison.zig`)

A simulation of the pinned scenario is set beside the pinned fixture, family by family. The comparison is built exactly
for the approved pairing, and its rows are the numbers of the scenario on one side and the counts of the snapshot on the
other, with their differences (`buildApprovedComparison_iff`).
-/

namespace Exasphere.Observability

open Exasphere.Lib Exasphere.Sim

/-! ## The contract -/

def schemaName : Bytes := utf8 "zig-scheduler/observability-comparison"
def schemaVersion : Nat := 1
def pairingManifestSchema : Bytes := utf8 "zig-scheduler/observability-comparison-pairing"
def pairingManifestVersion : Nat := 1
def defaultPairingId : Bytes := utf8 "sleep-wakeup-vs-tracefs-sched-demo"
def defaultSimulatorScenarioPath : Bytes := utf8 "scenarios/basic/sleep-wakeup.zon"
def defaultSimulatorPolicy : Bytes := utf8 "cfs_like"
def reportSchemaName : Bytes := utf8 "zig-scheduler/report"
def reportSchemaVersion : Nat := 1

def approvedMetricSet : List Bytes :=
  [utf8 "activation_count_delta", utf8 "selection_count_delta", utf8 "retirement_count_delta",
    utf8 "total_event_count_delta", utf8 "cpu_cardinality_delta", utf8 "actor_cardinality_delta",
    utf8 "time_span_delta"]

def approvedCaveatKeys : List Bytes :=
  [utf8 "observability_only", utf8 "units_not_equivalent", utf8 "identity_not_equivalent",
    utf8 "unmatched_events_present", utf8 "not_fidelity"]

structure PairingManifest where
  schema : Bytes
  version : Nat
  pairingId : Bytes
  simulatorScenario : Bytes
  simulatorPolicy : Bytes
  observabilityFixtureManifest : Bytes
  approvedMetricSet : List Bytes
  requiredCaveatKeys : List Bytes
  deriving DecidableEq, Repr

inductive ComparisonError
  | invalidPairingManifest
  | unsupportedPairing
  | unsupportedMetricSet
  | unsupportedCaveatKey
  | observability (e : Error)
  | simulator (e : SimError)
  /-- An error of reading the pairing or the scenario, by its name. -/
  | unreadable (name : Bytes)
  /-- `unreachable` where a count leaves an `i64`. -/
  | reachedUnreachable
  deriving DecidableEq, Repr

inductive Numeric (τ : Type)
  | int (value : Int)
  | float (value : τ)
  deriving DecidableEq, Repr

structure MetricRow (τ : Type) where
  metricKey : Bytes
  simulatorValue : Numeric τ
  observabilityValue : Numeric τ
  delta : Numeric τ
  caveatKey : Bytes
  deriving DecidableEq, Repr

structure SimulatorSource where
  scenarioPath : Bytes
  policy : Bytes
  reportSchema : Bytes
  reportVersion : Nat
  deriving DecidableEq, Repr

structure ObservabilityFixtureManifestRef where
  manifestPath : Bytes
  family : Bytes
  kernelRelease : Bytes
  snapshotFormatVersion : Bytes
  scrubPolicyVersion : Bytes
  deriving DecidableEq, Repr

structure NormalizedOrderSummary where
  simulatorFamilies : List Bytes
  observabilityFamilies : List Bytes
  deriving DecidableEq, Repr

structure Caveats where
  observabilityOnly : Bytes :=
    utf8 "Comparison uses a committed offline observability snapshot and remains a bounded teaching aid."
  unitsNotEquivalent : Bytes :=
    utf8 "Simulator ticks and trace-clock seconds are juxtaposed numerically only; the units are not equivalent."
  identityNotEquivalent : Bytes :=
    utf8 "Simulator task ids and observed Linux PIDs are different identity domains and are not matched."
  unmatchedEventsPresent : Bytes :=
    utf8 "Unmapped approved-trace events stay in raw totals while normalized family summaries exclude them."
  notFidelity : Bytes := utf8 "These rows do not score replay fidelity and must not be treated as replay authority."
  deriving DecidableEq, Repr

structure ComparisonSummary (τ : Type) where
  schema : Bytes
  version : Nat
  pairingId : Bytes
  simulatorSource : SimulatorSource
  observabilityFixtureManifest : ObservabilityFixtureManifestRef
  normalizedOrderSummary : NormalizedOrderSummary
  metricRows : List (MetricRow τ)
  caveats : Caveats

def validatePairingManifest (manifest : PairingManifest) : Except ComparisonError Unit :=
  if manifest.schema ≠ pairingManifestSchema then .error .invalidPairingManifest
  else if manifest.version ≠ pairingManifestVersion then .error .invalidPairingManifest
  else if manifest.pairingId ≠ defaultPairingId then .error .unsupportedPairing
  else if manifest.simulatorScenario ≠ defaultSimulatorScenarioPath then .error .unsupportedPairing
  else if manifest.simulatorPolicy ≠ defaultSimulatorPolicy then .error .unsupportedPairing
  else if manifest.observabilityFixtureManifest ≠ defaultManifestPath then .error .unsupportedPairing
  else if manifest.approvedMetricSet ≠ Observability.approvedMetricSet then .error .unsupportedMetricSet
  else if manifest.requiredCaveatKeys ≠ approvedCaveatKeys then .error .unsupportedCaveatKey
  else .ok ()

/-! ## Building the comparison -/

def observabilityFamily : EventKind → Option NormalizedFamily
  | .schedWakeup => some .activation
  | .schedWakeupNew => some .activation
  | .schedSwitch => some .selection
  | .schedProcessExit => some .retirement
  | .schedProcessFork => none

section Build

variable {τ : Type} (clock : Clock τ)

def summarizeObservabilityFamilies (events : List (Event τ)) : NormalizedSummary :=
  summarizeFamilies (fun event => observabilityFamily event.kind) events

def intValue (value : Nat) : Except ComparisonError Int :=
  if value < 2 ^ 63 then .ok value else .error .reachedUnreachable

def makeIntMetric (metricKey : Bytes) (simulatorValue observabilityValue : Int) (caveatKey : Bytes) : MetricRow τ where
  metricKey := metricKey
  simulatorValue := .int simulatorValue
  observabilityValue := .int observabilityValue
  delta := .int (simulatorValue - observabilityValue)
  caveatKey := caveatKey

def makeFloatMetric (metricKey : Bytes) (simulatorValue observabilityValue : τ) (caveatKey : Bytes) : MetricRow τ where
  metricKey := metricKey
  simulatorValue := .float simulatorValue
  observabilityValue := .float observabilityValue
  delta := .float (clock.sub simulatorValue observabilityValue)
  caveatKey := caveatKey

def buildComparisonFromInputs (pairing : PairingManifest) (result : SimulationResult) (fixture : LoadedFixture τ) :
    Except ComparisonError (ComparisonSummary τ) := do
  let simulatorNormalized := summarizeSimulatorFamilies result
  let observabilityNormalized := summarizeObservabilityFamilies fixture.events
  let simulatorTotalEventCount ← intValue result.trace.length
  let observabilityTotalEventCount ← intValue fixture.events.length
  let simulatorCpuCardinality ← intValue (computeSimulatorCpuCardinality result)
  let observabilityCpuCardinality ← intValue fixture.summary.cpuIds.length
  let simulatorActorCardinality ← intValue result.tasks.length
  let observabilityActorCardinality ← intValue fixture.summary.pidIds.length
  let simulatorTimeSpan ← (computeSimulatorTimeSpan result).mapError .simulator
  let observabilityTimeSpan := clock.sub fixture.summary.lastTimestamp fixture.summary.firstTimestamp
  let simulatorActivations ← intValue simulatorNormalized.activationCount
  let observabilityActivations ← intValue observabilityNormalized.activationCount
  let simulatorSelections ← intValue simulatorNormalized.selectionCount
  let observabilitySelections ← intValue observabilityNormalized.selectionCount
  let simulatorRetirements ← intValue simulatorNormalized.retirementCount
  let observabilityRetirements ← intValue observabilityNormalized.retirementCount
  .ok {
    schema := schemaName
    version := schemaVersion
    pairingId := pairing.pairingId
    simulatorSource := ⟨pairing.simulatorScenario, pairing.simulatorPolicy, reportSchemaName, reportSchemaVersion⟩
    observabilityFixtureManifest := ⟨pairing.observabilityFixtureManifest, fixture.manifest.tuple.family,
      fixture.manifest.tuple.kernelRelease, fixture.manifest.tuple.snapshotFormatVersion,
      fixture.manifest.tuple.scrubPolicyVersion⟩
    normalizedOrderSummary := ⟨simulatorNormalized.families, observabilityNormalized.families⟩
    metricRows :=
      [ makeIntMetric (utf8 "activation_count_delta") simulatorActivations observabilityActivations
          (utf8 "not_fidelity"),
        makeIntMetric (utf8 "selection_count_delta") simulatorSelections observabilitySelections (utf8 "not_fidelity"),
        makeIntMetric (utf8 "retirement_count_delta") simulatorRetirements observabilityRetirements
          (utf8 "not_fidelity"),
        makeIntMetric (utf8 "total_event_count_delta") simulatorTotalEventCount observabilityTotalEventCount
          (utf8 "unmatched_events_present"),
        makeIntMetric (utf8 "cpu_cardinality_delta") simulatorCpuCardinality observabilityCpuCardinality
          (utf8 "observability_only"),
        makeIntMetric (utf8 "actor_cardinality_delta") simulatorActorCardinality observabilityActorCardinality
          (utf8 "identity_not_equivalent"),
        makeFloatMetric clock (utf8 "time_span_delta") (clock.ofNat simulatorTimeSpan) observabilityTimeSpan
          (utf8 "units_not_equivalent") ]
    caveats := {} }

/-- What the comparison reads besides the fixture. -/
structure PairingFiles extends Files where
  readPairing : Bytes → Except ComparisonError PairingManifest
  loadScenarioFile : Bytes → Except ComparisonError ScenarioOwned

def loadPairingManifest (files : PairingFiles) (path : Bytes) : Except ComparisonError PairingManifest := do
  let manifest ← files.readPairing path
  validatePairingManifest manifest
  .ok manifest

/-- The policy by its tag; only one is approved. -/
def parseApprovedPolicy (policy : Bytes) : Except ComparisonError PolicyKind :=
  match [PolicyKind.fcfs, .roundRobin, .cfsLike, .deadline].find? (fun kind => kind.tagName = policy) with
  | none => .error .unsupportedPairing
  | some parsed => if parsed ≠ .cfsLike then .error .unsupportedPairing else .ok parsed

def buildApprovedComparison (files : PairingFiles) (pairingManifestPath : Bytes) :
    Except ComparisonError (ComparisonSummary τ) := do
  let pairing ← loadPairingManifest files pairingManifestPath
  let policy ← parseApprovedPolicy pairing.simulatorPolicy
  let scenario ← files.loadScenarioFile pairing.simulatorScenario
  let result ← (simulate scenario policy).mapError .simulator
  let fixture ← (loadFixture clock files.toFiles pairing.observabilityFixtureManifest).mapError .observability
  buildComparisonFromInputs clock pairing result fixture

end Build

/-! ## What the comparison says -/

/-- The only pairing that is accepted. -/
def approvedPairing : PairingManifest where
  schema := pairingManifestSchema
  version := pairingManifestVersion
  pairingId := defaultPairingId
  simulatorScenario := defaultSimulatorScenarioPath
  simulatorPolicy := defaultSimulatorPolicy
  observabilityFixtureManifest := defaultManifestPath
  approvedMetricSet := Observability.approvedMetricSet
  requiredCaveatKeys := approvedCaveatKeys

section Rows

variable {τ : Type} {clock : Clock τ} {scenario : ScenarioOwned} {policy : PolicyKind} {r : SimulationResult}

theorem validatePairingManifest_eq_ok {manifest : PairingManifest} :
    validatePairingManifest manifest = .ok () ↔ manifest = approvedPairing := by
  simp only [validatePairingManifest, ite_error_eq_ok, ne_eq, not_not, and_true]
  constructor
  · rintro ⟨h₁, h₂, h₃, h₄, h₅, h₆, h₇, h₈⟩
    cases manifest
    simp_all only [approvedPairing]
  · rintro rfl
    exact ⟨rfl, rfl, rfl, rfl, rfl, rfl, rfl, rfl⟩

@[simp] theorem intValue_eq_ok {n : Nat} {value : Int} : intValue n = .ok value ↔ n < 2 ^ 63 ∧ (n : Int) = value := by
  unfold intValue
  split_ifs with h
  · rw [and_iff_right h, Except.ok.injEq]
  · exact ⟨nofun, fun hlt => absurd hlt.1 h⟩

theorem loadPairingManifest_eq_ok {files : PairingFiles} {path : Bytes} {manifest : PairingManifest} :
    loadPairingManifest files path = .ok manifest ↔
      files.readPairing path = .ok approvedPairing ∧ manifest = approvedPairing := by
  simp only [loadPairingManifest, bind_eq_ok, Except.ok.injEq]
  constructor
  · rintro ⟨_, hread, _, hvalid, rfl⟩
    obtain rfl := validatePairingManifest_eq_ok.mp hvalid
    exact ⟨hread, rfl⟩
  · rintro ⟨hread, rfl⟩
    exact ⟨_, hread, (), validatePairingManifest_eq_ok.mpr rfl, rfl⟩

/-- The families of a snapshot, counted by kinds. -/
theorem countFamily_observability {events : List (Event τ)} {summary : ObservabilitySummary τ}
    (h : summary.Counts events) :
    countFamily (fun event : Event τ => observabilityFamily event.kind) events .activation =
        summary.counts.schedWakeup + summary.counts.schedWakeupNew ∧
      countFamily (fun event : Event τ => observabilityFamily event.kind) events .selection =
        summary.counts.schedSwitch ∧
      countFamily (fun event : Event τ => observabilityFamily event.kind) events .retirement =
        summary.counts.schedProcessExit := by
  have hkind : ∀ kind : EventKind,
      (observabilityFamily kind = some .activation ↔ kind = .schedWakeup ∨ kind = .schedWakeupNew) ∧
        (observabilityFamily kind = some .selection ↔ kind = .schedSwitch) ∧
        (observabilityFamily kind = some .retirement ↔ kind = .schedProcessExit) := by
    intro kind
    cases kind <;> simp [observabilityFamily]
  have hwakeup : summary.counts.schedWakeup = _ := h.counts .schedWakeup
  have hwakeupNew : summary.counts.schedWakeupNew = _ := h.counts .schedWakeupNew
  have hswitch : summary.counts.schedSwitch = _ := h.counts .schedSwitch
  have hexit : summary.counts.schedProcessExit = _ := h.counts .schedProcessExit
  refine ⟨?_, ?_, ?_⟩
  · rw [hwakeup, hwakeupNew, ← countP_or events (by simp; grind)]
    exact List.countP_congr (fun e _ => by simp [(hkind e.kind).1])
  · rw [hswitch]
    exact List.countP_congr (fun e _ => by simp [(hkind e.kind).2.1])
  · rw [hexit]
    exact List.countP_congr (fun e _ => by simp [(hkind e.kind).2.2])

/-- The rows, from the numbers of a scenario and its result and those of a snapshot. -/
def comparisonRows (clock : Clock τ) (scenario : ScenarioOwned) (r : SimulationResult)
    (summary : ObservabilitySummary τ) : List (MetricRow τ) :=
  let activations := scenario.tasks.length + totalWaits scenario
  let counts := summary.counts
  [ makeIntMetric (utf8 "activation_count_delta") activations (counts.schedWakeup + counts.schedWakeupNew : Nat)
      (utf8 "not_fidelity"),
    makeIntMetric (utf8 "selection_count_delta") (activations + countKind .preempt r.trace : Nat) counts.schedSwitch
      (utf8 "not_fidelity"),
    makeIntMetric (utf8 "retirement_count_delta") scenario.tasks.length counts.schedProcessExit (utf8 "not_fidelity"),
    makeIntMetric (utf8 "total_event_count_delta") r.trace.length summary.eventCount (utf8 "unmatched_events_present"),
    makeIntMetric (utf8 "cpu_cardinality_delta") scenario.coreCount summary.cpuIds.length (utf8 "observability_only"),
    makeIntMetric (utf8 "actor_cardinality_delta") scenario.tasks.length summary.pidIds.length
      (utf8 "identity_not_equivalent"),
    makeFloatMetric clock (utf8 "time_span_delta") (clock.ofNat r.finalTick)
      (clock.sub summary.lastTimestamp summary.firstTimestamp) (utf8 "units_not_equivalent") ]

theorem comparisonRows_keys (summary : ObservabilitySummary τ) :
    (comparisonRows clock scenario r summary).map MetricRow.metricKey = approvedMetricSet := rfl

/-- What an approved comparison says of a simulation and a fixture. -/
structure ComparisonSummary.Sets (clock : Clock τ) (scenario : ScenarioOwned) (r : SimulationResult)
    (loaded : LoadedFixture τ) (summary : ComparisonSummary τ) : Prop where
  contract : summary.schema = schemaName ∧ summary.version = schemaVersion ∧ summary.pairingId = defaultPairingId
  source : summary.simulatorSource = ⟨defaultSimulatorScenarioPath, defaultSimulatorPolicy, reportSchemaName,
    reportSchemaVersion⟩
  fixture : summary.observabilityFixtureManifest = ⟨defaultManifestPath, loaded.manifest.tuple.family,
    loaded.manifest.tuple.kernelRelease, loaded.manifest.tuple.snapshotFormatVersion,
    loaded.manifest.tuple.scrubPolicyVersion⟩
  simulator : summary.normalizedOrderSummary.simulatorFamilies =
    [utf8 "activation", utf8 "selection", utf8 "retirement"]
  observability : ∃ order, summary.normalizedOrderSummary.observabilityFamilies = order.map NormalizedFamily.label ∧
    FirstSeen (fun event : Event τ => observabilityFamily event.kind) loaded.events order
  rows : summary.metricRows = comparisonRows clock scenario r loaded.summary
  caveats : summary.caveats = {}

theorem summarizeFamilies_le {α : Type*} (familyOf : α → Option NormalizedFamily) (events : List α) :
    (summarizeFamilies familyOf events).activationCount ≤ events.length ∧
      (summarizeFamilies familyOf events).selectionCount ≤ events.length ∧
      (summarizeFamilies familyOf events).retirementCount ≤ events.length := by
  obtain ⟨hact, hsel, hret, -⟩ := summarizeFamilies_knows familyOf events
  rw [hact, hsel, hret]
  exact ⟨List.countP_le_length, List.countP_le_length, List.countP_le_length⟩

theorem computeSimulatorCpuCardinality_le (r : SimulationResult) :
    computeSimulatorCpuCardinality r ≤ r.trace.length :=
  (List.toFinset_card_le _).trans (List.length_filterMap_le _ _)

theorem length_le_of_ascending {ids : List Nat} {bound : Nat} (hids : ids.Pairwise (· < ·))
    (h : ∀ id ∈ ids, id < bound) : ids.length ≤ bound := by
  have hnodup : ids.Nodup := hids.imp fun h => h.ne
  simpa using (hnodup.subperm fun id hid => List.mem_range.mpr (h id hid)).length_le

/-- The numbers of a snapshot stay small: cpus are `u16`, pids `u32`. -/
theorem LoadedFixture.Sound.ids_lt {files : Files} {path : Bytes} {loaded : LoadedFixture τ}
    (h : loaded.Sound clock files path) :
    loaded.summary.cpuIds.length < 2 ^ 63 ∧ loaded.summary.pidIds.length < 2 ^ 63 := by
  have hevents := h.events.2
  have hcpus : ∀ cpu ∈ loaded.summary.cpuIds, cpu < 2 ^ 16 := by
    intro cpu hcpu
    obtain ⟨event, he, rfl⟩ := (h.summary.cpus.2 cpu).mp hcpu
    exact (hevents event he).cpu
  have hpids : ∀ pid ∈ loaded.summary.pidIds, pid < 2 ^ 32 := by
    intro pid hpid
    obtain ⟨event, he, hsubject | hrelated⟩ := (h.summary.pids.2 pid).mp hpid
    · obtain ⟨subject, hlt, hs⟩ := (hevents event he).subject
      exact Option.some.inj (hs.symm.trans hsubject) ▸ hlt
    · exact (hevents event he).related pid hrelated
  exact ⟨(length_le_of_ascending h.summary.cpus.1 hcpus).trans_lt (by decide),
    (length_le_of_ascending h.summary.pids.1 hpids).trans_lt (by decide)⟩

/-- A valid simulation and a sound fixture are compared when both have fewer than `2 ^ 63` events. -/
theorem buildComparisonFromInputs_eq_ok {files : Files} {path : Bytes} {loaded : LoadedFixture τ}
    {summary : ComparisonSummary τ} (hv : Valid scenario) (hr : simulate scenario policy = .ok r)
    (hs : loaded.Sound clock files path) :
    buildComparisonFromInputs clock approvedPairing r loaded = .ok summary ↔
      r.trace.length < 2 ^ 63 ∧ loaded.events.length < 2 ^ 63 ∧ summary.Sets clock scenario r loaded := by
  obtain ⟨hact, hsel, hret, hfam, hcpu, hspan⟩ := simulate_families hv hr
  obtain ⟨hact', hsel', hret', order, hfam', hfirst⟩ := summarizeFamilies_knows
    (fun event : Event τ => observabilityFamily event.kind) loaded.events
  obtain ⟨hc₁, hc₂, hc₃⟩ := countFamily_observability hs.summary
  have htasks : r.tasks.length = scenario.tasks.length := by
    obtain ⟨m, S, k, s, hret⟩ := simulate_ok hv hr
    exact (hret.accounts hv).length
  have hspan' : (computeSimulatorTimeSpan r).mapError ComparisonError.simulator = .ok r.finalTick := by rw [hspan]; rfl
  simp only [buildComparisonFromInputs, bind_eq_ok, intValue_eq_ok, hspan', Except.ok.injEq, and_assoc, exists_and_left,
    exists_eq_left', summarizeObservabilityFamilies]
  constructor
  · rintro ⟨htrace, hevents, -, -, -, -, -, -, -, -, -, -, rfl⟩
    refine ⟨htrace, hevents, ⟨rfl, rfl, rfl⟩, rfl, rfl, hfam, ⟨order, hfam', hfirst⟩, ?_, rfl⟩
    simp only [comparisonRows]
    rw [hsel, hact, hret, hcpu, htasks, hact', hsel', hret', hc₁, hc₂, hc₃, hs.summary.total]
  · rintro ⟨htrace, hevents, hsets⟩
    obtain ⟨hcpus, hpids⟩ := hs.ids_lt
    have hsim := summarizeFamilies_le (fun entry : TraceEntry => simulatorFamily entry.kind) r.trace
    have hobs := summarizeFamilies_le (fun event : Event τ => observabilityFamily event.kind) loaded.events
    have hcard := (computeSimulatorCpuCardinality_le r).trans_lt htrace
    refine ⟨htrace, hevents, hcard, hcpus, ?_, hpids, hsim.1.trans_lt htrace, hobs.1.trans_lt hevents,
      hsim.2.1.trans_lt htrace, hobs.2.1.trans_lt hevents, hsim.2.2.trans_lt htrace, hobs.2.2.trans_lt hevents, ?_⟩
    · rw [htasks, ← hret]
      exact hsim.2.2.trans_lt htrace
    · obtain ⟨order', horder, hfirst'⟩ := hsets.observability
      obtain rfl := hfirst'.unique hfirst
      obtain ⟨schema, version, pairingId, source, manifest, ⟨sim, obs⟩, rows, caveats⟩ := summary
      obtain ⟨⟨rfl, rfl, rfl⟩, rfl, rfl, hsimulator, -, rfl, rfl⟩ := hsets
      obtain rfl : sim = _ := hsimulator
      obtain rfl : obs = _ := horder
      simp only [comparisonRows]
      rw [hfam, hfam', hsel, hact, hret, hcpu, htasks, hact', hsel', hret', hc₁, hc₂, hc₃, hs.summary.total]
      push_cast
      rfl

/-- **An approved comparison is built exactly when** the pairing is the approved one, the scenario loads and simulates,
the fixture loads, and neither has `2 ^ 63` events. It sets the numbers of the scenario beside those of the snapshot. -/
theorem buildApprovedComparison_iff (clock : Clock τ) (files : PairingFiles) (path : Bytes)
    (hload : ∀ path scenario, files.loadScenarioFile path = .ok scenario → scenario.validate = .ok ())
    (summary : ComparisonSummary τ) :
    buildApprovedComparison clock files path = .ok summary ↔ files.readPairing path = .ok approvedPairing ∧
      ∃ scenario r loaded, files.loadScenarioFile defaultSimulatorScenarioPath = .ok scenario ∧
        simulate scenario .cfsLike = .ok r ∧ loadFixture clock files.toFiles defaultManifestPath = .ok loaded ∧
        r.trace.length < 2 ^ 63 ∧ loaded.events.length < 2 ^ 63 ∧ summary.Sets clock scenario r loaded := by
  have hpolicy : parseApprovedPolicy approvedPairing.simulatorPolicy = .ok .cfsLike := by decide
  have hpaths : approvedPairing.simulatorScenario = defaultSimulatorScenarioPath ∧
      approvedPairing.observabilityFixtureManifest = defaultManifestPath := ⟨rfl, rfl⟩
  constructor
  · intro h
    obtain ⟨pairing, hpairing, h⟩ := bind_eq_ok.mp h
    obtain ⟨hread, rfl⟩ := loadPairingManifest_eq_ok.mp hpairing
    obtain ⟨policy, hp, h⟩ := bind_eq_ok.mp h
    obtain rfl := Except.ok.inj (hpolicy.symm.trans hp)
    obtain ⟨scenario, hscenario, h⟩ := bind_eq_ok.mp h
    obtain ⟨r, hr, h⟩ := bind_eq_ok.mp h
    obtain ⟨loaded, hloaded, h⟩ := bind_eq_ok.mp h
    have hr := mapError_eq_ok.mp hr
    have hloaded := mapError_eq_ok.mp hloaded
    have hv := validate_ok (hload _ _ hscenario)
    exact ⟨hread, scenario, r, loaded, hscenario, hr, hloaded,
      (buildComparisonFromInputs_eq_ok hv hr (loadFixture_sound hloaded)).mp h⟩
  · rintro ⟨hread, scenario, r, loaded, hscenario, hr, hloaded, hsets⟩
    have hv := validate_ok (hload _ _ hscenario)
    have hbuild := (buildComparisonFromInputs_eq_ok hv hr (loadFixture_sound hloaded)).mpr hsets
    rw [buildApprovedComparison, loadPairingManifest_eq_ok.mpr ⟨hread, rfl⟩, ok_bind, hpolicy, ok_bind, hpaths.1,
      hscenario, ok_bind, mapError_eq_ok.mpr hr, ok_bind, hpaths.2, mapError_eq_ok.mpr hloaded, ok_bind, hbuild]

end Rows

/-- The approved pairing with a scenario of two tasks and a snapshot of one wakeup. -/
def demoFiles : PairingFiles where
  readSupportMatrix _ := .ok ⟨supportMatrixSchema, 1, [demoTuple], []⟩
  readManifest _ := .ok ⟨fixtureManifestSchema, 1, utf8 "demo", utf8 "synthetic", utf8 "demo.txt", utf8 "synthetic",
    [utf8 "offline"], demoTuple⟩
  readFile _ := .ok (render [.trace [] demoWakeup []])
  readPairing _ := .ok approvedPairing
  loadScenarioFile _ := .ok waitingPair

theorem buildApprovedComparison_iff_demo : ∃ summary,
    buildApprovedComparison secondsClock demoFiles [] = .ok summary ∧
    demoFiles.readPairing [] = .ok approvedPairing ∧
      ∃ scenario r loaded, demoFiles.loadScenarioFile defaultSimulatorScenarioPath = .ok scenario ∧
        simulate scenario .cfsLike = .ok r ∧
        loadFixture secondsClock demoFiles.toFiles defaultManifestPath = .ok loaded ∧
        r.trace.length < 2 ^ 63 ∧ loaded.events.length < 2 ^ 63 ∧ summary.Sets secondsClock scenario r loaded := by
  have hload : ∀ path scenario, demoFiles.loadScenarioFile path = .ok scenario → scenario.validate = .ok () := by
    intro path scenario h
    obtain rfl := Except.ok.inj h
    decide
  have hbuild : (buildApprovedComparison secondsClock demoFiles []).toBool = true := by decide +kernel
  cases h : buildApprovedComparison secondsClock demoFiles [] with
  | error e => rw [h] at hbuild; cases hbuild
  | ok summary => exact ⟨summary, rfl, (buildApprovedComparison_iff secondsClock demoFiles [] hload summary).mp h⟩

end Exasphere.Observability

import Exasphere.Qa.MatrixRow

/-!
# Workload artifacts of a matrix run (`qa/matrix_run_workload.py`)

The checks of a workload's spec, of its capability and of its privacy report. The entries of `benchmark_provenance` are
checked by `qa/matrix_benchmark_provenance.py`, which is a parameter here: it returns or raises.
-/

namespace Exasphere.Qa.MatrixRun

open Exasphere.Lib Exasphere.Py

def workloadSpecSchema : String := "zig-scheduler/workload-fixture/v1"

def workloadCapabilitySchema : String := "zig-scheduler/workload-capability/v1"

def privacyScanSchema : String := "zig-scheduler/privacy-scan/v1"

def privacyReportFields : List String := ["schema", "status", "private_fields_found", "host_mutation"]

def workloadSpecFields : List String :=
  ["schema", "name", "workload_class", "scenario_id", "required_tools", "threshold_source", "thresholds",
    "benchmark_provenance", "capability_artifact_path", "runner", "vm_marker_required_for_live_run",
    "host_safe_fixture_only", "missing_prereq", "cgroup_semantics", "cpu_hotplug_semantics", "host_mutation",
    "release_eligible"]

def requiredSpecFields : List String :=
  ["schema", "workload_class", "scenario_id", "required_tools", "threshold_source", "thresholds",
    "vm_marker_required_for_live_run", "host_mutation", "release_eligible"]

def workloadThresholdFields : List String :=
  ["source", "fixture_status", "calibration_status", "production_capacity_claim"]

def workloadCapabilityFields : List String :=
  ["schema", "scenario_id", "workload_class", "required_tools", "threshold_source", "mode", "status", "typed_outcome",
    "missing_prereq", "vm_marker_required_for_live_run", "fixture_mode", "runner", "host_mutation", "release_eligible"]

def requiredCapabilityFields : List String :=
  ["schema", "scenario_id", "workload_class", "required_tools", "threshold_source", "mode", "status", "typed_outcome",
    "missing_prereq", "vm_marker_required_for_live_run", "host_mutation", "release_eligible"]

def workloadToolNames : List String :=
  ["stress-ng", "cyclictest", "perf", "taskset", "chrt", "hackbench-like", "fio", "cpu-hotplug-online-control",
    "builtin-churn"]

def workloadThresholdSources : List String := ["fixture", "calibrated", "deferred", "record-only", "uncalibrated"]

def workloadCapabilityModes : List String := ["host-safe", "auto", "vm-required"]

def cgroupWorkloadSemantics : List (String × String) :=
  [("cpu.weight", "callback-observed"), ("cpu.max", "deferred"), ("cpu.max.burst", "deferred"),
    ("cpuset.cpus", "observed-constraints"), ("cpuset.cpus.effective", "observed-constraints"),
    ("cpu.pressure", "observed-or-deferred"), ("uclamp", "observed-or-deferred"), ("cgroup.type.domain", "observed"),
    ("cgroup.type.threaded", "observed"), ("allowed-mask", "rejected")]

def cpuHotplugSemantics : List (String × String) :=
  [("cpu.hotplug.offline", "fallback-observed"), ("cpu.hotplug.online", "fallback-observed"),
    ("cpuset.cpus", "observed-constraints"), ("cpuset.cpus.effective", "observed-constraints"),
    ("allowed-mask", "rejected")]

variable (b : Builtins)

/-! ## Tools and thresholds -/

def requireWorkloadTools (value : Value) (context : Str) : Except Exn (List Str) := do
  let tools ← textList value context
  require (!tools.isEmpty) (context ++ str " must not be empty")
  tools.forM (fun tool => require (isOneOf tool workloadToolNames) (context ++ str " has unsafe tool name: " ++ tool))
  .ok tools

/-- `, ` between the words. -/
def listed (words : List String) : Str := join (str ", ") (words.map str)

def requireExpectedTools (tools : List Str) (expected : WorkloadScenarioMetadata) (context : Str) :
    Except Exn Unit := do
  require (decide tools.Nodup) (context ++ str " must not contain duplicate tools")
  require (tools.all (fun tool => isOneOf tool expected.requiredTools) &&
      expected.requiredTools.all (fun tool => tools.contains (str tool)))
    (context ++ str " must match scenario " ++ str expected.scenarioId ++ str " required tools: " ++
      listed expected.requiredTools)

def requireExpectedThresholdSource (source : Str) (expected : WorkloadScenarioMetadata) (context : Str) :
    Except Exn Unit :=
  require (isOneOf source expected.thresholdSources)
    (context ++ str " must match scenario " ++ str expected.scenarioId ++ str " threshold_source: " ++
      join (str ", ") (sorted (expected.thresholdSources.map str)))

def requireExpectedMissingPrereq (missing : Str) (expected : WorkloadScenarioMetadata) (context : Str) :
    Except Exn Unit :=
  require (missing.isEmpty || isOneOf missing expected.requiredTools)
    (context ++ str " must be empty or one of scenario " ++ str expected.scenarioId ++ str " required tools: " ++
      listed expected.requiredTools)

/-- A check that is made only where the scenario has metadata. -/
def whenExpected (expected : Option WorkloadScenarioMetadata) (check : WorkloadScenarioMetadata → Except Exn Unit) :
    Except Exn Unit :=
  match expected with
  | some m => check m
  | none => .ok ()

def validateWorkloadThresholds (thresholds : Dict) (source context : Str) : Except Exn Unit := do
  requireOnlyFields thresholds workloadThresholdFields context
  require ((thresholds.get "source").eqStr b source) (dot context "source" ++ str " must match threshold_source")
  let _ ← text (thresholds.get "fixture_status") (dot context "fixture_status")
  let _ ← text (thresholds.get "calibration_status") (dot context "calibration_status")
  require (isFalse (thresholds.get "production_capacity_claim"))
    (dot context "production_capacity_claim" ++ str " must be false")

/-- The tools and the threshold source, which a spec and a capability both state. -/
def validateToolsAndSource (data : Dict) (expected : Option WorkloadScenarioMetadata) (context : Str) :
    Except Exn Str := do
  let tools ← requireWorkloadTools (data.get "required_tools") (dot context "required_tools")
  whenExpected expected (fun m => requireExpectedTools tools m (dot context "required_tools"))
  let source ← text (data.get "threshold_source") (dot context "threshold_source")
  require (isOneOf source workloadThresholdSources) (dot context "threshold_source" ++ str " invalid")
  whenExpected expected (fun m => requireExpectedThresholdSource source m (dot context "threshold_source"))
  .ok source

/-! ## Semantics -/

def validateSemanticsExact (value : Value) (expected : List (String × String)) (context : Str) : Except Exn Unit := do
  let semantics ← obj value context
  require (semantics.all (fun e => isOneOf e.1 (expected.map Prod.fst)) && hasAll semantics (expected.map Prod.fst))
    (context ++ str " keys must match Todo 7 VM-only semantics")
  expected.forM (fun (knob, label) =>
    require ((semantics.get knob).eqStr b (str label)) (dot context knob ++ str " must be " ++ str label))

def forbidField (spec : Dict) (field scenario : String) (context : Str) : Except Exn Unit :=
  require (!spec.has field) (dot context field ++ str " is only allowed for " ++ str scenario)

def validateWorkloadSemantics (spec : Dict) (scenarioId context : Str) : Except Exn Unit :=
  if scenarioId = str "workload-cgroup-weight-quota" then do
    validateSemanticsExact b (spec.get "cgroup_semantics") cgroupWorkloadSemantics (dot context "cgroup_semantics")
    forbidField spec "cpu_hotplug_semantics" "workload-cpu-hotplug" context
  else if scenarioId = str "workload-cpu-hotplug" then do
    validateSemanticsExact b (spec.get "cpu_hotplug_semantics") cpuHotplugSemantics
      (dot context "cpu_hotplug_semantics")
    forbidField spec "cgroup_semantics" "workload-cgroup-weight-quota" context
  else do
    forbidField spec "cgroup_semantics" "workload-cgroup-weight-quota" context
    forbidField spec "cpu_hotplug_semantics" "workload-cpu-hotplug" context

/-! ## Artifacts -/

/-- `missing_prereq` of a spec, which may be missing. -/
def validateMissingPrereq (spec : Dict) (expected : Option WorkloadScenarioMetadata) (context : Str) :
    Except Exn Unit :=
  match spec.get "missing_prereq" with
  | .str missing => do
    require (missing.isEmpty || isOneOf missing workloadToolNames)
      (dot context "missing_prereq" ++ str " has unsafe tool name")
    whenExpected expected (fun m => requireExpectedMissingPrereq missing m (dot context "missing_prereq"))
  | _ => fail (dot context "missing_prereq" ++ str " must be text")

/-- `validate_workload_spec`: the path of the capability artifact, if the spec has one. -/
def validateWorkloadSpec (benchmarkEntries : Value → Option Path → Str → Except Exn Unit) (spec : Dict)
    (scenarioId workloadClass : Str) (expected : Option WorkloadScenarioMetadata) (context : Str)
    (manifestRoot : Option Path) : Except Exn (Option Str) := do
  requireOnlyFields spec workloadSpecFields context
  require (hasAll spec requiredSpecFields) (context ++ str " missing required workload spec fields")
  require ((spec.get "schema").eqStr b (str workloadSpecSchema)) (dot context "schema" ++ str " unsupported")
  require ((spec.get "scenario_id").eqStr b scenarioId) (dot context "scenario_id" ++ str " must match row scenario")
  require ((spec.get "workload_class").eqStr b workloadClass)
    (dot context "workload_class" ++ str " must match row workload name")
  checkWhen (spec.has "name")
    (require ((spec.get "name").eqStr b workloadClass) (dot context "name" ++ str " must match workload_class"))
  let source ← validateToolsAndSource spec expected context
  let thresholds ← objField spec "thresholds" context
  validateWorkloadThresholds b thresholds source (dot context "thresholds")
  validateWorkloadSemantics b spec scenarioId context
  let provenance := spec.get "benchmark_provenance"
  checkWhen (decide (source = str "calibrated"))
    (require (!isNone provenance)
      (dot context "benchmark_provenance" ++ str " required when threshold_source is calibrated"))
  benchmarkEntries provenance manifestRoot (dot context "benchmark_provenance")
  require (isTrue (spec.get "vm_marker_required_for_live_run"))
    (dot context "vm_marker_required_for_live_run" ++ str " must be true")
  require (isFalse (spec.get "host_mutation")) (dot context "host_mutation" ++ str " must be false")
  require (isFalse (spec.get "release_eligible")) (dot context "release_eligible" ++ str " must be false")
  checkWhen (spec.has "missing_prereq") (validateMissingPrereq spec expected context)
  if spec.has "capability_artifact_path" then do
    let raw ← requireSafePath (spec.get "capability_artifact_path") (dot context "capability_artifact_path")
    .ok (some raw)
  else .ok none

/-- Which outcome allows a missing tool. -/
def requireMissingMatches (missing rowOutcome context : Str) : Except Exn Unit :=
  if rowOutcome = str "PASS" then
    require missing.isEmpty (dot context "missing_prereq" ++ str " must be empty for PASS")
  else if rowOutcome = str "SKIP" then
    require (!missing.isEmpty) (dot context "missing_prereq" ++ str " must name the missing scenario tool for SKIP")
  else if rowOutcome = str "REFUSE" then .ok ()
  else require missing.isEmpty (dot context "missing_prereq" ++ str " must be empty unless outcome is SKIP or REFUSE")

/-- A word of the capability that must be the outcome of the row. -/
def requireRowOutcome (capability : Dict) (field : String) (rowOutcome context : Str) : Except Exn Unit := do
  let s ← text (capability.get field) (dot context field)
  require (isOneOf s outcomes) (dot context field ++ str " invalid")
  require (decide (s = rowOutcome)) (dot context field ++ str " must match row outcome")

/-- `validate_workload_capability`. -/
def validateWorkloadCapability (capability : Dict) (scenarioId workloadClass : Str)
    (expected : Option WorkloadScenarioMetadata) (rowOutcome context : Str) : Except Exn Unit := do
  requireOnlyFields capability workloadCapabilityFields context
  require (hasAll capability requiredCapabilityFields) (context ++ str " missing required workload capability fields")
  require ((capability.get "schema").eqStr b (str workloadCapabilitySchema))
    (dot context "schema" ++ str " unsupported")
  require ((capability.get "scenario_id").eqStr b scenarioId)
    (dot context "scenario_id" ++ str " must match row scenario")
  require ((capability.get "workload_class").eqStr b workloadClass)
    (dot context "workload_class" ++ str " must match row workload name")
  let _ ← validateToolsAndSource capability expected context
  let mode ← text (capability.get "mode") (dot context "mode")
  require (isOneOf mode workloadCapabilityModes) (dot context "mode" ++ str " invalid")
  requireRowOutcome capability "status" rowOutcome context
  requireRowOutcome capability "typed_outcome" rowOutcome context
  let missing ← if (capability.get "missing_prereq").eqStr b [] then .ok []
    else text (capability.get "missing_prereq") (dot context "missing_prereq")
  require (missing.isEmpty || isOneOf missing workloadToolNames)
    (dot context "missing_prereq" ++ str " has unsafe tool name")
  whenExpected expected (fun m => do
    requireExpectedMissingPrereq missing m (dot context "missing_prereq")
    requireMissingMatches missing rowOutcome context)
  require (isTrue (capability.get "vm_marker_required_for_live_run"))
    (dot context "vm_marker_required_for_live_run" ++ str " must be true")
  require (isFalse (capability.get "host_mutation")) (dot context "host_mutation" ++ str " must be false")
  require (isFalse (capability.get "release_eligible")) (dot context "release_eligible" ++ str " must be false")

/-- `validate_privacy_report`. -/
def validatePrivacyReport (report : Dict) (context : Str) : Except Exn Unit := do
  requireOnlyFields report privacyReportFields context
  require ((report.get "schema").eqStr b (str privacyScanSchema)) (dot context "schema" ++ str " unsupported")
  require ((report.get "status").eqStr b (str "PASS")) (dot context "status" ++ str " must be PASS")
  require (isFalse (report.get "private_fields_found")) (dot context "private_fields_found" ++ str " must be false")
  require (isFalse (report.get "host_mutation")) (dot context "host_mutation" ++ str " must be false")

end Exasphere.Qa.MatrixRun

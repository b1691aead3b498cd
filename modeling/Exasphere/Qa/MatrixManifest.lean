import Exasphere.Qa.DaemonEvents
import Exasphere.Qa.MatrixWorkload

/-!
# Manifests of a matrix run (`qa/matrix_run_manifest_validate.py`, `qa/matrix_run_live_backend.py`)

`validateManifest` is the check of a manifest and of everything it leads to: its rows, the row artifacts, and the files
these name. Three of those files are left to checks of their own, which may do anything here (`Peers`).
-/

namespace Exasphere.Qa.MatrixRun

open Exasphere.Lib Exasphere.Py

/-! ## Constants -/

def manifestSchema : String := "zig-scheduler/vm-harness-matrix-index/v1"

def manifestFields : List String :=
  ["schema", "matrix_run_id", "mode", "fixture_mode", "started_at", "ended_at", "out_dir", "daemon_events_path",
    "row_count", "rows", "host_mutation", "release_eligible"]

def manifestRowFields : List String := ["scenario_id", "outcome", "artifact_path", "reason"]

def incidentFields : List String := ["schema", "scenario_id", "outcome", "reason", "host_mutation", "release_eligible"]

def rollbackProofFields : List String := ["schema", "scenario_id", "status", "scheduler_state", "ops", "host_mutation"]

def cleanupProofFields : List String :=
  ["schema", "scenario_id", "status", "owned_qemu_leftovers", "owned_temp_leftovers", "qemu_scan_before",
    "qemu_scan_after", "temp_scan_before", "temp_scan_after", "host_mutation"]

def hostRefusalFields : List String :=
  ["schema", "scenario_id", "status", "reason", "no_bpf_load_attach", "no_cgroup_write", "no_sys_write",
    "no_proc_write", "host_mutation"]

def vmMarkerProofFields : List String := ["schema", "path", "required", "present", "evidence_mode", "host_mutation"]

def matrixBase : Path := .parse (str "evidence/lab/matrix")

def manifestFile : String := "manifest.json"

def runIdMax : Nat := 64

/-! ## The checks of other programs -/

/-- `validate_file` of `qa/runtime_sample_check.py`, `validate_bundle` of `qa/live_behavior_check.py` and
`validate_entries` of `qa/matrix_benchmark_provenance.py`. -/
structure Peers where
  runtimeSampleFile : Files → Path → Except Exn Unit
  liveBehaviorBundle : Files → Path → Except Exn Unit
  benchmarkEntries : Files → Value → Option Path → Str → Except Exn Unit

variable (b : Builtins) (peers : Peers) (fs : Files)

/-! ## The root -/

/-- `require_manifest_root(manifest_path)`. -/
def requireManifestRoot (manifestPath : Path) : Except Exn Path := do
  require (!manifestPath.isAbsolute && !manifestPath.traverses) (str "--manifest must be relative and non-traversing")
  let parts := manifestPath.parts
  require (decide (parts.length = 5 ∧ parts.take 3 = matrixBase.parts ∧ parts.getD 4 [] = str manifestFile))
    (str "--manifest must be " ++ matrixBase.asPosix ++ str "/<run-id>/" ++ str manifestFile ++ str ": " ++
      manifestPath.asPosix)
  require (runIdRe.fullmatch (parts.getD 3 []))
    (str "--manifest run id must be 1-" ++ strNat runIdMax ++ str " safe characters: " ++ parts.getD 3 [])
  .ok (Path.ofParts (parts.take 4))

/-- A path that is safe and stays under the root. -/
def requireBelow (value : Value) (root : Path) (context : Str) : Except Exn Path := do
  let raw ← requireSafePath value context
  requireDescendant (Path.parse raw) root context
  .ok (Path.parse raw)

/-- `validate_manifest_daemon_events(path, manifest_root, context)`. -/
def validateManifestDaemonEvents (path root : Path) (context : Str) : Except Exn Unit := do
  requireDescendant path root context
  reraise context " invalid daemon event stream: " (DaemonEvents.validate b fs path false)

/-! ## The virtual machine -/

/-- `validate_vm_marker_proof`. -/
def validateVmMarkerProof (data : Dict) (markerRequired markerPresent : Bool) (evidenceMode context : Str) :
    Except Exn Unit := do
  requireOnlyFields data vmMarkerProofFields context
  require ((data.get "schema").eqStr b (str "zig-scheduler/vm-marker-proof/v1"))
    (dot context "schema" ++ str " unsupported")
  require ((data.get "path").eqStr b (str vmMarker)) (dot context "path" ++ str " mismatch")
  require ((data.get "required").eq b (.bool markerRequired)) (dot context "required" ++ str " must match row marker")
  require ((data.get "present").eq b (.bool markerPresent)) (dot context "present" ++ str " must match row marker")
  require ((data.get "evidence_mode").eqStr b evidenceMode)
    (dot context "evidence_mode" ++ str " must match row evidence_mode")
  require (markerRequired && markerPresent && decide (evidenceMode = str "vm-live"))
    (context ++ str " must prove a real vm-live marker")
  require (isFalse (data.get "host_mutation")) (dot context "host_mutation" ++ str " must be false")

/-- `fixture_mode and mode in {"host-safe", "auto"}`. -/
def fixtureAuthorized (mode : Str) (fixtureMode : Bool) : Bool := fixtureMode && isOneOf mode ["host-safe", "auto"]

/-- What an authorised fixture manifest must not claim. -/
def validateFixtureRow (markerPresent : Bool) (evidenceMode outcome context : Str) : Except Exn Unit := do
  require (!markerPresent) (context ++ str " fixture manifest must not claim VM marker presence")
  require (decide (evidenceMode ≠ str "vm-live")) (context ++ str " fixture manifest must not claim vm-live evidence")
  checkWhen (decide (outcome = str "PASS"))
    (require (decide (evidenceMode = str "fixture")) (context ++ str " fixture PASS must use fixture evidence"))

/-- The proof file of the marker. -/
def validateMarkerFile (marker : Dict) (root : Path) (markerRequired markerPresent : Bool)
    (evidenceMode context : Str) :
    Except Exn Unit := do
  let markerPath ← requireBelow (marker.get "checked_by") root (dot context "vm_marker.checked_by")
  let proof ← loadJson fs markerPath
  validateVmMarkerProof b proof markerRequired markerPresent evidenceMode (dot context "vm_marker.proof")

/-- `validate_manifest_vm_claim`. -/
def validateManifestVmClaim (row : Dict) (mode : Str) (fixtureMode : Bool) (root : Path) (context : Str) :
    Except Exn Unit := do
  let marker ← objField row "vm_marker" context
  let markerRequired ← boolField (marker.get "required") (dot context "vm_marker.required")
  let markerPresent ← boolField (marker.get "present") (dot context "vm_marker.present")
  let evidenceMode ← text (row.get "evidence_mode") (dot context "evidence_mode")
  let outcome ← text (row.get "outcome") (dot context "outcome")
  let authorized := fixtureAuthorized mode fixtureMode
  checkWhen (decide (evidenceMode = str "fixture"))
    (require authorized
      (context ++ str " fixture evidence requires explicit fixture_mode=true on a host-safe/auto manifest"))
  checkWhen (decide (outcome = str "PASS") && !authorized)
    (require (decide (evidenceMode = str "vm-live")) (context ++ str " non-fixture PASS requires vm-live evidence"))
  checkWhen authorized (validateFixtureRow markerPresent evidenceMode outcome context)
  checkWhen (decide (evidenceMode = str "vm-live") || markerPresent)
    (validateMarkerFile b fs marker root markerRequired markerPresent evidenceMode context)

/-! ## Proof artifacts -/

/-- `text(data.get(field))`, for the check alone. -/
def requireText (data : Dict) (field : String) (context : Str) : Except Exn Unit := do
  let _ ← text (data.get field) (dot context field)
  .ok ()

/-- The start of each artifact: its fields, its schema, and the scenario of the row. -/
def validateArtifactHead (data : Dict) (fields : List String) (schema : String) (scenarioId context : Str) :
    Except Exn Unit := do
  requireOnlyFields data fields context
  require ((data.get "schema").eqStr b (str schema)) (dot context "schema" ++ str " unsupported")
  require ((data.get "scenario_id").eqStr b scenarioId) (dot context "scenario_id" ++ str " must match row")

def requireFalse (data : Dict) (context : Str) (field : String) : Except Exn Unit :=
  require (isFalse (data.get field)) (dot context field ++ str " must be false")

def requireTrue (data : Dict) (context : Str) (field : String) : Except Exn Unit :=
  require (isTrue (data.get field)) (dot context field ++ str " must be true")

def validateIncidentArtifact (data : Dict) (scenarioId outcome context : Str) : Except Exn Unit := do
  validateArtifactHead b data incidentFields "zig-scheduler/matrix-incident/v1" scenarioId context
  require ((data.get "outcome").eqStr b outcome) (dot context "outcome" ++ str " must match row")
  requireText data "reason" context
  requireFalse data context "host_mutation"
  requireFalse data context "release_eligible"
  rejectPrivate b (.dict data) context

def validateRollbackArtifact (data : Dict) (scenarioId context : Str) : Except Exn Unit := do
  validateArtifactHead b data rollbackProofFields "zig-scheduler/rollback-proof/v1" scenarioId context
  ["status", "scheduler_state", "ops"].forM (fun field => requireText data field context)
  requireFalse data context "host_mutation"
  rejectPrivate b (.dict data) context

def validateCleanupArtifact (data : Dict) (scenarioId outcome context : Str) : Except Exn Unit := do
  validateArtifactHead b data cleanupProofFields "zig-scheduler/cleanup-proof/v1" scenarioId context
  requireText data "status" context
  ["owned_qemu_leftovers", "owned_temp_leftovers", "host_mutation"].forM (requireFalse data context)
  ["qemu_scan_before", "qemu_scan_after", "temp_scan_before", "temp_scan_after"].forM (fun field => do
    let _ ← requireSafePath (data.get field) (dot context field)
    .ok ())
  checkWhen (decide (outcome ≠ str "FAIL"))
    (require ((data.get "status").eqStr b (str "PASS"))
      (dot context "status" ++ str " must be PASS unless row outcome is FAIL"))
  rejectPrivate b (.dict data) context

def validateHostRefusalArtifact (data : Dict) (scenarioId context : Str) : Except Exn Unit := do
  validateArtifactHead b data hostRefusalFields "zig-scheduler/host-refusal-proof/v1" scenarioId context
  require ((data.get "status").eqStr b (str "REFUSE")) (dot context "status" ++ str " must be REFUSE")
  requireText data "reason" context
  ["no_bpf_load_attach", "no_cgroup_write", "no_sys_write", "no_proc_write"].forM (requireTrue data context)
  requireFalse data context "host_mutation"
  rejectPrivate b (.dict data) context

/-- `load_json(Path(text(row.get(field))))`. -/
def loadField (row : Dict) (field : String) (context : Str) : Except Exn Dict := do
  let raw ← text (row.get field) (dot context field)
  loadJson fs (.parse raw)

/-- `validate_manifest_proof_artifacts(row, context)`. -/
def validateManifestProofArtifacts (row : Dict) (context : Str) : Except Exn Unit := do
  let scenarioId ← text (row.get "scenario_id") (dot context "scenario_id")
  let outcome ← text (row.get "outcome") (dot context "outcome")
  let samplePath ← text (row.get "runtime_sample_path") (dot context "runtime_sample_path")
  reraise (dot context "runtime_sample_path") " invalid runtime sample artifact: "
    (peers.runtimeSampleFile fs (.parse samplePath))
  let incident ← loadField fs row "incident_path" context
  validateIncidentArtifact b incident scenarioId outcome (dot context "incident")
  let rollback ← loadField fs row "rollback_proof_path" context
  validateRollbackArtifact b rollback scenarioId (dot context "rollback_proof")
  let cleanup ← loadField fs row "cleanup_proof_path" context
  validateCleanupArtifact b cleanup scenarioId outcome (dot context "cleanup_proof")
  let refusal ← loadField fs row "host_refusal_proof_path" context
  validateHostRefusalArtifact b refusal scenarioId (dot context "host_refusal_proof")

/-! ## Workload artifacts -/

/-- The capability artifact, which a manifest needs. -/
def validateCapabilityFile (capabilityPathValue : Option Str) (root : Path) (scenarioId workloadClass : Str)
    (expected : Option WorkloadScenarioMetadata) (row : Dict) (context : Str) : Except Exn Unit :=
  match capabilityPathValue with
  | none => fail (context ++ str ".workload.spec.capability_artifact_path is required in manifest mode")
  | some raw => do
    requireDescendant (.parse raw) root (dot context "workload.spec.capability_artifact_path")
    let capability ← loadJson fs (.parse raw)
    rejectWorkloadArtifactPrivate b (.dict capability) (dot context "workload.capability")
    let outcome ← text (row.get "outcome") (dot context "outcome")
    validateWorkloadCapability b capability scenarioId workloadClass expected outcome
      (dot context "workload.capability")

/-- `validate_manifest_workload_artifacts`. -/
def validateManifestWorkloadArtifacts (row : Dict) (root specPath privacyPath : Path) (context : Str) :
    Except Exn Unit := do
  let workload ← objField row "workload" context
  let scenarioId ← text (row.get "scenario_id") (dot context "scenario_id")
  let expected ← workloadMetadata scenarioId context
  let workloadClass ← text (workload.get "name") (dot context "workload.name")
  requireWorkloadClass workloadClass expected scenarioId context
  let expectedSha ← text (workload.get "spec_sha256") (dot context "workload.spec_sha256")
  let actualSha ← fileSha256 fs specPath
  require (decide (actualSha = expectedSha))
    (dot context "workload.spec_sha256" ++ str " does not match referenced workload spec")
  let spec ← loadJson fs specPath
  rejectWorkloadArtifactPrivate b (.dict spec) (dot context "workload.spec")
  let capabilityPathValue ← validateWorkloadSpec b (peers.benchmarkEntries fs) spec scenarioId workloadClass expected
    (dot context "workload.spec") (some root)
  validateCapabilityFile b fs capabilityPathValue root scenarioId workloadClass expected row context
  let report ← loadJson fs privacyPath
  rejectWorkloadArtifactPrivate b (.dict report) (dot context "privacy_scan.report")
  validatePrivacyReport b report (dot context "privacy_scan.report")

/-- `validate_manifest_row_paths(row, manifest_root, context)`. -/
def validateManifestRowPaths (row : Dict) (root : Path) (context : Str) : Except Exn Unit := do
  let daemonEventPath ← requireBelow (row.get "daemon_event_path") root (dot context "daemon_event_path")
  validateManifestDaemonEvents b fs daemonEventPath root (dot context "daemon_event_path")
  pathFields.forM (fun field => do
    let _ ← requireBelow (row.get field) root (dot context field)
    .ok ())
  let policy ← objField row "policy" context
  let _ ← requireBelow (policy.get "object_path") root (dot context "policy.object_path")
  let workload ← objField row "workload" context
  let specPath ← requireBelow (workload.get "spec_path") root (dot context "workload.spec_path")
  let privacy ← objField row "privacy_scan" context
  let privacyPath ← requireBelow (privacy.get "report_path") root (dot context "privacy_scan.report_path")
  validateManifestWorkloadArtifacts b peers fs row root specPath privacyPath context
  validateManifestProofArtifacts b peers fs row context

/-! ## The live backend -/

/-- A dirty or stale summary cannot back a live pass. -/
def requireNotLive (outcome evidenceMode message : Str) : Except Exn Unit :=
  require (decide (outcome ≠ str "PASS") && decide (evidenceMode ≠ str "vm-live")) message

/-- The text of `live_summary` in the summary of the backend. -/
def liveSummaryValue (backendSummary : Dict) (context : Str) : Except Exn Str :=
  match backendSummary.get "live_summary" with
  | .str s =>
    if s = [] then fail (context ++ str " live-backend PASS row requires backend/live/summary.json live summary path")
    else .ok s
  | _ => fail (context ++ str " live-backend PASS row requires backend/live/summary.json live summary path")

/-- A `git_sha` that does not start with the one of the row. -/
def isStale (liveGitSha : Value) (actualSha : Str) : Bool :=
  match liveGitSha with
  | .str s => !s.isEmpty && !actualSha.isPrefixOf s
  | _ => false

/-- The summaries behind a live pass of the scenario `live-backend`. -/
def validateBackendSummaries (row : Dict) (artifactPath : Path) (outcome evidenceMode context : Str) :
    Except Exn Unit := do
  let backendSummaryPath := (artifactPath.parent.div (str "backend")).div (str "summary.json")
  require (fs.isFile backendSummaryPath)
    (context ++ str " live-backend PASS row is missing backend summary artifact")
  let backendSummary ← loadJson fs backendSummaryPath
  let schema ← text (backendSummary.get "schema") (dot context "backend_summary.schema")
  require (decide (schema = str "zig-scheduler/vm-backend-run/v1"))
    (context ++ str " backend summary schema must be vm-backend-run/v1")
  let status ← text (backendSummary.get "status") (dot context "backend_summary.status")
  require (decide (status = str "PASS")) (context ++ str " backend summary must be PASS")
  require (isFalse (backendSummary.get "host_mutation")) (context ++ str " backend summary host_mutation must be false")
  let raw ← liveSummaryValue backendSummary context
  let liveSummaryPath := Path.parse raw
  require (decide (liveSummaryPath = (backendSummaryPath.parent.div (str "live")).div (str "summary.json")))
    (context ++ str " live summary must point to the canonical backend/live/summary.json bundle")
  require (fs.isFile liveSummaryPath) (context ++ str " live summary bundle is missing: " ++ liveSummaryPath.asPosix)
  let liveSummary ← loadJson fs liveSummaryPath
  checkWhen (isTrue (liveSummary.get "git_dirty")) (requireNotLive outcome evidenceMode
    (context ++ str " dirty live backend summary cannot back a PASS vm-live matrix row"))
  let git ← objField row "git" context
  let actualSha ← text (git.get "actual_sha") (dot context "git.actual_sha")
  checkWhen (isStale (liveSummary.get "git_sha") actualSha) (requireNotLive outcome evidenceMode
    (context ++ str " stale live backend summary cannot back a PASS vm-live matrix row"))
  checkWhen (decide (outcome = str "PASS") && decide (evidenceMode = str "vm-live"))
    (reraise context " live backend summary failed nested live behavior validation: "
      (peers.liveBehaviorBundle fs liveSummaryPath))

/-- `validate_live_backend_summary_consistency(row, artifact_path, context)`. -/
def validateLiveBackendSummaryConsistency (row : Dict) (artifactPath : Path) (context : Str) : Except Exn Unit := do
  let scenarioId ← text (row.get "scenario_id") (dot context "scenario_id")
  checkWhen (decide (scenarioId = str "live-backend")) (do
    let outcome ← text (row.get "outcome") (dot context "outcome")
    let evidenceMode ← text (row.get "evidence_mode") (dot context "evidence_mode")
    checkWhen (decide (outcome = str "PASS" ∧ evidenceMode = str "vm-live"))
      (validateBackendSummaries peers fs row artifactPath outcome evidenceMode context))

/-! ## The manifest -/

/-- What the loop over the rows has met: scenario ids, and the texts of artifact paths. -/
structure Seen where
  scenarios : List Str
  artifacts : List Str

/-- The file of one row, by itself and against the manifest. -/
def validateRowFile (root : Path) (mode : Str) (fixtureMode : Bool) (artifactPath : Path) (row : Dict) :
    Except Exn Unit := do
  let context := artifactPath.asPosix
  validateRow b row context
  validateManifestRowPaths b peers fs row root context
  validateManifestVmClaim b fs row mode fixtureMode root context
  validateLiveBackendSummaryConsistency peers fs row artifactPath context

/-- One turn of the loop over the rows. -/
def validateManifestRow (root : Path) (runId mode : Str) (fixtureMode : Bool) (manifestContext : Str) (seen : Seen)
    (entry : Value × Nat) : Except Exn Seen := do
  let context := at_ (dot manifestContext "rows") entry.2
  let manifestRow ← obj entry.1 context
  requireOnlyFields manifestRow manifestRowFields context
  let scenarioId ← text (manifestRow.get "scenario_id") (dot context "scenario_id")
  require (idRe.fullmatch scenarioId) (dot context "scenario_id" ++ str " is not a stable identifier")
  require (!seen.scenarios.contains scenarioId) (dot context "scenario_id" ++ str " duplicates an earlier row")
  let raw ← requireSafePath (manifestRow.get "artifact_path") (dot context "artifact_path")
  let artifactPath := Path.parse raw
  require (!seen.artifacts.contains artifactPath.asPosix)
    (dot context "artifact_path" ++ str " duplicates an earlier row")
  requireDescendant artifactPath root (dot context "artifact_path")
  require (decide (artifactPath.name = str "matrix-run.json"))
    (dot context "artifact_path" ++ str " must point to matrix-run.json")
  let row ← loadJson fs artifactPath
  validateRowFile b peers fs root mode fixtureMode artifactPath row
  require ((row.get "matrix_run_id").eqStr b runId)
    (dot artifactPath.asPosix "matrix_run_id" ++ str " must match manifest")
  require ((manifestRow.get "scenario_id").eq b (row.get "scenario_id")) (dot context "scenario_id" ++ str " mismatch")
  require ((manifestRow.get "outcome").eq b (row.get "outcome")) (dot context "outcome" ++ str " mismatch")
  .ok ⟨scenarioId :: seen.scenarios, artifactPath.asPosix :: seen.artifacts⟩

/-- `manifest["rows"]`, of the stated number. -/
def manifestRows (manifest : Dict) (context : Str) : Except Exn (List Value) :=
  match manifest.get "rows" with
  | .list rows => do
    require ((manifest.get "row_count").eqInt b rows.length) (dot context "row_count" ++ str " must match rows length")
    .ok rows
  | _ => fail (dot context "rows" ++ str " must be a list")

/-- `validate_manifest(manifest_path)`: the number of rows, and no number of invalid ones. -/
def validateManifest (manifestPath : Path) : Except Exn (Nat × Nat) := do
  let root ← requireManifestRoot manifestPath
  let manifest ← loadJson fs manifestPath
  let context := manifestPath.asPosix
  requireOnlyFields manifest manifestFields context
  require ((manifest.get "schema").eqStr b (str manifestSchema)) (dot context "schema" ++ str " unsupported")
  requireFalse manifest context "host_mutation"
  requireFalse manifest context "release_eligible"
  let runId ← text (manifest.get "matrix_run_id") (dot context "matrix_run_id")
  require (runIdRe.fullmatch runId)
    (dot context "matrix_run_id" ++ str " must be 1-" ++ strNat runIdMax ++ str " safe characters")
  require (decide (runId = root.name)) (dot context "matrix_run_id" ++ str " must equal out_dir basename " ++ root.name)
  let outDir ← requireSafePath (manifest.get "out_dir") (dot context "out_dir")
  require (decide (Path.parse outDir = root)) (dot context "out_dir" ++ str " must match manifest directory")
  let daemonEventsPath ← requireBelow (manifest.get "daemon_events_path") root (dot context "daemon_events_path")
  let mode ← text (manifest.get "mode") (dot context "mode")
  let fixtureMode ← boolField (manifest.get "fixture_mode") (dot context "fixture_mode")
  requireText manifest "started_at" context
  requireText manifest "ended_at" context
  let rows ← manifestRows b manifest context
  validateManifestDaemonEvents b fs daemonEventsPath root (dot context "daemon_events_path")
  let _ ← rows.zipIdx.foldlM (validateManifestRow b peers fs root runId mode fixtureMode context) ⟨[], []⟩
  .ok (rows.length, 0)

end Exasphere.Qa.MatrixRun

import Exasphere.Py.Sha256
import Exasphere.Qa.Common

/-!
# Rows of a matrix run (`qa/matrix_run_json.py`, `qa/matrix_run_model.py`, `qa/matrix_run_validate.py`)

`validateRow` is the check of one row artifact by itself, without the files it names.
-/

namespace Exasphere.Qa.MatrixRun

open Exasphere.Lib Exasphere.Py

/-! ## Constants -/

def schemaId : String := "zig-scheduler/matrix-run/v1"

def matrixBpfAbiVersion : String := "zigsched-bpf-abi-v1"

def vmMarker : String := "/run/zig-scheduler-vm-lab.marker"

def outcomes : List String := ["PASS", "SKIP", "REFUSE", "INCIDENT", "FAIL"]

def evidenceModes : List String := ["vm-live", "host-refusal-only", "fixture"]

def tupleStatus : List String := ["supported", "unsupported", "unknown"]

def pathFields : List String :=
  ["runtime_sample_path", "daemon_event_path", "incident_path", "rollback_proof_path", "cleanup_proof_path",
    "host_refusal_proof_path"]

def rowFields : List String :=
  ["schema", "matrix_run_id", "scenario_id", "outcome", "evidence_mode", "kernel_tuple", "supported_tuple_status",
    "vm_marker", "bpf_abi_version", "policy", "workload", "action_id", "audit_id", "rollback_id", "pre_scheduler_state",
    "post_scheduler_state", "pre_cgroup_state", "post_cgroup_state", "runtime_sample_path", "daemon_event_path",
    "incident_path", "rollback_proof_path", "cleanup_proof_path", "host_refusal_proof_path", "privacy_scan", "git",
    "release_eligible", "host_mutation"]

def kernelTupleFields : List String := ["kernel_release", "arch", "btf", "kvm", "sched_ext"]

def vmMarkerFields : List String := ["required", "present", "path", "checked_by"]

def policyFields : List String := ["name", "object_path", "object_sha256", "source_path", "source_sha256"]

def workloadFields : List String := ["name", "spec_path", "spec_sha256"]

def privacyScanFields : List String := ["status", "private_fields_found", "report_path"]

def gitFields : List String := ["expected_sha", "actual_sha", "status", "dirty"]

def schedStates : List String := ["disabled", "enabled", "enabling", "disabling", "unknown", "unavailable"]

def schedDisableReasons : List String :=
  ["normal_unregister", "scheduler_exit", "watchdog_stall", "watchdog_error", "sysrq_forced_disable", "not_applicable",
    "unavailable"]

def schedStateFields : List String :=
  ["sched_ext", "ops", "enable_seq", "root_ops", "task_ext_enabled", "disable_reason", "teardown_state",
    "rollback_state"]

def privateNeedles : List String :=
  ["cmdline", "command_line", "argv", "environment", "secret", "api_key", "token", "password",
    "authorization", "bearer"]

def workloadPrivateNeedles : List String := privateNeedles ++ ["command", "env", "cwd", "pid", "ppid"]

/-! ## Patterns -/

/-- `RUN_ID_RE`. -/
def runIdRe : Re := .seq .start (.seq (.run Re.isIdChar 1 (some 64)) .finish)

/-- `ID_RE`. -/
def idRe : Re := .seq .start (.seq (.run Re.isIdChar 1 (some 96)) .finish)

/-- `AUDIT_RE`. -/
def auditRe : Re :=
  .seq .start (.seq (.lit "AUD-") (.seq (.exactly Py.isDigit 8) (.seq (.lit "T") (.seq (.exactly Py.isDigit 6)
    (.seq (.lit "Z-") (.seq (.plus Re.isIdChar) .finish))))))

/-- `SHA256_RE`. -/
def sha256Re : Re := .seq .start (.seq (.exactly isHex 64) .finish)

/-- `PRIVATE_PATH_RE`. -/
def privatePathRe : Re :=
  .seq (.alt .start (.cls (fun c => isSpace c || Re.oneOf "=:" c))) (.seq (.lit "/")
    (.seq (.choice (["home", "root", "etc", "proc", "sys", "var", "tmp"].map Re.lit)) (.lit "/")))

variable (b : Builtins)

/-- `CLAIM_TEXT_RE`. -/
def claimTextRe : Re :=
  let edge := Re.boundary (fun c => b.isAlnum c || decide (c = 95))
  .seq edge (.seq (.choice (["production", "release", "performance"].map Re.litI))
    (.seq (.plus (fun c => isSpace c || Re.oneOf "_-" c))
      (.seq (.choice (["ready", "eligible", "approved", "claim", "slo", "sla", "guarantee", "baseline", "capacity"].map
        Re.litI)) edge)))

/-! ## Primitives -/

/-- `load_json(path)`. -/
def loadJson (fs : Files) (path : Path) : Except Exn Dict := loadObject rejectConstant " must be an object" fs path

def obj (value : Value) (context : Str) : Except Exn Dict :=
  match value with
  | .dict d => .ok d
  | _ => fail (context ++ str " must be an object")

def boolField (value : Value) (context : Str) : Except Exn Bool :=
  match value with
  | .bool x => .ok x
  | _ => fail (context ++ str " must be a boolean")

theorem obj_ok {value : Value} {context : Str} {d : Dict} : obj value context = .ok d ↔ value = .dict d := by
  cases value <;> simp [obj, fail]

theorem boolField_ok {value : Value} {context : Str} {x : Bool} :
    boolField value context = .ok x ↔ value = .bool x := by
  cases value <;> simp [boolField, fail]

def requireOnlyFields (row : Dict) (allowed : List String) (context : Str) : Except Exn Unit :=
  onlyFields "field(s)" row allowed context

/-- `set(names).issubset(row)`. -/
def hasAll (row : Dict) (names : List String) : Bool := names.all row.has

/-- `require_safe_path(value, context)`: the text of the path. -/
def requireSafePath (value : Value) (context : Str) : Except Exn Str := do
  let raw ← text value context
  let _ ← safePath (.str raw) context
  .ok raw

def requireDescendant (path root : Path) (context : Str) : Except Exn Unit :=
  require (path.isUnder root) (context ++ str " must stay under " ++ root.asPosix ++ str ": " ++ path.asPosix)

def requireIdentifier (row : Dict) (field : String) (pattern : Re) (context : Str) : Except Exn Unit := do
  let raw ← text (row.get field) (dot context field)
  require (pattern.fullmatch raw) (dot context field ++ str " is not a stable identifier")

def requireSha (row : Dict) (field : String) (context : Str) : Except Exn Unit := do
  let raw ← text (row.get field) (dot context field)
  require (sha256Re.fullmatch raw) (dot context field ++ str " must be sha256 hex")

def fileSha256 (fs : Files) (path : Path) : Except Exn Str :=
  match fs.readBytes path with
  | .ok data => .ok (sha256 data)
  | .error .fileNotFound => fail (str "missing referenced artifact: " ++ path.asPosix)
  | .error e => .error e

def textList (value : Value) (context : Str) : Except Exn (List Str) :=
  match value with
  | .list items => items.zipIdx.mapM (fun (item, index) => text item (at_ context index))
  | _ => fail (context ++ str " must be a list")

/-! ## Privacy -/

mutual

/-- `reject_private` and `reject_workload_artifact_private`: the needles of a key, the word of its message, and the
check of a text are those of each. -/
def rejectIn (needles : List String) (label : String) (checkText : Str → Str → Except Exn Unit) (context : Str) :
    Value → Except Exn Unit
  | .dict members => rejectMembers needles label checkText context members
  | .list items => rejectItems needles label checkText context 0 items
  | .str s => checkText s context
  | _ => .ok ()

def rejectMembers (needles : List String) (label : String) (checkText : Str → Str → Except Exn Unit) (context : Str) :
    Dict → Except Exn Unit
  | [] => .ok ()
  | (key, child) :: members => do
    require (!needles.any (fun needle => contains (b.lower key) (str needle)))
      (str "privacy-unsafe " ++ str label ++ str "key in " ++ context ++ 46 :: key)
    rejectIn needles label checkText (context ++ 46 :: key) child
    rejectMembers needles label checkText context members

def rejectItems (needles : List String) (label : String) (checkText : Str → Str → Except Exn Unit) (context : Str)
    (index : Nat) : List Value → Except Exn Unit
  | [] => .ok ()
  | child :: items => do
    rejectIn needles label checkText (at_ context index) child
    rejectItems needles label checkText context (index + 1) items

end

/-- `reject_private(value, context)`. -/
def rejectPrivate (value : Value) (context : Str) : Except Exn Unit :=
  rejectIn b privateNeedles "" (fun s context => do
    require (!privateNeedles.any (fun needle => contains (b.lower s) (str needle)))
      (str "privacy-unsafe text in " ++ context)
    require (!privatePathRe.search s) (str "privacy-unsafe path in " ++ context)
    require (!(claimTextRe b).search s) (str "claim-unsafe text in " ++ context)) context value

/-- `reject_workload_artifact_private(value, context)`. -/
def rejectWorkloadArtifactPrivate (value : Value) (context : Str) : Except Exn Unit :=
  rejectIn b workloadPrivateNeedles "workload " (fun s context => do
    require (!workloadPrivateNeedles.any (fun needle => contains (b.lower s) (str needle)))
      (str "privacy-unsafe workload text in " ++ context)
    require (!(claimTextRe b).search s) (str "claim-unsafe workload text in " ++ context)
    require (!privatePathRe.search s) (str "privacy-unsafe workload path in " ++ context)) context value

/-! ## Scheduler states -/

/-- `int(raw)` of a text for which `raw.isdecimal()`. -/
def intOfDecimal (raw : Str) : Except Exn Nat :=
  if maxStrDigits < raw.length then .error .valueError
  else .ok (raw.foldl (fun n c => 10 * n + (b.decimalValue c).getD 0) 0)

def requireSchedEnableSeq (value : Value) (context : Str) : Except Exn (Option Nat) := do
  let raw ← text value context
  if raw = str "unavailable" then .ok none
  else do
    require (raw.all (fun c => (b.decimalValue c).isSome))
      (context ++ str " must be a nonnegative integer string or unavailable")
    let n ← intOfDecimal b raw
    .ok (some n)

/-- A field that may be missing, and is otherwise one of the words. -/
def optionalWord (state : Dict) (field : String) (words : List String) (context : Str) : Except Exn Unit :=
  checkWhen (state.has field) (do
    let s ← text (state.get field) (dot context field)
    require (isOneOf s words) (dot context field ++ str " invalid"))

/-- `validate_scheduler_state(state, context)`. -/
def validateSchedulerState (state : Dict) (context : Str) : Except Exn (Option Nat) := do
  requireOnlyFields state schedStateFields context
  require (hasAll state ["sched_ext", "ops"]) (context ++ str " missing sched_ext/ops state")
  let schedExt ← text (state.get "sched_ext") (dot context "sched_ext")
  require (isOneOf schedExt schedStates) (dot context "sched_ext" ++ str " invalid")
  let ops ← text (state.get "ops") (dot context "ops")
  rejectPrivate b (.str ops) (dot context "ops")
  let enableSeq ← requireSchedEnableSeq b
    (if state.has "enable_seq" then state.get "enable_seq" else .str (str "unavailable")) (dot context "enable_seq")
  optionalWord state "task_ext_enabled" ["true", "false", "unknown", "unavailable"] context
  optionalWord state "disable_reason" schedDisableReasons context
  rejectPrivate b (.dict state) context
  .ok enableSeq

/-! ## Workload metadata -/

structure WorkloadScenarioMetadata where
  scenarioId : String
  workloadClass : String
  requiredTools : List String
  thresholdSources : List String

/-- `WORKLOAD_SCENARIO_METADATA`. -/
def workloadScenarioMetadata : List WorkloadScenarioMetadata :=
  [⟨"workload-cpu-saturation", "cpu-saturation", ["stress-ng"], ["record-only"]⟩,
    ⟨"workload-interactive-latency", "interactive-latency", ["cyclictest", "perf"], ["record-only"]⟩,
    ⟨"workload-scheduler-affinity-churn", "scheduler-affinity-churn", ["stress-ng", "taskset", "chrt"],
      ["record-only"]⟩,
    ⟨"workload-fork-ipc-pressure", "bounded-fork-ipc-pressure", ["hackbench-like"], ["record-only"]⟩,
    ⟨"workload-mixed-io", "mixed-io", ["fio"], ["record-only"]⟩,
    ⟨"workload-cgroup-weight-quota", "cgroup-weight-quota-pressure", ["stress-ng"], ["record-only"]⟩,
    ⟨"workload-cpu-hotplug", "cpu-hotplug-offline", ["cpu-hotplug-online-control"], ["record-only"]⟩]

def expectedWorkloadMetadata (scenarioId : Str) : Option WorkloadScenarioMetadata :=
  workloadScenarioMetadata.find? (fun m => decide (str m.scenarioId = scenarioId))

/-- The metadata of a scenario; a name that starts with `workload-` must have some. -/
def workloadMetadata (scenarioId context : Str) : Except Exn (Option WorkloadScenarioMetadata) :=
  match expectedWorkloadMetadata scenarioId with
  | some expected => .ok (some expected)
  | none =>
    if (str "workload-").isPrefixOf scenarioId then
      fail (context ++ str ".scenario_id has no canonical workload metadata: " ++ scenarioId)
    else .ok none

/-- The class of a workload must be that of its scenario. -/
def requireWorkloadClass (name : Str) (expected : Option WorkloadScenarioMetadata) (scenarioId context : Str) :
    Except Exn Unit :=
  match expected with
  | some m =>
    require (decide (name = str m.workloadClass))
      (context ++ str ".workload.name must match scenario " ++ scenarioId ++ str " workload class " ++
        str m.workloadClass)
  | none => .ok ()

/-- `validate_workload(workload, scenario_id, context)`. -/
def validateWorkload (workload : Dict) (scenarioId context : Str) : Except Exn Unit := do
  requireOnlyFields workload workloadFields (dot context "workload")
  let name ← text (workload.get "name") (dot context "workload.name")
  let _ ← requireSafePath (workload.get "spec_path") (dot context "workload.spec_path")
  requireSha workload "spec_sha256" (dot context "workload")
  let expected ← workloadMetadata scenarioId context
  requireWorkloadClass name expected scenarioId context

/-! ## The row -/

/-- `validate_vm_marker(marker, mode, context)`. -/
def validateVmMarker (marker : Dict) (mode context : Str) : Except Exn Unit := do
  requireOnlyFields marker vmMarkerFields (dot context "vm_marker")
  let required ← boolField (marker.get "required") (dot context "vm_marker.required")
  let present ← boolField (marker.get "present") (dot context "vm_marker.present")
  let path ← text (marker.get "path") (dot context "vm_marker.path")
  require (decide (path = str vmMarker)) (dot context "vm_marker.path" ++ str " mismatch")
  let _ ← text (marker.get "checked_by") (dot context "vm_marker.checked_by")
  if mode = str "vm-live" then require (required && present) (context ++ str " VM-live row requires present VM marker")
  else if isOneOf mode ["host-refusal-only", "fixture"] then
    require (!required && !present) (context ++ 32 :: mode ++ str " row must not claim VM marker")
  else fail (dot context "evidence_mode" ++ str " invalid")

/-- `validate_pass_evidence_mode(outcome, mode, context)`. -/
def validatePassEvidenceMode (outcome mode context : Str) : Except Exn Unit :=
  checkWhen (decide (outcome = str "PASS"))
    (require (isOneOf mode ["vm-live", "fixture"])
      (context ++ str " PASS requires vm-live proof or explicit fixture evidence"))

/-- `validate_policy(policy, context)`. -/
def validatePolicy (policy : Dict) (context : Str) : Except Exn Unit := do
  requireOnlyFields policy policyFields (dot context "policy")
  ["name", "object_path", "source_path"].forM (fun field => do
    let _ ← text (policy.get field) (dot (dot context "policy") field)
    .ok ())
  let _ ← requireSafePath (policy.get "object_path") (dot context "policy.object_path")
  let _ ← requireSafePath (policy.get "source_path") (dot context "policy.source_path")
  requireSha policy "object_sha256" (dot context "policy")
  requireSha policy "source_sha256" (dot context "policy")

/-- `validate_privacy(scan, context)`. -/
def validatePrivacy (scan : Dict) (context : Str) : Except Exn Unit := do
  requireOnlyFields scan privacyScanFields (dot context "privacy_scan")
  require ((scan.get "status").eqStr b (str "PASS")) (dot context "privacy_scan.status" ++ str " must be PASS")
  require (isFalse (scan.get "private_fields_found"))
    (dot context "privacy_scan.private_fields_found" ++ str " must be false")
  let _ ← requireSafePath (scan.get "report_path") (dot context "privacy_scan.report_path")
  .ok ()

/-- `validate_git(git, context)`. -/
def validateGit (git : Dict) (context : Str) : Except Exn Unit := do
  requireOnlyFields git gitFields (dot context "git")
  let expected ← text (git.get "expected_sha") (dot context "git.expected_sha")
  let actual ← text (git.get "actual_sha") (dot context "git.actual_sha")
  require ((git.get "status").eqStr b (str "current")) (dot context "git.status" ++ str " must be current")
  require (isFalse (git.get "dirty")) (dot context "git.dirty" ++ str " must be false")
  require (decide (expected = actual)) (dot context "git" ++ str " expected_sha must match actual_sha")

/-- The member `field` of a row, which must be an object. -/
def objField (row : Dict) (field : String) (context : Str) : Except Exn Dict := obj (row.get field) (dot context field)

/-- `post_enable_seq >= pre_enable_seq` where both are known. -/
def requireFresh (pre post : Option Nat) (context : Str) : Except Exn Unit :=
  match pre, post with
  | some m, some n => require (decide (m ≤ n)) (context ++ str ".post_scheduler_state.enable_seq is stale")
  | _, _ => .ok ()

/-- `validate_row(row, context)`. -/
def validateRow (row : Dict) (context : Str) : Except Exn Unit := do
  requireOnlyFields row rowFields context
  require (hasAll row rowFields) (context ++ str " missing required fields")
  require ((row.get "schema").eqStr b (str schemaId)) (context ++ str " bad schema")
  let outcome ← text (row.get "outcome") (dot context "outcome")
  require (isOneOf outcome outcomes) (dot context "outcome" ++ str " invalid")
  let mode ← text (row.get "evidence_mode") (dot context "evidence_mode")
  require (isOneOf mode evidenceModes) (dot context "evidence_mode" ++ str " invalid")
  let status ← text (row.get "supported_tuple_status") (dot context "supported_tuple_status")
  require (isOneOf status tupleStatus) (dot context "supported_tuple_status" ++ str " invalid")
  require (isFalse (row.get "host_mutation")) (dot context "host_mutation" ++ str " must be false")
  require (isFalse (row.get "release_eligible")) (dot context "release_eligible" ++ str " must be false")
  require ((row.get "bpf_abi_version").eqStr b (str matrixBpfAbiVersion))
    (dot context "bpf_abi_version" ++ str " must be " ++ str matrixBpfAbiVersion)
  requireIdentifier row "matrix_run_id" runIdRe context
  ["scenario_id", "action_id", "rollback_id"].forM (fun field => requireIdentifier row field idRe context)
  let scenarioId ← text (row.get "scenario_id") (dot context "scenario_id")
  requireIdentifier row "audit_id" auditRe context
  pathFields.forM (fun field => do
    let _ ← requireSafePath (row.get field) (dot context field)
    .ok ())
  let preState ← objField row "pre_scheduler_state" context
  let preEnableSeq ← validateSchedulerState b preState (dot context "pre_scheduler_state")
  let postState ← objField row "post_scheduler_state" context
  let postEnableSeq ← validateSchedulerState b postState (dot context "post_scheduler_state")
  requireFresh preEnableSeq postEnableSeq context
  let _ ← objField row "pre_cgroup_state" context
  let _ ← objField row "post_cgroup_state" context
  let kernelTuple ← objField row "kernel_tuple" context
  requireOnlyFields kernelTuple kernelTupleFields (dot context "kernel_tuple")
  let marker ← objField row "vm_marker" context
  validateVmMarker marker mode context
  let policy ← objField row "policy" context
  validatePolicy policy context
  let workload ← objField row "workload" context
  validateWorkload workload scenarioId context
  let privacy ← objField row "privacy_scan" context
  validatePrivacy b privacy context
  let git ← objField row "git" context
  validateGit b git context
  validatePassEvidenceMode outcome mode context
  rejectPrivate b (.dict row) context

end Exasphere.Qa.MatrixRun

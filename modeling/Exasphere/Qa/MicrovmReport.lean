import Exasphere.Py.JsonRoundTrip
import Exasphere.Py.Sha256
import Exasphere.Qa.Common

/-!
# The report of a microVM run (`qa/vm/microvm_report_parse.py`, `qa/vm/microvm_report_outputs.py`)

`parseSerial` reads the rows a guest wrote on its serial line, `reportIds` names the report, and `writeRollbackOutputs`
writes the snapshot, the transcript, the refusals and the ledger of the rollback. The check of the workload rows is that
of `qa/vm/workload_execution_check.py`. `SystemExit` is raised as the error of the module.
-/

namespace Exasphere.Qa.Microvm

open Exasphere.Lib Exasphere.Py

variable (b : Builtins)

/-! ## Workload executions -/

def jsonMarker : String := "ZIGSCHED_JSON "

def failStatuses : List String := ["FAIL", "REFUSE"]

structure WorkloadExecution where
  scenario : Str
  status : Str
  rc : Int
  hostMutation : Bool

/-- `parse_json_events(serial_text)`, from a line number on. -/
def parseJsonEvents (lineNumber : Nat) : List Str → Except Exn (List Dict)
  | [] => .ok []
  | line :: lines =>
    match after (str jsonMarker) line with
    | none => parseJsonEvents (lineNumber + 1) lines
    | some rest =>
      match loads rest with
      | .ok (.dict row) => do
        let rows ← parseJsonEvents (lineNumber + 1) lines
        .ok (row :: rows)
      | .ok _ => fail (str "VM JSON event at serial line " ++ strNat lineNumber ++ str " is not an object")
      | .error .jsonDecodeError => fail (str "invalid VM JSON event at serial line " ++ strNat lineNumber)
      | .error e => .error e

/-- The integer of a member. -/
def requireInt (row : Dict) (field : String) (message : Str) : Except Exn Int :=
  match (row.get field).asInt? with
  | some i => .ok i
  | none => fail message

/-- `parse_workload_execution(row, context)`. -/
def parseWorkloadExecution (row : Dict) (context : Str) : Except Exn WorkloadExecution := do
  let scenario ← text (row.get "scenario") (dot context "scenario")
  let status ← text (row.get "status") (dot context "status")
  let rc ← requireInt row "rc" (dot context "rc" ++ str " must be an integer")
  match row.get "host_mutation" with
  | .bool hostMutation => .ok ⟨scenario, status, rc, hostMutation⟩
  | _ => fail (dot context "host_mutation" ++ str " must be a boolean")

/-- `workload_execution_events(serial_text)`. -/
def workloadExecutionEvents (serialText : Str) : Except Exn (List WorkloadExecution) := do
  let events ← parseJsonEvents 1 (splitlines serialText)
  (events.zipIdx.filter (fun e => (e.1.get "event").eqStr b (str "workload_execution"))).mapM
    (fun e => parseWorkloadExecution e.1 (at_ (str "workload_execution") e.2))

/-- `require_workload_pass(serial_text, scenario)`. -/
def requireWorkloadPass (serialText scenario : Str) : Except Exn Unit := do
  let events ← workloadExecutionEvents b serialText
  let executions := events.filter (fun e => decide (e.scenario = scenario))
  require (!executions.isEmpty) (str "missing workload_execution evidence for scenario " ++ scenario)
  let failing := executions.filter (fun e => isOneOf e.status failStatuses || decide (e.rc ≠ 0) || e.hostMutation)
  require failing.isEmpty
    (str "workload_execution failure for scenario " ++ scenario ++ str ": " ++
      join (str ", ") (failing.map (fun e => e.status ++ str "/rc=" ++ strInt e.rc)))
  require (executions.any (fun e => decide (e.status = str "PASS")))
    (str "workload_execution for scenario " ++ scenario ++ str " has no PASS status: " ++
      join (str ", ") (executions.map WorkloadExecution.status))

/-- Each scenario of the rows passes. -/
def requireAllPass (serialText : Str) : Except Exn Unit := do
  let events ← workloadExecutionEvents b serialText
  (events.map WorkloadExecution.scenario).dedup.forM (requireWorkloadPass b serialText)

/-! ## The rows of a guest -/

def mutationFamilies : List String := ["cgroup.weight", "cpu.max", "uclamp", "topology.offline_cpu"]

structure ReportRows where
  boot : Dict
  tupleRow : Dict
  workload : Dict
  workloadExecutions : List Dict
  mutationRows : List Dict
  before : Dict
  register : Dict
  unregister : Dict
  staleRefusal : Dict
  duplicateRefusal : Dict

structure SerialLines where
  register : List Str
  bpftool : List Str
  duplicate : List Str

/-- `event_rc(row, context)`. -/
def eventRc (row : Dict) (context : String) : Except Exn Int :=
  requireInt row "rc" (str "microVM event " ++ str context ++ str " missing integer rc")

/-- A refusal must have the status and an exit code other than 0; a wrong status is found first. -/
def requireRefused (row : Dict) (context : String) (message : Str) : Except Exn Unit := do
  require ((row.get "status").eqStr b (str "REFUSE")) message
  let rc ← eventRc row context
  require (decide (rc ≠ 0)) message

def validateMutation (mutation : Dict) : Except Exn Unit := do
  let family := (mutation.get "family").toStr b
  require ((mutation.get "status").eqStr b (str "PASS")) (str "microVM mutation family did not pass: " ++ family)
  require (isTrue (mutation.get "target_allowlisted")) (str "microVM mutation target not allowlisted: " ++ family)
  require (isTrue (mutation.get "rollback_restored")) (str "microVM mutation rollback did not restore: " ++ family)

/-- `validate_rows(rows)`. -/
def validateRows (rows : ReportRows) : Except Exn Unit := do
  require (!rows.workloadExecutions.isEmpty) (str "missing microVM workload_execution evidence")
  let serialText := rows.workloadExecutions.flatMap (fun row => str jsonMarker ++ dumps b (.dict row) ++ [10])
  reraise (str "microVM workload execution did not pass") ": " (requireAllPass b serialText)
  require ((rows.register.get "rc").eqInt b 0 && (rows.register.get "ops").eqStr b (str "zigsched_minimal"))
    (str "microVM attach did not enable zigsched_minimal")
  require ((rows.unregister.get "rc").eqInt b 0 && (rows.unregister.get "state").eqStr b (str "disabled"))
    (str "microVM rollback did not restore disabled state")
  requireRefused b rows.staleRefusal "stale_target_refusal" (str "microVM stale target refusal did not refuse")
  require ((rows.staleRefusal.get "refusal_path").eqStr b (str "refuse_stale_rollback_target"))
    (str "microVM stale target refusal did not use the VM refusal path")
  requireRefused b rows.duplicateRefusal "duplicate_rollback_refusal"
    (str "microVM duplicate rollback refusal did not refuse")
  require ((rows.tupleRow.get "btf").truthy b) (str "microVM kernel BTF missing")
  rows.mutationRows.forM (validateMutation b)

/-- `by_event[name]`: the last row whose event has the name. -/
def byEvent (rows : List Dict) (name : String) : Option Dict :=
  rows.reverse.find? (fun row => decide ((row.get "event").toStr b = str name))

/-- A required event. -/
def requireEvent (rows : List Dict) (name : String) : Except Exn Dict :=
  match byEvent b rows name with
  | some row => .ok row
  | none => fail (str "missing microVM event: " ++ str name)

/-- `require_rows(rows)`. -/
def requireRows (rows : List Dict) : Except Exn ReportRows := do
  let boot ← requireEvent b rows "boot"
  let tupleRow ← requireEvent b rows "tuple"
  let workload ← requireEvent b rows "workload"
  let before ← requireEvent b rows "before"
  let register ← requireEvent b rows "register"
  let unregister ← requireEvent b rows "unregister"
  let staleRefusal ← requireEvent b rows "stale_target_refusal"
  let duplicateRefusal ← requireEvent b rows "duplicate_rollback_refusal"
  let mutationRows := rows.filter (fun row => (row.get "event").eqStr b (str "mutation_family"))
  let observed := mutationRows.map (fun row => (row.get "family").toStr b)
  let missing := sorted ((mutationFamilies.map str).filter (fun family => !observed.contains family))
  require missing.isEmpty (str "missing microVM mutation family evidence: " ++ join (str ", ") missing)
  let result : ReportRows :=
    ⟨boot, tupleRow, workload,
      rows.filter (fun row => (row.get "event").eqStr b (str "workload_execution")), mutationRows,
      before, register, unregister, staleRefusal, duplicateRefusal⟩
  validateRows b result
  .ok result

/-- The row of a line that holds the marker. -/
def parseRow (line : Str) : Except Exn (List Dict) :=
  match after (str jsonMarker) line with
  | none => .ok []
  | some rest => do
    let raw ← loads rest
    match raw with
    | .dict row => .ok [row]
    | _ => fail (str "microVM JSON event root is not object")

/-- What follows a word in the lines that hold it. -/
def linesAfter (word : String) (lines : List Str) : List Str := lines.filterMap (after (str word))

/-- `parse_serial(text)`. -/
def parseSerial (serial : Str) : Except Exn (ReportRows × SerialLines) := do
  let lines := splitlines serial
  let rows ← lines.mapM parseRow
  let result ← requireRows b rows.flatten
  .ok (result, ⟨linesAfter "REGISTER_OUT " lines, linesAfter "BPFT_VER " lines,
    linesAfter "DUPLICATE_UNREGISTER_OUT " lines⟩)

/-! ## The names of a report -/

/-- Code points of a text that comes from the operating system: what is not UTF-8 there is read as the second half of a
pair, never as a first half. -/
def IsOsText (s : Str) : Prop := ∀ c ∈ s, c < 0x110000 ∧ isHighSurrogate c = false

/-- What `load_report_env` reads of the environment. -/
structure ReportEnv where
  out : Path
  objectSha : Str
  gitSha : Str
  isOsText : ∀ n ∈ out.names, IsOsText n

/-- `datetime.now(timezone.utc)`. -/
structure Clock where
  year : Nat
  month : Nat
  day : Nat
  hour : Nat
  minute : Nat
  second : Nat
  valid : 1970 ≤ year ∧ year ≤ 9999 ∧ 1 ≤ month ∧ month ≤ 12 ∧ 1 ≤ day ∧ day ≤ 31 ∧ hour < 24 ∧
    minute < 60 ∧ second < 60

/-- A number in decimal digits of a fixed width. -/
def pad : Nat → Nat → Str
  | 0, _ => []
  | width + 1, n => pad width (n / 10) ++ [48 + n % 10]

/-- `strftime("%Y%m%dT%H%M%SZ")`. -/
def Clock.stamp (clock : Clock) : Str :=
  pad 4 clock.year ++ pad 2 clock.month ++ pad 2 clock.day ++ str "T" ++ pad 2 clock.hour ++ pad 2 clock.minute ++
    pad 2 clock.second ++ str "Z"

structure ReportIds where
  auditId : Str
  auditSuffix : Str
  rollbackId : Str
  activeTarget : Str
  refusedTarget : Str

/-- `str(value or default)`. -/
def textOr (value : Value) (default : String) : Str := if value.truthy b then value.toStr b else str default

/-- `report_ids(env, rows)`. -/
def reportIds (env : ReportEnv) (clock : Clock) (rows : ReportRows) : Except Exn ReportIds := do
  let id := (rows.register.get "id").toStr b
  let data ← encode (env.gitSha ++ env.objectSha ++ id)
  let suffix := (sha256 data).take 6
  .ok {
    auditId := str "AUD-" ++ clock.stamp ++ str "-" ++ env.gitSha.take 7 ++ str "-" ++ suffix
    auditSuffix := suffix
    rollbackId := str "RB-microvm-live-" ++ id
    activeTarget := textOr b (rows.staleRefusal.get "active_target") "/sys/fs/cgroup/zig-scheduler-lab.slice/demo.scope"
    refusedTarget := textOr b (rows.staleRefusal.get "refused_target")
      "/sys/fs/cgroup/zig-scheduler-lab.slice/stale.scope"
  }

/-! ## The outputs of a rollback -/

/-- `str(row.get(field, default))`. -/
def getText (row : Dict) (field default : String) : Str :=
  match findKey (str field) row with
  | some v => v.toStr b
  | none => str default

/-- `rollback_snapshot_payload(rows, ids)`. -/
def rollbackSnapshotPayload (rows : ReportRows) (ids : ReportIds) : List (String × Str) :=
  [("schema", str "zig-scheduler/rollback-snapshot/v1"), ("audit_id", ids.auditId), ("rollback_id", ids.rollbackId),
    ("target_cgroup", ids.activeTarget), ("state_before", getText b rows.register "state" "enabled"),
    ("state_after", getText b rows.unregister "state" "disabled"),
    ("ops_before", getText b rows.register "ops" "zigsched_minimal"),
    ("ops_after", textOr b (rows.unregister.get "ops") "none"),
    ("enable_seq_before", getText b rows.register "enable_seq" "1"),
    ("enable_seq_after", getText b rows.unregister "enable_seq" "1")]

/-- `int(value)` of an integer, which `event_rc` has made sure of. -/
def intOf (value : Value) : Except Exn Int :=
  match value.asInt? with
  | some i => .ok i
  | none => .error .valueError

/-- `rollback_refusal_rows(rows, lines, ids)`. -/
def rollbackRefusalRows (rows : ReportRows) (lines : SerialLines) (ids : ReportIds) : Except Exn (Value × Value) := do
  let rc ← intOf (if rows.duplicateRefusal.has "rc" then rows.duplicateRefusal.get "rc" else .int 1)
  .ok (object [("schema", word "zig-scheduler/rollback-refusal/v1"), ("status", word "REFUSE"),
      ("reason", word "rollback target does not match active VM target"), ("state", word "stale_target_refused"),
      ("active_target", .str ids.activeTarget), ("refused_target", .str ids.refusedTarget),
      ("rollback_id", .str ids.rollbackId), ("audit_id", .str ids.auditId), ("host_mutation", .bool false),
      ("refusal_path", .str (getText b rows.staleRefusal "refusal_path" ""))],
    object [("schema", word "zig-scheduler/rollback-refusal/v1"), ("status", word "REFUSE"),
      ("reason", word "rollback id already consumed"), ("state", word "duplicate_rollback_refused"),
      ("active_target", .str ids.activeTarget), ("rollback_id", .str ids.rollbackId), ("audit_id", .str ids.auditId),
      ("bpftool_rc", .int rc), ("bpftool_output", .str ((join [32] lines.duplicate).take 300)),
      ("host_mutation", .bool false)])

structure RollbackOutputs where
  snapshot : Path
  transcript : Path
  refusals : Path
  ledger : Path

/-- `prepare_output_paths(out).rollback_dir`. -/
def rollbackDir (out : Path) : Path := out.div (str "rollback-drill")

/-- The files of a rollback. -/
def rollbackOutputs (dir : Path) (ids : ReportIds) : RollbackOutputs where
  snapshot := dir.div (ids.auditId ++ str ".rollback-snapshot.json")
  transcript := dir.div (ids.auditId ++ str ".rollback-transcript.txt")
  refusals := dir.div (str "rollback-refusals.jsonl")
  ledger := dir.div (str "audit-ledger.jsonl")

def rollbackTranscript (rows : ReportRows) (ids : ReportIds) : Str :=
  str "bpftool struct_ops unregister id " ++ (rows.register.get "id").toStr b ++
    str "\nrollback_status=PASS\ntarget_cgroup=" ++ ids.activeTarget ++ str "\nhost_mutation=false\n"

/-- `sha(path)`. -/
def sha (fs : Files) (path : Path) : Except Exn Str := do
  let data ← fs.readBytes path
  .ok (sha256 data)

/-- The record of a rollback in the ledger. -/
def ledgerRecord (outputs : RollbackOutputs) (ids : ReportIds) (snapshotSha transcriptSha : Str) :
    List (String × Str) :=
  [("schema", str "zig-scheduler/audit-ledger/v1"), ("audit_id", ids.auditId), ("rollback_id", ids.rollbackId),
    ("action", str "rollback-drill"), ("rollback_snapshot", outputs.snapshot.asPosix),
    ("rollback_snapshot_sha256", snapshotSha), ("transcript", outputs.transcript.asPosix),
    ("transcript_sha256", transcriptSha), ("secret_redaction", str "redacted")]

/-- `write_rollback_outputs(paths, rows, lines, ids)`: the paths, and the files with them written. -/
def writeRollbackOutputs (dir : Path) (rows : ReportRows) (lines : SerialLines) (ids : ReportIds) (fs : Files) :
    Except Exn (RollbackOutputs × Files) := do
  let outputs := rollbackOutputs dir ids
  let fs ← fs.writeText outputs.snapshot (dumps b (.dict (texts (rollbackSnapshotPayload b rows ids))) ++ [10])
  let fs ← fs.writeText outputs.transcript (rollbackTranscript b rows ids)
  let refusals ← rollbackRefusalRows b rows lines ids
  let fs ← fs.writeText outputs.refusals (dumps b refusals.1 ++ [10] ++ dumps b refusals.2 ++ [10])
  let snapshotSha ← sha fs outputs.snapshot
  let transcriptSha ← sha fs outputs.transcript
  let fs ← fs.writeText outputs.ledger
    (dumps b (.dict (texts (ledgerRecord outputs ids snapshotSha transcriptSha))) ++ [10])
  .ok (outputs, fs)

end Exasphere.Qa.Microvm

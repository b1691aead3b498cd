import Exasphere.Json.Access

/-!
# Records of the daemon (`include/xsprof/daemon.hpp`, `src/daemon/daemon.cpp`)

The event records that the daemon writes (`xsprof/daemon-event/v1`) and the action records that it reads
(`xsprof/operator-action/v1`), with their JSON forms in both directions. A record that is read starts from the
default one; a member of another type than the field gives the field's zero.
-/

namespace Exasphere.Daemon

open Exasphere.Lib Exasphere.Json

def kEventSchema : String := "xsprof/daemon-event/v1"

def kActionSchema : String := "xsprof/operator-action/v1"

/-! ## Kinds -/

inductive EventKind
  | boot
  | marker
  | verifier
  | attach
  | stateChanged
  | stageStarted
  | labRunActive
  | stageFinished
  | journalRecord
  | microvmBoot
  | vmMarker
  | bpfRegister
  | runtimeSample
  | rollback
  | rollbackCompleted
  | cleanup
  | validation
  | incident
  | refusal
  deriving DecidableEq, Repr

def eventKindName : EventKind → String
  | .boot => "boot"
  | .marker => "marker"
  | .verifier => "verifier"
  | .attach => "attach"
  | .stateChanged => "state_changed"
  | .stageStarted => "stage_started"
  | .labRunActive => "lab_run_active"
  | .stageFinished => "stage_finished"
  | .journalRecord => "journal_record"
  | .microvmBoot => "microvm_boot"
  | .vmMarker => "vm_marker"
  | .bpfRegister => "bpf_register"
  | .runtimeSample => "runtime_sample"
  | .rollback => "rollback"
  | .rollbackCompleted => "rollback_completed"
  | .cleanup => "cleanup"
  | .validation => "validation"
  | .incident => "incident"
  | .refusal => "refusal"

/-- The comparisons of `event_kind_from_name`, in order. -/
def eventKindFromName : Bytes → Option EventKind :=
  findName [("boot", .boot), ("marker", .marker), ("verifier", .verifier), ("attach", .attach),
    ("state_changed", .stateChanged), ("stage_started", .stageStarted), ("lab_run_active", .labRunActive),
    ("stage_finished", .stageFinished), ("journal_record", .journalRecord), ("microvm_boot", .microvmBoot),
    ("vm_marker", .vmMarker), ("bpf_register", .bpfRegister), ("runtime_sample", .runtimeSample),
    ("rollback", .rollback), ("rollback_completed", .rollbackCompleted), ("cleanup", .cleanup),
    ("validation", .validation), ("incident", .incident), ("refusal", .refusal)]

inductive ActionKind
  | preflight
  | runLabHostSafe
  | runLabVm
  | runLabMicrovmLive
  | verifierOnly
  | partialAttach
  | observe
  | stop
  | rollback
  | stopLabRun
  | rollbackLabRun
  | incidentDrill
  deriving DecidableEq, Repr

/-- The comparisons of `action_kind_from_name`, in order. -/
def actionKindFromName : Bytes → Option ActionKind :=
  findName [("preflight", .preflight), ("run_lab_host_safe", .runLabHostSafe), ("run_lab_vm", .runLabVm),
    ("run_lab_microvm_live", .runLabMicrovmLive), ("verifier_only", .verifierOnly),
    ("partial_attach", .partialAttach), ("observe", .observe), ("stop", .stop), ("rollback", .rollback),
    ("stop_lab_run", .stopLabRun), ("rollback_lab_run", .rollbackLabRun), ("incident_drill", .incidentDrill)]

/-! ## Records -/

structure DaemonEvent where
  kind : EventKind := .marker
  actionId : Bytes := []
  status : Bytes := []
  runId : Bytes := []
  targetId : Bytes := []
  auditId : Bytes := []
  rollbackId : Bytes := []
  reason : Bytes := []
  seq : UInt64 := 0
  deriving DecidableEq

def DaemonEvent.toJson (e : DaemonEvent) : Value :=
  Value.makeObject
    |>.set "schema" (.ofLiteral kEventSchema)
    |>.set "event" (.ofLiteral (eventKindName e.kind))
    |>.set "action_id" (.string e.actionId)
    |>.set "status" (.string e.status)
    |>.set "host_mutation" (.bool false)
    |>.set "seq" (.ofUInt64 e.seq)
    |>.setNonempty "run_id" e.runId
    |>.setNonempty "target_id" e.targetId
    |>.setNonempty "audit_id" e.auditId
    |>.setNonempty "rollback_id" e.rollbackId
    |>.setNonempty "reason" e.reason

/-- The string member `key`, or the field's old value without it. -/
def stringField (v : Value) (key : String) (old : Bytes) : Bytes := (v.find key).elim old Value.asString

/-- `event_from_json` into `out`; `none` is the result `false`. -/
def eventFromJson (v : Value) (out : DaemonEvent) : Option DaemonEvent := do
  guard v.isObject
  let schema ← v.find "schema"
  guard (schema.asString = utf8 kEventSchema)
  let event ← v.find "event"
  let kind ← eventKindFromName event.asString
  -- a member that is not `true` passes, and so does a missing one
  guard ((v.find "host_mutation").elim true (fun hm => !hm.asBool))
  return {
    kind := kind
    actionId := stringField v "action_id" out.actionId
    status := stringField v "status" out.status
    seq := (v.find "seq").elim out.seq (fun sq => sq.asInt.toUInt64)
    runId := stringField v "run_id" out.runId
    targetId := stringField v "target_id" out.targetId
    auditId := stringField v "audit_id" out.auditId
    rollbackId := stringField v "rollback_id" out.rollbackId
    reason := stringField v "reason" out.reason }

structure OperatorAction where
  kind : ActionKind := .preflight
  actionId : Bytes := []
  runId : Bytes := []
  targetId : Bytes := []
  targetCgroup : Bytes := []
  auditId : Bytes := []
  rollbackId : Bytes := []
  targetActionId : Bytes := []
  deriving DecidableEq

/-- `action_from_json` into `out`; `none` is the result `false`. -/
def actionFromJson (v : Value) (out : OperatorAction) : Option OperatorAction := do
  guard v.isObject
  let schema ← v.find "schema"
  guard (schema.asString = utf8 kActionSchema)
  let action ← v.find "action"
  let kind ← actionKindFromName action.asString
  return {
    kind := kind
    actionId := stringField v "action_id" out.actionId
    runId := stringField v "run_id" out.runId
    targetId := stringField v "target_id" out.targetId
    targetCgroup := stringField v "target_cgroup" out.targetCgroup
    auditId := stringField v "audit_id" out.auditId
    rollbackId := stringField v "rollback_id" out.rollbackId
    targetActionId := stringField v "target_action_id" out.targetActionId }

/-! ## Reading an event back -/

section Codec

variable {v : Value} {out e : DaemonEvent}

theorem eventKindFromName_eventKindName (k : EventKind) : eventKindFromName (utf8 (eventKindName k)) = some k := by
  cases k <;> decide

theorem DaemonEvent.toJson_plain (e : DaemonEvent) : e.toJson.Plain := by
  refine .setNonempty (.setNonempty (.setNonempty (.setNonempty (.setNonempty ?_))))
  refine .set (.set (.set (.set (.set (.set Value.plain_makeObject ?_) ?_) ?_) ?_) ?_) ?_
  all_goals rfl

@[simp] theorem DaemonEvent.find_seq_toJson (e : DaemonEvent) : e.toJson.find "seq" = some (.ofUInt64 e.seq) := by
  simp [DaemonEvent.toJson, Value.find_setNonempty]

/-- An event reads back from its record. -/
theorem eventFromJson_toJson (e : DaemonEvent) : eventFromJson e.toJson {} = some e := by
  unfold eventFromJson DaemonEvent.toJson stringField
  simp [Value.find_setNonempty, eventKindFromName_eventKindName, Value.asBool]

/-- What an event that was read says about its record. -/
theorem eventFromJson_eq_some (h : eventFromJson v out = some e) : v.isObject = true ∧
    (∀ hm, v.find "host_mutation" = some hm → hm.asBool = false) ∧
    e.seq = (v.find "seq").elim out.seq (fun sq => sq.asInt.toUInt64) := by
  unfold eventFromJson at h
  simp only [Option.bind_eq_bind, Option.bind_eq_some_iff, Option.guard_eq_some', Option.pure_def,
    Option.some.injEq] at h
  obtain ⟨-, hobj, schema, -, -, -, event, -, kind, -, -, hflag, rfl⟩ := h
  refine ⟨hobj, fun hm hfind => ?_, rfl⟩
  simpa [hfind] using hflag

end Codec

end Exasphere.Daemon

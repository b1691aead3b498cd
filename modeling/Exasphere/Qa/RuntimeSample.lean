import Exasphere.Lib.Lines
import Exasphere.Qa.MatrixRow

/-!
# Runtime samples (`qa/runtime_sample_*.py`)

`validateFile` is the check of a JSONL stream of samples: `validateSample` looks at one row and
`validateSchedExtSequence` at the rows together. The errors of `qa/runtime_sample_policy_abi.py` are raised again with
their texts, so its accessors are those of `qa/runtime_sample_common.py`.
-/

namespace Exasphere.Qa.RuntimeSample

open Exasphere.Lib Exasphere.Py

def sampleSchema : String := "zig-scheduler/runtime-sample/v1"

def forbiddenKeys : List String :=
  ["command_line", "cmdline", "argv", "args", "environment", "env", "secret", "token", "api_key"]

def forbiddenKeyPatterns : List (List Str) := forbiddenKeys.map (fun key => privateKeyTokens (str key))

def claimKeys : List String :=
  ["production_claim", "production_capacity_claim", "release_eligible", "release_eligible_live_proof"]

def factStatuses : List String := ["present", "missing", "unreadable", "unknown"]

def rootFields : List String :=
  ["schema", "sequence", "git_sha", "sample_source_event", "observation_source", "sched_ext_phase", "state", "ops",
    "enable_seq", "events", "events_hash", "nr_rejected", "debug_dump", "root_ops", "scheduler_events",
      "policy_counters",
    "sample_loss", "policy_abi", "cgroup_semantic_labels", "cgroup_membership_digest", "cgroup_membership_status",
    "task_ext_enabled", "teardown_state", "rollback_state", "workload", "workload_alive",
    "private_command_lines_sampled", "dsq_depth", "queue_latency", "fairness", "task_counts", "scheduler_counters",
    "sched_ext_observation", "benchmark_histograms"]

def schedStates : List String := ["disabled", "enabled", "enabling", "disabling", "unknown", "unavailable"]

def schedExtPhases : List String :=
  ["before_attach", "during_attach", "after_attach", "after_rollback", "after_scheduler_exit", "after_watchdog_disable",
    "after_forced_disable"]

/-- The phases after the scheduler is gone. -/
def detachedPhases : List String :=
  ["after_rollback", "after_scheduler_exit", "after_watchdog_disable", "after_forced_disable"]

def taskExtUnavailableValues : List String := ["", "unknown", "unavailable"]

def counters : List String := ["nr_rejected", "dispatch_failed", "fallback", "fatal"]

def dsqDepthFields : List String := ["global", "local", "shared"]

def latencyFields : List String := ["p50_us", "p95_us", "p99_us", "max_us"]

def schedulerCounterFields : List String := ["context_switches", "wakeups", "migrations"]

def fairnessStates : List String := ["ok", "watch", "starved", "unknown"]

def sha256Zero : Str := List.replicate 64 48

def unavailableStatuses : List String := ["missing", "unreadable", "unknown"]

def unavailableValues : List String := ["", "missing", "none", "null", "unavailable", "unknown"]

/-! ## Fields -/

section Fields

def missing {α : Type} (kind field : String) (context : Str) : Except Exn α :=
  fail (context ++ str " missing " ++ str kind ++ str " field: " ++ str field)

def requireString (data : Dict) (field : String) (context : Str) : Except Exn Str :=
  match data.get field with
  | .str s => if s = [] then missing "non-empty string" field context else .ok s
  | _ => missing "non-empty string" field context

def requireBool (data : Dict) (field : String) (context : Str) : Except Exn Bool :=
  match data.get field with
  | .bool x => .ok x
  | _ => missing "bool" field context

def requireInt (data : Dict) (field : String) (context : Str) : Except Exn Int :=
  match (data.get field).asInt? with
  | some i => .ok i
  | none => missing "int" field context

def requireObject (data : Dict) (field : String) (context : Str) : Except Exn Dict :=
  match data.get field with
  | .dict d => .ok d
  | _ => missing "object" field context

def optionalObject (data : Dict) (field : String) (context : Str) : Except Exn (Option Dict) :=
  match data.get field with
  | .none => .ok none
  | .dict d => .ok (some d)
  | _ => fail (context ++ str " field must be an object when present: " ++ str field)

/-- The check of an object that may be missing. -/
def whenObject (data : Dict) (field : String) (context : Str) (check : Dict → Except Exn Unit) : Except Exn Unit := do
  match ← optionalObject data field context with
  | none => .ok ()
  | some d => check d

/-- A key below a context, as the messages name it. -/
def member (context key : Str) : Str := context ++ 46 :: key

end Fields

variable (b : Builtins)

/-! ## Privacy -/

mutual

/-- `reject_private_leaks(value, context)`. -/
def rejectPrivateLeaks (context : Str) : Value → Except Exn Unit
  | .dict members => rejectPrivateMembers context members
  | .list items => rejectPrivateItems context 0 items
  | .str s => require (!privateTextContains b s) (str "privacy-unsafe text in runtime sample: " ++ context)
  | _ => .ok ()

def rejectPrivateMembers (context : Str) : Dict → Except Exn Unit
  | [] => .ok ()
  | (key, child) :: members => do
    require (!privateKeyHasPattern key forbiddenKeyPatterns)
      (str "privacy-unsafe key in runtime sample: " ++ member context key)
    require (!(isOneOf (b.casefold key) claimKeys && isTrue child))
      (str "claim-unsafe flag in runtime sample: " ++ member context key)
    rejectPrivateLeaks (member context key) child
    rejectPrivateMembers context members

def rejectPrivateItems (context : Str) (index : Nat) : List Value → Except Exn Unit
  | [] => .ok ()
  | child :: items => do
    rejectPrivateLeaks (at_ context index) child
    rejectPrivateItems context (index + 1) items

end

/-! ## Facts -/

section Facts

/-- `str(fact["value"])`. -/
def factValue (fact : Dict) : Str := (fact.get "value").toStr b

/-- The value of a fact, which is empty only where the fact is not present. -/
def isFactValue (status : Str) : Value → Bool
  | .str s => !(decide (status = str "present") && s.isEmpty)
  | _ => false

/-- `validate_fact(data, field, context)`. -/
def validateFact (data : Dict) (field : String) (context : Str) : Except Exn Dict := do
  let fact ← requireObject data field context
  let status ← requireString fact "status" (dot context field)
  require (isOneOf status factStatuses) (dot context field ++ str " has unsupported status: " ++ status)
  require (isFactValue status (fact.get "value")) (dot context field ++ str " has invalid value")
  rejectPrivateLeaks b (dot (dot context field) "value") (fact.get "value")
  .ok fact

/-- The fact is there, and is checked. -/
def checkFact (data : Dict) (field : String) (context : Str) : Except Exn Unit := do
  let _ ← validateFact b data field context
  .ok ()

/-- The facts that may be missing. -/
def checkFacts (data : Dict) (fields : List String) (context : Str) : Except Exn Unit :=
  fields.forM (fun field => checkWhen (data.has field) (checkFact b data field context))

def isPresent (fact : Dict) : Bool := (fact.get "status").eqStr b (str "present")

/-- `s.isdecimal()`. -/
def isDecimal (s : Str) : Bool := !s.isEmpty && s.all (fun c => (b.decimalValue c).isSome)

/-- `is_digest_summary(value)`. -/
def isDigestSummary (value : Str) : Bool :=
  decide (78 < value.length) && (str "sha256:").isPrefixOf value &&
    decide ((value.drop 71).take 7 = str ";bytes:") && ((value.drop 7).take 64).all isHex && isDecimal b (value.drop 78)

end Facts

/-! ## Scheduler state -/

section SchedExt

def validateNonnegativeFactValue (fact : Dict) (field : String) (context : Str) : Except Exn Unit :=
  let value := strip isSpace (factValue b fact)
  require (decide (value = str "unavailable") || isDecimal b value)
    (dot context field ++ str " must be a nonnegative integer or unavailable")

def numericFactValue (row : Dict) (field : String) : Except Exn (Option Nat) := do
  let fact ← requireObject row field (str "runtime sample")
  let value := strip isSpace (factValue b fact)
  if isDecimal b value then do
    let n ← MatrixRun.intOfDecimal b value
    .ok (some n)
  else .ok none

def validateSchedExtFacts (row : Dict) (context : Str) : Except Exn Unit := do
  let state ← validateFact b row "state" context
  let stateValue := strip isSpace (factValue b state)
  require (!isPresent b state || isOneOf stateValue schedStates)
    (dot context "state" ++ str " has unsupported sched_ext state: " ++ stateValue)
  checkFact b row "ops" context
  let enableSeq ← validateFact b row "enable_seq" context
  validateNonnegativeFactValue b enableSeq "enable_seq" context
  checkFact b row "events" context
  let nrRejected ← validateFact b row "nr_rejected" context
  validateNonnegativeFactValue b nrRejected "nr_rejected" context
  let debugDump ← validateFact b row "debug_dump" context
  require (!isPresent b debugDump || isDigestSummary b (factValue b debugDump))
    (dot context "debug_dump" ++ str " must be a redacted digest summary")
  checkFacts b row ["root_ops", "scheduler_events"] context

def validateTaskExtEnabled (row : Dict) (context : Str) : Except Exn Unit :=
  whenObject row "task_ext_enabled" context (fun _ => do
    let fact ← validateFact b row "task_ext_enabled" context
    let value := factValue b fact
    if isPresent b fact then
      require (isOneOf value ["true", "false"])
        (dot context "task_ext_enabled" ++ str " present evidence must be true or false")
    else
      require (isOneOf value taskExtUnavailableValues)
        (dot context "task_ext_enabled" ++ str " unavailable evidence must be explicit"))

def validateTeardownRollback (row : Dict) (context : Str) : Except Exn Unit :=
  checkFacts b row ["teardown_state", "rollback_state"] context

def validateSchedExtPhase (row : Dict) (context : Str) : Except Exn Unit :=
  checkWhen (row.has "sched_ext_phase") (do
    let phase ← requireString row "sched_ext_phase" context
    rejectPrivateLeaks b (dot context "sched_ext_phase") (.str phase)
    require (isOneOf phase schedExtPhases) (dot context "sched_ext_phase" ++ str " has unsupported value"))

end SchedExt

/-! ## Policy ABI -/

section PolicyAbi

def policyVersion : String := "sched_ext_cgroup_abi_v3"

def abiLabel : String := "zigsched-bpf-abi-v3"

def semantics : List (String × String) :=
  [("cpu.weight", "callback-observed"), ("cgroup.lifecycle", "observed"), ("cgroup.move", "observed"),
    ("cpuset.cpus", "observed-only"), ("cpuset.cpus.effective", "observed-only"), ("cpu.pressure", "observed-only"),
    ("cpu.max", "deferred"), ("uclamp", "deferred"), ("cgroup_set_idle", "refused")]

def cgroupPolicyFields : List String :=
  ["last_weight", "weight_generation", "move_generation", "callback_observed_knobs", "observed_knobs", "deferred_knobs"]

def cgroupCallbackStats : List String :=
  ["cgroup_init_calls", "cgroup_exit_calls", "cgroup_move_calls", "cgroup_set_weight_calls", "cgroup_weight_observed"]

def dsqCoherenceFields : List String :=
  ["fifo_insert_dispatch_coherent", "vtime_insert_dispatch_coherent", "dispatch_empty_accounted"]

/-- The field is a text, and this one. -/
def requireWord (data : Dict) (field word : String) (context : Str) : Except Exn Unit := do
  let value ← requireString data field context
  require (decide (value = str word)) (dot context field ++ str " must be " ++ str word)

/-- The field is a number, and this one. -/
def requireNumber (data : Dict) (field : String) (n : Nat) (context : Str) : Except Exn Unit := do
  let value ← requireInt data field context
  require (decide (value = n)) (dot context field ++ str " must be " ++ strNat n)

/-- The field is a `bool`, and this one. -/
def requireFlag (data : Dict) (field : String) (flag : Bool) (context : Str) : Except Exn Unit := do
  let value ← requireBool data field context
  require (decide (value = flag)) (dot context field ++ str " must be " ++ str (if flag then "true" else "false"))

def validateNonnegativeFields (data : Dict) (fields : List String) (context : Str) : Except Exn Unit :=
  fields.forM (fun field => do
    let value ← requireInt data field context
    require (decide (0 ≤ value)) (dot context field ++ str " must be nonnegative"))

def requireStringList (data : Dict) (field : String) (context : Str) : Except Exn (List Str) :=
  match data.get field with
  | .list items =>
    let texts := items.filterMap (fun item =>
      match item with
      | .str s => if s = [] then none else some s
      | _ => none)
    if texts.length = items.length then .ok texts else missing "string list" field context
  | _ => missing "string list" field context

def requireStatus (data : Dict) (context : Str) : Except Exn Str := do
  let status ← requireString data "status" context
  require (isOneOf status ["present", "unavailable"]) (dot context "status" ++ str " must be present or unavailable")
  checkWhen (decide (status = str "unavailable")) (do
    let _ ← requireString data "reason" context
    .ok ())
  .ok status

/-- The check of evidence that is there. -/
def whenPresent (evidence : Dict) (context : Str) (check : Except Exn Unit) : Except Exn Unit := do
  let status ← requireStatus evidence context
  checkWhen (decide (status ≠ str "unavailable")) check

/-- The texts of a list, among which are the given ones. -/
def requireIncludes (evidence : Dict) (field : String) (knobs : List String) (context : Str) (message : String) :
    Except Exn Unit := do
  let texts ← requireStringList evidence field context
  require (knobs.all (fun knob => texts.contains (str knob))) (dot context field ++ str message)

def validateCgroupPolicyMap (evidence : Dict) (context : Str) : Except Exn Unit :=
  whenPresent evidence context (do
    requireWord evidence "map_name" "zigsched_cgroup_policy" context
    requireNumber evidence "max_entries" 1 context
    requireWord evidence "key" "0" context
    let fields ← requireStringList evidence "fields" context
    require (decide (fields = cgroupPolicyFields.map str))
      (dot context "fields" ++ str " must match ABI-v3 cgroup policy layout")
    validateNonnegativeFields evidence ["last_weight", "weight_generation", "move_generation"] context
    requireIncludes evidence "callback_observed_knobs" ["cpu.weight"] context " must include cpu.weight"
    requireIncludes evidence "observed_knobs" ["cpuset.cpus", "cpuset.cpus.effective", "cpu.pressure"] context
      " must include observed-only cgroup knobs"
    requireIncludes evidence "deferred_knobs" ["cpu.max", "uclamp"] context " must keep cpu.max and uclamp deferred")

/-- `cpu_weight_callback_observed` is read only when weights were set. -/
def requireWeightObserved (evidence : Dict) (calls : Int) (context : Str) : Except Exn Unit :=
  checkWhen (decide (0 < calls)) (do
    let observed ← requireBool evidence "cpu_weight_callback_observed" context
    require observed
      (dot context "cpu_weight_callback_observed" ++ str " must be true when set-weight callbacks fired"))

def validateCgroupCallbackStats (evidence : Dict) (context : Str) : Except Exn Unit :=
  whenPresent evidence context (do
    validateNonnegativeFields evidence cgroupCallbackStats context
    let calls ← requireInt evidence "cgroup_set_weight_calls" context
    requireWeightObserved evidence calls context
    let observed ← requireInt evidence "cgroup_weight_observed" context
    require (decide (observed ≤ calls))
      (dot context "cgroup_weight_observed" ++ str " cannot exceed cgroup_set_weight_calls"))

def validateDsqCounterCoherence (evidence : Dict) (context : Str) : Except Exn Unit :=
  whenPresent evidence context (do
    requireWord evidence "counter_source" "zigsched_stats+zigsched_events" context
    dsqCoherenceFields.forM (fun field => requireFlag evidence field true context))

def validateV3CgroupEvidence (abi : Dict) (context : Str) : Except Exn Unit := do
  let policyMap ← requireObject abi "cgroup_policy_map" context
  validateCgroupPolicyMap policyMap (dot context "cgroup_policy_map")
  let callbackStats ← requireObject abi "cgroup_callback_stats" context
  validateCgroupCallbackStats callbackStats (dot context "cgroup_callback_stats")
  let coherence ← requireObject abi "dsq_counter_coherence" context
  validateDsqCounterCoherence coherence (dot context "dsq_counter_coherence")

/-- The labels of the knobs are those of the contract, and no others. -/
def requireSemantics (labels : Dict) (context : Str) : Except Exn Unit := do
  let knobs := semantics.map (fun e => str e.1)
  require ((labels.map Prod.fst).all knobs.contains && knobs.all (labels.map Prod.fst).contains)
    (context ++ str " keys do not match ABI-v3 contract")
  semantics.forM (fun (knob, expected) =>
    require ((labels.get knob).eqStr b (str expected)) (dot context knob ++ str " must be " ++ str expected))

def validateV3PolicyAbi (abi : Dict) (context : Str) : Except Exn Unit := do
  requireWord abi "policy_version" policyVersion context
  requireNumber abi "abi_version" 3 context
  requireWord abi "abi_label" abiLabel context
  requireFlag abi "vm_only" true context
  requireFlag abi "host_mutation" false context
  requireFlag abi "production_claim" false context
  requireFlag abi "release_eligible" false context
  let labels ← requireObject abi "cgroup_semantics" context
  requireSemantics b labels (dot context "cgroup_semantics")
  validateV3CgroupEvidence abi context

def validatePolicyAbiContract (abi : Dict) (context : Str) : Except Exn Unit := do
  ["policy_name", "policy_version", "struct_ops", "object_sha256"].forM (fun field => do
    let _ ← requireString abi field context
    .ok ())
  let _ ← requireBool abi "btf_required" context
  checkWhen (!isNone (abi.get "abi_version")) (validateV3PolicyAbi b abi context)

def validatePolicyAbi (row : Dict) (context : Str) : Except Exn Unit := do
  let abi ← requireObject row "policy_abi" context
  validatePolicyAbiContract b abi (dot context "policy_abi")
  rejectPrivateLeaks b (dot context "policy_abi") (.dict abi)

def validateCgroupSemanticLabels (row : Dict) (context : Str) : Except Exn Unit :=
  whenObject row "cgroup_semantic_labels" context (fun labels =>
    requireSemantics b labels (dot context "cgroup_semantic_labels"))

end PolicyAbi

/-! ## Telemetry -/

section Telemetry

/-- `is_unavailable_object(data)`. -/
def isUnavailableObject (data : Dict) : Bool :=
  match data.get "status", data.get "value" with
  | .str status, .str value => isOneOf status unavailableStatuses && isOneOf (b.casefold value) unavailableValues
  | _, _ => false

/-- The check of an object that states a value. -/
def unlessUnavailable (data : Dict) (check : Except Exn Unit) : Except Exn Unit :=
  checkWhen (!isUnavailableObject b data) check

def validateMetricObject (data : Dict) (fields : List String) (context : Str) : Except Exn Unit :=
  unlessUnavailable b data (validateNonnegativeFields data fields context)

def validateOptionalCounterSets (row : Dict) (context : Str) : Except Exn Unit := do
  whenObject row "policy_counters" context (fun set =>
    validateMetricObject b set counters (dot context "policy_counters"))
  whenObject row "sample_loss" context (fun loss => unlessUnavailable b loss (do
    validateNonnegativeFields loss ["lost_samples", "backpressure_dropped"] (dot context "sample_loss")
    validateNonnegativeFields loss (["ring_buffer_overruns", "reader_lag_events"].filter loss.has)
      (dot context "sample_loss")))

/-- One entry of a map of counters. -/
def validateCounter (context : Str) (entry : Str × Value) : Except Exn Unit := do
  let (key, value) := entry
  require (!(key.head? == some 47 || contains key (str "..") || key.isEmpty))
    (member context key ++ str " is not a stable redacted key")
  rejectPrivateLeaks b (member context key) (.str key)
  require (value.asInt?.any (fun i => decide (0 ≤ i))) (member context key ++ str " must be a nonnegative integer")

def validateCounterMap (data : Dict) (context : Str) : Except Exn Unit := do
  require (!data.isEmpty) (context ++ str " must not be empty")
  data.forM (validateCounter b context)

def validateDigest (value context : Str) : Except Exn Unit :=
  require (decide (value.length = 64 ∧ value ≠ sha256Zero) && value.all isHex)
    (context ++ str " must be a lowercase nonzero sha256 digest")

def validateBenchmarkRef (context : Str) (entry : Value × Nat) : Except Exn Unit :=
  let refContext := at_ (dot context "benchmark_histograms") entry.2
  match entry.1 with
  | .dict item => do
    let path ← requireString item "record_path" refContext
    require (!(path.head? == some 47 || (Path.parse path).traverses))
      (dot refContext "record_path" ++ str " must be repo-relative")
    let digest ← requireString item "record_sha256" refContext
    validateDigest digest (dot refContext "record_sha256")
    let _ ← requireString item "histogram_id" refContext
    requireFlag item "record_only" true refContext
  | _ => fail (refContext ++ str " must be an object")

def validateBenchmarkRefs (row : Dict) (context : Str) : Except Exn Unit :=
  match row.get "benchmark_histograms" with
  | .none => .ok ()
  | .list refs => refs.zipIdx.forM (validateBenchmarkRef context)
  | _ => fail (dot context "benchmark_histograms" ++ str " must be a list")

def validateRootFields (row : Dict) (context : Str) : Except Exn Unit :=
  (row.map Prod.fst).forM (fun field =>
    require (isOneOf field rootFields) (context ++ str " has unsupported runtime sample field: " ++ field))

def validateFairness (fairness : Dict) (context : Str) : Except Exn Unit :=
  unlessUnavailable b fairness (do
    let state ← requireString fairness "state" context
    require (isOneOf state fairnessStates) (dot context "state" ++ str " has unsupported value")
    validateNonnegativeFields fairness ["starved_tasks", "max_wait_us"] context)

def validateTaskCounts (taskCounts : Dict) (context : Str) : Except Exn Unit :=
  ["by_cgroup_digest", "by_class"].forM (fun field => do
    let counts ← requireObject taskCounts field context
    validateCounterMap b counts (dot context field))

def validateObservation (observation : Dict) (context : Str) : Except Exn Unit := do
  let dump ← validateFact b observation "dump" context
  require (!isPresent b dump || isDigestSummary b (factValue b dump))
    (dot context "dump" ++ str " must be a redacted digest summary")
  let tracepoints ← requireObject observation "tracepoints" context
  validateCounterMap b tracepoints (dot context "tracepoints")

def validateSchedulerTelemetry (row : Dict) (context : Str) : Except Exn Unit := do
  [("dsq_depth", dsqDepthFields), ("queue_latency", latencyFields), ("scheduler_counters", schedulerCounterFields)].forM
    (fun (field, fields) =>
      whenObject row field context (fun set => validateMetricObject b set fields (dot context field)))
  whenObject row "fairness" context (fun fairness => validateFairness b fairness (dot context "fairness"))
  whenObject row "task_counts" context (fun taskCounts => validateTaskCounts b taskCounts (dot context "task_counts"))
  whenObject row "sched_ext_observation" context (fun observation =>
    validateObservation b observation (dot context "sched_ext_observation"))
  validateBenchmarkRefs row context

end Telemetry

/-! ## Samples -/

section Samples

def sample (index : Nat) : Str := at_ (str "sample") index

/-- `validate_sample(row, index)`. -/
def validateSample (row : Dict) (index : Nat) : Except Exn Unit := do
  let context := sample index
  rejectPrivateLeaks b context (.dict row)
  validateRootFields row context
  let schema ← requireString row "schema" context
  require (decide (schema = str sampleSchema)) (context ++ str " has unsupported schema")
  let _ ← requireInt row "sequence" context
  validateSchedExtFacts b row context
  validateSchedExtPhase b row context
  let _ ← requireString row "events_hash" context
  let digest ← requireString row "cgroup_membership_digest" context
  validateDigest digest (dot context "cgroup_membership_digest")
  checkFacts b row ["cgroup_membership_status", "workload"] context
  let _ ← requireBool row "workload_alive" context
  let sampled ← requireBool row "private_command_lines_sampled" context
  require (!sampled) (context ++ str " sampled private command lines")
  validateOptionalCounterSets b row context
  validateTaskExtEnabled b row context
  validateCgroupSemanticLabels b row context
  validateTeardownRollback b row context
  validateSchedulerTelemetry b row context
  validatePolicyAbi b row context

/-- `last_sequence` and `last_enable_seq`. -/
structure Last where
  sequence : Option Int
  enableSeq : Option Nat

/-- `str(fact.get("value", ""))` of a field that may be no object. -/
def valueText (v : Value) : Str :=
  match v with
  | .dict fact => if Dict.has fact "value" then (Dict.get fact "value").toStr b else []
  | _ => []

/-- The next number is above the last. -/
def nextSequence (last : Option Int) (value : Value) (context : Str) : Except Exn (Option Int) :=
  match value.asInt? with
  | some sequence => do
    require (last.all (fun l => decide (l < sequence))) (dot context "sequence" ++ str " must increase monotonically")
    .ok (some sequence)
  | none => .ok last

/-- The next number is not below the last. -/
def nextEnableSeq (last : Option Nat) (value : Option Nat) (context : Str) : Except Exn (Option Nat) :=
  match value with
  | some enableSeq => do
    require (last.all (fun l => decide (l ≤ enableSeq)))
      (dot context "enable_seq" ++ str " is stale relative to earlier sched_ext state")
    .ok (some enableSeq)
  | none => .ok last

/-- The state and the root ops of a row against its phase. -/
def validatePhaseState (phase : Value) (stateValue opsValue context : Str) : Except Exn Unit := do
  require (!(phase.eqStr b (str "before_attach") && decide (stateValue = str "enabled")))
    (dot context "sched_ext_phase" ++ str " before_attach cannot report enabled state")
  checkWhen (detachedPhases.any (fun name => phase.eqStr b (str name))) (do
    require (isOneOf stateValue ["disabled", "unknown", "unavailable"])
      (member context (phase.toStr b) ++ str " must report disabled/unknown/unavailable state")
    require (!(decide (stateValue = str "disabled") && !isOneOf opsValue ["none", "unavailable", "unknown"]))
      (member context (phase.toStr b) ++ str " disabled state must not report live root ops"))

/-- One turn of `validate_sched_ext_sequence`. -/
def validateSchedExtRow (last : Last) (entry : Dict × Nat) : Except Exn Last := do
  let (row, index) := entry
  let context := sample index
  let sequence ← nextSequence last.sequence (row.get "sequence") context
  let value ← numericFactValue b row "enable_seq"
  let enableSeq ← nextEnableSeq last.enableSeq value context
  validatePhaseState b (row.get "sched_ext_phase") (valueText b (row.get "state")) (valueText b (row.get "ops")) context
  .ok ⟨sequence, enableSeq⟩

/-- `validate_sched_ext_sequence(rows)`. -/
def validateSchedExtSequence (rows : List Dict) : Except Exn Unit := do
  let _ ← rows.zipIdx.foldlM (validateSchedExtRow b) ⟨none, none⟩
  .ok ()

/-- The lines from a number on; a blank line holds no row. -/
def loadLines (index : Nat) : List Str → Except Exn (List Dict)
  | [] => .ok []
  | line :: lines =>
    if isBlank line then loadLines (index + 1) lines
    else
      match loads line with
      | .ok (.dict row) => do
        let rows ← loadLines (index + 1) lines
        .ok (row :: rows)
      | .ok _ => fail (str "line " ++ strNat index ++ str " must contain a JSON object")
      | .error .jsonDecodeError => fail (str "invalid JSON on line " ++ strNat index)
      | .error e => .error e

def readSamples (fs : Files) (path : Path) : Except Exn Str :=
  match fs.readText path with
  | .error .fileNotFound => fail (str "missing JSONL file: " ++ path.asPosix)
  | result => result

/-- `load_jsonl(path)`. -/
def loadJsonl (fs : Files) (path : Path) : Except Exn (List Dict) := do
  let s ← readSamples fs path
  let rows ← loadLines 1 (splitlines s)
  require (!rows.isEmpty) (str "runtime sample JSONL is empty")
  .ok rows

/-- `validate_file(path)`. -/
def validateFile (fs : Files) (path : Path) : Except Exn Unit := do
  let rows ← loadJsonl fs path
  rows.zipIdx.forM (fun (row, index) => validateSample b row index)
  validateSchedExtSequence b rows

end Samples

end Exasphere.Qa.RuntimeSample

import Exasphere.Py.JsonPath
import Exasphere.Qa.DaemonEvents

/-!
# The freeze of required fields (`qa/schema_compatibility_schema_rules.py`)

`validateRequiredFreeze` compares the `required` lists of a schema, at all depths, with those that the rules freeze for
its name: the paths as a set, and at each path the fields as a set.
-/

namespace Exasphere.Qa.SchemaCompatibility

open Exasphere.Lib Exasphere.Py

/-! ## Rules -/

/-- The schema's name, the path of a `required` list and its fields. -/
abbrev RequiredRule := String × List String × List String

def runnerCleanlinessRequiredRules : List RequiredRule :=
  [("runner-cleanliness-proof.v1.schema.json", ["required"], ["schema", "proof_outcome", "run_url",
      "runner_identity", "cleanliness_mode", "no_reuse_evidence", "removal_receipt", "protected_review",
      "runner_substrate", "host_mutation", "release_eligible", "production_capacity_claim"]),
    ("runner-cleanliness-proof.v1.schema.json", ["properties", "runner_identity", "required"], ["name", "group",
      "labels"]),
    ("runner-cleanliness-proof.v1.schema.json", ["properties", "cleanliness_mode", "required"], ["kind"]),
    ("runner-cleanliness-proof.v1.schema.json", ["properties", "no_reuse_evidence", "required"], ["status",
      "previous_runner_id", "current_runner_id", "evidence"]),
    ("runner-cleanliness-proof.v1.schema.json", ["properties", "removal_receipt", "required"], ["status"]),
    ("runner-cleanliness-proof.v1.schema.json", ["definitions", "artifact_ref", "required"], ["path", "sha256",
      "schema_role"])]

def frozenRequiredRules : List RequiredRule :=
  [("benchmark-output.v1.schema.json", ["required"], ["schema", "status", "tool", "command_family", "record_only",
      "output_path", "output_sha256", "vm_evidence", "parser_provenance", "metrics", "units", "sample_count",
      "run_count", "host_mutation", "release_eligible", "production_capacity_claim", "hard_thresholds_enforced",
      "threshold_status", "privacy_sanitized"]),
    ("benchmark-output.v1.schema.json", ["properties", "parser_provenance", "required"], ["parser",
      "parser_version", "parser_status"]),
    ("daemon-event.v1.schema.json", ["required"], ["schema", "event", "status", "host_mutation"]),
    ("evidence-manifest.v1.schema.json", ["required"], ["schema", "outcome", "audit_id", "rollback_id", "vm_marker",
      "supported_tuple", "bpf_metadata_or_skip", "matrix_manifest", "daemon_events", "runner_substrate",
      "runner_cleanliness", "artifacts", "benchmark_provenance", "privacy_scan", "attestation", "required_sources",
      "host_mutation", "release_eligible", "production_capacity_claim"]),
    ("evidence-manifest.v1.schema.json", ["properties", "vm_marker", "required"], ["path", "present", "checked_by"]),
    ("evidence-manifest.v1.schema.json", ["properties", "benchmark_provenance", "oneOf", "1", "required"],
      ["status", "reason", "applies_to_outcomes"]),
    ("evidence-manifest.v1.schema.json", ["properties", "privacy_scan", "required"], ["status",
      "private_fields_found", "artifact_paths"]),
    ("evidence-manifest.v1.schema.json", ["properties", "attestation", "required"], ["status", "workflow_uses",
      "verify_command", "retention_days"]),
    ("evidence-manifest.v1.schema.json", ["$defs", "artifactRef", "required"], ["path", "sha256", "schema_role"]),
    ("lab-evidence.v1.schema.json", ["required"], ["schema", "evidence_mode", "vm_marker_present", "vm_marker_path",
      "target_allowlisted", "audit_id", "rollback_id", "host_mutation", "mutation_evidence"]),
    ("lab-evidence.v1.schema.json", ["properties", "mutation_evidence", "required"], ["cgroup.weight", "cpu.max",
      "uclamp", "topology.offline_cpu"]),
    ("lab-evidence.v1.schema.json", ["$defs", "mutation", "required"], ["target", "pre_state", "post_state",
      "rollback_proof", "cleanup_proof"]),
    ("matrix-run.v1.schema.json", ["required"], ["schema", "matrix_run_id", "scenario_id", "outcome",
      "evidence_mode", "kernel_tuple", "supported_tuple_status", "vm_marker", "bpf_abi_version", "policy",
      "workload", "action_id", "audit_id", "rollback_id", "pre_scheduler_state", "post_scheduler_state",
      "pre_cgroup_state", "post_cgroup_state", "runtime_sample_path", "daemon_event_path", "incident_path",
      "rollback_proof_path", "cleanup_proof_path", "host_refusal_proof_path", "privacy_scan", "git",
      "release_eligible", "host_mutation"]),
    ("matrix-run.v1.schema.json", ["properties", "kernel_tuple", "required"], ["kernel_release", "arch", "btf",
      "kvm", "sched_ext"]),
    ("matrix-run.v1.schema.json", ["properties", "vm_marker", "required"], ["required", "present", "path",
      "checked_by"]),
    ("matrix-run.v1.schema.json", ["properties", "policy", "required"], ["name", "object_path", "object_sha256",
      "source_path", "source_sha256"]),
    ("matrix-run.v1.schema.json", ["properties", "workload", "required"], ["name", "spec_path", "spec_sha256"]),
    ("matrix-run.v1.schema.json", ["properties", "post_scheduler_state", "required"], ["sched_ext", "ops"]),
    ("matrix-run.v1.schema.json", ["properties", "pre_scheduler_state", "required"], ["sched_ext", "ops"]),
    ("matrix-run.v1.schema.json", ["properties", "privacy_scan", "required"], ["status", "private_fields_found",
      "report_path"]),
    ("matrix-run.v1.schema.json", ["properties", "git", "required"], ["expected_sha", "actual_sha", "status",
      "dirty"]),
    ("operator-action.v1.schema.json", ["required"], ["action"]),
    ("operator-action.v1.schema.json", ["allOf", "0", "if", "required"], ["action"]),
    ("operator-action.v1.schema.json", ["allOf", "0", "then", "required"], ["action_id", "target_id", "audit_id",
      "rollback_id"]),
    ("operator-action.v1.schema.json", ["allOf", "1", "if", "required"], ["action"]),
    ("operator-action.v1.schema.json", ["allOf", "1", "then", "required"], ["audit_id", "rollback_id"]),
    ("perf-calibration-evidence.v1.schema.json", ["required"], ["schema", "status", "evidence_mode",
      "source_bundle", "runtime_samples", "sample_count", "threshold_status", "hard_thresholds_enforced",
      "production_capacity_claim", "release_eligible", "host_mutation"]),
    ("protected-environment-review.v1.schema.json", ["required"], ["schema", "run_id", "run_url", "head_sha",
      "environment_name", "environment_id", "reviewer_status", "reviewer_identity", "reviewer_id", "comment",
      "review_history_api_url", "collected_at", "host_mutation", "release_eligible", "production_capacity_claim"]),
    ("rollback-result.v1.schema.json", ["required"], ["schema", "rollback_id", "result", "idempotent",
      "host_mutation"]),
    ("runner-substrate-proof.v1.schema.json", ["required"], ["schema", "proof_outcome", "runner",
      "protected_environment", "protected_review", "qemu", "dev_kvm", "accel_mode", "kernel_tuple", "bpf_metadata",
      "attestation", "unavailable_reasons", "host_mutation", "release_eligible", "production_capacity_claim"]),
    ("runner-substrate-proof.v1.schema.json", ["properties", "runner", "required"], ["class", "labels", "os",
      "arch"]),
    ("runner-substrate-proof.v1.schema.json", ["properties", "protected_environment", "required"], ["name",
      "protected", "required_reviewers", "reviewer_status", "run_url"]),
    ("runner-substrate-proof.v1.schema.json", ["properties", "kernel_tuple", "required"], ["supported_tuple",
      "release", "arch", "config_sha256", "btf_available", "sched_ext_available"]),
    ("runner-substrate-proof.v1.schema.json", ["properties", "attestation", "required"], ["capability", "status",
      "workflow_uses", "verify_command"]),
    ("runner-substrate-proof.v1.schema.json", ["$defs", "artifactRef", "required"], ["path", "sha256",
      "schema_role"]),
    ("runner-substrate-proof.v1.schema.json", ["$defs", "protectedReviewRef", "required"], ["path", "sha256",
      "schema_role"]),
    ("runner-substrate-proof.v1.schema.json", ["$defs", "statusPath", "required"], ["path", "status"]),
    ("runner-substrate-proof.v1.schema.json", ["allOf", "0", "if", "required"], ["proof_outcome"]),
    ("runner-substrate-proof.v1.schema.json", ["allOf", "0", "then", "properties", "protected_environment",
      "required"], ["reviewer_identity"]),
    ("runner-substrate-proof.v1.schema.json", ["allOf", "0", "then", "properties", "qemu", "required"], ["version"]),
    ("runner-substrate-proof.v1.schema.json", ["allOf", "0", "then", "properties", "runner", "required"], ["group",
      "name"]),
    ("runtime-sample.v1.schema.json", ["required"], ["schema", "sequence", "state", "ops", "enable_seq", "events",
      "events_hash", "nr_rejected", "debug_dump", "policy_abi", "cgroup_membership_digest", "workload_alive",
      "private_command_lines_sampled"]),
    ("runtime-sample.v1.schema.json", ["$defs", "fact", "required"], ["status", "value"]),
    ("runtime-sample.v1.schema.json", ["$defs", "digest_fact", "required"], ["status", "value"]),
    ("runtime-sample.v1.schema.json", ["$defs", "policy_counters", "oneOf", "0", "required"], ["nr_rejected",
      "dispatch_failed", "fallback", "fatal"]),
    ("runtime-sample.v1.schema.json", ["$defs", "sample_loss", "oneOf", "0", "required"], ["lost_samples",
      "backpressure_dropped"]),
    ("runtime-sample.v1.schema.json", ["$defs", "policy_abi", "required"], ["policy_name", "policy_version",
      "struct_ops", "object_sha256", "btf_required"]),
    ("runtime-sample.v1.schema.json", ["$defs", "cgroup_policy_semantics", "required"], ["cpu.weight",
      "cgroup.lifecycle", "cgroup.move", "cpuset.cpus", "cpuset.cpus.effective", "cpu.pressure", "cpu.max",
      "uclamp", "cgroup_set_idle"]),
    ("runtime-sample.v1.schema.json", ["$defs", "dsq_depth", "oneOf", "0", "required"], ["global", "local",
      "shared"]),
    ("runtime-sample.v1.schema.json", ["$defs", "queue_latency", "oneOf", "0", "required"], ["p50_us", "p95_us",
      "p99_us", "max_us"]),
    ("runtime-sample.v1.schema.json", ["$defs", "fairness", "oneOf", "0", "required"], ["state", "starved_tasks",
      "max_wait_us"]),
    ("runtime-sample.v1.schema.json", ["$defs", "task_counts", "required"], ["by_cgroup_digest", "by_class"]),
    ("runtime-sample.v1.schema.json", ["$defs", "scheduler_counters", "oneOf", "0", "required"],
      ["context_switches", "wakeups", "migrations"]),
    ("runtime-sample.v1.schema.json", ["$defs", "sched_ext_observation", "required"], ["dump", "tracepoints"]),
    ("runtime-sample.v1.schema.json", ["$defs", "benchmark_histogram_ref", "required"], ["record_path",
      "record_sha256", "histogram_id", "record_only"]),
    ("runtime-sample.v1.schema.json", ["$defs", "unavailable_fact", "required"], ["status", "value"]),
    ("runtime-sample.v1.schema.json", ["$defs", "task_ext_enabled_fact", "required"], ["status", "value"])] ++
    runnerCleanlinessRequiredRules

/-! ## Schemas -/

/-- A schema as it is loaded. -/
structure JsonObject where
  members : Dict
  distinct : (Value.dict members).Distinct

theorem parseJsonValue_distinct (b : Builtins) (s context : Str) :
    Yields Value.Distinct (DaemonEvents.parseJsonValue b s context) := by
  unfold DaemonEvents.parseJsonValue
  dsimp only
  split
  · exact .error _
  · refine loadsWith_distinct ?_ s
    intro c v h
    cases c with
    | float name => cases h
    | none | bool | int | str | list | dict => exact (Except.ok.inj h).symm

/-- `parse_json_object(text, context)` of `qa/frontend_contract_pack_types.py`. -/
def parseJsonObject (b : Builtins) (s context : Str) : Except Exn JsonObject :=
  match h : DaemonEvents.parseJsonValue b s context with
  | .ok (.dict members) => .ok ⟨members, parseJsonValue_distinct b s context _ h⟩
  | .ok _ => fail (context ++ str " is not an object")
  | .error e => .error e

/-! ## Required fields -/

def stringItem (context : Str) (item : Value) : Except Exn Str :=
  match item with
  | .str s => .ok s
  | _ => fail (context ++ str " contains a non-string value")

/-- `string_list(value, context)`. -/
def stringList (value : Value) (context : Str) : Except Exn (List Str) :=
  match value with
  | .list items => items.mapM (stringItem context)
  | _ => fail (context ++ str " must be a string list")

/-- A path as the messages have it. -/
def dotted (path : List Str) : Str := join (str ".") path

/-- The `required` list of an object itself. -/
def ownRequired (members : Dict) (path : List Str) : Except Exn (List (List Str × List Str)) :=
  match Dict.get members "required" with
  | .list items => do
    let fields ← stringList (.list items) (dotted (path ++ [str "required"]))
    .ok [(path ++ [str "required"], fields)]
  | _ => .ok []

mutual

/-- `collect_required_paths(value, path)`. -/
def collectRequiredPaths : Value → List Str → Except Exn (List (List Str × List Str))
  | .dict members, path => do
    let own ← ownRequired members path
    let below ← collectMembers members path
    .ok (own ++ below)
  | .list items, path => collectItems 0 items path
  | _, _ => .ok []

def collectMembers : Dict → List Str → Except Exn (List (List Str × List Str))
  | [], _ => .ok []
  | (key, child) :: members, path => do
    let found ← collectRequiredPaths child (path ++ [key])
    let rest ← collectMembers members path
    .ok (found ++ rest)

/-- The items from an index on. -/
def collectItems : Nat → List Value → List Str → Except Exn (List (List Str × List Str))
  | _, [], _ => .ok []
  | index, child :: items, path => do
    let found ← collectRequiredPaths child (path ++ [strNat index])
    let rest ← collectItems (index + 1) items path
    .ok (found ++ rest)

end

/-- A `dict` from paths to sets of fields. -/
abbrev FieldSets := List (List Str × Finset Str)

def fieldSets (rules : List (List Str × List Str)) : FieldSets := assignAll (rules.map (fun e => (e.1, e.2.toFinset)))

/-- The rules of one schema. -/
def rulesFor (name : Str) : List (List Str × List Str) :=
  (frozenRequiredRules.filter (fun rule => decide (str rule.1 = name))).map
    (fun rule => (rule.2.1.map str, rule.2.2.map str))

/-- `expected_required_for(name)`. -/
def expectedRequiredFor (name : Str) : FieldSets := fieldSets (rulesFor name)

/-- The keys of one `dict` that the other lacks. -/
def missingFrom (sets others : FieldSets) : List (List Str) :=
  (sets.map Prod.fst).filter (fun path => (findKey path others).isNone)

/-- `validate_required_freeze(name, schema)`. -/
def validateRequiredFreeze (name : Str) (schema : JsonObject) : Except Exn Unit := do
  let found ← collectRequiredPaths (.dict schema.members) []
  let actual := fieldSets found
  let expected := expectedRequiredFor name
  checkWhen (!sameEntries actual expected) (do
    let changed := sorted ((missingFrom actual expected ++ missingFrom expected actual).map dotted)
    require changed.isEmpty (name ++ str " required locations changed: " ++ join (str ", ") changed)
    (sortedPaths (actual.map Prod.fst)).forM (fun path =>
      require (decide (findKey path actual = findKey path expected))
        (name ++ 46 :: dotted path ++ str " required fields changed: " ++
          join (str ", ") (sortedSet ((findKey path actual).getD ∅)))))

end Exasphere.Qa.SchemaCompatibility

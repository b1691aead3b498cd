import Exasphere.Qa.MatrixManifest

/-!
# Accepted matrix manifests are sound

The loop over the rows keeps that the entries read so far have different scenarios and different artifacts, and that
each of them is sound (`Walked`). What makes a row sound is checked in two places: `validateVmMarker`, on the row by
itself, and `validateManifestVmClaim`, against the mode of the manifest and the proof file of the marker.
-/

namespace Exasphere.Qa.MatrixRun

open Exasphere.Lib Exasphere.Py

variable {b : Builtins} {peers : Peers} {fs : Files} {root : Path}

/-! ## Paths -/

/-- The value is the text of a safe path under the root. -/
def Below (root : Path) (value : Value) : Prop :=
  ∃ raw, value = .str raw ∧ Safe (.parse raw) ∧ root.parts <+: (Path.parse raw).parts

theorem requireSafePath_ok {value : Value} {context raw : Str} :
    requireSafePath value context = .ok raw ↔ value = .str raw ∧ raw ≠ [] ∧ Safe (.parse raw) := by
  simp only [requireSafePath, bind_eq_ok, text_ok, safePath_ok, Except.ok.injEq, Value.str.injEq]
  constructor
  · rintro ⟨raw', ⟨hvalue, hne⟩, p, ⟨raw'', hraw'', -, hp, hsafe⟩, rfl⟩
    subst hraw'' hp
    exact ⟨hvalue, hne, hsafe⟩
  · rintro ⟨hvalue, hne, hsafe⟩
    exact ⟨raw, ⟨hvalue, hne⟩, .parse raw, ⟨raw, rfl, hne, rfl, hsafe⟩, rfl⟩

theorem requireDescendant_ok {path : Path} {context : Str} {u : Unit} :
    requireDescendant path root context = .ok u ↔ root.parts <+: path.parts := by
  rw [requireDescendant, require_ok, Path.isUnder_iff]

theorem requireBelow_ok {value : Value} {context : Str} {p : Path} (h : requireBelow value root context = .ok p) :
    ∃ raw, value = .str raw ∧ p = .parse raw ∧ Safe p ∧ root.parts <+: p.parts := by
  simp only [requireBelow, bind_eq_ok, requireSafePath_ok, requireDescendant_ok, exists_const] at h
  obtain ⟨raw, ⟨hvalue, -, hsafe⟩, hunder, hp⟩ := h
  obtain rfl := Except.ok.inj hp
  exact ⟨raw, hvalue, rfl, hsafe, hunder⟩

theorem requireBelow_below {value : Value} {context : Str} {p : Path} (h : requireBelow value root context = .ok p) :
    Below root value := by
  obtain ⟨raw, hvalue, rfl, hsafe, hunder⟩ := requireBelow_ok h
  exact ⟨raw, hvalue, hsafe, hunder⟩

/-- The root of a manifest is its directory. -/
theorem requireManifestRoot_ok {path : Path} (h : requireManifestRoot path = .ok root) : root = path.parent := by
  simp only [requireManifestRoot, bind_eq_ok, require_ok, Bool.and_eq_true, Bool.not_eq_true', decide_eq_true_eq] at h
  obtain ⟨-, ⟨hrelative, -⟩, -, ⟨hlength, -⟩, -, -, hroot⟩ := h
  obtain rfl := Except.ok.inj hroot
  rw [Path.parts_relative hrelative] at hlength ⊢
  have hisName : ∀ n ∈ path.names.take 4, IsName n := fun n hn => path.isName n (List.mem_of_mem_take hn)
  obtain ⟨hroot, hnames⟩ := Path.ofParts_names hisName
  rw [Py.Path.ext_iff]
  constructor
  · rw [hroot]
    simp only [Path.isAbsolute, ne_eq, decide_not, Bool.not_eq_eq_eq_not, Bool.not_false,
      decide_eq_true_eq] at hrelative
    exact hrelative.symm
  · rw [hnames]
    show path.names.take 4 = path.names.dropLast
    rw [List.dropLast_eq_take, hlength]

/-! ## Rows -/

/-- The row passed inside a virtual machine, whose marker is proved by a file under the root. -/
structure Live (b : Builtins) (fs : Files) (root : Path) (row : Dict) : Prop where
  mode : row.get "evidence_mode" = .str (str "vm-live")
  marker : ∃ marker, row.get "vm_marker" = .dict marker ∧ Dict.get marker "required" = .bool true ∧
    Dict.get marker "present" = .bool true ∧
    ∃ raw proof, Dict.get marker "checked_by" = .str raw ∧ Safe (.parse raw) ∧ root.parts <+: (Path.parse raw).parts ∧
      loadJson fs (.parse raw) = .ok proof ∧ (proof.get "required").eq b (Dict.get marker "required") = true ∧
      (proof.get "present").eq b (Dict.get marker "present") = true ∧
      proof.get "evidence_mode" = row.get "evidence_mode" ∧ proof.get "host_mutation" = .bool false

/-- What an accepted manifest guarantees of a row. -/
structure RowSound (b : Builtins) (fs : Files) (root : Path) (authorized : Bool) (row : Dict) : Prop where
  daemonEvents : Below root (row.get "daemon_event_path")
  paths : ∀ field ∈ pathFields, Below root (row.get field)
  policy : ∃ policy, row.get "policy" = .dict policy ∧ Below root (Dict.get policy "object_path")
  workload : ∃ workload, row.get "workload" = .dict workload ∧ Below root (Dict.get workload "spec_path")
  privacy : ∃ scan, row.get "privacy_scan" = .dict scan ∧ Below root (Dict.get scan "report_path")
  live : authorized = false → row.get "outcome" = .str (str "PASS") → Live b fs root row
  fixture : authorized = true → row.get "evidence_mode" ≠ .str (str "vm-live") ∧
    ∃ marker, row.get "vm_marker" = .dict marker ∧ Dict.get marker "present" = .bool false

theorem objField_ok {row d : Dict} {field : String} {context : Str} :
    objField row field context = .ok d ↔ row.get field = .dict d := obj_ok

/-- The proof of a marker states what the row states. -/
theorem validateVmMarkerProof_ok {proof : Dict} {required present : Bool} {mode context : Str}
    (h : validateVmMarkerProof b proof required present mode context = .ok ()) :
    required = true ∧ present = true ∧ mode = str "vm-live" ∧ (proof.get "required").eq b (.bool required) = true ∧
      (proof.get "present").eq b (.bool present) = true ∧ proof.get "evidence_mode" = .str mode ∧
      proof.get "host_mutation" = .bool false := by
  simp only [validateVmMarkerProof, bind_eq_ok, require_ok, Value.eqStr_iff, Bool.and_eq_true, decide_eq_true_eq,
    isFalse_iff] at h
  obtain ⟨-, -, -, -, -, -, -, hrequired, -, hpresent, -, hmode, -, ⟨⟨htrue, htrue'⟩, hlive⟩, hmutation⟩ := h
  exact ⟨htrue, htrue', hlive, hrequired, hpresent, hmode, hmutation⟩

/-- The claim of a row about the virtual machine, in both kinds of manifest. -/
theorem validateManifestVmClaim_ok {row : Dict} {mode context : Str} {fixtureMode : Bool}
    (h : validateManifestVmClaim b fs row mode fixtureMode root context = .ok ()) :
    (fixtureAuthorized mode fixtureMode = false → row.get "outcome" = .str (str "PASS") → Live b fs root row) ∧
      (fixtureAuthorized mode fixtureMode = true → row.get "evidence_mode" ≠ .str (str "vm-live") ∧
        ∃ marker, row.get "vm_marker" = .dict marker ∧ Dict.get marker "present" = .bool false) := by
  simp only [validateManifestVmClaim, bind_eq_ok, objField_ok, boolField_ok, text_ok, checkWhen_ok, require_ok,
    decide_eq_true_eq] at h
  obtain ⟨marker, hmarker, required, hrequired, present, hpresent, evidenceMode, ⟨hmode, -⟩, outcome,
    ⟨houtcome, -⟩, -, -,
    -, hpass, -, hfixture, hfile⟩ := h
  constructor
  · intro hauth hrow
    have hout : outcome = str "PASS" := by simpa [houtcome] using hrow
    have hlive : evidenceMode = str "vm-live" := hpass (by simp [hout, hauth])
    have hcheck := hfile (by simp [hlive])
    simp only [validateMarkerFile, bind_eq_ok] at hcheck
    obtain ⟨p, hp, proof, hproof, hvalid⟩ := hcheck
    obtain ⟨raw, hraw, rfl, hsafe, hunder⟩ := requireBelow_ok hp
    obtain ⟨rfl, rfl, -, heqr, heqp, heqm, hmutation⟩ := validateVmMarkerProof_ok hvalid
    refine ⟨by rw [hmode, hlive], marker, hmarker, hrequired, hpresent, raw, proof, hraw, hsafe, hunder, hproof, ?_⟩
    rw [hrequired, hpresent, hmode]
    exact ⟨heqr, heqp, heqm, hmutation⟩
  · intro hauth
    have hcheck := hfixture hauth
    simp only [validateFixtureRow, bind_eq_ok, require_ok, Bool.not_eq_true', decide_eq_true_eq] at hcheck
    obtain ⟨-, rfl, -, hne, -⟩ := hcheck
    refine ⟨?_, marker, hmarker, hpresent⟩
    rw [hmode]
    simpa using hne

/-- The paths of a row stay under the root. -/
theorem validateManifestRowPaths_ok {row : Dict} {context : Str}
    (h : validateManifestRowPaths b peers fs row root context = .ok ()) :
    Below root (row.get "daemon_event_path") ∧ (∀ field ∈ pathFields, Below root (row.get field)) ∧
      (∃ policy, row.get "policy" = .dict policy ∧ Below root (Dict.get policy "object_path")) ∧
      (∃ workload, row.get "workload" = .dict workload ∧ Below root (Dict.get workload "spec_path")) ∧
      ∃ scan, row.get "privacy_scan" = .dict scan ∧ Below root (Dict.get scan "report_path") := by
  simp only [validateManifestRowPaths, bind_eq_ok, objField_ok] at h
  obtain ⟨_, hdaemon, _, -, u, hfields, policy, hpolicy, _, hobject, workload, hworkload, _, hspec, scan,
    hscan, _, hreport,
    -⟩ := h
  refine ⟨requireBelow_below hdaemon, ?_, ⟨policy, hpolicy, requireBelow_below hobject⟩,
    ⟨workload, hworkload, requireBelow_below hspec⟩, scan, hscan, requireBelow_below hreport⟩
  intro field hfield
  obtain ⟨p, hp, -⟩ := bind_eq_ok.mp (forM_eq_ok.mp hfields field hfield)
  exact requireBelow_below hp

theorem validateRowFile_sound {mode : Str} {fixtureMode : Bool} {artifactPath : Path} {row : Dict}
    (h : validateRowFile b peers fs root mode fixtureMode artifactPath row = .ok ()) :
    RowSound b fs root (fixtureAuthorized mode fixtureMode) row := by
  simp only [validateRowFile, bind_eq_ok] at h
  obtain ⟨_, -, _, hpaths, _, hclaim, -⟩ := h
  obtain ⟨hdaemon, hfields, hpolicy, hworkload, hprivacy⟩ := validateManifestRowPaths_ok hpaths
  obtain ⟨hlive, hfixture⟩ := validateManifestVmClaim_ok hclaim
  exact ⟨hdaemon, hfields, hpolicy, hworkload, hprivacy, hlive, hfixture⟩

/-! ## The loop over the rows -/

/-- A row of the manifest and the artifact it names. -/
structure Entry where
  scenarioId : Str
  artifactPath : Path
  row : Dict

/-- The entry is what the value names. -/
structure Reads (fs : Files) (root : Path) (value : Value) (e : Entry) : Prop where
  names : ∃ manifestRow raw, value = .dict manifestRow ∧ Dict.get manifestRow "scenario_id" = .str e.scenarioId ∧
    Dict.get manifestRow "artifact_path" = .str raw ∧ e.artifactPath = .parse raw
  scenario : e.row.get "scenario_id" = .str e.scenarioId
  safe : Safe e.artifactPath
  under : root.parts <+: e.artifactPath.parts
  row : loadJson fs e.artifactPath = .ok e.row

/-- What the loop keeps: the entries of the values done, and what was seen of them. -/
structure Walked (b : Builtins) (fs : Files) (root : Path) (authorized : Bool) (values : List Value) (seen : Seen)
    (entries : List Entry) : Prop where
  reads : List.Forall₂ (Reads fs root) values entries
  scenarios : ∀ e ∈ entries, e.scenarioId ∈ seen.scenarios
  artifacts : ∀ e ∈ entries, e.artifactPath.asPosix ∈ seen.artifacts
  distinctScenarios : (entries.map Entry.scenarioId).Nodup
  distinctArtifacts : (entries.map Entry.artifactPath).Nodup
  sound : ∀ e ∈ entries, RowSound b fs root authorized e.row

/-- One turn reads one entry, unlike those before it. -/
theorem validateManifestRow_ok {runId mode manifestContext : Str} {fixtureMode : Bool} {seen seen' : Seen}
    {entry : Value × Nat}
    (h : validateManifestRow b peers fs root runId mode fixtureMode manifestContext seen entry = .ok seen') :
    ∃ e : Entry, Reads fs root entry.1 e ∧ RowSound b fs root (fixtureAuthorized mode fixtureMode) e.row ∧
      e.scenarioId ∉ seen.scenarios ∧ e.artifactPath.asPosix ∉ seen.artifacts ∧
      seen' = ⟨e.scenarioId :: seen.scenarios, e.artifactPath.asPosix :: seen.artifacts⟩ := by
  simp only [validateManifestRow, bind_eq_ok, obj_ok, text_ok, require_ok, requireSafePath_ok, requireDescendant_ok,
    Bool.not_eq_true', List.contains_eq_mem, decide_eq_false_iff_not] at h
  obtain ⟨manifestRow, hvalue, -, -, scenarioId, ⟨hscenario, -⟩, -, -, -, hnew, raw, ⟨hraw, -, hsafe⟩, -,
    hnew', -, hunder, -,
    -, row, hrow, u, hfile, -, -, -, hsame, -, -, hseen⟩ := h
  rw [hscenario] at hsame
  refine ⟨⟨scenarioId, .parse raw, row⟩, ⟨⟨manifestRow, raw, hvalue, hscenario, hraw, rfl⟩, ?_, hsafe, hunder, hrow⟩,
    validateRowFile_sound hfile, hnew, hnew', (Except.ok.inj hseen).symm⟩
  exact Value.str_eq.mp hsame

theorem Walked.step {authorized : Bool} {values : List Value} {value : Value} {seen : Seen}
    {entries : List Entry} {e : Entry}
    (h : Walked b fs root authorized values seen entries) (hreads : Reads fs root value e)
    (hsound : RowSound b fs root authorized e.row) (hscenario : e.scenarioId ∉ seen.scenarios)
    (hartifact : e.artifactPath.asPosix ∉ seen.artifacts) :
    Walked b fs root authorized (values ++ [value])
      ⟨e.scenarioId :: seen.scenarios, e.artifactPath.asPosix :: seen.artifacts⟩ (entries ++ [e]) where
  reads := List.rel_append h.reads (.cons hreads .nil)
  scenarios := by
    intro e' he'
    rcases List.mem_append.mp he' with he' | he'
    · exact List.mem_cons_of_mem _ (h.scenarios e' he')
    · rw [List.mem_singleton.mp he']
      exact List.mem_cons_self
  artifacts := by
    intro e' he'
    rcases List.mem_append.mp he' with he' | he'
    · exact List.mem_cons_of_mem _ (h.artifacts e' he')
    · rw [List.mem_singleton.mp he']
      exact List.mem_cons_self
  distinctScenarios := by
    rw [List.map_append, List.map_singleton, ← List.concat_eq_append]
    refine h.distinctScenarios.concat ?_
    intro hmem
    obtain ⟨e', he', heq⟩ := List.mem_map.mp hmem
    exact hscenario (heq ▸ h.scenarios e' he')
  distinctArtifacts := by
    rw [List.map_append, List.map_singleton, ← List.concat_eq_append]
    refine h.distinctArtifacts.concat ?_
    intro hmem
    obtain ⟨e', he', heq⟩ := List.mem_map.mp hmem
    exact hartifact (heq ▸ h.artifacts e' he')
  sound := by
    intro e' he'
    rcases List.mem_append.mp he' with he' | he'
    · exact h.sound e' he'
    · rwa [List.mem_singleton.mp he']

/-- The loop over the rows reads every row. -/
theorem validateManifestRows_walked {runId mode manifestContext : Str} {fixtureMode : Bool} {rows : List Value}
    {seen : Seen}
    (h : rows.zipIdx.foldlM (validateManifestRow b peers fs root runId mode fixtureMode manifestContext) ⟨[], []⟩ =
      .ok seen) : ∃ entries, Walked b fs root (fixtureAuthorized mode fixtureMode) rows seen entries := by
  have hstart : Walked b fs root (fixtureAuthorized mode fixtureMode) [] ⟨[], []⟩ [] :=
    ⟨.nil, by simp, by simp, by simp, by simp, by simp⟩
  have hloop := foldlM_inv
    (P := fun done seen => ∃ entries,
      Walked b fs root (fixtureAuthorized mode fixtureMode) (done.map Prod.fst) seen entries)
    ⟨[], hstart⟩ (fun done entry rest seen seen' _ hacc hstep => by
      obtain ⟨entries, hwalked⟩ := hacc
      obtain ⟨e, hreads, hsound, hscenario, hartifact, rfl⟩ := validateManifestRow_ok hstep
      exact ⟨entries ++ [e], by simpa using hwalked.step hreads hsound hscenario hartifact⟩) h
  simpa using hloop

theorem manifestRows_ok {manifest : Dict} {context : Str} {rows : List Value}
    (h : manifestRows b manifest context = .ok rows) : manifest.get "rows" = .list rows := by
  unfold manifestRows at h
  cases hrows : manifest.get "rows" with
  | list items =>
    simp only [hrows, bind_eq_ok, Except.ok.injEq] at h
    obtain ⟨-, -, rfl⟩ := h
    rfl
  | none | bool | int | float | str | dict => simp [hrows, fail] at h

/-! ## Soundness -/

/-- What an accepted manifest with the members `manifest` guarantees of its rows. -/
structure ManifestSound (b : Builtins) (fs : Files) (root : Path) (mode : Str) (fixtureMode : Bool) (rows : List Value)
    (entries : List Entry) : Prop where
  reads : List.Forall₂ (Reads fs root) rows entries
  distinctScenarios : (entries.map Entry.scenarioId).Nodup
  distinctArtifacts : (entries.map Entry.artifactPath).Nodup
  sound : ∀ e ∈ entries,
    RowSound b fs root (fixtureMode && (decide (mode = str "host-safe") || decide (mode = str "auto"))) e.row

/-- **An accepted matrix manifest is sound.** -/
theorem matrix_manifest_sound {path : Path} {counts : Nat × Nat} (h : validateManifest b peers fs path = .ok counts) :
    ∃ manifest mode fixtureMode rows entries, loadJson fs path = .ok manifest ∧ manifest.get "mode" = .str mode ∧
      manifest.get "fixture_mode" = .bool fixtureMode ∧ manifest.get "rows" = .list rows ∧
      ManifestSound b fs path.parent mode fixtureMode rows entries := by
  simp only [validateManifest, bind_eq_ok, text_ok, boolField_ok] at h
  obtain ⟨root, hroot, manifest, hmanifest, -, -, -, -, -, -, -, -, runId, -, -, -, -, -, outDir, -, -, -,
    events, -, mode,
    ⟨hmode, -⟩, fixtureMode, hfixture, -, -, -, -, rows, hrows, -, -, seen, hloop, -⟩ := h
  obtain rfl := requireManifestRoot_ok hroot
  obtain ⟨entries, hwalked⟩ := validateManifestRows_walked hloop
  have hauth : fixtureAuthorized mode fixtureMode =
      (fixtureMode && (decide (mode = str "host-safe") || decide (mode = str "auto"))) := by
    simp [fixtureAuthorized, isOneOf]
  rw [hauth] at hwalked
  exact ⟨manifest, mode, fixtureMode, rows, entries, hmanifest, hmode, hfixture, manifestRows_ok hrows,
    hwalked.reads, hwalked.distinctScenarios, hwalked.distinctArtifacts, hwalked.sound⟩

/-! ## A live run -/

section LiveRun

/-- A file of the run, by its name below the root. -/
def runPath (name : String) : String := "evidence/lab/matrix/r/" ++ name

def liveMarker : Value :=
  object [("required", .bool true), ("present", .bool true), ("path", word vmMarker),
    ("checked_by", word (runPath "marker.json"))]

def schedulerState : Value := object [("sched_ext", word "disabled"), ("ops", word "none")]

def zeros : String := "0000000000000000000000000000000000000000000000000000000000000000"

def liveRow : Value :=
  object [("schema", word schemaId), ("matrix_run_id", word "r"), ("scenario_id", word "s"), ("outcome", word "PASS"),
    ("evidence_mode", word "vm-live"), ("kernel_tuple", object [("arch", word "x86_64")]),
    ("supported_tuple_status", word "supported"), ("vm_marker", liveMarker),
    ("bpf_abi_version", word matrixBpfAbiVersion),
    ("policy", object [("name", word "p"), ("object_path", word (runPath "p.o")), ("object_sha256", word zeros),
      ("source_path", word "p.c"), ("source_sha256", word zeros)]),
    ("workload", object [("name", word "w"), ("spec_path", word (runPath "spec.json")),
      ("spec_sha256", word "dd946a5f4a53d1fddabd08ba6fe8bdba86aa09524ab8bafdf325f4d357c30b88")]),
    ("action_id", word "a"), ("audit_id", word "AUD-20260102T030405Z-0"), ("rollback_id", word "r"),
    ("pre_scheduler_state", schedulerState), ("post_scheduler_state", schedulerState), ("pre_cgroup_state", object []),
    ("post_cgroup_state", object []), ("runtime_sample_path", word (runPath "samples.jsonl")),
    ("daemon_event_path", word (runPath "events.jsonl")), ("incident_path", word (runPath "incident.json")),
    ("rollback_proof_path", word (runPath "rollback.json")), ("cleanup_proof_path", word (runPath "cleanup.json")),
    ("host_refusal_proof_path", word (runPath "refusal.json")),
    ("privacy_scan", object [("status", word "PASS"), ("private_fields_found", .bool false),
      ("report_path", word (runPath "privacy.json"))]),
    ("git", object [("expected_sha", word "0"), ("actual_sha", word "0"), ("status", word "current"),
      ("dirty", .bool false)]),
    ("release_eligible", .bool false), ("host_mutation", .bool false)]

def workloadTools : List (String × Value) :=
  [("scenario_id", word "s"), ("workload_class", word "w"), ("required_tools", .list [word "perf"]),
    ("threshold_source", word "fixture"), ("vm_marker_required_for_live_run", .bool true),
      ("host_mutation", .bool false),
    ("release_eligible", .bool false)]

def fact (status value : String) : Value := object [("status", word status), ("value", word value)]

def runtimeSample : Value :=
  object [("schema", word "zig-scheduler/runtime-sample/v1"), ("sequence", .int 0), ("state", fact "present" "enabled"),
    ("ops", fact "present" "p"), ("enable_seq", fact "present" "1"), ("events", fact "present" "none"),
    ("nr_rejected", fact "present" "0"), ("debug_dump", fact "missing" ""), ("events_hash", word "0"),
    ("cgroup_membership_digest", word "1111111111111111111111111111111111111111111111111111111111111111"),
    ("workload_alive", .bool true), ("private_command_lines_sampled", .bool false),
    ("policy_abi", object [("policy_name", word "p"), ("policy_version", word "1"), ("struct_ops", word "p"),
      ("object_sha256", word zeros), ("btf_required", .bool true)])]

def liveRunFiles : List (String × Value) :=
  [("manifest.json", object [("schema", word manifestSchema), ("matrix_run_id", word "r"), ("mode", word "vm-required"),
      ("fixture_mode", .bool false), ("started_at", word "t0"), ("ended_at", word "t1"),
      ("out_dir", word "evidence/lab/matrix/r"), ("daemon_events_path", word (runPath "events.jsonl")),
      ("row_count", .int 1), ("rows", .list [object [("scenario_id", word "s"), ("outcome", word "PASS"),
        ("artifact_path", word (runPath "s/matrix-run.json"))]]),
      ("host_mutation", .bool false), ("release_eligible", .bool false)]),
    ("s/matrix-run.json", liveRow),
    ("events.jsonl", object [("schema", word DaemonEvents.schemaId), ("seq", .int 1), ("event", word "boot"),
      ("host_mutation", .bool false)]),
    ("samples.jsonl", runtimeSample),
    ("marker.json", object [("schema", word "zig-scheduler/vm-marker-proof/v1"), ("path", word vmMarker),
      ("required", .bool true), ("present", .bool true), ("evidence_mode", word "vm-live"),
      ("host_mutation", .bool false)]),
    ("spec.json", object (workloadTools ++ [("schema", word workloadSpecSchema),
      ("thresholds", object [("source", word "fixture"), ("fixture_status", word "x"), ("calibration_status", word "x"),
        ("production_capacity_claim", .bool false)]),
      ("capability_artifact_path", word (runPath "tools.json"))])),
    ("tools.json", object (workloadTools ++ [("schema", word workloadCapabilitySchema), ("mode", word "vm-required"),
      ("status", word "PASS"), ("typed_outcome", word "PASS"), ("missing_prereq", word "")])),
    ("privacy.json", object [("schema", word privacyScanSchema), ("status", word "PASS"),
      ("private_fields_found", .bool false), ("host_mutation", .bool false)]),
    ("incident.json", object [("schema", word "zig-scheduler/matrix-incident/v1"), ("scenario_id", word "s"),
      ("outcome", word "PASS"), ("reason", word "none"), ("host_mutation", .bool false),
      ("release_eligible", .bool false)]),
    ("rollback.json", object [("schema", word "zig-scheduler/rollback-proof/v1"), ("scenario_id", word "s"),
      ("status", word "PASS"), ("scheduler_state", word "disabled"), ("ops", word "none"),
        ("host_mutation", .bool false)]),
    ("cleanup.json", object [("schema", word "zig-scheduler/cleanup-proof/v1"), ("scenario_id", word "s"),
      ("status", word "PASS"), ("owned_qemu_leftovers", .bool false), ("owned_temp_leftovers", .bool false),
      ("host_mutation", .bool false), ("qemu_scan_before", word "q0"), ("qemu_scan_after", word "q1"),
      ("temp_scan_before", word "t0"), ("temp_scan_after", word "t1")]),
    ("refusal.json", object [("schema", word "zig-scheduler/host-refusal-proof/v1"), ("scenario_id", word "s"),
      ("status", word "REFUSE"), ("reason", word "host"), ("no_bpf_load_attach", .bool true),
      ("no_cgroup_write", .bool true), ("no_sys_write", .bool true), ("no_proc_write", .bool true),
      ("host_mutation", .bool false)])]

/-- The files of a run with one live pass. -/
def liveRun : Files := fun p =>
  (liveRunFiles.find? (fun e => decide (Path.parse (str (runPath e.1)) = p))).map (fun e => written e.2)

/-- The sample of the run is well formed, its spec states no provenance, and it has no live backend. -/
def liveRunPeers : Peers where
  runtimeSampleFile _ _ := .ok ()
  liveBehaviorBundle _ _ := .ok ()
  benchmarkEntries _ _ _ _ := .ok ()

/-- The run is accepted, so it is sound. -/
theorem matrix_manifest_sound_liveRun : ∃ manifest mode fixtureMode rows entries,
    loadJson liveRun (.parse (str (runPath "manifest.json"))) = .ok manifest ∧ manifest.get "mode" = .str mode ∧
      manifest.get "fixture_mode" = .bool fixtureMode ∧ manifest.get "rows" = .list rows ∧
      ManifestSound .ascii liveRun
        (Path.parse (str (runPath "manifest.json"))).parent mode fixtureMode rows entries := by
  have haccepted : okAnd (fun _ => true)
      (validateManifest .ascii liveRunPeers liveRun (.parse (str (runPath "manifest.json")))) = true := by
        decide +kernel
  obtain ⟨counts, hcounts, -⟩ := okAnd_eq_true.mp haccepted
  exact matrix_manifest_sound hcounts

end LiveRun

end Exasphere.Qa.MatrixRun

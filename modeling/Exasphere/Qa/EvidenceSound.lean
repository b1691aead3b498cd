import Exasphere.Qa.EvidenceManifest

/-!
# Accepted evidence manifests are sound

The check walks fields of three shapes: one reference, a list of references, and a list or an object. `Covers` says that
the artifacts collected so far are those of the references visited so far, one for one, and each loop keeps it; whatever
is collected is then scanned. The scan of a value reaches every member below it (`rejectClaimValue_harmless`), by
induction on where the member stands.
-/

namespace Exasphere.Qa.EvidenceManifest

open Exasphere.Lib Exasphere.Py

variable {b : Builtins} {w : World} {fs : Files}

/-! ## References -/

/-- The value is a reference to the artifact at `p` in the role `role`: the path is safe, and the bytes there have the
stated hash. -/
structure Refers (fs : Files) (value : Value) (p : Path) (role : Str) : Prop where
  target : ∃ row raw digest data, value = .dict row ∧ Dict.get row "path" = .str raw ∧ p = .parse raw ∧
    Dict.get row "sha256" = .str digest ∧ Dict.get row "schema_role" = .str role ∧ fs p = some data ∧
      sha256 data = digest
  safe : Safe p

theorem readBytes_ok {p : Path} {data : Bytes} : fs.readBytes p = .ok data ↔ fs p = some data := by
  unfold Files.readBytes
  cases fs p <;> simp

theorem fileSha_ok {p : Path} {digest : Str} :
    fileSha fs p = .ok digest ↔ ∃ data, fs p = some data ∧ sha256 data = digest := by
  unfold fileSha
  cases h : fs.readBytes p with
  | ok data =>
    have hdata := readBytes_ok.mp h
    simp [hdata]
  | error e =>
    have hnone : ∀ data, fs p ≠ some data := by
      intro data hdata
      rw [readBytes_ok.mpr hdata] at h
      cases h
    cases e <;> simp [fail, hnone]

theorem validateRef_ok {value : Value} {context role : Str} (h : validateRef fs value context = .ok role) :
    ∃ p, Refers fs value p role ∧ ∀ row, value = .dict row → ∀ context p',
      safePath (Dict.get row "path") context = .ok p' → p' = p := by
  cases value with
  | dict row =>
    simp only [validateRef, bind_eq_ok, require_ok, safePath_ok, text_ok, fileSha_ok, decide_eq_true_eq] at h
    obtain ⟨-, -, p, ⟨raw, hpath, -, hp, hsafe⟩, digest, ⟨hdigest, -⟩, -, -, actual, ⟨data, hdata, hsha⟩, -, heq,
      hrole, -⟩ := h
    refine ⟨p, ⟨⟨row, raw, digest, data, rfl, hpath, hp, hdigest, hrole, hdata, hsha.trans heq⟩, hsafe⟩, ?_⟩
    intro row' hrow context p' hp'
    obtain rfl : row = row' := by simpa using hrow
    obtain ⟨raw', hraw', -, rfl, -⟩ := safePath_ok.mp hp'
    rw [hpath] at hraw'
    cases hraw'
    exact hp.symm
  | none | bool | int | float | str | list => simp [validateRef, fail] at h

/-- The references of the list, in order, are those of the collected artifacts. -/
def Covers (fs : Files) (values : List Value) (artifacts : List (Path × Str)) : Prop :=
  List.Forall₂ (fun value artifact => Refers fs value artifact.1 artifact.2) values artifacts

theorem Covers.concat {values : List Value} {artifacts : List (Path × Str)} {value : Value} {p : Path} {role : Str}
    (h : Covers fs values artifacts) (hv : Refers fs value p role) :
    Covers fs (values ++ [value]) (artifacts ++ [(p, role)]) :=
  List.rel_append h (List.Forall₂.cons hv .nil)

theorem collect_ok {acc acc' : Collected} {value : Value} {context : Str} (h : collect w acc value context = .ok acc') :
    ∃ p role, Refers w.files value p role ∧ acc' = ⟨acc.roles ++ [role], acc.artifactPaths ++ [(p, role)]⟩ := by
  obtain ⟨role, href, h⟩ := bind_eq_ok.mp h
  obtain ⟨p, hrefers, hsame⟩ := validateRef_ok href
  obtain ⟨row, raw, digest, data, rfl, -⟩ := hrefers.target
  obtain ⟨p', hp', h⟩ := bind_eq_ok.mp h
  obtain rfl := hsame row rfl _ p' hp'
  cases h
  exact ⟨p', role, hrefers, rfl⟩

theorem collectBenchmark_ok {artifacts artifacts' : List (Path × Str)} {value : Value} {context : Str}
    (h : collectBenchmark w artifacts value context = .ok artifacts') :
    ∃ p role, Refers w.files value p role ∧ artifacts' = artifacts ++ [(p, role)] := by
  obtain ⟨role, href, h⟩ := bind_eq_ok.mp h
  obtain ⟨u, hfixed, h⟩ := bind_eq_ok.mp h
  have hrole : role = str "benchmark-provenance" := by simpa using hfixed
  obtain ⟨p, hrefers, hsame⟩ := validateRef_ok href
  obtain ⟨row, raw, digest, data, rfl, -⟩ := hrefers.target
  obtain ⟨p', hp', h⟩ := bind_eq_ok.mp h
  obtain rfl := hsame row rfl _ p' hp'
  cases h
  exact ⟨p', role, hrefers, by rw [hrole]⟩

/-- What a loop of `collect` keeps. -/
def Collected.Covers (fs : Files) (values : List Value) (acc : Collected) : Prop :=
  EvidenceManifest.Covers fs values acc.artifactPaths ∧ acc.roles = acc.artifactPaths.map Prod.snd

theorem collect_covers {acc acc' : Collected} {values : List Value} {value : Value} {context : Str}
    (hacc : acc.Covers w.files values) (h : collect w acc value context = .ok acc') :
    acc'.Covers w.files (values ++ [value]) := by
  obtain ⟨p, role, hrefers, rfl⟩ := collect_ok h
  refine ⟨hacc.1.concat hrefers, ?_⟩
  rw [hacc.2, List.map_append]
  rfl

/-- The items of a list; of anything else, none. -/
def itemsOf : Value → List Value
  | .list items => items
  | _ => []

/-- Every value of a manifest that stands for a reference. -/
def references (data : Dict) : List Value :=
  referenceFields.map (fun field => data.get field) ++ itemsOf (data.get "artifacts") ++
    itemsOf (data.get "benchmark_provenance")

theorem collectReferences_ok {data : Dict} {acc : Collected} (h : collectReferences w data = .ok acc) :
    acc.Covers w.files (referenceFields.map (fun field => data.get field) ++ itemsOf (data.get "artifacts")) ∧
      ∀ role ∈ requiredRoles, str role ∈ acc.roles := by
  obtain ⟨first, hfirst, h⟩ := bind_eq_ok.mp h
  obtain ⟨-, -, h⟩ := bind_eq_ok.mp h
  have hfields : first.Covers w.files (referenceFields.map (fun field => data.get field)) := by
    have hstart : Collected.Covers w.files [] ⟨[], []⟩ := ⟨List.Forall₂.nil, rfl⟩
    refine foldlM_inv (P := fun done (acc : Collected) => acc.Covers w.files (done.map (fun field => data.get field)))
      hstart ?_ hfirst
    intro done field rest acc acc' _ hacc hstep
    simpa using collect_covers hacc hstep
  cases hartifacts : data.get "artifacts" with
  | none | bool | int | float | str | dict => simp [hartifacts, fail] at h
  | list items =>
    cases items with
    | nil => simp [hartifacts, fail] at h
    | cons item items =>
      simp only [hartifacts] at h
      obtain ⟨acc', hloop, h⟩ := bind_eq_ok.mp h
      obtain ⟨u, hmissing, h⟩ := bind_eq_ok.mp h
      cases h
      refine ⟨?_, ?_⟩
      · have hloop' := foldlM_inv
          (P := fun done (acc : Collected) => acc.Covers w.files
            (referenceFields.map (fun field => data.get field) ++ done.map Prod.fst))
          (by simpa using hfields) (fun done entry rest acc acc' _ hacc hstep => by
            simpa using collect_covers hacc hstep) hloop
        simpa [itemsOf] using hloop'
      · intro role hrole
        simp only [require_ok, List.isEmpty_iff, sorted] at hmissing
        have hnil := List.length_eq_zero_iff.mpr hmissing
        rw [List.length_insertionSort, List.length_eq_zero_iff, List.filter_eq_nil_iff] at hnil
        simpa using hnil (str role) (List.mem_map_of_mem hrole)

theorem collectProvenance_ok {data : Dict} {outcome : Str} {values : List Value}
    {artifacts artifacts' : List (Path × Str)}
    (hcovers : Covers w.files values artifacts) (h : collectProvenance b w data outcome artifacts = .ok artifacts') :
    Covers w.files (values ++ itemsOf (data.get "benchmark_provenance")) artifacts' ∧ artifacts ⊆ artifacts' := by
  unfold collectProvenance at h
  cases hbenchmark : data.get "benchmark_provenance" with
  | none | bool | int | float | str => simp [hbenchmark, fail] at h
  | dict benchmark =>
    simp only [hbenchmark] at h
    obtain ⟨-, -, h⟩ := bind_eq_ok.mp h
    cases h
    exact ⟨by simpa [itemsOf] using hcovers, fun _ h => h⟩
  | list items =>
    simp only [hbenchmark] at h
    obtain ⟨-, -, h⟩ := bind_eq_ok.mp h
    have hloop := foldlM_inv
      (P := fun done acc => Covers w.files (values ++ done.map Prod.fst) acc ∧ artifacts ⊆ acc)
      (by simpa using hcovers) (fun done entry rest acc acc' _ hacc hstep => by
        obtain ⟨p, role, hrefers, rfl⟩ := collectBenchmark_ok hstep
        refine ⟨by simpa using hacc.1.concat hrefers, ?_⟩
        exact fun artifact hmem => List.mem_append_left _ (hacc.2 hmem)) h
    simpa [itemsOf] using hloop

/-! ## Claims -/

section Claims

variable {role context : Str}

/-- No member that stands for a claim is anything but `False`, at any depth. -/
def Harmless (value : Value) : Prop :=
  ∀ key ∈ claimKeys, ∀ child, Value.Member (str key) child value → child = .bool false

theorem rejectClaimMembers_mem {members : Dict} (h : rejectClaimMembers b role context members = .ok ()) {key : Str}
    {child : Value} (hmem : (key, child) ∈ members) :
    (∃ context, rejectClaimValue b role context child = .ok ()) ∧ (key ∈ claimKeys.map str → child = .bool false) := by
  induction members with
  | nil => cases hmem
  | cons member members ih =>
    obtain ⟨key', child'⟩ := member
    simp only [rejectClaimMembers, bind_eq_ok, require_ok, checkWhen_ok, isFalse_iff, decide_eq_true_eq] at h
    obtain ⟨-, -, -, hhost, -, hflags, u, hchild, hmembers⟩ := h
    rcases List.mem_cons.mp hmem with heq | hmem
    · obtain ⟨rfl, rfl⟩ := Prod.mk.inj heq
      refine ⟨⟨_, hchild⟩, ?_⟩
      intro hkey
      have hcases : key = str "host_mutation" ∨
          isOneOf key ["release_eligible", "production_capacity_claim"] = true := by
        simpa [claimKeys, isOneOf] using hkey
      rcases hcases with hkey | hkey
      · exact hhost hkey
      · exact hflags hkey
    · exact ih hmembers hmem

theorem rejectClaimItems_mem {items : List Value} {index : Nat}
    (h : rejectClaimItems b role context index items = .ok ())
    {child : Value} (hmem : child ∈ items) : ∃ context, rejectClaimValue b role context child = .ok () := by
  induction items generalizing index with
  | nil => cases hmem
  | cons item items ih =>
    simp only [rejectClaimItems, bind_eq_ok] at h
    obtain ⟨u, hitem, hitems⟩ := h
    rcases List.mem_cons.mp hmem with rfl | hmem
    · exact ⟨_, hitem⟩
    · exact ih hitems hmem

/-- A value that passes the scan is harmless. -/
theorem rejectClaimValue_harmless {value : Value} (h : rejectClaimValue b role context value = .ok ()) :
    Harmless value := by
  intro key hkey child hmember
  -- where the member stands decides which loop of the scan meets it
  induction hmember generalizing context with
  | here hmem =>
    rw [rejectClaimValue] at h
    exact (rejectClaimMembers_mem h hmem).2 (List.mem_map_of_mem hkey)
  | dict hmem _ ih =>
    rw [rejectClaimValue] at h
    obtain ⟨context', hchild⟩ := (rejectClaimMembers_mem h hmem).1
    exact ih hchild
  | list hmem _ ih =>
    rw [rejectClaimValue] at h
    obtain ⟨context', hchild⟩ := rejectClaimItems_mem h hmem
    exact ih hchild

theorem rejectClaimLines_mem {path : Path} {lines : List Str} {lineNo : Nat}
    (h : rejectClaimLines b path role lineNo lines = .ok ()) {line : Str} (hmem : line ∈ lines)
    (hblank : isBlank line = false) : ∃ value, loads line = .ok value ∧ Harmless value := by
  induction lines generalizing lineNo with
  | nil => cases hmem
  | cons line' lines ih =>
    simp only [rejectClaimLines, bind_eq_ok, checkWhen_ok] at h
    obtain ⟨-, hline, hlines⟩ := h
    rcases List.mem_cons.mp hmem with rfl | hmem
    · have hscan : rejectClaimLine b path role lineNo line = .ok () := hline (by rw [hblank]; rfl)
      unfold rejectClaimLine at hscan
      cases hloads : loads line with
      | error e => cases e <;> simp [hloads, fail] at hscan
      | ok value =>
        rw [hloads] at hscan
        exact ⟨value, rfl, rejectClaimValue_harmless hscan⟩
    · exact ih hlines hmem

/-- The parsed values of an artifact are harmless: the object of a `.json` file, and the value of each line of a
`.jsonl` file that is not blank. -/
structure Claimless (fs : Files) (p : Path) : Prop where
  json : p.suffix = str ".json" → ∃ s value, fs.readText p = .ok s ∧ loads s = .ok value ∧ Harmless value
  jsonl : p.suffix = str ".jsonl" → ∃ s, fs.readText p = .ok s ∧
    ∀ line ∈ splitlines s, isBlank line = false → ∃ value, loads line = .ok value ∧ Harmless value

theorem rejectClaims_claimless {p : Path} (h : rejectClaims b fs p role = .ok ()) : Claimless fs p := by
  unfold rejectClaims at h
  constructor
  · intro hsuffix
    rw [if_pos hsuffix] at h
    obtain ⟨data, hdata, hscan⟩ := bind_eq_ok.mp h
    obtain ⟨s, hs, hloads⟩ := loadObject_ok.mp hdata
    exact ⟨s, .dict data, hs, hloads, rejectClaimValue_harmless hscan⟩
  · intro hsuffix
    have hne : ¬ p.suffix = str ".json" := by
      rw [hsuffix]
      decide
    rw [if_neg hne, if_neg (by simpa using hsuffix)] at h
    obtain ⟨s, hs, hlines⟩ := bind_eq_ok.mp h
    exact ⟨s, hs, fun line hmem hblank => rejectClaimLines_mem hlines hmem hblank⟩

end Claims

/-! ## Soundness -/

/-- What an accepted manifest with the members `data` guarantees. -/
structure Sound (fs : Files) (data : Dict) : Prop where
  references : ∀ value ∈ references data, ∃ p role, Refers fs value p role ∧ Claimless fs p
  roles : ∀ role ∈ requiredRoles, ∃ value ∈ EvidenceManifest.references data, ∃ p, Refers fs value p (str role)

theorem scanArtifact_claimless {artifact : Path × Str} (h : scanArtifact b w artifact = .ok ()) :
    Claimless w.files artifact.1 := by
  obtain ⟨u, -, hclaims⟩ := bind_eq_ok.mp h
  exact rejectClaims_claimless hclaims

/-- **An accepted manifest is sound.** -/
theorem manifest_sound {path schemaPath : Path} {sourceRoot : Option Path}
    (h : validateManifest b w path schemaPath sourceRoot = .ok ()) :
    ∃ data, loadJson w.files path = .ok data ∧ Sound w.files data := by
  simp only [validateManifest, bind_eq_ok] at h
  obtain ⟨-, -, -, -, data, hdata, outcome, -, acc, hacc, artifacts, hartifacts, -, -, -, -, -, -, hscan⟩ := h
  obtain ⟨hcovers, hroles⟩ := collectReferences_ok hacc
  obtain ⟨hall, hsub⟩ := collectProvenance_ok hcovers.1 hartifacts
  refine ⟨data, hdata, ?_, ?_⟩
  · intro value hvalue
    obtain ⟨artifact, hmem, hrefers⟩ := exists_of_forall₂ hall hvalue
    exact ⟨artifact.1, artifact.2, hrefers, scanArtifact_claimless (forM_eq_ok.mp hscan artifact hmem)⟩
  · intro role hrole
    have hmem := hroles role hrole
    rw [hcovers.2] at hmem
    obtain ⟨artifact, hartifact, hsnd⟩ := List.mem_map.mp hmem
    obtain ⟨value, hvalue, hrefers⟩ := exists_of_forall₂ hall.flip (hsub hartifact)
    rw [hsnd] at hrefers
    exact ⟨value, hvalue, artifact.1, hrefers⟩

/-! ## A bundle -/

section Bundle

def reference (path digest role : String) : Value :=
  object [("path", word path), ("sha256", word digest), ("schema_role", word role)]

def proofRef (role : String) : Value :=
  reference "evidence/proof.json" "055820f46eef6151a92675658d5021e69539f6bc1e185d648c2ee3e2b7fbdee9" role

def eventsRef (role : String) : Value :=
  reference "evidence/events.jsonl" "4cf0fead312909bb55be1deb2b98aeea0a5fbf47602b1102708025d3bc13bd24" role

def reviewRef : Value :=
  reference "evidence/review.json" "94362c4719c7ee935f9d02cce043b0cf9c00f23c81a44a714bab687d7d4a7f6b"
    "protected-environment-review"

def review : Value :=
  object [("schema", word "zig-scheduler/protected-environment-review/v1"), ("run_id", word "7"),
    ("run_url", word "https://github.com/a/b/actions/runs/7"),
    ("head_sha", word "0123456789abcdef0123456789abcdef01234567"), ("environment_name", word "vm-proof-manual"),
    ("environment_id", .int 7), ("reviewer_status", word "approved"), ("reviewer_identity", word "operator"),
    ("reviewer_id", .int 3), ("comment", word "manual protected VM proof only; not release approval"),
    ("review_history_api_url", word "https://api.github.com/repos/a/b/actions/runs/7/approvals"),
    ("collected_at", word "2026-01-02T03:04:05Z"), ("host_mutation", .bool false), ("release_eligible", .bool false),
    ("production_capacity_claim", .bool false)]

def reviewSchema : Value :=
  object [("$id", word "zig-scheduler/protected-environment-review/v1"),
    ("required", .list (ProtectedReview.rootFields.map word)), ("additionalProperties", .bool false)]

def manifest : Value :=
  object [("schema", word "zig-scheduler/evidence-manifest/v1"), ("outcome", word "PASS"),
    ("audit_id", word "AUD-20260102T030405Z-0123456-abcdef"), ("rollback_id", word "RB-microvm-live-1"),
    ("vm_marker", object [("path", word "/run/zig-scheduler-vm-lab.marker"), ("present", .bool true)]),
    ("supported_tuple", word "linux-6.12-x86_64-sched_ext-bpf-bpf_jit-btf-vm_lab_only"),
    ("matrix_manifest", proofRef "matrix-row"), ("daemon_events", eventsRef "daemon-events"),
    ("bpf_metadata_or_skip", proofRef "bpf-metadata"), ("runner_substrate", proofRef "runner-substrate-proof"),
    ("runner_cleanliness", proofRef "runner-cleanliness-proof"),
    ("artifacts", .list [proofRef "rollback-proof", proofRef "cleanup-proof", proofRef "host-refusal-proof",
      proofRef "privacy-scan", proofRef "static-verification-log", reviewRef]),
    ("benchmark_provenance", .list [proofRef "benchmark-provenance"]),
    ("privacy_scan", object [("status", word "PASS"), ("private_fields_found", .bool false),
      ("artifact_paths", .list [word "evidence/proof.json"])]),
    ("attestation", object [("status", word "verified-by-operator"),
      ("workflow_uses", word "actions/attest-build-provenance"), ("verify_command", word "gh attestation verify"),
      ("retention_days", .int 90)]),
    ("required_sources", .list [word "qa/evidence_manifest_check.py"]), ("host_mutation", .bool false),
    ("release_eligible", .bool false), ("production_capacity_claim", .bool false)]

def bundleFiles : List (String × Value) :=
  [("schemas/control/evidence-manifest.v1.schema.json", object [("$id", word "zig-scheduler/evidence-manifest/v1")]),
    ("schemas/control/protected-environment-review.v1.schema.json", reviewSchema),
    ("evidence/manifest.json", manifest), ("evidence/proof.json", object [("host_mutation", .bool false)]),
    ("evidence/events.jsonl", object [("host_mutation", .bool false), ("seq", .int 1)]),
    ("evidence/review.json", review)]

/-- A bundle for a run that passed, and the sources tracked beside it. -/
def bundle : World where
  files p := (bundleFiles.find? (fun e => decide (Path.parse (str e.1) = p))).map (fun e => written e.2)
  lsFiles _ := .ok (str "qa/evidence_manifest_check.py\n")
  cwd := .parse (str "/work")

/-- The bundle is accepted, so it is sound. -/
theorem manifest_sound_bundle : ∃ data, loadJson bundle.files (.parse (str "evidence/manifest.json")) = .ok data ∧
    Sound bundle.files data := by
  have haccepted : okAnd (fun _ => true) (validateManifest .ascii bundle (.parse (str "evidence/manifest.json"))
      (.parse (str "schemas/control/evidence-manifest.v1.schema.json")) none) = true := by decide +kernel
  obtain ⟨u, hu, -⟩ := okAnd_eq_true.mp haccepted
  exact manifest_sound hu

end Bundle

end Exasphere.Qa.EvidenceManifest

import Exasphere.Py.Sha256
import Exasphere.Qa.ProtectedReview

/-!
# Evidence manifests (`qa/evidence_manifest_check.py`)

`validateManifest` is the check of an evidence manifest against a file system and the tracked files of a repository.
Whatever it accepts is sound (`manifest_sound`): each reference is a safe path whose bytes have the stated hash, each
required role is referenced, and no parsed artifact makes a claim at any depth.
-/

namespace Exasphere.Qa.EvidenceManifest

open Exasphere.Lib Exasphere.Py

/-- What the check reads: the files, the output of `git ls-files` or its error, and the working directory. -/
structure World where
  files : Files
  lsFiles : Path → Except Str Str
  cwd : Path

/-! ## Constants -/

def schemaId : String := "zig-scheduler/evidence-manifest/v1"

def vmMarker : String := "/run/zig-scheduler-vm-lab.marker"

def fields : List String :=
  ["schema", "outcome", "audit_id", "rollback_id", "vm_marker", "supported_tuple", "bpf_metadata_or_skip",
    "matrix_manifest", "daemon_events", "runner_substrate", "runner_cleanliness", "artifacts", "benchmark_provenance",
    "privacy_scan", "attestation", "required_sources", "host_mutation", "release_eligible", "production_capacity_claim"]

def refFields : List String := ["path", "sha256", "schema_role"]

def markerFields : List String := ["path", "present", "checked_by"]

def benchmarkNaFields : List String := ["status", "reason", "applies_to_outcomes"]

def privacyFields : List String := ["status", "private_fields_found", "artifact_paths"]

def attestFields : List String := ["status", "workflow_uses", "verify_command", "retention_days"]

def requiredRoles : List String :=
  ["matrix-row", "rollback-proof", "cleanup-proof", "host-refusal-proof", "privacy-scan", "static-verification-log",
    "runner-substrate-proof", "runner-cleanliness-proof", "protected-environment-review"]

def protectedReviewRole : String := "protected-environment-review"

def bpfRoles : List String := ["bpf-metadata", "bpf-skip-json"]

def attestStatuses : List String := ["pending-post-run-github-attestation", "verified-by-operator"]

def outcomes : List String := ["PASS", "SKIP", "REFUSE", "BLOCKED"]

def benchmarkNaOutcomes : List String := ["SKIP", "REFUSE", "BLOCKED"]

def forbiddenPrivateKeys : List String :=
  ["access_token", "apikey", "api_key", "aws_secret", "command_line", "env", "environment", "password", "raw_debug",
    "secret", "token"]

def forbiddenPrivateKeyPatterns : List (List Str) := forbiddenPrivateKeys.map (fun key => privateKeyTokens (str key))

def privateSafeKeys : List String := ["protected_environment"]

def protectedReviewPrivateSafeKeys : List String := ["environment_id", "environment_name"]

def textArtifactRoles : List String := ["static-verification-log"]

def textArtifactSuffixes : List String := [".log", ".txt", ".md", ".out", ".err"]

def maxTextArtifactBytes : Nat := 1024 * 1024

/-- The fields that hold one reference each. -/
def referenceFields : List String :=
  ["matrix_manifest", "daemon_events", "bpf_metadata_or_skip", "runner_substrate", "runner_cleanliness"]

/-- The members that must be `False` wherever they occur. -/
def claimKeys : List String := ["host_mutation", "release_eligible", "production_capacity_claim"]

/-! ## Patterns -/

/-- `AUDIT_RE`. -/
def auditRe : Re :=
  .seq .start (.seq (.lit "AUD-") (.seq (.exactly Py.isDigit 8) (.seq (.lit "T") (.seq (.exactly Py.isDigit 6)
    (.seq (.lit "Z-") (.seq (.plus Re.isIdChar) .finish))))))

/-- `ROLLBACK_RE`. -/
def rollbackRe : Re :=
  .seq .start (.seq (.lit "RB-") (.seq (.cls isAlnum) (.seq (.run Re.isIdChar 0 (some 127)) .finish)))

/-- `[lo-hi]`. -/
def between (lo hi : Nat) (c : Nat) : Bool := decide (48 + lo ≤ c ∧ c ≤ 48 + hi)

/-- `TUPLE_RE`. -/
def tupleRe : Re :=
  .seq .start (.seq (.lit "linux-") (.seq
    (.alt
      (.seq (.lit "6.") (.seq
        (.alt (.seq (.lit "1") (.cls (between 2 9))) (.seq (.cls (between 2 9)) (.cls (between 0 9))))
        (.opt (.seq (.lit ".") (.plus (between 0 9))))))
      (.seq (.lit "7.1.") (.seq (.alt (.lit "1-2") (.lit "2-3")) (.lit "-cachyos"))))
    (.seq (.lit "-x86_64-sched_ext-bpf-bpf_jit-btf-vm_lab_only") .finish)))

/-! ## References -/

def onlyFields (row : Dict) (allowed : List String) (context : Str) : Except Exn Unit :=
  Qa.onlyFields "fields" row allowed context

def loadJson (fs : Files) (path : Path) : Except Exn Dict := loadObject .ok " must contain a JSON object" fs path

def fileSha (fs : Files) (path : Path) : Except Exn Str :=
  match fs.readBytes path with
  | .ok data => .ok (sha256 data)
  | .error .fileNotFound => fail (str "missing referenced artifact: " ++ path.asPosix)
  | .error e => .error e

/-- `validate_ref(value, context)`: the role of the reference. -/
def validateRef (fs : Files) (value : Value) (context : Str) : Except Exn Str :=
  match value with
  | .dict row => do
    onlyFields row refFields context
    let path ← safePath (Dict.get row "path") (dot context "path")
    let digest ← text (Dict.get row "sha256") (dot context "sha256")
    require (decide (digest.length = 64) && digest.all isHex) (dot context "sha256" ++ str " must be sha256 hex")
    let actual ← fileSha fs path
    require (decide (actual = digest)) (dot context "sha256" ++ str " does not match " ++ path.asPosix)
    text (Dict.get row "schema_role") (dot context "schema_role")
  | _ => fail (context ++ str " must be an artifact reference")

/-! ## Claims inside an artifact -/

section Claims

variable (b : Builtins)

def rejectPrivateText (value context : Str) : Except Exn Unit :=
  require (!privateTextContains b value) (str "privacy-unsafe text in referenced artifact: " ++ context)

def privateKeyIsSafe (key role : Str) : Bool :=
  isOneOf key privateSafeKeys || (decide (role = str protectedReviewRole) && isOneOf key protectedReviewPrivateSafeKeys)

mutual

/-- `reject_claim_value(value, context, role)`. -/
def rejectClaimValue (role : Str) (context : Str) : Value → Except Exn Unit
  | .dict members => rejectClaimMembers role context members
  | .list items => rejectClaimItems role context 0 items
  | .str s => rejectPrivateText b s context
  | _ => .ok ()

def rejectClaimMembers (role : Str) (context : Str) : Dict → Except Exn Unit
  | [] => .ok ()
  | (key, child) :: members => do
    require (privateKeyIsSafe key role || !privateKeyHasPattern key forbiddenPrivateKeyPatterns)
      (str "privacy-unsafe key in referenced artifact: " ++ context ++ 46 :: key)
    checkWhen (decide (key = str "host_mutation"))
      (require (isFalse child) (context ++ str ".host_mutation must be false"))
    checkWhen (isOneOf key ["release_eligible", "production_capacity_claim"])
      (require (isFalse child) (context ++ 46 :: key ++ str " must be false"))
    rejectClaimValue role (context ++ 46 :: key) child
    rejectClaimMembers role context members

def rejectClaimItems (role : Str) (context : Str) (index : Nat) : List Value → Except Exn Unit
  | [] => .ok ()
  | child :: items => do
    rejectClaimValue role (at_ context index) child
    rejectClaimItems role context (index + 1) items

end

/-- `reject_text_artifact(path, role)`. -/
def rejectTextArtifact (fs : Files) (path : Path) (role : Str) : Except Exn Unit :=
  if !isOneOf role textArtifactRoles && !isOneOf path.suffix textArtifactSuffixes then .ok ()
  else
    match fs.readBytes path with
    | .error .fileNotFound => fail (str "missing referenced artifact: " ++ path.asPosix)
    | .error e => .error e
    | .ok raw => do
      require (decide (raw.length ≤ maxTextArtifactBytes))
        (str "referenced text artifact is too large to privacy-scan: " ++ path.asPosix)
      match decode raw with
      | .ok textValue => rejectPrivateText b textValue path.asPosix
      | .error .unicodeError => fail (str "referenced text artifact is not UTF-8: " ++ path.asPosix)
      | .error e => .error e

/-- One line of a JSONL artifact. -/
def rejectClaimLine (path : Path) (role : Str) (lineNo : Nat) (line : Str) : Except Exn Unit :=
  match loads line with
  | .ok value => rejectClaimValue b role (path.asPosix ++ 58 :: strNat lineNo) value
  | .error .jsonDecodeError => fail (str "invalid referenced JSON " ++ path.asPosix ++ 58 :: strNat lineNo)
  | .error e => .error e

/-- The lines of a JSONL artifact, from the given number on. -/
def rejectClaimLines (path : Path) (role : Str) (lineNo : Nat) : List Str → Except Exn Unit
  | [] => .ok ()
  | line :: lines => do
    checkWhen (!isBlank line) (rejectClaimLine b path role lineNo line)
    rejectClaimLines path role (lineNo + 1) lines

/-- `reject_claims(path, role)`. -/
def rejectClaims (fs : Files) (path : Path) (role : Str) : Except Exn Unit :=
  if path.suffix = str ".json" then do
    let data ← loadJson fs path
    rejectClaimValue b role path.asPosix (.dict data)
  else if path.suffix ≠ str ".jsonl" then rejectTextArtifact b fs path role
  else do
    let s ← fs.readText path
    rejectClaimLines b path role 1 (splitlines s)

end Claims

/-! ## The manifest -/

section Manifest

variable (b : Builtins) (w : World)

/-- `tracked_sources(paths, source_root)`. -/
def trackedSources (paths : Value) (sourceRoot : Path) : Except Exn Unit :=
  match paths with
  | .list (first :: more) =>
    match w.lsFiles sourceRoot with
    | .error stderr => fail (str "git ls-files failed: " ++ stderr)
    | .ok stdout =>
      (first :: more).zipIdx.forM (fun (item, index) => do
        let path ← safePath item (at_ (str "required_sources") index)
        require ((splitlines stdout).contains path.asPosix) (str "required source is not tracked: " ++ path.asPosix))
  | _ => fail (str "required_sources must be a non-empty list")

def validateBenchmarkNotApplicable (value : Dict) (outcome : Str) : Except Exn Unit := do
  onlyFields value benchmarkNaFields (str "benchmark_provenance")
  require ((value.get "status").eqStr b (str "not_applicable"))
    (str "benchmark_provenance.status must be not_applicable")
  require (isOneOf outcome benchmarkNaOutcomes)
    (str "benchmark_provenance not_applicable is only valid for SKIP/REFUSE/BLOCKED")
  let reason ← text (value.get "reason") (str "benchmark_provenance.reason")
  rejectPrivateText b reason (str "benchmark_provenance.reason")
  match value.get "applies_to_outcomes" with
  | .list (first :: more) => do
    (first :: more).zipIdx.forM (fun (item, index) => do
      let outcomeValue ← text item (at_ (str "benchmark_provenance.applies_to_outcomes") index)
      require (isOneOf outcomeValue benchmarkNaOutcomes)
        (at_ (str "benchmark_provenance.applies_to_outcomes") index ++ str " is unsupported"))
    require ((first :: more).any (·.eqStr b outcome))
      (str "benchmark_provenance.applies_to_outcomes must include the manifest outcome")
  | _ => fail (str "benchmark_provenance.applies_to_outcomes must be a non-empty list")

def validatePrivacy (value : Value) : Except Exn Unit :=
  match value with
  | .dict scan => do
    onlyFields scan privacyFields (str "privacy_scan")
    require ((Dict.get scan "status").eqStr b (str "PASS") && isFalse (Dict.get scan "private_fields_found"))
      (str "privacy scan must pass without private fields")
    match Dict.get scan "artifact_paths" with
    | .list (first :: more) =>
      (first :: more).zipIdx.forM (fun (item, index) => do
        let context := at_ (str "privacy_scan.artifact_paths") index
        let raw ← text item context
        rejectPrivateText b raw context
        let _ ← safePath (.str raw) context
        .ok ())
    | _ => fail (str "privacy_scan.artifact_paths must be non-empty")
  | _ => fail (str "privacy_scan must be an object")

def validateAttestation (value : Value) : Except Exn Unit :=
  match value with
  | .dict attestation => do
    onlyFields attestation attestFields (str "attestation")
    let status ← text (Dict.get attestation "status") (str "attestation.status")
    require (isOneOf status attestStatuses) (str "attestation.status is unsupported")
    let workflowUses ← text (Dict.get attestation "workflow_uses") (str "attestation.workflow_uses")
    require (contains workflowUses (str "actions/attest-build-provenance"))
      (str "attestation workflow action is missing")
    let verifyCommand ← text (Dict.get attestation "verify_command") (str "attestation.verify_command")
    require (contains verifyCommand (str "gh attestation verify")) (str "attestation verify command is missing")
    require ((Dict.get attestation "retention_days").asInt?.any (fun days => decide (0 < days)))
      (str "attestation.retention_days must be positive")
  | _ => fail (str "attestation must be an object")

/-- The roles met so far and the artifacts to scan. -/
structure Collected where
  roles : List Str
  artifactPaths : List (Path × Str)

/-- A reference is validated, and its path is kept for the scan. -/
def collect (acc : Collected) (value : Value) (context : Str) : Except Exn Collected := do
  let role ← validateRef w.files value context
  match value with
  | .dict row => do
    let path ← safePath (Dict.get row "path") (dot context "path")
    .ok ⟨acc.roles ++ [role], acc.artifactPaths ++ [(path, role)]⟩
  | _ => .ok { acc with roles := acc.roles ++ [role] }

/-- One entry of `benchmark_provenance`, whose role is fixed. -/
def collectBenchmark (artifactPaths : List (Path × Str)) (item : Value) (context : Str) :
    Except Exn (List (Path × Str)) := do
  let role ← validateRef w.files item context
  require (decide (role = str "benchmark-provenance")) (context ++ str " must use benchmark-provenance role")
  match item with
  | .dict row => do
    let path ← safePath (Dict.get row "path") (dot context "path")
    .ok (artifactPaths ++ [(path, str "benchmark-provenance")])
  | _ => .ok artifactPaths

/-- `validate_protected_review_proof`, whose error is the manifest's. -/
def validateReview (path : Path) : Except Exn Unit :=
  match ProtectedReview.validateProof b w.files path ProtectedReview.defaultSchema with
  | .error (.error message) =>
    fail (str "invalid protected-environment-review artifact " ++ path.asPosix ++ str ": " ++ message)
  | result => result

/-- The checks of an artifact whose reference has been validated. -/
def scanArtifact (artifact : Path × Str) : Except Exn Unit := do
  checkWhen (decide (artifact.2 = str protectedReviewRole)) (validateReview b w artifact.1)
  rejectClaims b w.files artifact.1 artifact.2

/-- The fields before the references. -/
def validateHeader (data : Dict) (path : Path) : Except Exn Str := do
  onlyFields data fields path.asPosix
  require ((data.get "schema").eqStr b (str schemaId)) (str "unsupported evidence manifest schema")
  let outcome ← text (data.get "outcome") (str "outcome")
  require (isOneOf outcome outcomes) (str "outcome is unsupported")
  require (isFalse (data.get "host_mutation")) (str "manifest.host_mutation must be false")
  require (isFalse (data.get "release_eligible")) (str "manifest.release_eligible must be false")
  require (isFalse (data.get "production_capacity_claim")) (str "manifest.production_capacity_claim must be false")
  let auditId ← text (data.get "audit_id") (str "audit_id")
  require (auditRe.fullmatch auditId) (str "audit_id is malformed")
  let rollbackId ← text (data.get "rollback_id") (str "rollback_id")
  require (rollbackRe.fullmatch rollbackId) (str "rollback_id is malformed")
  let supportedTuple ← text (data.get "supported_tuple") (str "supported_tuple")
  require (tupleRe.fullmatch supportedTuple) (str "supported_tuple is unsupported")
  match data.get "vm_marker" with
  | .dict marker => do
    onlyFields marker markerFields (str "vm_marker")
    require ((Dict.get marker "path").eqStr b (str vmMarker)) (str "VM marker path is invalid")
    require (isTrue (Dict.get marker "present") || isFalse (Dict.get marker "present"))
      (str "vm_marker.present must be a boolean")
    checkWhen (decide (outcome = str "PASS"))
      (require (isTrue (Dict.get marker "present")) (str "VM marker proof is missing"))
  | _ => fail (str "vm_marker must be an object")
  .ok outcome

/-- The references outside `benchmark_provenance`. -/
def collectReferences (data : Dict) : Except Exn Collected := do
  let acc ← referenceFields.foldlM (fun acc field => collect w acc (data.get field) (str field)) ⟨[], []⟩
  require (acc.roles.any (fun role => isOneOf role bpfRoles)) (str "BPF metadata or SKIP JSON role is required")
  match data.get "artifacts" with
  | .list (first :: more) => do
    let acc ← (first :: more).zipIdx.foldlM
      (fun acc (item, index) => collect w acc item (at_ (str "artifacts") index)) acc
    let missing := sorted ((requiredRoles.map str).filter (fun role => !acc.roles.contains role))
    require missing.isEmpty (str "missing required artifact role(s): " ++ join (str ", ") missing)
    .ok acc
  | _ => fail (str "artifacts must be a non-empty list")

/-- `benchmark_provenance`: references, or the object that says why there are none. -/
def collectProvenance (data : Dict) (outcome : Str) (artifactPaths : List (Path × Str)) :
    Except Exn (List (Path × Str)) :=
  match data.get "benchmark_provenance" with
  | .list items => do
    require (!items.isEmpty) (str "benchmark_provenance must be a non-empty list")
    items.zipIdx.foldlM (fun acc (item, index) => collectBenchmark w acc item (at_ (str "benchmark_provenance") index))
      artifactPaths
  | .dict benchmark => do
    validateBenchmarkNotApplicable b benchmark outcome
    .ok artifactPaths
  | _ => fail (str "benchmark_provenance must be artifact references or a not-applicable object")

/-- `validate_manifest(path, schema_path, source_root)`. -/
def validateManifest (path schemaPath : Path) (sourceRoot : Option Path) : Except Exn Unit := do
  let schema ← loadJson w.files schemaPath
  require ((schema.get "$id").eqStr b (str schemaId)) (str "evidence manifest schema $id mismatch")
  let data ← loadJson w.files path
  let outcome ← validateHeader b data path
  let acc ← collectReferences w data
  let artifactPaths ← collectProvenance b w data outcome acc.artifactPaths
  validatePrivacy b (data.get "privacy_scan")
  validateAttestation (data.get "attestation")
  trackedSources w (data.get "required_sources") (sourceRoot.getD w.cwd)
  artifactPaths.forM (scanArtifact b w)

end Manifest

end Exasphere.Qa.EvidenceManifest

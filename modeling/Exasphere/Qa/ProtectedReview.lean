import Exasphere.Qa.Common

/-!
# Protected-environment reviews (`qa/protected_environment_review_check.py`)

`validateProof` is the check of a review artifact and of the schema file that stands beside it.
-/

namespace Exasphere.Qa.ProtectedReview

open Exasphere.Lib Exasphere.Py

def schemaId : String := "zig-scheduler/protected-environment-review/v1"

/-- `DEFAULT_SCHEMA`. -/
def defaultSchema : Path := .parse (str "schemas/control/protected-environment-review.v1.schema.json")

def rootFields : List String :=
  ["schema", "run_id", "run_url", "head_sha", "environment_name", "environment_id", "reviewer_status",
    "reviewer_identity", "reviewer_id", "comment", "review_history_api_url", "collected_at", "host_mutation",
    "release_eligible", "production_capacity_claim"]

def schemaFields : List String := ["$id", "$schema", "type", "additionalProperties", "required", "properties"]

def requiredComment : String := "manual protected VM proof only; not release approval"

def environmentName : String := "vm-proof-manual"

/-! ## Patterns -/

/-- `api[_-]?key` after the given word. -/
def keyOf (word : String) : Re := .seq (.litI word) (.seq (.opt (.cls (Re.oneOf "_-"))) (.litI "key"))

/-- `PRIVACY_KEY_RE`. -/
def privacyKeyRe : Re :=
  .choice [.litI "authorization", .litI "bearer", .litI "token", .litI "secret", .litI "password", keyOf "api",
    .litI "cookie", .litI "session", keyOf "private", .litI "cmdline", .litI "argv"]

/-- `[A-Za-z0-9_]` under `re.IGNORECASE`. -/
def isWordI (c : Nat) : Bool := isAlnum c || decide (c = 95) || [0x130, 0x131, 0x17F, 0x212A].contains c

/-- `PRIVATE_VALUE_RE`. -/
def privateValueRe : Re :=
  .choice [.litI "authorization:",
    .seq (.litI "bearer") (.seq (.plus isSpace) (.plus (fun c => isWordI c || Re.oneOf ".~+/=-" c))),
    .seq (.litI "ghp_") (.plus isWordI), .seq (.litI "github_pat_") (.plus isWordI)]

/-- `RFC3339_UTC_RE`. -/
def rfc3339UtcRe : Re :=
  let two := Re.exactly Py.isDigit 2
  .seq .start (.seq (.exactly Py.isDigit 4) (.seq (.lit "-") (.seq two (.seq (.lit "-") (.seq two (.seq (.lit "T")
    (.seq two (.seq (.lit ":") (.seq two (.seq (.lit ":") (.seq two (.seq (.lit "Z") .finish))))))))))))

/-- The groups of `RUN_URL_RE` and of `API_URL_RE`: owner, repository and run behind the host, then `behind`. -/
def urlGroups (host : String) (behind : List String) (url : Str) : Option (Str × Str × Str) :=
  if (str host).isPrefixOf url then
    match (url.drop (str host).length).splitOn 47 with
    | owner :: repository :: actions :: runs :: run :: rest =>
      if owner ≠ [] ∧ repository ≠ [] ∧ actions = str "actions" ∧ runs = str "runs" ∧ run ≠ [] ∧ run.all Py.isDigit ∧
        rest = behind.map str then some (owner, repository, run) else none
    | _ => none
  else none

/-! ## Checks -/

def loadJsonObject (fs : Files) (path : Path) : Except Exn Dict :=
  loadObject rejectConstant " must contain a JSON object" fs path

def onlyFields (row : Dict) (allowed : List String) (context : Str) : Except Exn Unit :=
  Qa.onlyFields "fields" row allowed context

/-- `int_field(value, context)`. -/
def intField (value : Value) (context : Str) : Except Exn Int :=
  match value with
  | .int i => if i < 1 then fail (context ++ str " must be a positive integer") else .ok i
  | _ => fail (context ++ str " must be a positive integer")

mutual

/-- `scan_privacy(value, context)`. -/
def scanPrivacy (context : Str) : Value → Except Exn Unit
  | .str s => require (!privateValueRe.search s) (context ++ str " contains privacy-unsafe value")
  | .list items => scanItems context 0 items
  | .dict members => scanMembers context members
  | _ => .ok ()

def scanItems (context : Str) (index : Nat) : List Value → Except Exn Unit
  | [] => .ok ()
  | v :: vs => do
    scanPrivacy (at_ context index) v
    scanItems context (index + 1) vs

def scanMembers (context : Str) : Dict → Except Exn Unit
  | [] => .ok ()
  | (k, v) :: d => do
    require (!privacyKeyRe.search k) (context ++ 46 :: k ++ str " is a privacy-unsafe key")
    scanPrivacy (context ++ 46 :: k) v
    scanMembers context d

end

variable (b : Builtins)

def validateSchemaFile (fs : Files) (path : Path) : Except Exn Unit := do
  let schema ← loadJsonObject fs path
  onlyFields schema schemaFields (str "schema")
  require ((schema.get "$id").eqStr b (str schemaId)) (str "protected review schema $id mismatch")
  match schema.get "required" with
  | .list required => do
    let names ← required.mapM (fun item => text item (str "schema.required[]"))
    require (names.all (fun n => isOneOf n rootFields) && rootFields.all (fun f => names.contains (str f)))
      (str "schema.required must match protected review root fields")
  | _ => fail (str "schema.required must be a list")
  require (isFalse (schema.get "additionalProperties")) (str "schema must reject additional properties")

/-- `validate_proof(path, schema_path)`. -/
def validateProof (fs : Files) (path schemaPath : Path) : Except Exn Unit := do
  validateSchemaFile b fs schemaPath
  let data ← loadJsonObject fs path
  scanPrivacy path.asPosix (.dict data)
  onlyFields data rootFields path.asPosix
  require ((data.get "schema").eqStr b (str schemaId)) (str "unsupported protected review schema")
  let runId ← text (data.get "run_id") (str "run_id")
  require (runId.all Py.isDigit) (str "run_id must be decimal GitHub Actions run id text")
  let runUrl ← text (data.get "run_url") (str "run_url")
  match urlGroups "https://github.com/" [] runUrl with
  | none => fail (str "run_url must be a GitHub Actions run URL")
  | some (owner, repository, run) => do
    require (decide (run = runId)) (str "run_url run id must match run_id")
    let headSha ← text (data.get "head_sha") (str "head_sha")
    require (decide (headSha.length = 40) && headSha.all isHex) (str "head_sha must be 40 lowercase hex characters")
    require ((data.get "environment_name").eqStr b (str environmentName))
      (str "environment_name must be vm-proof-manual")
    let _ ← intField (data.get "environment_id") (str "environment_id")
    require ((data.get "reviewer_status").eqStr b (str "approved")) (str "reviewer_status must be approved")
    let _ ← text (data.get "reviewer_identity") (str "reviewer_identity")
    let _ ← intField (data.get "reviewer_id") (str "reviewer_id")
    require ((data.get "comment").eqStr b (str requiredComment))
      (str "comment must exactly match protected VM proof acknowledgement")
    let apiUrl ← text (data.get "review_history_api_url") (str "review_history_api_url")
    match urlGroups "https://api.github.com/repos/" ["approvals"] apiUrl with
    | none => fail (str "review_history_api_url must be GitHub approvals API URL")
    | some (apiOwner, apiRepository, apiRun) => do
      require (decide (apiOwner = owner ∧ apiRepository = repository))
        (str "review_history_api_url repository must match run_url")
      require (decide (apiRun = runId)) (str "review_history_api_url run id must match run_id")
      let collectedAt ← text (data.get "collected_at") (str "collected_at")
      require (rfc3339UtcRe.fullmatch collectedAt) (str "collected_at must be UTC RFC3339 seconds")
      require (isFalse (data.get "host_mutation")) (str "host_mutation must be false")
      require (isFalse (data.get "release_eligible")) (str "release_eligible must be false")
      require (isFalse (data.get "production_capacity_claim")) (str "production_capacity_claim must be false")

end Exasphere.Qa.ProtectedReview

import Exasphere.Py.Sha256
import Exasphere.Qa.Common

/-!
# Audit ledgers (`qa/audit_ledger_check.py`)

`validateLedger` is the check of a ledger and of the snapshots and transcripts its records name.
-/

namespace Exasphere.Qa.AuditLedger

open Exasphere.Lib Exasphere.Py

def ledgerSchema : String := "zig-scheduler/audit-ledger/v1"

def snapshotSchema : String := "zig-scheduler/rollback-snapshot/v1"

def snapshotFields : List String :=
  ["state_before", "state_after", "ops_before", "ops_after", "enable_seq_before", "enable_seq_after"]

/-- `AUDIT_RE`. -/
def auditRe : Re :=
  .seq .start (.seq (.lit "AUD-") (.seq (.exactly Py.isDigit 8) (.seq (.lit "T") (.seq (.exactly Py.isDigit 6)
    (.seq (.lit "Z-") (.seq (.run isHex 7 (some 12)) (.seq (.lit "-") (.seq (.exactly isHex 6) .finish))))))))

/-- `SECRET_RE`. -/
def secretRe : Re :=
  .choice [.litI "secret", .litI "password", .litI "token", .litI "authorization",
    .seq (.litI "api") (.seq (.opt (.cls (Re.oneOf "_-"))) (.litI "key"))]

/-! ## Files -/

/-- `load_object(path)`. -/
def loadObject (fs : Files) (path : Path) : Except Exn Dict := Qa.loadObject .ok " must contain a JSON object" fs path

/-- The lines from a number on; a blank line holds no record. -/
def loadLines (index : Nat) : List Str → Except Exn (List Dict)
  | [] => .ok []
  | line :: lines =>
    if isBlank line then loadLines (index + 1) lines
    else
      match loads line with
      | .ok (.dict row) => do
        let rows ← loadLines (index + 1) lines
        .ok (row :: rows)
      | .ok _ => fail (str "line " ++ strNat index ++ str " must be a JSON object")
      | .error .jsonDecodeError => fail (str "invalid JSONL line " ++ strNat index)
      | .error e => .error e

/-- The text of a ledger. -/
def readLedger (fs : Files) (path : Path) : Except Exn Str :=
  match fs.readText path with
  | .error .fileNotFound => fail (str "missing ledger: " ++ path.asPosix)
  | result => result

/-- `load_jsonl(path)`. -/
def loadJsonl (fs : Files) (path : Path) : Except Exn (List Dict) := do
  let s ← readLedger fs path
  let rows ← loadLines 1 (splitlines s)
  require (!rows.isEmpty) (str "ledger is empty")
  .ok rows

def sha256File (fs : Files) (path : Path) : Except Exn Str := do
  let data ← fs.readBytes path
  .ok (sha256 data)

/-! ## Records -/

/-- `require_string(data, field, context)`. -/
def requireString (data : Dict) (field : String) (context : Str) : Except Exn Str :=
  match data.get field with
  | .str s =>
    if s = [] then fail (context ++ str " missing non-empty string field: " ++ str field)
    else if secretRe.search s then fail (context ++ str " contains secret-like field: " ++ str field)
    else .ok s
  | _ => fail (context ++ str " missing non-empty string field: " ++ str field)

/-- A text that `requireString` lets through. -/
structure Clean (s : Str) : Prop where
  ne_nil : s ≠ []
  notSecret : secretRe.search s = false

theorem requireString_ok {data : Dict} {field : String} {context s : Str} :
    requireString data field context = .ok s ↔ data.get field = .str s ∧ Clean s := by
  unfold requireString
  cases data.get field with
  | str t =>
    by_cases hne : t = []
    · simp only [hne, ↓reduceIte, fail, reduceCtorEq, false_iff, not_and, Value.str.injEq]
      rintro rfl hclean
      exact hclean.ne_nil rfl
    · by_cases hsecret : secretRe.search t = true
      · simp only [hne, hsecret, ↓reduceIte, fail, reduceCtorEq, false_iff, not_and, Value.str.injEq]
        rintro rfl hclean
        rw [hclean.notSecret] at hsecret
        cases hsecret
      · simp only [hne, hsecret, ↓reduceIte, Except.ok.injEq, Value.str.injEq, Bool.false_eq_true]
        constructor
        · rintro rfl
          exact ⟨rfl, hne, by simpa using hsecret⟩
        · rintro ⟨h, -⟩
          exact h
  | none | bool | int | float | list | dict => simp [fail]

/-- The snapshot of a record. -/
def validateSnapshot (snapshot : Dict) (auditId rollbackId : Str) : Except Exn Unit := do
  let schema ← requireString snapshot "schema" (str "snapshot")
  require (decide (schema = str snapshotSchema)) (str "snapshot unsupported schema")
  let snapshotAuditId ← requireString snapshot "audit_id" (str "snapshot")
  require (decide (snapshotAuditId = auditId)) (str "snapshot audit_id mismatch")
  let snapshotRollbackId ← requireString snapshot "rollback_id" (str "snapshot")
  require (decide (snapshotRollbackId = rollbackId)) (str "snapshot rollback_id mismatch")
  snapshotFields.forM (fun field => do
    let _ ← requireString snapshot field (str "snapshot")
    .ok ())

/-- `validate_record(row, seen, index)`: the audit ids seen, with that of the record. -/
def validateRecord (fs : Files) (seen : List Str) (entry : Dict × Nat) : Except Exn (List Str) := do
  let (row, index) := entry
  let context := at_ (str "ledger") index
  let schema ← requireString row "schema" context
  require (decide (schema = str ledgerSchema)) (context ++ str " unsupported schema")
  let auditId ← requireString row "audit_id" context
  require (auditRe.matchStart auditId) (context ++ str " invalid audit_id")
  require (!seen.contains auditId) (context ++ str " duplicate audit_id: " ++ auditId)
  let rollbackId ← requireString row "rollback_id" context
  let snapshotPath ← requireString row "rollback_snapshot" context
  let transcriptPath ← requireString row "transcript" context
  let snapshotSha ← requireString row "rollback_snapshot_sha256" context
  let transcriptSha ← requireString row "transcript_sha256" context
  require (fs.isFile (.parse snapshotPath) && fs.isFile (.parse transcriptPath))
    (context ++ str " transcript/snapshot artifact missing")
  let actualSnapshotSha ← sha256File fs (.parse snapshotPath)
  require (decide (actualSnapshotSha = snapshotSha)) (context ++ str " rollback snapshot hash mismatch")
  let actualTranscriptSha ← sha256File fs (.parse transcriptPath)
  require (decide (actualTranscriptSha = transcriptSha)) (context ++ str " transcript hash mismatch")
  let snapshot ← loadObject fs (.parse snapshotPath)
  validateSnapshot snapshot auditId rollbackId
  .ok (auditId :: seen)

/-- `validate_ledger(path)`. -/
def validateLedger (fs : Files) (path : Path) : Except Exn Unit := do
  let rows ← loadJsonl fs path
  let _ ← rows.zipIdx.foldlM (validateRecord fs) []
  .ok ()

end Exasphere.Qa.AuditLedger

import Exasphere.Qa.Common

/-!
# Daemon event streams (`qa/daemon_event_contract_check.py`)

`validate` is the check of a JSONL stream of daemon events.
-/

namespace Exasphere.Qa.DaemonEvents

open Exasphere.Lib Exasphere.Py

def schemaId : String := "zig-scheduler/daemon-event/v1"

def requiredLifecycle : List String :=
  ["boot", "marker", "verifier", "attach", "runtime_sample", "rollback", "cleanup", "validation", "incident"]

def privateNeedles : List String :=
  ["cmdline", "command_line", "argv", "environment", "\"env\"", "secret", "api_key", "--token", "password="]

/-- `IDENTIFIER`. -/
def identifierRe : Re := .seq .start (.seq (.run Re.isIdChar 1 (some 96)) .finish)

/-- `AUDIT_ID`. -/
def auditIdRe : Re :=
  .seq .start (.seq (.lit "AUD-") (.seq (.exactly Py.isDigit 8) (.seq (.lit "T") (.seq (.exactly Py.isDigit 6)
    (.seq (.lit "Z-") (.seq (.run isHex 7 (some 12)) (.seq (.lit "-") (.seq (.exactly isHex 6) .finish))))))))

structure EventRow where
  seq : Int
  event : Str
  hostMutation : Bool
  raw : Dict

variable (b : Builtins)

/-- `parse_json_value(text, context)` of `qa/frontend_contract_pack_types.py`. -/
def parseJsonValue (s context : Str) : Except Exn Value :=
  let invalid := str "invalid JSON in " ++ context ++ str " at byte "
  let rejectConstant : Value → Except Exn Value
    | .float name =>
      let position := s.tails.findIdx (name.isPrefixOf ·)
      fail (invalid ++ strNat position ++ str ": invalid constant " ++ name)
    | v => .ok v
  match loadsWith rejectConstant s with
  | .error .jsonDecodeError => fail (invalid ++ strNat (b.jsonErrorPos s) ++ str ": " ++ b.jsonErrorMsg s)
  | result => result

def line (lineNumber : Nat) : Str := str "line " ++ strNat lineNumber

def parseObject (s : Str) (lineNumber : Nat) : Except Exn Dict :=
  match parseJsonValue b s (line lineNumber) with
  | .ok (.dict row) => .ok row
  | .ok _ => fail (line lineNumber ++ str ": JSONL row is not an object")
  | .error (.error message) => fail (line lineNumber ++ str ": invalid JSON: " ++ message)
  | .error e => .error e

def requireInt (row : Dict) (field : String) (context : Str) : Except Exn Int :=
  match (row.get field).asInt? with
  | some i => .ok i
  | none => fail (context ++ str ": missing int field " ++ str field)

def requireString (row : Dict) (field : String) (context : Str) : Except Exn Str :=
  match row.get field with
  | .str s => if s = [] then fail (context ++ str ": missing string field " ++ str field) else .ok s
  | _ => fail (context ++ str ": missing string field " ++ str field)

def requireBool (row : Dict) (field : String) (context : Str) : Except Exn Bool :=
  match row.get field with
  | .bool x => .ok x
  | _ => fail (context ++ str ": missing bool field " ++ str field)

/-- The lines from a number on; a blank line holds no row. -/
def loadLines (lineNumber : Nat) : List Str → Except Exn (List EventRow)
  | [] => .ok []
  | s :: lines =>
    if isBlank s then loadLines (lineNumber + 1) lines
    else do
      let raw ← parseObject b s lineNumber
      let seq ← requireInt raw "seq" (line lineNumber)
      let event ← requireString raw "event" (line lineNumber)
      let hostMutation ← requireBool raw "host_mutation" (line lineNumber)
      let rows ← loadLines (lineNumber + 1) lines
      .ok (⟨seq, event, hostMutation, raw⟩ :: rows)

/-- `load_rows(path)`. -/
def loadRows (fs : Files) (path : Path) : Except Exn (List EventRow) := do
  let s ← fs.readText path
  let rows ← loadLines b 1 (splitlines s)
  require (!rows.isEmpty) (str "event stream is empty")
  .ok rows

def hasNeedle (s : Str) : Bool := privateNeedles.any (fun needle => contains s (str needle))

mutual

/-- `contains_private_field(value)`. -/
def containsPrivateField : Value → Bool
  | .str s => hasNeedle s
  | .list items => itemsContainPrivateField items
  | .dict members => membersContainPrivateField members
  | _ => false

def itemsContainPrivateField : List Value → Bool
  | [] => false
  | v :: vs => containsPrivateField v || itemsContainPrivateField vs

def membersContainPrivateField : Dict → Bool
  | [] => false
  | (k, v) :: d =>
    (decide (k ≠ str "command_argv_hash") && (hasNeedle k || containsPrivateField v)) || membersContainPrivateField d

end

def event (seq : Str) : Str := str "event " ++ seq

/-- A sequence number as it is printed; a boolean is an `int` and keeps its name. -/
def EventRow.seqText (row : EventRow) : Str :=
  match row.raw.get "seq" with
  | .bool x => str (if x then "True" else "False")
  | _ => strInt row.seq

/-- `None`, the empty text, or a text of the pattern. -/
def isOptional (pattern : Re) (value : Value) : Bool :=
  match value with
  | .none => true
  | .str s => s.isEmpty || pattern.fullmatch s
  | _ => false

def validateIdentifier (row : EventRow) (field : String) : Except Exn Unit :=
  require (isOptional identifierRe (row.raw.get field)) (event row.seqText ++ str ": invalid " ++ str field)

/-- `validate_row(row, expected_seq)`. -/
def validateRow (row : EventRow) (expectedSeq : Nat) : Except Exn Unit := do
  let expected := strNat expectedSeq
  require ((row.raw.get "schema").eqStr b (str schemaId)) (event expected ++ str ": unsupported schema")
  require (decide (row.seq = expectedSeq))
    (str "event sequence is not incremental: expected " ++ expected ++ str ", got " ++ row.seqText)
  require (!row.hostMutation) (event expected ++ str ": host_mutation must be false")
  ["action_id", "run_id", "target_id", "rollback_id", "target_action_id"].forM (validateIdentifier row)
  require (isOptional auditIdRe (row.raw.get "audit_id")) (event expected ++ str ": invalid audit_id")
  require (!containsPrivateField (.dict row.raw)) (event expected ++ str ": private field leaked")

/-- `validate(path, require_lifecycle)`. -/
def validate (fs : Files) (path : Path) (requireLifecycle : Bool) : Except Exn Unit := do
  let rows ← loadRows b fs path
  (rows.zipIdx 1).forM (fun (row, expectedSeq) => validateRow b row expectedSeq)
  let missing := sorted ((requiredLifecycle.map str).filter (fun e => !(rows.map EventRow.event).contains e))
  checkWhen requireLifecycle
    (require missing.isEmpty (str "missing lifecycle events: " ++ join (str ", ") missing))

end Exasphere.Qa.DaemonEvents

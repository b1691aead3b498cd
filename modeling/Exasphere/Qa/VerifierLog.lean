import Exasphere.Lib.Lines
import Exasphere.Qa.BpfArtifacts
import Exasphere.Qa.MatrixRow

/-!
# Verifier logs (`qa/verifier_log_check.py`, `qa/verifier_vm_check.py`)

`parseLog` gives the verdict of a log: `parseLines` folds its lines into the values they record, `parseVmLiveLog`
decides a log of a virtual machine, and `reasonFrom` any other.
-/

namespace Exasphere.Qa.Verifier

open Exasphere.Lib Exasphere.Py Exasphere.Qa.Bpf

inductive Status
  | pass
  | skip
  | fail
  | refuse
  deriving DecidableEq, Repr

inductive Reason
  | bpftoolUnavailable
  | bpfFsUnavailable
  | unknownSkipped
  | invalidMemAccess
  | helperOrRelocationFailure
  | schedExtStateChanged
  | cgroupMembershipChanged
  | verifierRejected
  | missingStateEvidence
  | verifierAccepted
  | vmVerifierAccepted
  deriving DecidableEq, Repr

/-- The values of the log, the newest first: a key has the value of its last line. -/
abbrev Values := List (Str × Str)

/-- `values.get(key, default)`. -/
def Values.getD (values : Values) (key : String) (default : Str) : Str := (findKey (str key) values).getD default

structure ParsedLog where
  values : Values
  errors : List Str
  skipReason : Str
  bpftoolRc : Option Nat

/-- What `parse_log` returns, but for `schema` and `host_mutation`, which do not depend on the log. -/
structure Result where
  status : Status
  reason : Reason
  input : Str
  object : Str
  objectSha256 : Str
  bpfMetadataPath : Str
  bpfMetadataObjectSha256 : Str
  bpftoolRc : Option Nat
  verifierErrors : List Str
  schedExtStateBefore : Str
  schedExtStateAfter : Str
  enableSeqBefore : Str
  enableSeqAfter : Str
  cgroupMembershipBefore : Str
  cgroupMembershipAfter : Str

/-- `str.isdigit` of one character is that of the Unicode database; `int` takes decimal digits only. -/
structure Digits extends Builtins where
  isDigitChar : Nat → Bool

variable (b : Digits) (host : Host)

/-! ## Lines -/

section Lines

/-- The phrases of `is_verifier_error`. -/
def errorPhrases : List String :=
  ["invalid mem access", "unknown func", "invalid func", "relocation", "program rejected", "permission denied"]

def hasPhrase (line : Str) (phrase : String) : Bool := contains (b.lower line) (str phrase)

def isVerifierError (line : Str) : Bool := errorPhrases.any (hasPhrase b line)

/-- `line.split(c, 1)[-1]`. -/
def behind (c : Nat) (line : Str) : Str := (after [c] line).getD line

/-- `int(value)` of a text for which `value.isdigit()`. -/
def parseRc (value : Str) : Except Exn Nat :=
  if value.all (fun c => (b.decimalValue c).isSome) then MatrixRun.intOfDecimal b.toBuiltins value
  else .error .valueError

/-- `bpftool_rc` of a line that states one. -/
def requireRc (value : Str) : Except Exn Nat := do
  require (!value.isEmpty && value.all b.isDigitChar) (str "invalid bpftool_rc: " ++ value)
  parseRc b value

def rcPrefix : Str := str "bpftool_rc="

/-- The status of `bpftool` after a line. -/
def nextRc (last : Option Nat) (line : Str) : Except Exn (Option Nat) :=
  if rcPrefix.isPrefixOf line then do
    let rc ← requireRc b (behind 61 line)
    .ok (some rc)
  else .ok last

/-- The key and the value that a line assigns. -/
def assignment (line : Str) : Option (Str × Str) :=
  if line.contains 61 && !(str "COMMAND:").isPrefixOf line then
    some (line.takeWhile (· != 61), (line.dropWhile (· != 61)).tail)
  else none

/-- One turn of `parse_lines`. -/
def parseLine (parsed : ParsedLog) (raw : Str) : Except Exn ParsedLog := do
  let line := strip isSpace raw
  let skipReason := if hasPhrase b line "skip:" then strip isSpace (behind 58 line) else parsed.skipReason
  let errors := if isVerifierError b line then parsed.errors ++ [line] else parsed.errors
  let bpftoolRc ← nextRc b parsed.bpftoolRc line
  .ok ⟨(assignment line).toList ++ parsed.values, errors, skipReason, bpftoolRc⟩

/-- `parse_lines(text)`. -/
def parseLines (s : Str) : Except Exn ParsedLog := (splitlines s).foldlM (parseLine b) ⟨[], [], [], none⟩

end Lines

/-! ## Reasons -/

section Reasons

/-- The value before and the value after, which is the same where it is not recorded. -/
def changed (values : Values) (before after : String) : Bool :=
  decide (values.getD before [] ≠ values.getD after (values.getD before []))

def stateChanged (values : Values) : Bool :=
  changed values "sched_ext_state_before" "sched_ext_state_after" ||
    changed values "sched_ext_enable_seq_before" "sched_ext_enable_seq_after"

def cgroupChanged (values : Values) : Bool := changed values "cgroup_membership_before" "cgroup_membership_after"

def missingStateEvidence (values : Values) : Bool :=
  ["sched_ext_state_before", "sched_ext_state_after", "sched_ext_enable_seq_before", "sched_ext_enable_seq_after",
    "cgroup_membership_before", "cgroup_membership_after"].any (fun field => (values.getD field []).isEmpty)

/-- `reason_from(parsed)`. -/
def reasonFrom (parsed : ParsedLog) : Reason :=
  let errors := b.lower (join [10] parsed.errors)
  if parsed.skipReason ≠ [] then
    if contains (b.lower parsed.skipReason) (str "bpftool") then .bpftoolUnavailable
    else if contains (b.lower parsed.skipReason) (str "/sys/fs/bpf") then .bpfFsUnavailable
    else .unknownSkipped
  else if contains errors (str "invalid mem access") then .invalidMemAccess
  else if contains errors (str "relocation") || contains errors (str "unknown func") ||
      contains errors (str "invalid func") then .helperOrRelocationFailure
  else if stateChanged parsed.values then .schedExtStateChanged
  else if cgroupChanged parsed.values then .cgroupMembershipChanged
  else
    match parsed.bpftoolRc with
    | none => .unknownSkipped
    | some rc =>
      if rc ≠ 0 then .verifierRejected
      else if missingStateEvidence parsed.values then .missingStateEvidence
      else .verifierAccepted

/-- `status_from(reason)`. -/
def statusFrom : Reason → Status
  | .verifierAccepted => .pass
  | .bpftoolUnavailable | .bpfFsUnavailable | .unknownSkipped => .skip
  | _ => .fail

end Reasons

/-! ## Logs of a virtual machine -/

section VmLive

def vmLogSchema : String := "zig-scheduler/bpf-verifier-log/v1"

/-- What the log of a virtual machine records. -/
def vmLogValues : List (String × String × String) :=
  [("evidence_mode", "vm-live", "VM verifier log is not VM-live evidence"),
    ("vm_kind", "qemu-vm", "VM verifier log must come from qemu-vm"),
    ("vm_marker_present", "true", "VM verifier log missing VM marker proof"),
    ("vm_marker_path", "/run/zig-scheduler-vm-lab.marker", "VM verifier log missing VM marker proof"),
    ("host_mutation", "false", "VM verifier log must have host_mutation=false"),
    ("release_eligible_live_proof", "true", "VM verifier log must be release-eligible VM-live proof"),
    ("verifier_result", "accepted", "VM verifier log must report verifier acceptance"),
    ("attach_result", "registered", "VM verifier log must report registered attach"),
    ("rollback_status", "PASS", "VM verifier log must include rollback PASS")]

/-- The phrases that the log of a virtual machine must not have. -/
def rejectionPhrases : List String :=
  ["invalid mem access", "unknown func", "invalid func", "program rejected", "permission denied"]

def acceptancePhrases : List String := ["verification time", "registered sched_ext_ops", "unregistered sched_ext_ops"]

def requireKey (values : Values) (field : String) : Except Exn Str := do
  let value := values.getD field []
  require (!value.isEmpty) (str "VM verifier log missing field: " ++ str field)
  .ok value

def requireCheckedValue (values : Values) (field : String) : Except Exn Str := do
  let value ← requireKey values field
  require (decide (value.length = 64) && value.all isHex) (str field ++ str " must be a lowercase sha256")
  .ok value

/-- `require_relative_file(raw_path, context)`, and the files after it. -/
def requireRelativeFile (fs : Files) (rawPath : Str) (context : String) : Except Exn (Path × Files) := do
  let path := Path.parse rawPath
  require (!(path.isAbsolute || path.traverses || host.isSymlink path)) (str context ++ str " path is unsafe")
  let fs ← ensureIfCanonical b.toBuiltins host fs path
  require (fs.isFile path) (str context ++ str " path is missing")
  .ok (path, fs)

def requireVmLogValues (values : Values) : Except Exn Unit :=
  vmLogValues.forM (fun (field, value, message) =>
    require (decide (findKey (str field) values = some (str value))) (str message))

def requireVmLogAcceptance (s : Str) (context : String) : Except Exn Unit := do
  rejectionPhrases.forM (fun phrase =>
    require (!hasPhrase b s phrase) (str context ++ str " contains verifier rejection: " ++ str phrase))
  acceptancePhrases.forM (fun phrase =>
    require (hasPhrase b s phrase) (str context ++ str " missing VM verifier marker: " ++ str phrase))

def requireArtifactHashes (fs : Files) (objectPath metadataPath : Path) (objectSha metadataSha : Str) :
    Except Exn Unit := do
  let artifacts ← validateBpfArtifacts b.toBuiltins host fs objectPath metadataPath
  require (decide (objectSha = artifacts.objectSha256))
    (str "VM verifier evidence object_sha256 disagrees with object file")
  require (decide (metadataSha = artifacts.objectSha256)) (str "VM verifier metadata object sha disagrees with object")

def parseBpftoolRc (values : Values) : Except Exn (Option Nat) :=
  let value := values.getD "bpftool_rc" []
  if value = [] then .ok none
  else do
    let rc ← requireRc b value
    .ok (some rc)

/-- The log states its schema and its mode. -/
def isVmLive (values : Values) : Bool :=
  decide (findKey (str "schema") values = some (str vmLogSchema)) && (findKey (str "evidence_mode") values).isSome

/-- `parse_vm_live_log(path, values, text)` of a log that is one. -/
def parseVmLiveLog (fs : Files) (path : Path) (values : Values) (s : Str) : Except Exn Result := do
  requireVmLogValues values
  let objectSha ← requireCheckedValue values "object_sha256"
  let metadataSha ← requireCheckedValue values "bpf_metadata_object_sha256"
  let object ← requireKey values "object"
  let (objectPath, fs) ← requireRelativeFile b host fs object "object"
  let metadata ← requireKey values "bpf_metadata_path"
  let (metadataPath, fs) ← requireRelativeFile b host fs metadata "bpf_metadata_path"
  requireArtifactHashes b host fs objectPath metadataPath objectSha metadataSha
  requireVmLogAcceptance b s "VM verifier log"
  let bpftoolRc ← parseBpftoolRc b values
  .ok ⟨.pass, .vmVerifierAccepted, path.asPosix, objectPath.asPosix, objectSha, metadataPath.asPosix, metadataSha,
    bpftoolRc, [], values.getD "sched_ext_state_before" [], values.getD "sched_ext_state_after" [],
    values.getD "sched_ext_enable_seq_before" [], values.getD "sched_ext_enable_seq_after" [],
    values.getD "cgroup_membership_before" [], values.getD "cgroup_membership_after" []⟩

end VmLive

/-! ## Verdicts -/

section Verdicts

/-- The verdict of a log that is not that of a virtual machine. -/
def parseHostLog (path : Path) (parsed : ParsedLog) : Except Exn Result := do
  let reason := reasonFrom b parsed
  let status := statusFrom reason
  let values := parsed.values
  require (!(decide (status = .pass) && (stateChanged values || cgroupChanged values)))
    (str "clean verifier logs must preserve sched_ext and cgroup state")
  require (!(decide (status = .pass) && (decide ((values.getD "object_sha256" []).length ≠ 64) ||
      decide ((values.getD "bpf_metadata_object_sha256" []).length ≠ 64))))
    (str "clean verifier logs require object and metadata sha")
  .ok ⟨status, reason, path.asPosix, values.getD "object" [], values.getD "object_sha256" [],
    values.getD "bpf_metadata_path" [], values.getD "bpf_metadata_object_sha256" [], parsed.bpftoolRc, parsed.errors,
    values.getD "sched_ext_state_before" [], values.getD "sched_ext_state_after" [],
    values.getD "sched_ext_enable_seq_before" [], values.getD "sched_ext_enable_seq_after" [],
    values.getD "cgroup_membership_before" [], values.getD "cgroup_membership_after" []⟩

/-- `parse_log(path)`. -/
def parseLog (fs : Files) (path : Path) : Except Exn Result := do
  let s ← fs.readText path
  let parsed ← parseLines b s
  if isVmLive parsed.values then parseVmLiveLog b host fs path parsed.values s else parseHostLog b path parsed

end Verdicts

end Exasphere.Qa.Verifier

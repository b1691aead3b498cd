import Mathlib.Data.Bool.AllAny
import Exasphere.Zig.Fmt
import Exasphere.Zig.Mem

/-!
# Trace snapshots (`observability/root.zig`)

The text format of a tracefs snapshot and its parser. `TraceLine` is what a line says, and `TraceLine.bytes` how it is
written; the parser reads every written line as what it says (`parseEventLine_bytes`), with the errors of its values,
and a whole snapshot as its lines in order, whatever comments and blank lines stand between them
(`parseSnapshot_render`).

Timestamps are floating point numbers: their parser and their arithmetic are parameters (`Clock`).
-/

namespace Exasphere.Observability

open Exasphere.Lib Exasphere.Zig

inductive Error
  | invalidManifest
  | invalidSupportMatrix
  | invalidSnapshotLine
  | missingPayloadField
  | unsupportedFamily
  | unsupportedSchema
  | unsupportedTuple
  | unsupportedEvent
  /-- The panic of an index. -/
  | indexOutOfBounds
  /-- The errors of `std.fmt`. -/
  | invalidCharacter
  | overflow
  /-- An error of reading a file or its JSON, by its name. -/
  | unreadable (name : Bytes)
  deriving DecidableEq, Repr

def Error.ofParseInt : ParseIntError → Error
  | .overflow => .overflow
  | .invalidCharacter => .invalidCharacter

inductive EventKind
  | schedSwitch
  | schedWakeup
  | schedWakeupNew
  | schedProcessFork
  | schedProcessExit
  deriving DecidableEq, Repr

def EventKind.label : EventKind → Bytes
  | .schedSwitch => utf8 "sched_switch"
  | .schedWakeup => utf8 "sched_wakeup"
  | .schedWakeupNew => utf8 "sched_wakeup_new"
  | .schedProcessFork => utf8 "sched_process_fork"
  | .schedProcessExit => utf8 "sched_process_exit"

/-- The arithmetic of `f64` that the observer uses. -/
structure Clock (τ : Type) where
  /-- `std.fmt.parseFloat`. -/
  parse : Bytes → Option τ
  min : τ → τ → τ
  max : τ → τ → τ
  sub : τ → τ → τ
  ofNat : Nat → τ

structure Event (τ : Type) where
  kind : EventKind
  cpu : Nat
  timestamp : τ
  subjectPid : Option Nat
  relatedPid : Option Nat
  comm : Option Bytes
  relatedComm : Option Bytes
  rawLine : Bytes
  deriving DecidableEq, Repr

structure Tuple where
  family : Bytes
  kernelRelease : Bytes
  toolVersion : Bytes
  tracefsRoot : Bytes
  captureRecipe : Bytes
  traceClock : Bytes
  enabledSchedEvents : List Bytes
  scope : Bytes
  mode : Bytes
  timeWindow : Bytes
  snapshotFormatVersion : Bytes
  scrubPolicyVersion : Bytes
  deriving DecidableEq, Repr

/-! ## The parser -/

local instance : LawfulBEq Bytes := inferInstance

section Parser

variable {τ : Type} (clock : Clock τ) (tuple : Tuple)

def parseEventKind (kindName : Bytes) : Except Error EventKind :=
  match findName [("sched_switch", .schedSwitch), ("sched_wakeup", .schedWakeup),
    ("sched_wakeup_new", .schedWakeupNew), ("sched_process_fork", .schedProcessFork),
    ("sched_process_exit", EventKind.schedProcessExit)] kindName with
  | some kind => .ok kind
  | none => .error .unsupportedEvent

def ensureEventAllowed (kind : EventKind) : Except Error Unit :=
  if kind.label ∈ tuple.enabledSchedEvents then .ok () else .error .unsupportedEvent

/-- The number between the first `[` of the line and the next `]`. -/
def parseCpu (line : Bytes) : Except Error Nat :=
  match indexOfScalar 91 line with
  | none => .error .invalidSnapshotLine
  | some start =>
    match indexOfScalar 93 (line.drop (start + 1)) with
    | none => .error .invalidSnapshotLine
    | some length => (parseInt 16 ((line.drop (start + 1)).take length)).mapError .ofParseInt

/-- The value of the first token with the key. -/
def findPayloadValue (payload key : Bytes) : Option Bytes :=
  (tokenizeScalar 32 payload).findSome? fun token =>
    if token = utf8 "==>" then none
    else match indexOfScalar 61 token with
      | none => none
      | some eqIndex => if token.take eqIndex = key then some (token.drop (eqIndex + 1)) else none

def parsePayloadString (payload key : Bytes) : Except Error Bytes :=
  match findPayloadValue payload key with
  | none => .error .missingPayloadField
  | some value => .ok value

def parsePayloadInt (payload key : Bytes) : Except Error Nat :=
  match findPayloadValue payload key with
  | none => .error .missingPayloadField
  | some value => (parseInt 32 value).mapError .ofParseInt

/-- The fields of an event, from the functions that read a field of its payload. -/
def readEvent (kind : EventKind) (cpu : Nat) (timestamp : τ) (rawLine : Bytes)
    (readInt : Bytes → Except Error Nat) (readString : Bytes → Except Error Bytes) : Except Error (Event τ) :=
  match kind with
  | .schedSwitch => do
    let subjectPid ← readInt (utf8 "next_pid")
    let relatedPid ← readInt (utf8 "prev_pid")
    let comm ← readString (utf8 "next_comm")
    let relatedComm ← readString (utf8 "prev_comm")
    .ok { kind, cpu, timestamp, subjectPid := some subjectPid, relatedPid := some relatedPid, comm := some comm,
          relatedComm := some relatedComm, rawLine }
  | .schedProcessFork => do
    let subjectPid ← readInt (utf8 "pid")
    let relatedPid ← readInt (utf8 "child_pid")
    let comm ← readString (utf8 "comm")
    let relatedComm ← readString (utf8 "child_comm")
    .ok { kind, cpu, timestamp, subjectPid := some subjectPid, relatedPid := some relatedPid, comm := some comm,
          relatedComm := some relatedComm, rawLine }
  | kind => do
    let subjectPid ← readInt (utf8 "pid")
    let comm ← readString (utf8 "comm")
    .ok { kind, cpu, timestamp, subjectPid := some subjectPid, relatedPid := none, comm := some comm,
          relatedComm := none, rawLine }

def parseEventLine (line : Bytes) : Except Error (Event τ) :=
  match indexOf (utf8 ": sched_") line with
  | none => .error .invalidSnapshotLine
  | some eventMarker =>
    let left := line.take eventMarker
    let afterTimestamp := line.drop (eventMarker + 2)
    match indexOfScalar 58 afterTimestamp with
    | none => .error .invalidSnapshotLine
    | some kindEnd =>
      match (tokenizeAny [32, 9] left).getLast? with
      | none => .error .invalidSnapshotLine
      | some timestampToken =>
        match clock.parse timestampToken with
        | none => .error .invalidCharacter
        | some timestamp => do
          let cpu ← parseCpu line
          let kind ← parseEventKind (afterTimestamp.take kindEnd)
          ensureEventAllowed tuple kind
          let payload := trimStart [32, 9] (afterTimestamp.drop (kindEnd + 1))
          readEvent kind cpu timestamp line (parsePayloadInt payload) (parsePayloadString payload)

/-- The bytes that are trimmed off a line. -/
def padding : List UInt8 := [32, 9, 13]

/-- Blank lines and comments are skipped. -/
def keepsLine (line : Bytes) : Bool := decide (line ≠ [] ∧ line.head? ≠ some 35)

def snapshotLines (snapshotBytes : Bytes) : List Bytes :=
  ((snapshotBytes.splitOn 10).map (trim padding)).filter keepsLine

def parseSnapshot (snapshotBytes : Bytes) : Except Error (List (Event τ)) := do
  let events ← (snapshotLines snapshotBytes).mapM (parseEventLine clock tuple)
  if events.isEmpty then .error .invalidManifest else .ok events

end Parser

/-! ## What is read fits -/

section Sound

variable {τ : Type} {clock : Clock τ} {tuple : Tuple}

/-- What an event of a snapshot has. -/
structure Event.Sound (tuple : Tuple) (event : Event τ) : Prop where
  enabled : event.kind.label ∈ tuple.enabledSchedEvents
  cpu : event.cpu < 2 ^ 16
  subject : ∃ pid < 2 ^ 32, event.subjectPid = some pid
  related : ∀ pid ∈ event.relatedPid, pid < 2 ^ 32
  /-- Two tasks are named in a switch and in a fork. -/
  pair : event.relatedPid.isSome ↔ event.kind = .schedSwitch ∨ event.kind = .schedProcessFork
  comm : ∃ comm, event.comm = some comm ∧ 32 ∉ comm
  relatedComm : event.relatedComm.isSome = event.relatedPid.isSome ∧ ∀ comm ∈ event.relatedComm, 32 ∉ comm

theorem mapError_eq_ok {ε ε' α : Type} {x : Except ε α} {f : ε → ε'} {a : α} : x.mapError f = .ok a ↔ x = .ok a := by
  cases x <;> simp [Except.mapError]

theorem parsePayloadInt_lt {payload key : Bytes} {value : Nat} (h : parsePayloadInt payload key = .ok value) :
    value < 2 ^ 32 := by
  unfold parsePayloadInt at h
  split at h
  · cases h
  · exact parseInt_lt (mapError_eq_ok.mp h)

/-- A value is a part of a word. -/
theorem parsePayloadString_word {payload key value : Bytes} (h : parsePayloadString payload key = .ok value) :
    32 ∉ value := by
  unfold parsePayloadString at h
  split at h
  · cases h
  next found hfound =>
    obtain rfl := Except.ok.inj h
    obtain ⟨before, token, after, htokens, hvalue, -⟩ := List.findSome?_eq_some_iff.mp hfound
    have hmem : token ∈ tokenizeScalar 32 payload := by simp [htokens]
    have hword := not_mem_of_mem_tokenizeAny hmem
    split_ifs at hvalue
    split at hvalue
    · cases hvalue
    · split_ifs at hvalue
      obtain rfl := Option.some.inj hvalue
      exact fun hmem => hword.2 32 (List.mem_of_mem_drop hmem) (by simp)

theorem readEvent_sound {kind : EventKind} {cpu : Nat} {timestamp : τ} {rawLine : Bytes}
    {readInt : Bytes → Except Error Nat} {readString : Bytes → Except Error Bytes} {event : Event τ}
    (hint : ∀ {key value}, readInt key = .ok value → value < 2 ^ 32)
    (hstring : ∀ {key value}, readString key = .ok value → 32 ∉ value)
    (henabled : kind.label ∈ tuple.enabledSchedEvents) (hcpu : cpu < 2 ^ 16)
    (h : readEvent kind cpu timestamp rawLine readInt readString = .ok event) :
    event.Sound tuple ∧ event.rawLine = rawLine := by
  unfold readEvent at h
  split at h
  next =>
    obtain ⟨subject, hs, h⟩ := bind_eq_ok.mp h
    obtain ⟨related, hr, h⟩ := bind_eq_ok.mp h
    obtain ⟨comm, hc, h⟩ := bind_eq_ok.mp h
    obtain ⟨relatedComm, hrc, h⟩ := bind_eq_ok.mp h
    obtain rfl := Except.ok.inj h
    exact ⟨⟨henabled, hcpu, ⟨subject, hint hs, rfl⟩, fun pid hp => Option.some.inj hp ▸ hint hr, by simp,
      ⟨comm, rfl, hstring hc⟩, rfl, fun comm hcomm => Option.some.inj hcomm ▸ hstring hrc⟩, rfl⟩
  next =>
    obtain ⟨subject, hs, h⟩ := bind_eq_ok.mp h
    obtain ⟨related, hr, h⟩ := bind_eq_ok.mp h
    obtain ⟨comm, hc, h⟩ := bind_eq_ok.mp h
    obtain ⟨relatedComm, hrc, h⟩ := bind_eq_ok.mp h
    obtain rfl := Except.ok.inj h
    exact ⟨⟨henabled, hcpu, ⟨subject, hint hs, rfl⟩, fun pid hp => Option.some.inj hp ▸ hint hr, by simp,
      ⟨comm, rfl, hstring hc⟩, rfl, fun comm hcomm => Option.some.inj hcomm ▸ hstring hrc⟩, rfl⟩
  next hswitch hfork =>
    obtain ⟨subject, hs, h⟩ := bind_eq_ok.mp h
    obtain ⟨comm, hc, h⟩ := bind_eq_ok.mp h
    obtain rfl := Except.ok.inj h
    exact ⟨⟨henabled, hcpu, ⟨subject, hint hs, rfl⟩, nofun, by simpa using ⟨hswitch, hfork⟩,
      ⟨comm, rfl, hstring hc⟩, rfl, nofun⟩, rfl⟩

theorem parseCpu_lt {line : Bytes} {cpu : Nat} (h : parseCpu line = .ok cpu) : cpu < 2 ^ 16 := by
  unfold parseCpu at h
  split at h
  · cases h
  · split at h
    · cases h
    · exact parseInt_lt (mapError_eq_ok.mp h)

/-- What a line is read as fits its types and the tuple. -/
theorem parseEventLine_sound {line : Bytes} {event : Event τ} (h : parseEventLine clock tuple line = .ok event) :
    event.Sound tuple ∧ event.rawLine = line := by
  unfold parseEventLine at h
  split at h
  · cases h
  · dsimp only at h
    split at h
    · cases h
    · split at h
      · cases h
      · split at h
        · cases h
        · obtain ⟨cpu, hcpu, h⟩ := bind_eq_ok.mp h
          obtain ⟨kind, -, h⟩ := bind_eq_ok.mp h
          obtain ⟨_, hallowed, h⟩ := bind_eq_ok.mp h
          have henabled : kind.label ∈ tuple.enabledSchedEvents := by
            by_contra hnot
            rw [ensureEventAllowed, if_neg hnot] at hallowed
            cases hallowed
          exact readEvent_sound parsePayloadInt_lt parsePayloadString_word henabled (parseCpu_lt hcpu) h

end Sound

/-! ## The format -/

/-- A token of a payload. -/
inductive Token
  | field (key value : Bytes)
  | arrow
  deriving DecidableEq, Repr

def Token.bytes : Token → Bytes
  | .field key value => key ++ 61 :: value
  | .arrow => utf8 "==>"

/-- What a line of a snapshot says. -/
structure TraceLine where
  /-- The name and the number of the task, up to the blank in front of the CPU. -/
  task : Bytes
  cpu : Bytes
  flags : Bytes
  stamp : Bytes
  kind : EventKind
  payload : List Token
  deriving DecidableEq, Repr

/-- The part of a line in front of its event. -/
def TraceLine.left (l : TraceLine) : Bytes := l.task ++ 91 :: (l.cpu ++ 93 :: (l.flags ++ 32 :: l.stamp))

def TraceLine.payloadBytes (l : TraceLine) : Bytes := [32].intercalate (l.payload.map Token.bytes)

/-- `TASK-PID [CPU] FLAGS TIMESTAMP: EVENT: FIELDS`. -/
def TraceLine.bytes (l : TraceLine) : Bytes := l.left ++ 58 :: 32 :: (l.kind.label ++ 58 :: 32 :: l.payloadBytes)

def TraceLine.value (l : TraceLine) (key : Bytes) : Option Bytes :=
  l.payload.findSome? fun token =>
    match token with
    | .field k v => if k = key then some v else none
    | .arrow => none

/-- The event that a line says. -/
def TraceLine.event {τ : Type} (clock : Clock τ) (tuple : Tuple) (l : TraceLine) : Except Error (Event τ) :=
  match clock.parse l.stamp with
  | none => .error .invalidCharacter
  | some timestamp => do
    ensureEventAllowed tuple l.kind
    readEvent l.kind (readDecimal l.cpu) timestamp l.bytes
      (fun key =>
        match l.value key with
        | none => .error .missingPayloadField
        | some value => (parseInt 32 value).mapError .ofParseInt)
      (fun key =>
        match l.value key with
        | none => .error .missingPayloadField
        | some value => .ok value)

/-- A token is one word, with its first `=` behind the key. -/
def Token.Printable : Token → Prop
  | .field key value => key ≠ [] ∧ 61 ∉ key ∧ (∀ c ∈ key, c ∉ [32, 9]) ∧ 32 ∉ value
  | .arrow => True

instance : DecidablePred Token.Printable
  | .field key value =>
    have : Decidable (∀ c ∈ key, c ∉ [32, 9]) := List.decidableBAll (fun c => c ∉ [32, 9]) key
    inferInstanceAs (Decidable (key ≠ [] ∧ 61 ∉ key ∧ (∀ c ∈ key, c ∉ [32, 9]) ∧ 32 ∉ value))
  | .arrow => inferInstanceAs (Decidable True)

/-- A line that can be read back: the brackets and the event stand where the parser looks for them. -/
structure TraceLine.Printable (l : TraceLine) : Prop where
  task : 91 ∉ l.task
  cpu : l.cpu ≠ [] ∧ (∀ c ∈ l.cpu, isDigit c = true) ∧ readDecimal l.cpu < 2 ^ 16
  stamp : l.stamp ≠ [] ∧ ∀ c ∈ l.stamp, c ∉ [32, 9]
  /-- No colon in front of the event is followed by a blank. -/
  colon : ¬ [58, 32] <:+: l.left
  payload : ∀ token ∈ l.payload, token.Printable

section Printed

variable {l : TraceLine}

/-- A text that is not in the left part does not start there, where the right part does not go on with it. -/
theorem not_prefix_of_not_infix {x y c : UInt8} {a b : Bytes} (habsent : ¬ [x, y] <:+: a) (hc : c ≠ y) {i : Nat}
    (hi : i < a.length) : ¬ [x, y] <+: (a ++ c :: b).drop i := by
  intro hp
  rw [List.drop_append_of_le_length hi.le] at hp
  obtain ⟨d, rest, hdrop⟩ := List.exists_cons_of_length_pos (l := a.drop i) (by simpa using hi)
  rw [hdrop] at hp
  obtain ⟨rfl, htail⟩ := List.cons_prefix_cons.mp hp
  cases rest with
  | nil => exact hc (List.cons_prefix_cons.mp htail).1.symm
  | cons e rest =>
    obtain ⟨rfl, -⟩ := List.cons_prefix_cons.mp htail
    refine habsent ⟨a.take i, rest, ?_⟩
    rw [List.append_assoc]
    change a.take i ++ x :: y :: rest = a
    rw [← hdrop, List.take_append_drop]

theorem TraceLine.indexOf_bytes (h : l.Printable) : indexOf (utf8 ": sched_") l.bytes = some l.left.length := by
  refine indexOf_append (by decide) ?_ fun i hi hmarker => ?_
  · cases l.kind <;> exact ⟨_, rfl⟩
  · have hcolon : [58, 32] <+: utf8 ": sched_" := ⟨utf8 "sched_", rfl⟩
    exact not_prefix_of_not_infix h.colon (by decide) hi (hcolon.trans hmarker)

/-- What follows the marker. -/
theorem TraceLine.drop_bytes : l.bytes.drop (l.left.length + 2) = l.kind.label ++ 58 :: 32 :: l.payloadBytes := by
  rw [TraceLine.bytes, ← List.drop_drop, List.drop_left]
  rfl

theorem EventKind.colon_not_mem (kind : EventKind) : 58 ∉ kind.label := by cases kind <;> decide

theorem EventKind.parse_label (kind : EventKind) : parseEventKind kind.label = .ok kind := by
  cases kind <;> simp [parseEventKind, EventKind.label, findName]

/-- The timestamp is the last word of the left part. -/
theorem TraceLine.stamp_token (h : l.Printable) : (tokenizeAny [32, 9] l.left).getLast? = some l.stamp := by
  have hleft : l.left = (l.task ++ 91 :: (l.cpu ++ 93 :: l.flags)) ++ 32 :: l.stamp := by simp [TraceLine.left]
  rw [hleft]
  exact getLast?_tokenizeAny _ (by decide) h.stamp.1 h.stamp.2

theorem TraceLine.parseCpu_bytes (h : l.Printable) : parseCpu l.bytes = .ok (readDecimal l.cpu) := by
  obtain ⟨hne, hdigits, hlt⟩ := h.cpu
  have hbytes : l.bytes = l.task ++ 91 :: (l.cpu ++ 93 :: (l.flags ++ 32 :: l.stamp ++
      58 :: 32 :: (l.kind.label ++ 58 :: 32 :: l.payloadBytes))) := by simp [TraceLine.bytes, TraceLine.left]
  have hclose : (93 : UInt8) ∉ l.cpu := fun hmem => absurd (hdigits 93 hmem) (by decide)
  have hdrop : l.bytes.drop (l.task.length + 1) = l.cpu ++ 93 :: (l.flags ++ 32 :: l.stamp ++
      58 :: 32 :: (l.kind.label ++ 58 :: 32 :: l.payloadBytes)) := by
    rw [hbytes, ← List.drop_drop, List.drop_left]
    rfl
  have hopen : indexOfScalar 91 l.bytes = some l.task.length := by
    rw [hbytes]
    exact indexOfScalar_append h.task
  rw [parseCpu, hopen]
  dsimp only
  rw [hdrop, indexOfScalar_append hclose]
  dsimp only
  rw [List.take_left, parseInt_digits hne hdigits hlt]
  rfl

theorem Token.bytes_word {token : Token} (h : token.Printable) : token.bytes ≠ [] ∧ 32 ∉ token.bytes := by
  cases token with
  | field key value =>
    obtain ⟨hne, -, hkey, hvalue⟩ := h
    refine ⟨by simp [Token.bytes], ?_⟩
    simp only [Token.bytes, List.mem_append, List.mem_cons]
    rintro (hmem | hsep | hmem)
    · exact hkey 32 hmem (by decide)
    · exact absurd hsep (by decide)
    · exact hvalue hmem
  | arrow => exact ⟨by decide, by decide⟩

theorem TraceLine.tokens_payload (h : l.Printable) :
    tokenizeScalar 32 l.payloadBytes = l.payload.map Token.bytes := by
  refine tokenizeScalar_intercalate fun w hw => ?_
  obtain ⟨token, ht, rfl⟩ := List.mem_map.mp hw
  exact Token.bytes_word (h.payload token ht)

theorem findSome?_congr {α β : Type*} {f g : α → Option β} {l : List α} (h : ∀ a ∈ l, f a = g a) :
    l.findSome? f = l.findSome? g := by
  induction l with
  | nil => rfl
  | cons a l ih =>
    rw [List.findSome?_cons, List.findSome?_cons, h a (by simp), ih fun b hb => h b (by simp [hb])]

/-- The parser finds the values that the line gives. -/
theorem TraceLine.findPayloadValue_eq (h : l.Printable) (key : Bytes) :
    findPayloadValue l.payloadBytes key = l.value key := by
  rw [findPayloadValue, l.tokens_payload h, List.findSome?_map]
  refine findSome?_congr fun token ht => ?_
  cases token with
  | field k v =>
    obtain ⟨hne, heq, hkey, -⟩ := h.payload _ ht
    have harrow : k ++ 61 :: v ≠ utf8 "==>" := by
      intro harrow
      obtain ⟨c, k, rfl⟩ := List.exists_cons_of_ne_nil hne
      have hc : c = 61 := (List.cons.inj harrow).1
      exact heq (by simp [hc])
    simp only [Function.comp_apply, Token.bytes, harrow, if_false, indexOfScalar_append heq, List.take_left]
    rw [← List.drop_drop, List.drop_left]
    rfl
  | arrow => rfl

theorem TraceLine.trimStart_payload (h : l.Printable) :
    trimStart [32, 9] (32 :: l.payloadBytes) = l.payloadBytes := by
  have hstart : ∀ c ∈ l.payloadBytes.head?, c ∉ [32, 9] := by
    unfold TraceLine.payloadBytes
    cases hp : l.payload with
    | nil => simp
    | cons token rest =>
      have htoken := h.payload token (by simp [hp])
      have hhead : ([32].intercalate ((token :: rest).map Token.bytes)).head? = token.bytes.head? := by
        obtain ⟨c, t, ht⟩ := List.exists_cons_of_ne_nil (Token.bytes_word htoken).1
        cases rest <;> simp [List.intercalate, ht]
      rw [hhead]
      cases token with
      | field key value =>
        obtain ⟨c, k, rfl⟩ := List.exists_cons_of_ne_nil htoken.1
        simpa [Token.bytes] using htoken.2.2.1 c (by simp)
      | arrow =>
        intro c hc
        obtain rfl := Option.some.inj hc
        decide
  rw [trimStart, List.dropWhile_cons_of_pos (by decide)]
  cases hp : l.payloadBytes with
  | nil => rfl
  | cons c rest => exact List.dropWhile_cons_of_neg (by simpa using hstart c (by simp [hp]))

/-- **A printed line is read as what it says.** -/
theorem parseEventLine_bytes {τ : Type} (clock : Clock τ) (tuple : Tuple) (h : l.Printable) :
    parseEventLine clock tuple l.bytes = l.event clock tuple := by
  have hleft : l.bytes.take l.left.length = l.left := List.take_left
  have hkind : indexOfScalar 58 (l.kind.label ++ 58 :: 32 :: l.payloadBytes) = some l.kind.label.length :=
    indexOfScalar_append l.kind.colon_not_mem
  have hrest : (l.kind.label ++ 58 :: 32 :: l.payloadBytes).drop (l.kind.label.length + 1) = 32 :: l.payloadBytes := by
    rw [← List.drop_drop, List.drop_left]
    rfl
  unfold parseEventLine TraceLine.event
  rw [l.indexOf_bytes h]
  simp only [l.drop_bytes, hleft, hkind, l.stamp_token h, l.parseCpu_bytes h, ok_bind, List.take_left,
    EventKind.parse_label, hrest, l.trimStart_payload h]
  cases clock.parse l.stamp with
  | none => rfl
  | some timestamp =>
    have hint : parsePayloadInt l.payloadBytes = fun key =>
        match l.value key with
        | none => .error .missingPayloadField
        | some value => (parseInt 32 value).mapError .ofParseInt := by
      funext key
      rw [parsePayloadInt, l.findPayloadValue_eq h]
    have hstring : parsePayloadString l.payloadBytes = fun key =>
        match l.value key with
        | none => .error .missingPayloadField
        | some value => .ok value := by
      funext key
      rw [parsePayloadString, l.findPayloadValue_eq h]
    rw [hint, hstring]

end Printed

/-! ## Whole snapshots -/

inductive Item
  | comment (indent text : Bytes)
  | blank (text : Bytes)
  | trace (indent : Bytes) (line : TraceLine) (trail : Bytes)
  deriving DecidableEq, Repr

def Item.bytes : Item → Bytes
  | .comment indent text => indent ++ 35 :: text
  | .blank text => text
  | .trace indent line trail => indent ++ line.bytes ++ trail

def Item.line? : Item → Option TraceLine
  | .trace _ line _ => some line
  | _ => none

structure Item.Printable (item : Item) : Prop where
  newline : 10 ∉ item.bytes
  padded : match item with
    | .comment indent _ => ∀ c ∈ indent, c ∈ padding
    | .blank text => ∀ c ∈ text, c ∈ padding
    | .trace indent line trail => line.Printable ∧ (∀ c ∈ indent, c ∈ padding) ∧ (∀ c ∈ trail, c ∈ padding) ∧
        (∀ c ∈ line.bytes.head?, c ∉ padding ∧ c ≠ 35) ∧ ∀ c ∈ line.bytes.getLast?, c ∉ padding

/-- The text of a snapshot. -/
def render (items : List Item) : Bytes := [10].intercalate (items.map Item.bytes)

/-- The parser keeps a line when it is one of the trace. -/
theorem Item.kept {item : Item} (h : item.Printable) :
    keepsLine (trim padding item.bytes) = item.line?.isSome ∧
      ∀ line ∈ item.line?, trim padding item.bytes = line.bytes := by
  cases item with
  | comment indent text =>
    refine ⟨decide_eq_false ?_, nofun⟩
    rintro ⟨-, hhead⟩
    exact hhead (head?_trim h.padded (by decide))
  | blank text =>
    refine ⟨?_, nofun⟩
    rw [Item.bytes, trim_blank h.padded]
    rfl
  | trace indent line trail =>
    obtain ⟨hline, hindent, htrail, hhead, hlast⟩ := h.padded
    have hne : line.bytes ≠ [] := by simp [TraceLine.bytes]
    have htrim : trim padding (Item.trace indent line trail).bytes = line.bytes :=
      trim_pad hindent htrail (fun c hc => (hhead c hc).1) hlast hne
    refine ⟨?_, fun other ho => Option.some.inj ho ▸ htrim⟩
    rw [htrim]
    exact decide_eq_true ⟨hne, fun h35 => (hhead 35 h35).2 rfl⟩

theorem filter_keepsLine {items : List Item} (h : ∀ item ∈ items, item.Printable) :
    ((items.map Item.bytes).map (trim padding)).filter keepsLine =
      (items.filterMap Item.line?).map TraceLine.bytes := by
  induction items with
  | nil => rfl
  | cons item items ih =>
    obtain ⟨hkept, htrim⟩ := Item.kept (h item (by simp))
    rw [List.map_cons, List.map_cons, List.filter_cons, hkept, List.filterMap_cons,
      ih fun item hi => h item (by simp [hi])]
    cases hline : item.line? with
    | none => rfl
    | some line => rw [Option.isSome_some, if_pos rfl, htrim line hline, List.map_cons]

theorem snapshotLines_render {items : List Item} (h : ∀ item ∈ items, item.Printable) :
    snapshotLines (render items) = (items.filterMap Item.line?).map TraceLine.bytes := by
  cases hitems : items with
  | nil => decide
  | cons item rest =>
    have hsplit : (render items).splitOn 10 = items.map Item.bytes := by
      refine List.splitOn_intercalate 10 (fun l hl => ?_) (by simp [hitems])
      obtain ⟨item, hi, rfl⟩ := List.mem_map.mp hl
      exact (h item hi).newline
    rw [← hitems, snapshotLines, hsplit, filter_keepsLine h]

theorem Item.line_printable {item : Item} (h : item.Printable) {line : TraceLine} (hl : item.line? = some line) :
    line.Printable := by
  cases item with
  | comment indent text => cases hl
  | blank text => cases hl
  | trace indent other trail => exact Option.some.inj hl ▸ h.padded.1

theorem mapM_congr {ε α β : Type} {f g : α → Except ε β} {l : List α} (h : ∀ a ∈ l, f a = g a) :
    l.mapM f = l.mapM g := by
  induction l with
  | nil => rfl
  | cons a l ih => rw [List.mapM_cons, List.mapM_cons, h a (by simp), ih fun b hb => h b (by simp [hb])]

/-- **A snapshot is read as its lines**, in order and whatever stands between them. -/
theorem parseSnapshot_render {τ : Type} (clock : Clock τ) (tuple : Tuple) {items : List Item}
    (h : ∀ item ∈ items, item.Printable) :
    parseSnapshot clock tuple (render items) = (do
      let events ← (items.filterMap Item.line?).mapM (TraceLine.event clock tuple)
      if events.isEmpty then .error .invalidManifest else .ok events) := by
  have hlines : ((items.filterMap Item.line?).map TraceLine.bytes).mapM (parseEventLine clock tuple) =
      (items.filterMap Item.line?).mapM (TraceLine.event clock tuple) := by
    rw [List.mapM_map]
    refine mapM_congr fun line hl => ?_
    obtain ⟨item, hi, hline⟩ := List.mem_filterMap.mp hl
    exact parseEventLine_bytes clock tuple (Item.line_printable (h item hi) hline)
  rw [parseSnapshot, snapshotLines_render h, hlines]

/-- A wakeup of the committed snapshot, at a full second. -/
def demoWakeup : TraceLine where
  task := utf8 "swapper/0-0         "
  cpu := utf8 "000"
  flags := utf8 " d..2 "
  stamp := utf8 "1000"
  kind := .schedWakeup
  payload := [.field (utf8 "comm") (utf8 "demo-worker"), .field (utf8 "pid") (utf8 "101"),
    .field (utf8 "prio") (utf8 "120"), .field (utf8 "target_cpu") (utf8 "000")]

/-- Timestamps at full seconds. -/
def secondsClock : Clock Nat where
  parse raw := (parseUnsigned 53 raw).toOption
  min := min
  max := max
  sub := (· - ·)
  ofNat n := n

def demoTuple : Tuple :=
  { family := utf8 "tracefs-sched-snapshot", kernelRelease := utf8 "linux-6.6",
    toolVersion := utf8 "tracefs-kernel-6.6",
    tracefsRoot := utf8 "/sys/kernel/tracing", captureRecipe := utf8 "snapshot=1", traceClock := utf8 "global",
    enabledSchedEvents := [utf8 "sched_switch", utf8 "sched_wakeup"], scope := utf8 "system-wide",
    mode := utf8 "snapshot", timeWindow := utf8 "single bounded snapshot",
    snapshotFormatVersion := utf8 "tracefs-sched-text-v1", scrubPolicyVersion := utf8 "linux-observability-scrub-v1" }

theorem parseSnapshot_render_demo :
    parseSnapshot secondsClock demoTuple
      (render [.comment [] (utf8 " tracer: nop"), .trace [32, 32] demoWakeup [13], .blank []]) =
      .ok [⟨.schedWakeup, 0, 1000, some 101, none, some (utf8 "demo-worker"), none, demoWakeup.bytes⟩] := by
  have hline : demoWakeup.Printable :=
    ⟨by decide, ⟨by decide, List.all_eq_true.mp (by decide), by decide⟩,
      ⟨by decide, List.all_iff_forall_prop.mp (by decide)⟩, by decide, by decide⟩
  have hhead : demoWakeup.bytes.head? = some 115 := by decide
  have hlast : demoWakeup.bytes.getLast? = some 48 := by decide
  refine (parseSnapshot_render secondsClock demoTuple ?_).trans (by decide +kernel)
  simp only [List.forall_mem_cons, List.not_mem_nil, false_implies, implies_true, and_true]
  refine ⟨⟨by decide, nofun⟩, ⟨by decide, hline, ?_, ?_, ?_, ?_⟩, by decide, nofun⟩
  · exact List.all_iff_forall_prop.mp (by decide)
  · exact List.all_iff_forall_prop.mp (by decide)
  · simp [hhead, padding]
  · simp [hlast, padding]

end Exasphere.Observability

import Exasphere.Json.Access
import Exasphere.Core.Privacy

/-!
# Events (`src/core/event.cpp`)

The event record of the profiler and its JSON form, `xsprof/event/v1`. `eventToJson` writes a sanitized copy, so the
value behind a sensitive key shows in the record exactly where the privacy filter lets it through; `eventFromJson`
reads the record back. 64-bit fields go through `long long` and come back unchanged.
-/

namespace Exasphere.Core

open Exasphere.Lib Exasphere.Json

inductive EventKind
  | schedSwitch
  | schedWakeup
  | schedMigrate
  | runqueueSample
  | priorityInversion
  | lockContention
  | pageFault
  | tlbMiss
  | cacheMiss
  | hugePage
  | numaBalance
  | allocSample
  | mallocHotspot
  | marker
  | capability
  | refusal
  | incident
  | runtimeSample
  deriving DecidableEq, Repr

def eventKindName : EventKind → String
  | .schedSwitch => "sched_switch"
  | .schedWakeup => "sched_wakeup"
  | .schedMigrate => "sched_migrate"
  | .runqueueSample => "runqueue_sample"
  | .priorityInversion => "priority_inversion"
  | .lockContention => "lock_contention"
  | .pageFault => "page_fault"
  | .tlbMiss => "tlb_miss"
  | .cacheMiss => "cache_miss"
  | .hugePage => "huge_page"
  | .numaBalance => "numa_balance"
  | .allocSample => "alloc_sample"
  | .mallocHotspot => "malloc_hotspot"
  | .marker => "marker"
  | .capability => "capability"
  | .refusal => "refusal"
  | .incident => "incident"
  | .runtimeSample => "runtime_sample"

/-- The `table` of `event_from_json`. -/
def eventKindTable : List (String × EventKind) :=
  [("sched_switch", .schedSwitch), ("sched_wakeup", .schedWakeup), ("sched_migrate", .schedMigrate),
    ("runqueue_sample", .runqueueSample), ("priority_inversion", .priorityInversion),
    ("lock_contention", .lockContention), ("page_fault", .pageFault), ("tlb_miss", .tlbMiss),
    ("cache_miss", .cacheMiss), ("huge_page", .hugePage), ("numa_balance", .numaBalance),
    ("alloc_sample", .allocSample), ("malloc_hotspot", .mallocHotspot), ("marker", .marker),
    ("capability", .capability), ("refusal", .refusal), ("incident", .incident), ("runtime_sample", .runtimeSample)]

structure RawEvent where
  kind : EventKind := .marker
  tsNs : UInt64 := 0
  cpu : Int32 := -1
  pid : Int32 := -1
  tid : Int32 := -1
  a : UInt64 := 0
  b : UInt64 := 0
  c : UInt64 := 0
  comm : Bytes := []
  detail : Bytes := []
  deriving DecidableEq

def sanitizeEvent (e : RawEvent) : RawEvent :=
  let e := if e.comm.isEmpty then e else { e with comm := boundComm e.comm false }
  if e.detail.isEmpty then e else { e with detail := redact e.detail }

def eventToJson (e : RawEvent) : Value :=
  let sanitized := sanitizeEvent e
  Value.makeObject
    |>.set "schema" (.ofLiteral "xsprof/event/v1")
    |>.set "event" (.ofLiteral (eventKindName sanitized.kind))
    |>.set "ts_ns" (.ofUInt64 sanitized.tsNs)
    |>.set "cpu" (.ofInt32 sanitized.cpu)
    |>.set "pid" (.ofInt32 sanitized.pid)
    |>.set "tid" (.ofInt32 sanitized.tid)
    |>.set "a" (.ofUInt64 sanitized.a)
    |>.set "b" (.ofUInt64 sanitized.b)
    |>.set "c" (.ofUInt64 sanitized.c)
    |>.setNonempty "comm" sanitized.comm
    |>.setNonempty "detail" sanitized.detail
    |>.set "host_mutation" (.bool false)

/-- `event_from_json` into `out`; `none` is the result `false`, which leaves `out` as it was. -/
def eventFromJson (v : Value) (out : RawEvent) : Option RawEvent := do
  guard v.isObject
  let schema ← v.find "schema"
  guard (schema.asString = utf8 "xsprof/event/v1")
  let ev ← v.find "event"
  let kind ← findName eventKindTable ev.asString
  return {
    kind := kind
    tsNs := (v.find "ts_ns").elim out.tsNs (fun f => f.asInt.toUInt64)
    cpu := (v.find "cpu").elim out.cpu (fun f => f.asInt.toInt32)
    pid := (v.find "pid").elim out.pid (fun f => f.asInt.toInt32)
    tid := (v.find "tid").elim out.tid (fun f => f.asInt.toInt32)
    a := (v.find "a").elim out.a (fun f => f.asInt.toUInt64)
    b := (v.find "b").elim out.b (fun f => f.asInt.toUInt64)
    c := (v.find "c").elim out.c (fun f => f.asInt.toUInt64)
    comm := (v.find "comm").elim out.comm (fun f => f.asString)
    detail := (v.find "detail").elim out.detail (fun f => f.asString) }

/-! ## Sanitizing -/

section Sanitize

variable (e : RawEvent)

/-- An empty field is sanitized like any other. -/
theorem sanitizeEvent_eq :
    sanitizeEvent e = { e with comm := boundComm e.comm false, detail := redact e.detail } := by
  obtain ⟨kind, tsNs, cpu, pid, tid, a, b, c, comm, detail⟩ := e
  cases comm <;> cases detail <;> rfl

theorem boundComm_boundComm (comm : Bytes) : boundComm (boundComm comm false) false = boundComm comm false := by
  simp [boundComm]

theorem sanitizeEvent_sanitizeEvent : sanitizeEvent (sanitizeEvent e) = sanitizeEvent e := by
  rw [sanitizeEvent_eq, sanitizeEvent_eq]
  simp [redact_redact, boundComm_boundComm]

end Sanitize

/-! ## The codec -/

section Codec

variable (e : RawEvent)

theorem findName_eventKindName (k : EventKind) : findName eventKindTable (utf8 (eventKindName k)) = some k := by
  cases k <;> decide

theorem eventToJson_plain : (eventToJson e).Plain := by
  refine .set (.setNonempty (.setNonempty ?_)) Value.plain_bool
  refine .set (.set (.set (.set (.set (.set (.set (.set (.set Value.plain_makeObject ?_) ?_) ?_) ?_) ?_) ?_) ?_) ?_) ?_
  all_goals rfl

/-- The record of an event decodes to the sanitized event. -/
theorem eventFromJson_eventToJson : eventFromJson (eventToJson e) {} = some (sanitizeEvent e) := by
  unfold eventFromJson eventToJson
  simp [Value.find_setNonempty, findName_eventKindName]

theorem eventToJson_sanitizeEvent : eventToJson (sanitizeEvent e) = eventToJson e := by
  unfold eventToJson
  rw [sanitizeEvent_sanitizeEvent]

/-- **Round trip.** The text of an event decodes, into a default event, to the sanitized event, whose text is the same
bytes. -/
theorem eventFromJson_dump : ∃ v decoded, parse ((eventToJson e).dump false) = .ok v ∧
    eventFromJson v {} = some decoded ∧ decoded = sanitizeEvent e ∧
    (eventToJson decoded).dump false = (eventToJson e).dump false := by
  refine ⟨eventToJson e, sanitizeEvent e, (eventToJson_plain e).read_back, eventFromJson_eventToJson e, rfl, ?_⟩
  rw [eventToJson_sanitizeEvent]

end Codec

/-! ## Sensitive values -/

section Secrets

/-- The detail `p k=v s` of a record. -/
def detailPair (p k v s : Bytes) : Bytes := p ++ k ++ [61] ++ v ++ s

/-- **Non-interference.** The value behind a sensitive key influences neither the redacted detail nor the record of an
event exactly if the token it stands in hides it. -/
theorem redact_hides_value_iff (p k s : Bytes) (hassign : NoAssign k) (hseparator : NoSeparator k)
    (hsensitive : sensitiveKey k = true) (hs : ClosesToken s) :
    (∀ v₁ v₂, NoSeparator v₁ → NoSeparator v₂ →
      redact (detailPair p k v₁ s) = redact (detailPair p k v₂ s) ∧
      ∀ e : RawEvent, eventToJson { e with detail := detailPair p k v₁ s } =
        eventToJson { e with detail := detailPair p k v₂ s }) ↔
    HidesValue (openToken p) k := by
  rw [← redact_pair_iff hassign hseparator hsensitive hs]
  constructor
  · intro h v₁ v₂ h₁ h₂
    exact (h v₁ v₂ h₁ h₂).1
  · intro h v₁ v₂ h₁ h₂
    have hredact : redact (detailPair p k v₁ s) = redact (detailPair p k v₂ s) := h v₁ v₂ h₁ h₂
    refine ⟨hredact, fun e => ?_⟩
    unfold eventToJson
    rw [sanitizeEvent_eq, sanitizeEvent_eq, hredact]

theorem redact_hides_value_after_blank : HidesValue (openToken (utf8 "user=bob ")) (utf8 "Password") ∧
    (∀ v₁ v₂, NoSeparator v₁ → NoSeparator v₂ →
      redact (detailPair (utf8 "user=bob ") (utf8 "Password") v₁ (utf8 ";x")) =
        redact (detailPair (utf8 "user=bob ") (utf8 "Password") v₂ (utf8 ";x")) ∧
      ∀ e : RawEvent, eventToJson { e with detail := detailPair (utf8 "user=bob ") (utf8 "Password") v₁ (utf8 ";x") } =
        eventToJson { e with detail := detailPair (utf8 "user=bob ") (utf8 "Password") v₂ (utf8 ";x") }) := by
  have h : HidesValue (openToken (utf8 "user=bob ")) (utf8 "Password") := by decide
  refine ⟨h, ?_⟩
  rw [redact_hides_value_iff (utf8 "user=bob ") (utf8 "Password") (utf8 ";x") (by decide) (by decide) (by decide)
    (by decide)]
  exact h

/-- A password on a command line is the value of `cmdline`, which is not sensitive. -/
theorem redact_shows_password :
    NoAssign (utf8 "password") ∧ NoSeparator (utf8 "password") ∧ sensitiveKey (utf8 "password") = true ∧
    NoSeparator (utf8 "hunter2") ∧ NoSeparator (utf8 "swordfish") ∧
    redact (utf8 "cmdline=--password=hunter2") = utf8 "cmdline=--password=hunter2" ∧
    redact (detailPair (utf8 "cmdline=--") (utf8 "password") (utf8 "hunter2") []) ≠
      redact (detailPair (utf8 "cmdline=--") (utf8 "password") (utf8 "swordfish") []) := by
  decide

end Secrets

end Exasphere.Core

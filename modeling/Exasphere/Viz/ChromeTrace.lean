import Exasphere.Json.Access
import Exasphere.Core.Event

/-!
# Chrome trace documents (`include/xsprof/chrome_trace.hpp`, `src/viz/chrome_trace.cpp`)

`ChromeTraceBuilder` collects trace events and `build` makes the document out of them. `exportEvents` turns every event
of the profiler into one trace event, behind the name of the group of CPU lanes (`exportEvents_eq`); a context switch
becomes a slice on the lane of its CPU.
-/

namespace Exasphere.Viz

open Exasphere.Lib Exasphere.Json Exasphere.Core

structure TraceEvent where
  name : Bytes
  ph : String := "X"
  cat : String := "sched"
  tsUs : UInt64 := 0
  durUs : UInt64 := 0
  pid : Int64 := 0
  tid : Int64 := 0
  id : UInt64 := 0
  args : Value := Value.makeObject

/-- An interval of microseconds; the end 0 means unbounded. -/
structure TimeWindow where
  startUs : UInt64 := 0
  endUs : UInt64 := 0
  deriving DecidableEq

def TimeWindow.contains (w : TimeWindow) (tsUs : UInt64) : Bool :=
  if tsUs < w.startUs then false
  else if w.endUs > 0 ∧ tsUs > w.endUs then false
  else true

/-! ## The builder -/

/-- The trace events that were added. -/
abbrev ChromeTraceBuilder := List TraceEvent

namespace ChromeTraceBuilder

def addMetadataName (b : ChromeTraceBuilder) (groupName : Bytes) (pid : Int64) : ChromeTraceBuilder :=
  b ++ [{ name := utf8 "process_name", ph := "M", cat := "__metadata", pid := pid, tid := 0,
          args := Value.makeObject.set "name" (.string groupName) }]

def addComplete (b : ChromeTraceBuilder) (name : Bytes) (cat : String) (tsUs durUs : UInt64) (pid tid : Int64)
    (args : Value) : ChromeTraceBuilder :=
  b ++ [{ name := name, ph := "X", cat := cat, tsUs := tsUs, durUs := durUs, pid := pid, tid := tid, args := args }]

/-- The arguments of an instant event: `args` over the scope. -/
def instantArgs (args : Value) : Value :=
  args.asObject.foldl (fun acc m => acc.setBytes m.1 m.2) (Value.makeObject.set "scope" (.ofLiteral "thread"))

def addInstant (b : ChromeTraceBuilder) (name : Bytes) (cat : String) (tsUs : UInt64) (pid tid : Int64)
    (args : Value) : ChromeTraceBuilder :=
  b ++ [{ name := name, ph := "i", cat := cat, tsUs := tsUs, pid := pid, tid := tid, args := instantArgs args }]

def addFlow (b : ChromeTraceBuilder) (name : Bytes) (cat : String) (tsUs : UInt64) (pid tid : Int64) (id : UInt64)
    (atEnd : Bool) : ChromeTraceBuilder :=
  b ++ [{ name := name, ph := if atEnd then "f" else "s", cat := cat, tsUs := tsUs, pid := pid, tid := tid, id := id,
          args := if atEnd then Value.makeObject.set "bp" (.ofLiteral "e") else Value.makeObject }]

end ChromeTraceBuilder

def traceEventToJson (e : TraceEvent) : Value :=
  let ev := Value.makeObject
    |>.set "name" (.string e.name)
    |>.set "ph" (.ofLiteral e.ph)
    |>.set "cat" (.ofLiteral e.cat)
    |>.set "ts" (.ofUInt64 e.tsUs)
  let ev := if e.ph = "X" then ev.set "dur" (.ofUInt64 e.durUs) else ev
  let ev := ev.set "pid" (.int e.pid) |>.set "tid" (.int e.tid)
  let ev := if e.ph = "s" ∨ e.ph = "f" ∨ e.ph = "t" then ev.set "id" (.ofUInt64 e.id) else ev
  if e.args.asObject.isEmpty then ev else ev.set "args" e.args

/-- The document of a list of trace events. -/
def document (events : List Value) : Value :=
  Value.makeObject.set "traceEvents" (.array events) |>.set "displayTimeUnit" (.ofLiteral "ns")

def ChromeTraceBuilder.build (b : ChromeTraceBuilder) : Value := document (b.map traceEventToJson)

def ChromeTraceBuilder.buildWindowed (b : ChromeTraceBuilder) (w : TimeWindow) : Value :=
  document ((b.filter fun e => decide (e.ph = "M") || w.contains e.tsUs).map traceEventToJson)

/-! ## Export -/

/-- The loop body of `export_events`. -/
def exportEvent (b : ChromeTraceBuilder) (e : RawEvent) : ChromeTraceBuilder :=
  let tsUs := e.tsNs / 1000
  match e.kind with
  | .schedSwitch =>
    let args := Value.makeObject
      |>.set "cpu" (.ofInt32 e.cpu)
      |>.set "next_pid" (.ofInt32 e.pid)
      |>.setNonempty "comm" e.comm
    b.addComplete (if e.comm.isEmpty then utf8 "run" else e.comm) "sched" tsUs (e.a / 1000) (-1) e.cpu.toInt64 args
  | .schedWakeup => b.addFlow (utf8 "wakeup") "sched" tsUs e.pid.toInt64 e.tid.toInt64 e.a false
  | .schedMigrate =>
    let args := Value.makeObject
      |>.set "orig_cpu" (.int e.a.toInt64)
      |>.set "dest_cpu" (.int e.b.toInt64)
    b.addInstant (utf8 "migrate") "sched" tsUs e.pid.toInt64 e.tid.toInt64 args
  | .pageFault | .tlbMiss | .cacheMiss =>
    let args := Value.makeObject.set "count" (.ofUInt64 e.a)
    b.addInstant (utf8 (eventKindName e.kind)) "memory" tsUs e.pid.toInt64 e.tid.toInt64 args
  | .mallocHotspot | .allocSample =>
    let args := Value.makeObject.set "bytes" (.ofUInt64 e.a)
    b.addInstant (utf8 "alloc") "memory" tsUs e.pid.toInt64 e.tid.toInt64 args
  | _ => b.addInstant (utf8 (eventKindName e.kind)) "control" tsUs e.pid.toInt64 e.tid.toInt64 Value.makeObject

/-- The builder that `export_events` starts with. -/
def cpuLanes : ChromeTraceBuilder := ChromeTraceBuilder.addMetadataName [] (utf8 "CPUs") (-1)

def exportEvents (events : List RawEvent) : Value := (events.foldl exportEvent cpuLanes).build

/-- The loop body of `export_events_windowed`, with its own switch behind the test of the window. -/
def exportEventWindowed (w : TimeWindow) (b : ChromeTraceBuilder) (e : RawEvent) : ChromeTraceBuilder :=
  let tsUs := e.tsNs / 1000
  if !w.contains tsUs then b
  else match e.kind with
    | .schedSwitch =>
      let args := Value.makeObject
        |>.set "cpu" (.ofInt32 e.cpu)
        |>.set "next_pid" (.ofInt32 e.pid)
        |>.setNonempty "comm" e.comm
      b.addComplete (if e.comm.isEmpty then utf8 "run" else e.comm) "sched" tsUs (e.a / 1000) (-1) e.cpu.toInt64 args
    | .schedWakeup => b.addFlow (utf8 "wakeup") "sched" tsUs e.pid.toInt64 e.tid.toInt64 e.a false
    | .schedMigrate =>
      let args := Value.makeObject
        |>.set "orig_cpu" (.int e.a.toInt64)
        |>.set "dest_cpu" (.int e.b.toInt64)
      b.addInstant (utf8 "migrate") "sched" tsUs e.pid.toInt64 e.tid.toInt64 args
    | .pageFault | .tlbMiss | .cacheMiss =>
      let args := Value.makeObject.set "count" (.ofUInt64 e.a)
      b.addInstant (utf8 (eventKindName e.kind)) "memory" tsUs e.pid.toInt64 e.tid.toInt64 args
    | .mallocHotspot | .allocSample =>
      let args := Value.makeObject.set "bytes" (.ofUInt64 e.a)
      b.addInstant (utf8 "alloc") "memory" tsUs e.pid.toInt64 e.tid.toInt64 args
    | _ => b.addInstant (utf8 (eventKindName e.kind)) "control" tsUs e.pid.toInt64 e.tid.toInt64 Value.makeObject

def exportEventsWindowed (events : List RawEvent) (w : TimeWindow) : Value :=
  (events.foldl (exportEventWindowed w) cpuLanes).build

/-! ## Reading a document -/

/-- The `traceEvents` of a document. -/
def traceEvents (doc : Value) : List Value := ((doc.find "traceEvents").getD .null).asArray

/-- The string member `key` of a trace event. -/
def tag (ev : Value) (key : String) : Bytes := ((ev.find key).getD .null).asString

def isMetadata (ev : Value) : Bool := decide (tag ev "ph" = utf8 "M")

/-- A marker of lost samples. -/
def isUnsafe (ev : Value) : Bool := decide (tag ev "cat" = utf8 "unsafe")

@[simp] theorem traceEvents_document (events : List Value) : traceEvents (document events) = events := by
  simp [traceEvents, document, Value.asArray]

/-! ## The trace event of an event -/

section Export

variable (e : RawEvent)

/-- The trace event that an event adds. -/
def traceOf (e : RawEvent) : TraceEvent := (exportEvent [] e).headD { name := [] }

/-- The name of the group of CPU lanes. -/
def laneName : TraceEvent :=
  { name := utf8 "process_name", ph := "M", cat := "__metadata", pid := -1, tid := 0,
    args := Value.makeObject.set "name" (.string (utf8 "CPUs")) }

theorem exportEvent_eq (b : ChromeTraceBuilder) : exportEvent b e = b ++ [traceOf e] := by
  unfold traceOf exportEvent
  cases e.kind <;> rfl

theorem foldl_exportEvent (events : List RawEvent) (b : ChromeTraceBuilder) :
    events.foldl exportEvent b = b ++ events.map traceOf := by
  induction events generalizing b with
  | nil => simp
  | cons e events ih => rw [List.foldl_cons, ih, exportEvent_eq, List.append_assoc]; rfl

/-- The trace event of an event in a document. -/
def exported (e : RawEvent) : Value := traceEventToJson (traceOf e)

/-- The document has the name of the lanes and one trace event for each event, in order. -/
theorem exportEvents_eq (events : List RawEvent) :
    exportEvents events = document (traceEventToJson laneName :: events.map exported) := by
  rw [exportEvents, ChromeTraceBuilder.build, foldl_exportEvent, List.map_append, List.map_map]
  rfl

end Export

/-! ## Members of a trace event -/

section Members

variable (t : TraceEvent) (e : RawEvent)

theorem tag_ph : tag (traceEventToJson t) "ph" = utf8 t.ph := by
  unfold tag traceEventToJson
  split_ifs <;> simp

theorem tag_cat : tag (traceEventToJson t) "cat" = utf8 t.cat := by
  unfold tag traceEventToJson
  split_ifs <;> simp

theorem find_ts : (traceEventToJson t).find "ts" = some (.ofUInt64 t.tsUs) := by
  unfold traceEventToJson
  split_ifs <;> simp

theorem find_dur (hph : t.ph = "X") : (traceEventToJson t).find "dur" = some (.ofUInt64 t.durUs) := by
  unfold traceEventToJson
  split_ifs <;> simp

theorem find_tid : (traceEventToJson t).find "tid" = some (.int t.tid) := by
  unfold traceEventToJson
  split_ifs <;> simp

/-- Arguments are left out only where there are none. -/
theorem find_args {key : String} {v : Value} (hfind : t.args.find key = some v) :
    (traceEventToJson t).find "args" = some t.args := by
  have hargs : ¬t.args.asObject.isEmpty = true := by
    intro hempty
    rw [Value.find, List.isEmpty_iff.mp hempty] at hfind
    cases hfind
  unfold traceEventToJson
  rw [if_neg hargs]
  simp

theorem isMetadata_laneName : isMetadata (traceEventToJson laneName) = true := by
  simp [isMetadata, tag_ph, laneName]

theorem isMetadata_exported : isMetadata (exported e) = false := by
  simp only [isMetadata, exported, tag_ph, utf8_inj, decide_eq_false_iff_not]
  unfold traceOf exportEvent
  cases e.kind <;> simp [ChromeTraceBuilder.addComplete, ChromeTraceBuilder.addFlow, ChromeTraceBuilder.addInstant]

theorem isUnsafe_laneName : isUnsafe (traceEventToJson laneName) = false := by
  simp [isUnsafe, tag_cat, laneName]

theorem isUnsafe_exported : isUnsafe (exported e) = false := by
  simp only [isUnsafe, exported, tag_cat, utf8_inj, decide_eq_false_iff_not]
  unfold traceOf exportEvent
  cases e.kind <;> simp [ChromeTraceBuilder.addComplete, ChromeTraceBuilder.addFlow, ChromeTraceBuilder.addInstant]

end Members

end Exasphere.Viz

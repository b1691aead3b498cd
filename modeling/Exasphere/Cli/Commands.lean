import Exasphere.Advisor.Rules
import Exasphere.Core.Safety
import Exasphere.Proc.Facts
import Exasphere.Viz.Stream
import Exasphere.Viz.Window

/-!
# The operator (`src/cli/main.cpp`)

A run of the program takes the words of its command line, the host and the operator's files to an exit code, the two
output streams and the files it leaves. The kernel is a parameter: what it answers (`Proc.Host`), what a live capture
delivers, what memory it grants, and what `libbpf` makes of an object. Files are known by their paths as they are
written. A file that can be opened for writing takes all that is written into it; a full disk and a path that is a
device are not modelled.
-/

namespace Exasphere.Cli

open Exasphere.Lib Exasphere.Json Exasphere.Core Exasphere.Proc

local instance : LawfulBEq Bytes := inferInstance

/-- The files of the operator, by path. -/
abbrev Files := Bytes → Option Bytes

structure Machine extends Host where
  /-- `perf_event_open` of the probe: nothing, or `errno` and its text. -/
  perfError : Option (Nat × Bytes)
  /-- What `LiveCapture::run` ends with, after a duration. -/
  liveRun : Int → CapState × List RawEvent
  /-- The build links `libbpf`. -/
  libbpfLinked : Bool
  /-- What an object gives that is loaded, attached and polled for a duration: its error, or its events. -/
  libbpf : Bytes → Int → Except Bytes (List RawEvent)
  /-- The path can be opened for writing. -/
  writable : Bytes → Bool
  /-- An allocation of so many bytes succeeds. -/
  grants : Nat → Bool
  texts : Advisor.Texts

/-- The end of a run. -/
structure Outcome where
  code : Nat
  out : Bytes := []
  err : Bytes := []
  files : Files

inductive Result
  | exited (outcome : Outcome)
  /-- An exception or an overflow; what it leaves in the file it was writing is open. -/
  | aborted (writing : Option Bytes)

/-- A line of a stream. -/
def line (text : Bytes) : Bytes := text ++ [10]

def jsonLine (doc : Value) : Bytes := line (doc.dump false)

/-! ## Read-only commands -/

def writeHelp (prog : Bytes) : Bytes :=
  prog ++ utf8 " — Linux Scheduler & Memory Profiler (C++ rewrite of zig-scheduler)\n\n" ++
    utf8 "USAGE:\n" ++
    utf8 "  " ++ prog ++ utf8 " <command> [options]\n\n" ++
    utf8 "COMMANDS (read-only, fail-closed):\n" ++
    utf8 "  preflight --json        Collect read-only host facts + capability probes " ++
    utf8 "(host_mutation=false)\n" ++
    utf8 "  capabilities --json     Probe collector capabilities " ++
    utf8 "(perf/tracepoint/BPF/PMU/sched_ext)\n" ++
    utf8 "  advise --json|--md      Run the Performance Advisor over a read-only snapshot\n" ++
    utf8 "  timeline --input <journal.jsonl> [--window start:end] [--chunk-size N]\n" ++
    utf8 "                          Emit a Chrome Trace timeline from a recorded JSONL journal\n" ++
    utf8 "  record --duration <ms> [--output <journal.jsonl>]\n" ++
    utf8 "                          Live perf capture (privileged; SKIPs fail-closed unprivileged)\n" ++
    utf8 "  version                 Print version\n" ++
    utf8 "  help                    Print this help\n\n" ++
    utf8 "REFUSED (unsafe verbs; non-zero exit on host by design):\n" ++
    utf8 "  load attach enable mutate apply sched-ext-attach setaffinity setpriority bind\n\n" ++
    utf8 "SAFETY:\n" ++
    utf8 "  Observation is read-only. Any scheduler/memory mutation is refused on the host\n" ++
    utf8 "  and is VM-lab-only with audit-id + rollback-id + lab marker. Every read-only\n" ++
    utf8 "  record carries host_mutation=false. Runtime samples never expose argv/env/secrets.\n"

def refusal (verb : Bytes) : Value :=
  Value.makeObject
    |>.set "schema" (.ofLiteral "xsprof/event/v1")
    |>.set "event" (.ofLiteral "refusal")
    |>.set "verb" (.string verb)
    |>.set "status" (.ofLiteral "refused")
    |>.set "reason" (.string (utf8 "unsafe verb is disabled in the host operator (fail-closed); " ++
      utf8 "mutation is VM-lab-only with audit-id + rollback-id + lab marker"))
    |>.set "host_mutation" (.bool false)

def writeRefusal (files : Files) (verb : Bytes) : Outcome := { code := 1, out := jsonLine (refusal verb), files }

def wantsJson (args : List Bytes) : Bool := decide (utf8 "--json" ∈ args)

def preflightDoc (host : Host) : Value :=
  Value.makeObject
    |>.set "schema" (.ofLiteral "xsprof/preflight/v1")
    |>.set "tool" (.ofLiteral "xsprof")
    |>.set "host_mutation" (.bool false)
    |>.set "capabilities" (.array ((probeCapabilities host).map Capability.toJson))
    |>.set "facts" (factsToJson (collectFacts host))

def cmdPreflight (host : Host) (files : Files) (args : List Bytes) : Outcome :=
  if wantsJson args then { code := 0, out := jsonLine (preflightDoc host), files }
  else { code := 2, err := utf8 "preflight expects --json and remains read-only\n", files }

def capabilitiesDoc (host : Host) : Value := .array ((probeCapabilities host).map Capability.toJson)

def cmdCapabilities (host : Host) (files : Files) (args : List Bytes) : Outcome :=
  if wantsJson args then { code := 0, out := jsonLine (capabilitiesDoc host), files }
  else { code := 2, err := utf8 "capabilities expects --json and remains read-only\n", files }

/-- The facts that the aggregates are made from. -/
def SystemFacts.forAdvisor (f : Proc.SystemFacts) : Collectors.SystemFacts where
  buddyinfo := f.buddyinfo
  numaNodes := f.numaNodes
  perfEventParanoid := f.perfEventParanoid

def cmdAdvise (m : Machine) (files : Files) (args : List Bytes) : Result :=
  match Collectors.aggregatesFromFacts (SystemFacts.forAdvisor (collectFacts m.toHost)) with
  | .error _ => .aborted none
  | .ok agg =>
    if utf8 "--md" ∈ args then .exited { code := 0, out := Advisor.reportMarkdown m.texts {} agg, files }
    else .exited { code := 0, out := jsonLine (Advisor.reportJson m.texts {} agg), files }

/-! ## `timeline` -/

structure TimelineOptions where
  input : Bytes := []
  output : Bytes := []
  windowStr : Bytes := []
  chunkSize : Int := 0
  deriving DecidableEq

/-- An option with a value. -/
def timelineOption (o : TimelineOptions) (arg value : Bytes) : Option TimelineOptions :=
  if arg = utf8 "--input" then some { o with input := value }
  else if arg = utf8 "--window" then some { o with windowStr := value }
  else if arg = utf8 "--chunk-size" then
    some { o with chunkSize := (IStream.convert (signedReading 63) value).toOption.getD 0 }
  else if arg = utf8 "--output" then some { o with output := value }
  else none

/-- The words of the command line; an option at the end has no value and is passed over, like an unknown word. -/
def timelineArgs : List Bytes → TimelineOptions → TimelineOptions
  | [], o => o
  | [_], o => o
  | arg :: value :: rest, o =>
    match timelineOption o arg value with
    | some o => timelineArgs rest o
    | none => timelineArgs (value :: rest) o

/-- Where the chunks go: a file that could be opened, or the output. -/
def chunkedOutcome (files : Files) (target : Option Bytes) (text err : Bytes) : Outcome :=
  match target with
  | none => { code := 0, out := text, err, files }
  | some path => { code := 0, err, files := Function.update files path (some text) }

def withRows (doc : Value) (rows : Nat) : Value := doc.set "journal_rows" (intJson rows)

/-- Where the chunks are written to: the file, or `none` for the output. -/
def chunkTarget (m : Machine) (o : TimelineOptions) : Option Bytes :=
  if o.output ≠ [] ∧ m.writable o.output then some o.output else none

def timelineChunked (m : Machine) (files : Files) (o : TimelineOptions) (window : Option Viz.TimeWindow) : Result :=
  let target := chunkTarget m o
  -- the output is truncated before the input is read
  let content := if target = some o.input then [] else (files o.input).getD []
  match window with
  | some w =>
    match Viz.replayFromJournalWindowed content w with
    | .error _ => .aborted target
    | .ok (doc, rows) => .exited (chunkedOutcome files target (jsonLine (withRows doc rows)) [])
  | none =>
    match Viz.streamTimelineChunked m.grants content (UInt64.ofInt o.chunkSize) with
    | .error _ => .aborted target
    | .ok (text, rows) => .exited (chunkedOutcome files target (line text)
        (utf8 "\x7b\"journal_rows\":" ++ decimal rows ++ utf8 "\x7d\n"))

def timelineLoaded (files : Files) (content : Bytes) (window : Option Viz.TimeWindow) : Result :=
  match window.elim (Viz.replayFromJournal content) (Viz.replayFromJournalWindowed content) with
  | .error _ => .aborted none
  | .ok (doc, rows) => .exited { code := 0, out := jsonLine (withRows doc rows), files }

/-- The window; an empty text is none, and a wrong one is an error. -/
def timelineWindow (windowStr : Bytes) : Option (Option Viz.TimeWindow) :=
  if windowStr = [] then some none else (Viz.parseWindow windowStr).map some

def cmdTimeline (m : Machine) (files : Files) (args : List Bytes) : Result :=
  let o := timelineArgs args {}
  if o.input = [] then .exited { code := 2, err := utf8 "timeline requires --input <journal.jsonl>\n", files }
  else
    match files o.input with
    | none => .exited { code := 1, err := utf8 "timeline: cannot open " ++ o.input ++ utf8 "\n", files }
    | some content =>
      match timelineWindow o.windowStr with
      | none => .exited {
          code := 2
          err := utf8 "timeline: invalid --window format (expected start:end in microseconds)\n"
          files }
      | some window =>
        if 0 < o.chunkSize then timelineChunked m files o window else timelineLoaded files content window

/-! ## `record` -/

structure RecordOptions where
  durationMs : Int := 1000
  output : Bytes := []
  bpfObject : Bytes := []
  audit : AuditContext := {}
  deriving DecidableEq

def recordOption (o : RecordOptions) (arg value : Bytes) : Option RecordOptions :=
  if arg = utf8 "--duration" then some { o with durationMs := (IStream.atoi value).toInt }
  else if arg = utf8 "--output" then some { o with output := value }
  else if arg = utf8 "--bpf" then some { o with bpfObject := value }
  else if arg = utf8 "--audit-id" then some { o with audit := { o.audit with auditId := value } }
  else if arg = utf8 "--rollback-id" then some { o with audit := { o.audit with rollbackId := value } }
  else none

/-- A word without a value. -/
def recordFlag (o : RecordOptions) (arg : Bytes) : RecordOptions :=
  if arg = utf8 "--allow-mutate" then { o with audit := { o.audit with allowMutate := true } }
  else if arg = utf8 "--vm-lab" then { o with audit := { o.audit with vmLabMarker := true } }
  else o

def recordArgs : List Bytes → RecordOptions → RecordOptions
  | [], o => o
  | [arg], o => recordFlag o arg
  | arg :: value :: rest, o =>
    match recordOption o arg value with
    | some o => recordArgs rest o
    | none => recordArgs (value :: rest) (recordFlag o arg)

inductive LoadResult
  | loaded
  | refused
  | skipNoBtf
  | skipNoLibbpf
  | error
  deriving DecidableEq, Repr

def loadResultName : LoadResult → String
  | .loaded => "loaded"
  | .refused => "refused"
  | .skipNoBtf => "skip_no_btf"
  | .skipNoLibbpf => "skip_no_libbpf"
  | .error => "error"

/-- `BpfLoader::capture`: the result, `last_reason`, and the events. -/
def bpfCapture (m : Machine) (objectPath : Bytes) (ctx : AuditContext) (durationMs : Int) :
    LoadResult × Bytes × List RawEvent :=
  let decision := gateDecision .schedExtLoad ctx
  if decision.allowed = false then
    (.refused, utf8 "refused: " ++ decision.reason ++ utf8 " (object=" ++ objectPath ++ utf8 ")", [])
  else if m.fileExists btfPath = false then (.skipNoBtf, utf8 "SKIP: /sys/kernel/btf/vmlinux not present", [])
  else if m.libbpfLinked = false then (.skipNoLibbpf, utf8 "SKIP: libbpf not linked in this build", [])
  else
    match m.libbpf objectPath durationMs with
    | .error reason => (.error, reason, [])
    | .ok events =>
      (.loaded, utf8 "captured " ++ decimal events.length ++ utf8 " events via BPF CO-RE", events)

def tracepointIdPath : Bytes := utf8 "/sys/kernel/tracing/events/sched/sched_switch/id"

/-- `resolve_tracepoint_id`; -1 is no id. -/
def resolveTracepointId (host : Host) : Int :=
  match host.readFile tracepointIdPath with
  | none => -1
  | some content =>
    match extract (some content) (-1) with
    | (none, _) => -1
    | (some _, id) => id

/-- `LiveCapture::probe` -/
def probeLive (m : Machine) : Capability :=
  if resolveTracepointId m.toHost < 0 then
    ⟨utf8 "live_capture", .skip, utf8 "sched tracepoints unreadable (perf_event_paranoid too high or tracefs not " ++
      utf8 "accessible); live capture needs privilege (fail-closed SKIP)"⟩
  else
    match m.perfError with
    | some (errno, text) => ⟨utf8 "live_capture", .skip, utf8 "perf_event_open refused (errno " ++ decimal errno ++
        utf8 ": " ++ text ++ utf8 "); live capture needs CAP_PERFMON or perf_event_paranoid<=1 (fail-closed SKIP)"⟩
    | none => ⟨utf8 "live_capture", .ready, utf8 "perf_event_open permitted; live capture available"⟩

def bpfCapability (result : LoadResult) (reason : Bytes) : Value :=
  Value.makeObject
    |>.set "schema" (.ofLiteral "xsprof/event/v1")
    |>.set "event" (.ofLiteral "capability")
    |>.set "name" (.ofLiteral "bpf_capture")
    |>.set "state" (.ofLiteral (loadResultName result))
    |>.set "reason" (.string reason)
    |>.set "host_mutation" (.bool false)

def liveCapability (cap : Capability) : Value :=
  cap.toJson
    |>.set "schema" (.ofLiteral "xsprof/event/v1")
    |>.set "event" (.ofLiteral "capability")

/-- What is captured: the capability that is missing, or the state of the capture and the events. -/
def captureEvents (m : Machine) (o : RecordOptions) : Except Value (String × List RawEvent) :=
  if o.bpfObject ≠ [] then
    match bpfCapture m o.bpfObject o.audit o.durationMs with
    | (.loaded, _, events) => .ok (loadResultName .loaded, events)
    | (result, reason, _) => .error (bpfCapability result reason)
  else
    let cap := probeLive m
    if cap.state ≠ .ready then .error (liveCapability cap)
    else .ok (capStateName (m.liveRun o.durationMs).1, (m.liveRun o.durationMs).2)

/-- An event as it goes into the journal. -/
def filtered (e : RawEvent) : RawEvent :=
  let fe := { e with comm := boundComm e.comm false }
  if fe.detail.isEmpty then fe else { fe with detail := redact fe.detail }

def journalText (events : List RawEvent) : Bytes := events.flatMap fun e => jsonLine (eventToJson (filtered e))

def countKind (kind : EventKind) (events : List RawEvent) : Nat := events.countP fun e => decide (e.kind = kind)

def captureSummary (o : RecordOptions) (capState : String) (events : List RawEvent) : Value :=
  Value.makeObject
    |>.set "schema" (.ofLiteral "xsprof/capture-summary/v1")
    |>.set "capability" (.ofLiteral capState)
    |>.set "source" (.ofLiteral (if o.bpfObject.isEmpty then "perf_tracepoint" else "bpf_core"))
    |>.set "events_captured" (intJson events.length)
    |>.set "sched_switches" (intJson (countKind .schedSwitch events))
    |>.set "sched_wakeups" (intJson (countKind .schedWakeup events))
    |>.set "sched_migrations" (intJson (countKind .schedMigrate events))
    |>.set "page_faults" (intJson (countKind .pageFault events))
    |>.set "duration_ms" (intJson o.durationMs)
    |>.set "host_mutation" (.bool false)

def cmdRecord (m : Machine) (files : Files) (args : List Bytes) : Outcome :=
  let o := recordArgs args {}
  match captureEvents m o with
  | .error capability => { code := 1, out := jsonLine capability, files }
  | .ok (capState, events) =>
    let err := jsonLine (captureSummary o capState events)
    if o.output ≠ [] ∧ m.writable o.output then
      { code := 0, err, files := Function.update files o.output (some (journalText events)) }
    else { code := 0, out := journalText events, err, files }

/-! ## `main` -/

/-- A run on the words of the command line, the program's name first. -/
def main (m : Machine) (files : Files) (argv : List Bytes) : Result :=
  let prog := argv.headD (utf8 "xsprof")
  match argv.tail with
  | [] => .exited { code := 0, out := writeHelp prog, files }
  | cmd :: args =>
    if cmd = utf8 "help" ∨ cmd = utf8 "--help" ∨ cmd = utf8 "-h" then
      .exited { code := 0, out := writeHelp prog, files }
    else if cmd = utf8 "version" ∨ cmd = utf8 "--version" then
      .exited { code := 0, out := utf8 "xsprof 0.1.0\n", files }
    else if isUnsafeVerb cmd then .exited (writeRefusal files cmd)
    else if cmd = utf8 "preflight" then .exited (cmdPreflight m.toHost files args)
    else if cmd = utf8 "capabilities" then .exited (cmdCapabilities m.toHost files args)
    else if cmd = utf8 "advise" then cmdAdvise m files args
    else if cmd = utf8 "timeline" then cmdTimeline m files args
    else if cmd = utf8 "record" then .exited (cmdRecord m files args)
    else .exited (writeRefusal files cmd)

end Exasphere.Cli

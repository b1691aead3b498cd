import Exasphere.Json.Access
import Exasphere.Lib.Lines
import Exasphere.Lib.Extraction
import Exasphere.Collectors.Buddyinfo

/-!
# Facts of the host (`collectors/proc.cpp`)

What the profiler reads of its host, and what it makes of it: the capabilities it reports (`probeCapabilities`) and the
snapshot of facts (`collectFacts`), with their JSON (`factsToJson`). The host itself is a parameter: its files, its
directories and the few answers of the C library.
-/

namespace Exasphere.Proc

open Exasphere.Lib Exasphere.Json

/-- What the host answers. -/
structure Host where
  /-- The content of a file that can be opened. -/
  readFile : Bytes → Option Bytes
  /-- `access` with `F_OK`, and with `R_OK`. -/
  fileExists : Bytes → Bool
  readable : Bytes → Bool
  /-- The names that `readdir` gives for a directory that can be opened. -/
  listDir : Bytes → Option (List Bytes)
  hostname : Option Bytes
  kernelRelease : Option Bytes
  onlineCpus : Int
  /-- What an uninitialised `char` holds. -/
  indeterminate : UInt8

/-! ## Capabilities -/

inductive CapState
  | ready
  | degraded
  | skip
  | refuse
  deriving DecidableEq, Repr

def capStateName : CapState → String
  | .ready => "READY"
  | .degraded => "DEGRADED"
  | .skip => "SKIP"
  | .refuse => "REFUSE"

structure Capability where
  name : Bytes
  state : CapState := .skip
  reason : Bytes
  deriving DecidableEq, Repr

def Capability.toJson (c : Capability) : Value :=
  Value.makeObject
    |>.set "name" (.string c.name)
    |>.set "state" (.ofLiteral (capStateName c.state))
    |>.set "reason" (.string c.reason)
    |>.set "host_mutation" (.bool false)

/-- The bytes that `trim` cuts off. -/
def isPadding (c : UInt8) : Bool := decide (c = 32 ∨ c = 9 ∨ c = 13 ∨ c = 10)

def trim (s : Bytes) : Bytes := strip isPadding s

/-- `std::from_chars` into a zero: what is no number, or none of the type, leaves it. -/
def parseLl (s : Bytes) : Int :=
  let (negative, s) := splitSign s
  let digits := s.takeWhile isDigit
  let value : Int := if negative then -(readDecimal digits : Int) else readDecimal digits
  if digits = [] then 0 else if -2 ^ 63 ≤ value ∧ value < 2 ^ 63 then value else 0

/-- `static_cast<int>`. -/
def toInt (v : Int) : Int := (BitVec.ofInt 32 v).toInt

def perfEventCapability (host : Host) : Capability :=
  match host.readFile (utf8 "/proc/sys/kernel/perf_event_paranoid") with
  | none => { name := utf8 "perf_event", reason := utf8 "perf_event_paranoid unreadable" }
  | some content =>
    let paranoid := toInt (parseLl (trim content))
    if paranoid ≤ 1 then ⟨utf8 "perf_event", .ready, utf8 "perf_event_paranoid=" ++ IStream.signedText paranoid ++
      utf8 " (PMU/tracepoint collection permitted)"⟩
    else ⟨utf8 "perf_event", .skip, utf8 "perf_event_paranoid=" ++ IStream.signedText paranoid ++
      utf8 " (need CAP_PERFMON or paranoid<=1; fail-closed SKIP)"⟩

def schedEvents : Bytes := utf8 "/sys/kernel/tracing/events/sched"

def schedTracepointsCapability (host : Host) : Capability :=
  if host.readable (schedEvents ++ utf8 "/sched_switch/format") then
    ⟨utf8 "sched_tracepoints", .ready, utf8 "sched:sched_switch format readable"⟩
  else if host.fileExists (utf8 "/sys/kernel/tracing") then
    ⟨utf8 "sched_tracepoints", .skip,
      utf8 "tracefs mounted but " ++ schedEvents ++ utf8 " permission denied (fail-closed SKIP)"⟩
  else ⟨utf8 "sched_tracepoints", .refuse, utf8 "tracefs not mounted"⟩

/-- A capability that a file stands for. -/
def fileCapability (host : Host) (name path absent present : Bytes) : Capability :=
  if host.fileExists path then ⟨name, .ready, present⟩ else ⟨name, .skip, absent⟩

def btfPath : Bytes := utf8 "/sys/kernel/btf/vmlinux"

def btfCapability (host : Host) : Capability :=
  fileCapability host (utf8 "btf") btfPath (utf8 "no kernel BTF")
    (utf8 "/sys/kernel/btf/vmlinux present (CO-RE BPF possible)")

def schedExtPath : Bytes := utf8 "/sys/kernel/sched_ext"

def schedExtCapability (host : Host) : Capability :=
  fileCapability host (utf8 "sched_ext") schedExtPath (utf8 "sched_ext not present")
    (utf8 "/sys/kernel/sched_ext present (read-only observation; load is VM-lab-only)")

def pmuCapability (host : Host) : Capability :=
  match host.listDir (utf8 "/sys/bus/event_source/devices") with
  | none => ⟨utf8 "pmu", .skip, utf8 "no PMU devices found"⟩
  | some entries =>
    let devices := entries.filter (fun name => decide (name.head? ≠ some 46))
    if 0 < devices.length then
      ⟨utf8 "pmu", .ready, decimal devices.length ++ utf8 " PMU devices: " ++ [44].intercalate devices⟩
    else ⟨utf8 "pmu", .skip, utf8 "no PMU devices found"⟩

def probeCapabilities (host : Host) : List Capability :=
  [perfEventCapability host, schedTracepointsCapability host, btfCapability host, schedExtCapability host,
    pmuCapability host]

/-! ## The snapshot -/

structure CpuStat where
  user : Int := 0
  nice : Int := 0
  system : Int := 0
  idle : Int := 0
  iowait : Int := 0
  irq : Int := 0
  softirq : Int := 0
  steal : Int := 0
  deriving DecidableEq, Repr

structure MemInfo where
  memTotalKb : Int := 0
  memAvailableKb : Int := 0
  hugePagesTotal : Int := 0
  hugePagesFree : Int := 0
  hugepageSizeKb : Int := 0
  deriving DecidableEq, Repr

structure SchedExtState where
  present : Bool := false
  state : Bytes := []
  switchAll : Bytes := []
  nrRejected : Bytes := []
  enableSeq : Bytes := []
  hotplugSeq : Bytes := []
  deriving DecidableEq, Repr

structure ProcessInfo where
  pid : Int := -1
  ppid : Int := -1
  state : UInt8 := 63
  threads : Int := 0
  utime : Int := 0
  stime : Int := 0
  deriving DecidableEq, Repr

structure SystemFacts where
  hostname : Bytes := []
  kernelRelease : Bytes := []
  onlineCpus : Int := 0
  perCpu : List CpuStat := []
  aggregateCpu : CpuStat := {}
  mem : MemInfo := {}
  buddyinfo : List Bytes := []
  numaNodes : List Collectors.NumaNode := []
  schedExt : SchedExtState := {}
  perfEventParanoid : Int := 99
  kptrRestrict : Int := 99
  btfPresent : Bool := false
  tracefsPresent : Bool := false
  processes : List ProcessInfo := []

/-- Extraction of a `long long`. -/
def extract (ss : IStream) (v : Int) : IStream × Int := ss.number (signedReading 63) v

/-- Extraction of an `int`. -/
def extractInt (ss : IStream) (v : Int) : IStream × Int := ss.number (signedReading 31) v

/-- Extraction of a `char`. -/
def extractChar (ss : IStream) (c : UInt8) : IStream × UInt8 :=
  match ss.skipws with
  | none => (none, c)
  | some text => (some text.tail, text.headD c)

/-! ### `/proc/stat` -/

def parseCpuLine (line : Bytes) (out : CpuStat) : Bool × CpuStat :=
  let ss : IStream := some line
  let (ss, label) := ss.word []
  if ¬utf8 "cpu" <+: label then (false, out)
  else
    let (ss, user) := extract ss out.user
    let (ss, nice) := extract ss out.nice
    let (ss, system) := extract ss out.system
    let (ss, idle) := extract ss out.idle
    let (ss, iowait) := extract ss out.iowait
    let (ss, irq) := extract ss out.irq
    let (ss, softirq) := extract ss out.softirq
    let (_, steal) := extract ss out.steal
    (true, { user, nice, system, idle, iowait, irq, softirq, steal })

/-- The CPU fields of the snapshot after one more line. -/
def statStep (cpus : CpuStat × List CpuStat) (line : Bytes) : CpuStat × List CpuStat :=
  if ¬utf8 "cpu" <+: line then cpus
  else
    match parseCpuLine line {} with
    | (false, _) => cpus
    | (true, cs) => if utf8 "cpu " <+: line then (cs, cpus.2) else (cpus.1, cpus.2 ++ [cs])

def readStat (content : Bytes) : CpuStat × List CpuStat := (lines content).foldl statStep ({}, [])

/-! ### `/proc/meminfo` -/

def MemInfo.record (mem : MemInfo) (key : Bytes) (val : Int) : MemInfo :=
  if key = utf8 "MemTotal:" then { mem with memTotalKb := val }
  else if key = utf8 "MemAvailable:" then { mem with memAvailableKb := val }
  else if key = utf8 "HugePages_Total:" then { mem with hugePagesTotal := val }
  else if key = utf8 "HugePages_Free:" then { mem with hugePagesFree := val }
  else if key = utf8 "Hugepagesize:" then { mem with hugepageSizeKb := val }
  else mem

/-- `ss >> key >> val >> unit`. -/
def extractEntry (ss : IStream) : IStream × Bytes × Int :=
  let (ss, key) := ss.word []
  let (ss, val) := extract ss 0
  let (ss, _) := ss.word []
  (ss, key, val)

/-- A bounded number of turns of the loop; each takes bytes off the text, so its length bounds them. -/
def memLoop : Nat → IStream → MemInfo → MemInfo
  | 0, _, mem => mem
  | turns + 1, ss, mem =>
    match extractEntry ss with
    | (none, _) => mem
    | (some rest, key, val) => memLoop turns (some rest) (mem.record key val)

def readMeminfo (content : Bytes) : MemInfo := memLoop content.length (some content) {}

/-! ### `/proc/<pid>/stat` -/

/-- `n` numbers that are not kept. -/
def skipNumbers : Nat → IStream → IStream
  | 0, ss => ss
  | n + 1, ss => skipNumbers n (extract ss 0).1

/-- What follows the last `)`. -/
def afterComm (stat : Bytes) : Option Bytes :=
  if 41 ∈ stat then some (stat.reverse.takeWhile (· ≠ 41)).reverse else none

/-- The entry of a process, where its text goes on behind the command. -/
def parseProcess (host : Host) (name stat : Bytes) : Option ProcessInfo :=
  match afterComm stat with
  | none => none
  | some after =>
    if after.length ≤ 1 then none
    else
      let ss : IStream := some after.tail
      let (ss, state) := extractChar ss host.indeterminate
      let (ss, ppid) := extractInt ss (-1)
      let ss := skipNumbers 5 ss -- pgrp..flags
      let ss := skipNumbers 4 ss -- minflt..cmajflt
      let (ss, utime) := extract ss 0
      let (ss, stime) := extract ss 0
      let ss := skipNumbers 4 ss
      let (_, threads) := extractInt ss 0
      some { pid := toInt (parseLl name), ppid, state, threads, utime, stime }

/-- A name of digits. -/
def isNumeric (name : Bytes) : Bool := decide (name ≠ []) && name.all isDigit

def statPath (name : Bytes) : Bytes := utf8 "/proc/" ++ name ++ utf8 "/stat"

def readProcesses (host : Host) : List ProcessInfo :=
  match host.listDir (utf8 "/proc") with
  | none => []
  | some entries => (entries.filter isNumeric).filterMap fun name =>
    (host.readFile (statPath name)).bind (parseProcess host name)

/-! ### All facts -/

def readNode (host : Host) (name : Bytes) : Collectors.NumaNode where
  id := toInt (parseLl (name.drop 4))
  cpus := ((host.readFile (utf8 "/sys/devices/system/node/" ++ name ++ utf8 "/cpulist")).map trim).getD []

def readNodes (host : Host) : List Collectors.NumaNode :=
  match host.listDir (utf8 "/sys/devices/system/node") with
  | none => []
  | some entries => (entries.filter (fun name => decide (utf8 "node" <+: name))).map (readNode host)

/-- A file of the `sched_ext` directory, trimmed. -/
def readSchedExtFile (host : Host) (name : Bytes) : Bytes :=
  trim ((host.readFile (schedExtPath ++ name)).getD [])

def readSchedExt (host : Host) : SchedExtState :=
  if host.fileExists schedExtPath then
    { present := true
      state := readSchedExtFile host (utf8 "/state")
      switchAll := readSchedExtFile host (utf8 "/switch_all")
      nrRejected := readSchedExtFile host (utf8 "/nr_rejected")
      enableSeq := readSchedExtFile host (utf8 "/enable_seq")
      hotplugSeq := readSchedExtFile host (utf8 "/hotplug_seq") }
  else {}

/-- An `int` of a file under `/proc/sys/kernel`, 99 without it. -/
def readPosture (host : Host) (path : Bytes) : Int :=
  match host.readFile path with
  | none => 99
  | some content => toInt (parseLl (trim content))

def collectFacts (host : Host) : SystemFacts :=
  let cpus := readStat ((host.readFile (utf8 "/proc/stat")).getD [])
  { hostname := host.hostname.getD []
    kernelRelease := host.kernelRelease.getD []
    onlineCpus := host.onlineCpus
    aggregateCpu := cpus.1
    perCpu := cpus.2
    mem := readMeminfo ((host.readFile (utf8 "/proc/meminfo")).getD [])
    buddyinfo := ((lines ((host.readFile (utf8 "/proc/buddyinfo")).getD [])).map trim).filter (fun l => decide (l ≠ []))
    numaNodes := readNodes host
    schedExt := readSchedExt host
    perfEventParanoid := readPosture host (utf8 "/proc/sys/kernel/perf_event_paranoid")
    kptrRestrict := readPosture host (utf8 "/proc/sys/kernel/kptr_restrict")
    btfPresent := host.fileExists btfPath
    tracefsPresent := host.fileExists (utf8 "/sys/kernel/tracing")
    processes := readProcesses host }

/-! ## The JSON of the facts -/

/-- The node of a `long long` or an `int`. -/
def intJson (v : Int) : Value := .int (Int64.ofInt v)

def cpuJson (cpu : CpuStat) (count : Nat) : Value :=
  Value.makeObject
    |>.set "user" (intJson cpu.user)
    |>.set "nice" (intJson cpu.nice)
    |>.set "system" (intJson cpu.system)
    |>.set "idle" (intJson cpu.idle)
    |>.set "iowait" (intJson cpu.iowait)
    |>.set "irq" (intJson cpu.irq)
    |>.set "softirq" (intJson cpu.softirq)
    |>.set "steal" (intJson cpu.steal)
    |>.set "per_cpu_count" (intJson count)

def memJson (mem : MemInfo) : Value :=
  Value.makeObject
    |>.set "mem_total_kb" (intJson mem.memTotalKb)
    |>.set "mem_available_kb" (intJson mem.memAvailableKb)
    |>.set "huge_pages_total" (intJson mem.hugePagesTotal)
    |>.set "huge_pages_free" (intJson mem.hugePagesFree)
    |>.set "hugepage_size_kb" (intJson mem.hugepageSizeKb)

def nodeJson (node : Collectors.NumaNode) : Value :=
  Value.makeObject
    |>.set "id" (intJson node.id)
    |>.set "cpus" (.string node.cpus)

def schedExtJson (se : SchedExtState) : Value :=
  Value.makeObject
    |>.set "present" (.bool se.present)
    |>.set "state" (.string se.state)
    |>.set "switch_all" (.string se.switchAll)
    |>.set "nr_rejected" (.string se.nrRejected)
    |>.set "enable_seq" (.string se.enableSeq)
    |>.set "hotplug_seq" (.string se.hotplugSeq)

def factsToJson (f : SystemFacts) : Value :=
  Value.makeObject
    |>.set "hostname" (.string f.hostname)
    |>.set "kernel_release" (.string f.kernelRelease)
    |>.set "online_cpus" (intJson f.onlineCpus)
    |>.set "perf_event_paranoid" (intJson f.perfEventParanoid)
    |>.set "kptr_restrict" (intJson f.kptrRestrict)
    |>.set "btf_present" (.bool f.btfPresent)
    |>.set "tracefs_present" (.bool f.tracefsPresent)
    |>.set "cpu" (cpuJson f.aggregateCpu f.perCpu.length)
    |>.set "memory" (memJson f.mem)
    |>.set "buddyinfo" (.array (f.buddyinfo.map .string))
    |>.set "numa_nodes" (.array (f.numaNodes.map nodeJson))
    |>.set "sched_ext" (schedExtJson f.schedExt)
    |>.set "process_count" (intJson f.processes.length)
    |>.set "host_mutation" (.bool false)

end Exasphere.Proc

import Exasphere.Collectors.Capture
import Exasphere.Viz.ChromeTrace

/-!
# The lanes of a captured timeline

A timeline of context switches is for this: every slice on the lane of a CPU names the task that runs there, and a
lane shows one task at a time (`Agrees`). The consumer `exportEvents` reads the task out of the `pid` of an event and
the length of its slice out of the payload word `a` (`agrees_exportEvents_iff`). The BPF path puts the pid of the next
task into both, so a slice is as many microseconds long as its task's pid has thousands, and a lane is as it should be
only if the switches happen to leave room for that. The perf path puts the task of the sample into `pid`, and 0 into `a`
because it looks the word up by a name that the table of the format file does not have: its slices have no length and
name the task that was running (`timeline_agrees_iff`).
-/

namespace Exasphere.Viz

open Exasphere.Lib Exasphere.Json Exasphere.Core Exasphere.Collectors

/-! ## Slices -/

def isSlice (ev : Value) : Bool := decide (tag ev "ph" = utf8 "X")

/-- The slices of a document. -/
def slices (doc : Value) : List Value := (traceEvents doc).filter isSlice

/-- The integer member `key` of a trace event. -/
def number (ev : Value) (key : String) : Int := ((ev.find key).getD .null).asInt.toInt

/-- The argument `key` of a trace event. -/
def argument (ev : Value) (key : String) : Option Value := (ev.find "args").bind (·.find key)

/-- The slices of a CPU. -/
def lane (doc : Value) (cpu : UInt32) : List Value := (slices doc).filter (number · "tid" = cpu.toInt32.toInt)

/-- The second slice starts when the first has ended. -/
def EndsBefore (ev ev' : Value) : Prop := number ev "ts" + number ev "dur" ≤ number ev' "ts"

/-- The slices of a document name the tasks that the kernel switched to, one after the other, and do not overlap on the
lane of a CPU. -/
structure Agrees (nextPids : List Int32) (doc : Value) : Prop where
  next_pid : (slices doc).map (argument · "next_pid") = nextPids.map (fun pid => some (Value.ofInt32 pid))
  lanes : ∀ cpu, (lane doc cpu).IsChain EndsBefore

/-! ## The slice of a switch -/

theorem toInt_microseconds (n : UInt64) : (Value.ofUInt64 (n / 1000)).asInt.toInt = n.toNat / 1000 := by
  have hdiv : (n / 1000).toNat = n.toNat / 1000 := UInt64.toNat_div n 1000
  have hlt : 2 * (n / 1000).toNat < 2 ^ 64 := by
    have := n.toNat_lt
    omega
  calc (Value.ofUInt64 (n / 1000)).asInt.toInt
      = (n / 1000).toBitVec.toInt := rfl
    _ = (n / 1000).toNat := BitVec.toInt_eq_toNat_of_lt hlt
    _ = n.toNat / 1000 := by rw [hdiv]; rfl

section Slice

variable {e e' : RawEvent} (h : e.kind = .schedSwitch)

include h

/-- The trace event of a switch. -/
theorem traceOf_switch : traceOf e =
    { name := if e.comm.isEmpty then utf8 "run" else e.comm, ph := "X", cat := "sched", tsUs := e.tsNs / 1000,
      durUs := e.a / 1000, pid := -1, tid := e.cpu.toInt64,
      args := Value.makeObject.set "cpu" (.ofInt32 e.cpu) |>.set "next_pid" (.ofInt32 e.pid)
        |>.setNonempty "comm" e.comm } := by
  unfold traceOf exportEvent
  rw [h]
  rfl

theorem isSlice_exported : isSlice (exported e) = true := by
  simp [isSlice, exported, tag_ph, traceOf_switch h]

theorem argument_next_pid : argument (exported e) "next_pid" = some (.ofInt32 e.pid) := by
  have hfind : (traceOf e).args.find "next_pid" = some (.ofInt32 e.pid) := by
    rw [traceOf_switch h]
    simp [Value.find_setNonempty]
  rw [argument, exported, find_args _ hfind, Option.bind_some, hfind]

theorem number_ts : number (exported e) "ts" = e.tsNs.toNat / 1000 := by
  rw [number, exported, find_ts, traceOf_switch h]
  exact toInt_microseconds e.tsNs

theorem number_dur : number (exported e) "dur" = e.a.toNat / 1000 := by
  rw [number, exported, find_dur _ (by rw [traceOf_switch h]), traceOf_switch h]
  exact toInt_microseconds e.a

theorem number_tid : number (exported e) "tid" = e.cpu.toInt := by
  rw [number, exported, find_tid, traceOf_switch h]
  exact Int32.toInt_toInt64 e.cpu

/-- A slice is as long as the payload word says. -/
theorem endsBefore_exported (h' : e'.kind = .schedSwitch) :
    EndsBefore (exported e) (exported e') ↔ e.tsNs.toNat / 1000 + e.a.toNat / 1000 ≤ e'.tsNs.toNat / 1000 := by
  rw [EndsBefore, number_ts h, number_dur h, number_ts h']
  omega

end Slice

/-! ## The document of a list of switches -/

section Document

variable {es : List RawEvent} (hes : ∀ e ∈ es, e.kind = .schedSwitch)

include hes

theorem slices_exportEvents : slices (exportEvents es) = es.map exported := by
  rw [slices, exportEvents_eq, traceEvents_document, List.filter_cons_of_neg (by simp [isSlice, tag_ph, laneName]),
    List.filter_eq_self]
  intro ev hev
  obtain ⟨e, he, rfl⟩ := List.mem_map.mp hev
  exact isSlice_exported (hes e he)

theorem lane_exportEvents (cpu : UInt32) :
    lane (exportEvents es) cpu = (es.filter (fun e => e.cpu = cpu.toInt32)).map exported := by
  rw [lane, slices_exportEvents hes, List.filter_map]
  congr 1
  apply List.filter_congr
  intro e he
  rw [Function.comp_apply, number_tid (hes e he), decide_eq_decide]
  exact Int32.toInt_inj

/-- The document of switches agrees with the kernel exactly if the events name the tasks and the payload words leave
room on each lane. -/
theorem agrees_exportEvents_iff (nextPids : List Int32) :
    Agrees nextPids (exportEvents es) ↔ es.map (·.pid) = nextPids ∧
      ∀ cpu : UInt32, (es.filter (fun e => e.cpu = cpu.toInt32)).IsChain
        (fun e e' => e.tsNs.toNat / 1000 + e.a.toNat / 1000 ≤ e'.tsNs.toNat / 1000) := by
  have hpids : (slices (exportEvents es)).map (argument · "next_pid") =
      (es.map (·.pid)).map (fun pid => some (Value.ofInt32 pid)) := by
    rw [slices_exportEvents hes, List.map_map, List.map_map]
    apply List.map_congr_left
    intro e he
    exact argument_next_pid (hes e he)
  have hinj : Function.Injective (fun pid => some (Value.ofInt32 pid)) := by
    intro pid pid' heq
    rw [← Value.toInt32_ofInt32 pid, Option.some.inj heq, Value.toInt32_ofInt32]
  have hlane : ∀ cpu, (lane (exportEvents es) cpu).IsChain EndsBefore ↔
      (es.filter (fun e => e.cpu = cpu.toInt32)).IsChain
        (fun e e' => e.tsNs.toNat / 1000 + e.a.toNat / 1000 ≤ e'.tsNs.toNat / 1000) := by
    intro cpu
    rw [lane_exportEvents hes, List.isChain_map]
    apply List.IsChain.iff_of_mem_imp
    intro e e' he he'
    exact endsBefore_exported (hes e (List.mem_of_mem_filter he)) (hes e' (List.mem_of_mem_filter he'))
  constructor
  · intro hagrees
    refine ⟨hinj.list_map ?_, fun cpu => (hlane cpu).mp (hagrees.lanes cpu)⟩
    rw [← hpids, hagrees.next_pid]
  · rintro ⟨rfl, hchain⟩
    exact ⟨hpids, fun cpu => (hlane cpu).mpr (hchain cpu)⟩

end Document

/-! ## The events of a capture -/

/-- Records that become switches one by one. -/
theorem agrees_map_iff {ρ : Type} (event : ρ → RawEvent) (cpuOf : ρ → UInt32) (nextPidOf : ρ → Int32)
    (hkind : ∀ r, (event r).kind = .schedSwitch) (hcpu : ∀ r, (event r).cpu = (cpuOf r).toInt32) (rs : List ρ) :
    Agrees (rs.map nextPidOf) (exportEvents (rs.map event)) ↔ (∀ r ∈ rs, (event r).pid = nextPidOf r) ∧
      ∀ cpu, (rs.filter (fun r => cpuOf r = cpu)).IsChain (fun r r' =>
        (event r).tsNs.toNat / 1000 + (event r).a.toNat / 1000 ≤ (event r').tsNs.toNat / 1000) := by
  have hswitches : ∀ e ∈ rs.map event, e.kind = .schedSwitch := by
    intro e he
    obtain ⟨r, _, rfl⟩ := List.mem_map.mp he
    exact hkind r
  have hlane : ∀ cpu : UInt32, (rs.map event).filter (fun e => e.cpu = cpu.toInt32) =
      (rs.filter (fun r => cpuOf r = cpu)).map event := by
    intro cpu
    rw [List.filter_map]
    congr 2
    funext r
    rw [Function.comp_apply, hcpu, decide_eq_decide]
    constructor
    · intro heq
      rw [← UInt32.toUInt32_toInt32 (cpuOf r), heq, UInt32.toUInt32_toInt32]
    · intro heq
      rw [heq]
  rw [agrees_exportEvents_iff hswitches, List.map_map]
  refine and_congr List.map_inj_left (forall_congr' fun cpu => ?_)
  rw [hlane, List.isChain_map]

/-- A context switch that the BPF program reports. -/
structure SwitchRecord where
  tsNs : UInt64
  cpu : UInt32
  ctx : SwitchContext

/-- The event of a switch by the BPF path. -/
def SwitchRecord.event (r : SwitchRecord) : Option RawEvent :=
  handleEvent (.sched (handleSchedSwitch r.tsNs r.cpu r.ctx)) 64

/-- Every switch that the BPF program reports becomes an event. -/
theorem SwitchRecord.event_eq (r : SwitchRecord) : r.event = some
    { kind := .schedSwitch, tsNs := r.tsNs, cpu := r.cpu.toInt32, pid := r.ctx.nextPid,
      a := r.ctx.nextPid.toInt64.toUInt64, b := r.ctx.prevPid.toInt64.toUInt64,
      comm := cString ((readKernelStr r.ctx.nextComm).take 16) } := rfl

theorem filterMap_event (rs : List SwitchRecord) :
    rs.filterMap SwitchRecord.event = rs.map (fun r => r.event.getD {}) := by
  rw [← List.filterMap_eq_map]
  apply List.filterMap_congr
  intro r _
  rw [r.event_eq]
  rfl

/-- The capture of context switches, exported: by the perf path the document agrees with the kernel exactly if every
sample is taken in the task that is switched to and the time in microseconds never falls on a CPU; by the BPF path
exactly if every switch leaves room for as many microseconds as the pid has thousands. -/
theorem timeline_agrees_iff (host : SwitchHost) (samples : List (SwitchSample host.format))
    (records : List SwitchRecord) :
    (∃ st, drainRecords (readFormats host.readFile) .sw (samples.map SwitchSample.bytes) {} = .ok st ∧
      (Agrees (samples.map (·.nextPid)) (exportEvents st.out) ↔
        (∀ r ∈ samples, r.pid = r.nextPid) ∧
        ∀ cpu, (samples.filter (fun r => r.cpu = cpu)).IsChain (fun r r' =>
          r.time.toNat / 1000 ≤ r'.time.toNat / 1000))) ∧
    (Agrees (records.map (·.ctx.nextPid)) (exportEvents (records.filterMap SwitchRecord.event)) ↔
      ∀ cpu, (records.filter (fun r => r.cpu = cpu)).IsChain (fun r r' =>
        r.tsNs.toNat / 1000 + r.ctx.nextPid.toInt64.toUInt64.toNat / 1000 ≤ r'.tsNs.toNat / 1000)) := by
  constructor
  · refine ⟨_, drainRecords_bytes host.swFmt_eq samples {}, ?_⟩
    have hagree := agrees_map_iff SwitchSample.event (·.cpu) (·.nextPid) (fun _ => rfl) (fun _ => rfl) samples
    simpa only [List.nil_append, SwitchSample.event, UInt64.toNat_zero, Nat.zero_div, Nat.add_zero] using hagree
  · rw [filterMap_event, agrees_map_iff _ (·.cpu) (·.ctx.nextPid) (fun _ => rfl) (fun _ => rfl) records]
    exact and_iff_right (fun _ _ => rfl)

/-! The three fields of `sched_switch` that the capture looks up. -/

def switchPrevPid : FormatField :=
  { type := utf8 "pid_t", name := utf8 "prev_pid", len := none, offset := 24, size := 4, signed := true }

def switchNextPid : FormatField :=
  { type := utf8 "pid_t", name := utf8 "next_pid", len := none, offset := 56, size := 4, signed := true }

def switchNextComm : FormatField :=
  { type := utf8 "char", name := utf8 "next_comm", len := some 16, offset := 40, size := 16, signed := false }

/-- The lines of the format file, as a kernel prints it. -/
def switchLines : List FormatLine := [
  .other (utf8 "name: sched_switch") (by decide) (by decide),
  .other (utf8 "ID: 316") (by decide) (by decide),
  .other (utf8 "format:") (by decide) (by decide),
  .field { type := utf8 "unsigned short", name := utf8 "common_type", len := none, offset := 0, size := 2,
           signed := false },
  .field { type := utf8 "unsigned char", name := utf8 "common_flags", len := none, offset := 2, size := 1,
           signed := false },
  .field { type := utf8 "unsigned char", name := utf8 "common_preempt_count", len := none, offset := 3, size := 1,
           signed := false },
  .field { type := utf8 "int", name := utf8 "common_pid", len := none, offset := 4, size := 4, signed := true },
  .other [] (by decide) (by decide),
  .field { type := utf8 "char", name := utf8 "prev_comm", len := some 16, offset := 8, size := 16, signed := false },
  .field switchPrevPid,
  .field { type := utf8 "int", name := utf8 "prev_prio", len := none, offset := 28, size := 4, signed := true },
  .field { type := utf8 "long", name := utf8 "prev_state", len := none, offset := 32, size := 8, signed := true },
  .field switchNextComm,
  .field switchNextPid,
  .field { type := utf8 "int", name := utf8 "next_prio", len := none, offset := 60, size := 4, signed := true },
  .other [] (by decide) (by decide),
  .other (utf8 "print fmt: \"next_comm=%s next_pid=%d\", REC->next_comm, REC->next_pid") (by decide) (by decide)]

def switchFormat : SwitchFormat where
  lines := switchLines
  names := by decide
  prevPid := switchPrevPid
  nextPid := switchNextPid
  nextComm := switchNextComm
  prev_mem := by simp [formatFields, FormatLine.field?, switchLines]
  next_mem := by simp [formatFields, FormatLine.field?, switchLines]
  comm_mem := by simp [formatFields, FormatLine.field?, switchLines]
  prev_name := rfl
  next_name := rfl
  comm_name := rfl
  prev_scalar := rfl
  next_scalar := rfl
  comm_array := rfl

/-- A host that has no other format file. -/
def switchHost : SwitchHost where
  readFile path := if path = formatPath "sched" "sched_switch" then some (formatText switchFormat.lines) else none
  format := switchFormat
  readable := if_pos rfl

/-- A sample of CPU 0, in the task that is switched from. -/
def sampleAt (time : UInt64) (prevPid nextPid : Int32) : SwitchSample switchFormat where
  misc := 2
  pid := prevPid
  tid := prevPid
  time := time
  cpu := 0
  res := 0
  raw := List.replicate 24 0 ++ word 4 prevPid.toUInt32.toNat ++ List.replicate 12 0 ++ List.replicate 16 0 ++
    word 4 nextPid.toUInt32.toNat ++ List.replicate 8 0
  padding := []
  prevPid := prevPid
  nextPid := nextPid
  nextComm := List.replicate 16 0
  size_lt := by simp
  next_at := ⟨by simp [switchFormat, switchNextPid], rfl⟩
  prev_at := ⟨by simp [switchFormat, switchPrevPid], rfl⟩
  comm_at := ⟨by simp [switchFormat, switchNextComm], rfl⟩
  comm_length := rfl

/-- A switch of CPU 0, as the BPF program reports it. -/
def switchAt (tsNs : UInt64) (prevPid nextPid : Int32) : SwitchRecord :=
  { tsNs := tsNs, cpu := 0, ctx := { prevPid := prevPid, nextPid := nextPid, prevPrio := 120, nextPrio := 120,
                                     prevComm := [], nextComm := [] } }

/-- Two slices of CPU 0 of which the first is too long. -/
theorem not_isChain_lane {e e' : RawEvent} (h : e.kind = .schedSwitch) (h' : e'.kind = .schedSwitch)
    (hcpu : e.cpu = 0) (hcpu' : e'.cpu = 0)
    (hlong : e'.tsNs.toNat / 1000 < e.tsNs.toNat / 1000 + e.a.toNat / 1000) :
    ¬(lane (exportEvents [e, e']) 0).IsChain EndsBefore := by
  have hswitches : ∀ x ∈ [e, e'], x.kind = .schedSwitch := by
    simp [h, h']
  have hlane : [e, e'].filter (fun x => x.cpu = (0 : UInt32).toInt32) = [e, e'] := by
    simp [hcpu, hcpu']
  rw [lane_exportEvents hswitches, hlane, List.map_cons, List.map_singleton, List.isChain_pair,
    endsBefore_exported h h']
  exact Nat.not_le.mpr hlong

/-- Two switches a microsecond apart: by the perf path the slices name the tasks that end and have no length, by the BPF
path the first one lasts four microseconds. -/
theorem timeline_overlaps :
    (∃ st, drainRecords (readFormats switchHost.readFile) .sw
        ([sampleAt 1000000 7 4000, sampleAt 1001000 4000 5000].map SwitchSample.bytes) {} = .ok st ∧
      (slices (exportEvents st.out)).map (argument · "next_pid") = [some (.int 7), some (.int 4000)] ∧
      (slices (exportEvents st.out)).map (number · "dur") = [0, 0]) ∧
    ¬(lane (exportEvents ([switchAt 1000000 7 4000, switchAt 1001000 4000 5000].filterMap SwitchRecord.event))
      0).IsChain EndsBefore := by
  have hfmt : (readFormats switchHost.readFile).swFmt = switchFormat.table := switchHost.swFmt_eq
  have hdrain := drainRecords_bytes hfmt [sampleAt 1000000 7 4000, sampleAt 1001000 4000 5000] {}
  refine ⟨⟨_, hdrain, ?_, ?_⟩, ?_⟩
  · simp only [List.map_cons, List.map_nil, List.nil_append]
    rw [slices_exportEvents (by simp [SwitchSample.event])]
    simp only [List.map_cons, List.map_nil]
    rw [argument_next_pid rfl, argument_next_pid rfl]
    rfl
  · simp only [List.map_cons, List.map_nil, List.nil_append]
    rw [slices_exportEvents (by simp [SwitchSample.event])]
    simp only [List.map_cons, List.map_nil]
    rw [number_dur rfl, number_dur rfl]
    rfl
  · exact not_isChain_lane rfl rfl rfl rfl (by decide)

end Exasphere.Viz

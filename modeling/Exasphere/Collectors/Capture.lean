import Exasphere.Lib.Checked
import Exasphere.Lib.Memory
import Exasphere.Core.Event
import Exasphere.Collectors.Format

/-!
# The producers of events (`src/collectors/live_capture.cpp`, `src/bpf/loader.cpp`, `bpf/sched_monitor.bpf.c`)

The perf path decodes a record of a perf ring, once it is copied out of the ring, and the BPF path an entry of a BPF
ring. The payload words `a` and `b` of a switch are for the task that it goes to and the task that it leaves. The BPF
path puts them there; the perf path looks them up by names that the table of the format file does not have, so its
words are 0 (`decodeSample_bytes`). In the perf path the `pid` of the event is the task of the sample, in the BPF path
the one that is switched to.
-/

namespace Exasphere.Collectors

open Exasphere.Lib Exasphere.Core

/-! ## The perf path -/

/-- What a ring of the capture delivers. -/
inductive SlotKind
  | sw
  | wk
  | mg
  | pf
  deriving DecidableEq

structure Formats where
  swFmt : Format
  wkFmt : Format
  mgFmt : Format

/-- The tables that `run` reads, from the files of the host. -/
def readFormats (readFile : Bytes → Option Bytes) : Formats :=
  { swFmt := parseFormat (readFile (formatPath "sched" "sched_switch"))
    wkFmt := parseFormat (readFile (formatPath "sched" "sched_wakeup"))
    mgFmt := parseFormat (readFile (formatPath "sched" "sched_migrate_task")) }

def loadU32 (block : Bytes) (offset : Nat) : Except Fault UInt32 := do
  let bytes ← load block offset 4
  .ok (UInt32.ofNat (readWord bytes))

def loadU64 (block : Bytes) (offset : Nat) : Except Fault UInt64 := do
  let bytes ← load block offset 8
  .ok (UInt64.ofNat (readWord bytes))

/-- `read_field`: `raw` is the position of the payload in the record. -/
def readField (fmt : Format) (rec : Bytes) (raw : Nat) (rawSize : UInt32) (field : String) : Except Fault UInt32 :=
  match findKey (utf8 field) fmt with
  | none => .ok 0
  | some (offset, _) =>
    if offset < 0 then .ok 0
    else if offset.toInt.toNat + 4 > rawSize.toNat then .ok 0
    else loadU32 rec (raw + offset.toInt.toNat)

/-- `read_comm`: 16 bytes of which the last is set to 0, or `none` for the result `false`. -/
def readComm (fmt : Format) (rec : Bytes) (raw : Nat) (rawSize : UInt32) (field : String) :
    Except Fault (Option Bytes) :=
  match findKey (utf8 field) fmt with
  | none => .ok none
  | some (offset, _) =>
    if offset < 0 then .ok none
    else if offset.toInt.toNat + 16 > rawSize.toNat then .ok none
    else do
      let bytes ← load rec (raw + offset.toInt.toNat) 16
      .ok (some (bytes.take 15 ++ [0]))

/-- A C string in an array of characters. -/
def cString (chars : Bytes) : Bytes := chars.takeWhile (· ≠ 0)

/-- The branch of `drain` for a `PERF_RECORD_SAMPLE`; `none` for a sample that is too short. -/
def decodeSample (fmts : Formats) (kind : SlotKind) (rec : Bytes) : Except Fault (Option RawEvent) := do
  if 8 + 24 > rec.length then .ok none
  else
    let pid ← loadU32 rec 8
    let tid ← loadU32 rec 12
    let time ← loadU64 rec 16
    let cpu ← loadU32 rec 24
    let e : RawEvent := { tsNs := time, cpu := cpu.toInt32, pid := pid.toInt32, tid := tid.toInt32 }
    match kind with
    | .sw => do
      let rawSize ← loadU32 rec 32
      let nextPid ← readField fmts.swFmt rec 36 rawSize "next_pid"
      let prevPid ← readField fmts.swFmt rec 36 rawSize "prev_pid"
      let comm ← readComm fmts.swFmt rec 36 rawSize "next_comm"
      .ok (some { e with
        kind := .schedSwitch
        a := nextPid.toUInt64
        b := prevPid.toUInt64
        comm := comm.elim e.comm cString })
    | .wk => do
      let rawSize ← loadU32 rec 32
      let pid ← readField fmts.wkFmt rec 36 rawSize "pid"
      let targetCpu ← readField fmts.wkFmt rec 36 rawSize "target_cpu"
      .ok (some { e with kind := .schedWakeup, a := pid.toUInt64, b := targetCpu.toUInt64 })
    | .mg => do
      let rawSize ← loadU32 rec 32
      let mpid ← readField fmts.mgFmt rec 36 rawSize "pid"
      let origCpu ← readField fmts.mgFmt rec 36 rawSize "orig_cpu"
      let destCpu ← readField fmts.mgFmt rec 36 rawSize "dest_cpu"
      .ok (some { e with
        kind := .schedMigrate
        pid := if mpid ≠ 0 then mpid.toInt32 else e.pid
        a := origCpu.toUInt64
        b := destCpu.toUInt64 })
    | .pf => .ok (some { e with kind := .pageFault, a := 1 })

/-- The counters of a capture. -/
structure CaptureSummary where
  eventsCaptured : UInt64 := 0
  schedSwitches : UInt64 := 0
  schedWakeups : UInt64 := 0
  schedMigrations : UInt64 := 0
  pageFaults : UInt64 := 0
  lostSamples : UInt64 := 0
  deriving DecidableEq

def CaptureSummary.count (s : CaptureSummary) : SlotKind → CaptureSummary
  | .sw => { s with schedSwitches := s.schedSwitches + 1, eventsCaptured := s.eventsCaptured + 1 }
  | .wk => { s with schedWakeups := s.schedWakeups + 1, eventsCaptured := s.eventsCaptured + 1 }
  | .mg => { s with schedMigrations := s.schedMigrations + 1, eventsCaptured := s.eventsCaptured + 1 }
  | .pf => { s with pageFaults := s.pageFaults + 1, eventsCaptured := s.eventsCaptured + 1 }

structure DrainState where
  out : List RawEvent := []
  summary : CaptureSummary := {}

/-- `PERF_RECORD_LOST` -/
def perfRecordLost : UInt32 := 2

/-- `PERF_RECORD_SAMPLE` -/
def perfRecordSample : UInt32 := 9

/-- The loop body of `drain`, once the record is copied out of the ring: a record has the `size` of its header. -/
def drainRecord (fmts : Formats) (kind : SlotKind) (st : DrainState) (rec : Bytes) : Except Fault DrainState := do
  let type ← loadU32 rec 0
  if type = perfRecordLost then
    if rec.length ≥ 8 + 16 then
      let lost ← loadU64 rec 16
      .ok { st with summary := { st.summary with lostSamples := st.summary.lostSamples + lost } }
    else .ok st
  else if type = perfRecordSample then
    let e ← decodeSample fmts kind rec
    .ok (e.elim st (fun e => { out := st.out ++ [e], summary := st.summary.count kind }))
  else .ok st

/-- The records of a ring, in order. -/
def drainRecords (fmts : Formats) (kind : SlotKind) (recs : List Bytes) (st : DrainState) : Except Fault DrainState :=
  recs.foldlM (drainRecord fmts kind) st

/-! ## The BPF path -/

/-- A context switch, as the kernel reports it to a tracepoint program. -/
structure SwitchContext where
  prevPid : Int32
  nextPid : Int32
  prevPrio : Int32
  nextPrio : Int32
  prevComm : Bytes
  nextComm : Bytes

structure SchedEvent where
  tsNs : UInt64
  cpu : UInt32
  prevPid : Int32
  nextPid : Int32
  prevPrio : Int32
  nextPrio : Int32
  prevComm : Bytes
  nextComm : Bytes
  type : UInt8

structure MemEvent where
  tsNs : UInt64
  cpu : UInt32
  pid : Int32
  tid : Int32
  addr : UInt64
  size : UInt64
  type : UInt8
  comm : Bytes

/-- An entry of a BPF ring, as `ctx` says which of the two it is. -/
inductive RingEntry
  | sched (e : SchedEvent)
  | mem (e : MemEvent)

/-- `bpf_probe_read_kernel_str` into an array of 16; nobody reads what is behind the terminator. -/
def readKernelStr (s : Bytes) : Bytes :=
  let chars := (cString s).take 15
  chars ++ List.replicate (16 - chars.length) 0

/-- `handle_sched_switch` of the BPF program. -/
def handleSchedSwitch (tsNs : UInt64) (cpu : UInt32) (ctx : SwitchContext) : SchedEvent :=
  { tsNs := tsNs, cpu := cpu, prevPid := ctx.prevPid, nextPid := ctx.nextPid, prevPrio := ctx.prevPrio,
    nextPrio := ctx.nextPrio, type := 0, prevComm := readKernelStr ctx.prevComm,
    nextComm := readKernelStr ctx.nextComm }

/-- `handle_event`: the event that an entry of `size` bytes appends; both structures have 64. -/
def handleEvent (entry : RingEntry) (size : Nat) : Option RawEvent :=
  if size < 64 then none
  else match entry with
    | .mem e => some {
        tsNs := e.tsNs, cpu := e.cpu.toInt32, pid := e.pid, tid := e.tid,
        kind := if e.type = 0 then .pageFault else .allocSample
        a := e.size
        comm := cString (e.comm.take 16) }
    | .sched e => some {
        tsNs := e.tsNs, cpu := e.cpu.toInt32,
        kind := if e.type = 0 then .schedSwitch else .schedWakeup
        pid := e.nextPid
        -- `static_cast<std::uint64_t>` of an `int`
        a := e.nextPid.toInt64.toUInt64
        b := e.prevPid.toInt64.toUInt64
        comm := cString (e.nextComm.take 16) }

/-! ## Context switches in a perf ring -/

section Switches

/-- A host that describes `sched_switch` by a format file. -/
structure SwitchHost where
  readFile : Bytes → Option Bytes
  format : SwitchFormat
  readable : readFile (formatPath "sched" "sched_switch") = some (formatText format.lines)

theorem SwitchHost.swFmt_eq (host : SwitchHost) : (readFormats host.readFile).swFmt = host.format.table :=
  congrArg parseFormat host.readable

/-- The payload has the bytes of a field where the format says. -/
def Carries (f : FormatField) (raw part : Bytes) : Prop :=
  f.offset + part.length ≤ raw.length ∧ (raw.drop f.offset).take part.length = part

/-- A sample of the `sched_switch` tracepoint: the task of the sample is the one that runs, and the payload tells of
the switch. -/
structure SwitchSample (format : SwitchFormat) where
  misc : UInt16
  pid : Int32
  tid : Int32
  time : UInt64
  cpu : UInt32
  res : UInt32
  raw : Bytes
  padding : Bytes
  prevPid : Int32
  nextPid : Int32
  nextComm : Bytes
  size_lt : 36 + raw.length + padding.length < 2 ^ 16
  next_at : Carries format.nextPid raw (word 4 nextPid.toUInt32.toNat)
  prev_at : Carries format.prevPid raw (word 4 prevPid.toUInt32.toNat)
  comm_at : Carries format.nextComm raw nextComm
  comm_length : nextComm.length = 16

variable {format : SwitchFormat} {fmts : Formats}

/-- The header of a sample and its fields in the order of `sample_type`: TID, TIME, CPU, RAW. -/
def SwitchSample.bytes (r : SwitchSample format) : Bytes :=
  word 4 perfRecordSample.toNat ++ word 2 r.misc.toNat ++ word 2 (36 + r.raw.length + r.padding.length) ++
    word 4 r.pid.toUInt32.toNat ++ word 4 r.tid.toUInt32.toNat ++ word 8 r.time.toNat ++ word 4 r.cpu.toNat ++
    word 4 r.res.toNat ++ word 4 r.raw.length ++ r.raw ++ r.padding

/-- The event of a sample: the table has no key for the two pids, so both words are 0. -/
def SwitchSample.event (r : SwitchSample format) : RawEvent :=
  { kind := .schedSwitch, tsNs := r.time, cpu := r.cpu.toInt32, pid := r.pid, tid := r.tid, a := 0, b := 0,
    comm := cString (r.nextComm.take 15) }

variable {block raw part : Bytes} {offset : Nat} {rawSize : UInt32}

theorem loadU32_word {x : UInt32} (pre post : Bytes) (hblock : block = pre ++ word 4 x.toNat ++ post)
    (hoffset : pre.length = offset) : loadU32 block offset = .ok x := by
  rw [loadU32, load_append pre post hblock hoffset (length_word 4 _), ok_bind, readWord_word]
  simp

theorem loadU64_word {x : UInt64} (pre post : Bytes) (hblock : block = pre ++ word 8 x.toNat ++ post)
    (hoffset : pre.length = offset) : loadU64 block offset = .ok x := by
  rw [loadU64, load_append pre post hblock hoffset (length_word 8 _), ok_bind, readWord_word]
  simp

/-- A field that is not in the table is read as 0. -/
theorem readField_absent {fmt : Format} {field : String} (h : findKey (utf8 field) fmt = none) :
    readField fmt block offset rawSize field = .ok 0 := by
  unfold readField
  rw [h]

theorem toInt_offset (f : FormatField) : (Int32.ofNat f.offset).toInt = f.offset :=
  Int32.toInt_ofNat_of_lt f.offset_lt

theorem readComm_carries (pre post : Bytes) (hblock : block = pre ++ raw ++ post) (hoffset : pre.length = offset)
    (hsize : rawSize.toNat = raw.length) (hpart : part.length = 16) (h : Carries format.nextComm raw part) :
    readComm format.table block offset rawSize "next_comm" = .ok (some (part.take 15 ++ [0])) := by
  obtain ⟨hfit, htake⟩ := h
  have hoff := toInt_offset format.nextComm
  have hnonneg : ¬Int32.ofNat format.nextComm.offset < 0 := by
    rw [Int32.lt_iff_toInt_lt, hoff]
    simp
  rw [hpart] at hfit htake
  unfold readComm
  simp only [format.findKey_nextComm, hoff, Int.toNat_natCast]
  rw [if_neg hnonneg, if_neg (by omega), load_of_take pre post hblock (by rw [hoffset]) hfit, ok_bind, htake]

theorem cString_terminated (chars : Bytes) : cString (chars ++ [0]) = cString chars := by
  induction chars with
  | nil => rfl
  | cons c chars ih =>
    unfold cString at ih ⊢
    by_cases hc : c = 0
    · simp [hc]
    · simpa [hc] using ih

/-- The type and the fields of a sample, in front of its payload. -/
def SwitchSample.front (r : SwitchSample format) : Bytes :=
  word 4 perfRecordSample.toNat ++ word 2 r.misc.toNat ++ word 2 (36 + r.raw.length + r.padding.length) ++
    word 4 r.pid.toUInt32.toNat ++ word 4 r.tid.toUInt32.toNat ++ word 8 r.time.toNat ++ word 4 r.cpu.toNat ++
    word 4 r.res.toNat ++ word 4 r.raw.length

theorem SwitchSample.bytes_eq (r : SwitchSample format) : r.bytes = r.front ++ r.raw ++ r.padding := rfl

theorem SwitchSample.front_length (r : SwitchSample format) : r.front.length = 36 := by
  simp [SwitchSample.front]

/-! The words of a sample. -/

theorem SwitchSample.loadU32_type (r : SwitchSample format) : loadU32 r.bytes 0 = .ok perfRecordSample :=
  loadU32_word [] (r.bytes.drop 4) (by simp [SwitchSample.bytes, word]) rfl

theorem SwitchSample.loadU32_pid (r : SwitchSample format) : loadU32 r.bytes 8 = .ok r.pid.toUInt32 :=
  loadU32_word (r.front.take 8) (r.bytes.drop 12) (by simp [SwitchSample.bytes_eq, SwitchSample.front, word])
    (by simp [SwitchSample.front_length])

theorem SwitchSample.loadU32_tid (r : SwitchSample format) : loadU32 r.bytes 12 = .ok r.tid.toUInt32 :=
  loadU32_word (r.front.take 12) (r.bytes.drop 16) (by simp [SwitchSample.bytes_eq, SwitchSample.front, word])
    (by simp [SwitchSample.front_length])

theorem SwitchSample.loadU64_time (r : SwitchSample format) : loadU64 r.bytes 16 = .ok r.time :=
  loadU64_word (r.front.take 16) (r.bytes.drop 24) (by simp [SwitchSample.bytes_eq, SwitchSample.front, word])
    (by simp [SwitchSample.front_length])

theorem SwitchSample.loadU32_cpu (r : SwitchSample format) : loadU32 r.bytes 24 = .ok r.cpu :=
  loadU32_word (r.front.take 24) (r.bytes.drop 28) (by simp [SwitchSample.bytes_eq, SwitchSample.front, word])
    (by simp [SwitchSample.front_length])

theorem SwitchSample.rawSize_toNat (r : SwitchSample format) : (UInt32.ofNat r.raw.length).toNat = r.raw.length := by
  have := r.size_lt
  rw [UInt32.toNat_ofNat', Nat.mod_eq_of_lt (by omega)]

theorem SwitchSample.loadU32_rawSize (r : SwitchSample format) :
    loadU32 r.bytes 32 = .ok (UInt32.ofNat r.raw.length) := by
  refine loadU32_word (r.front.take 32) (r.bytes.drop 36) ?_ (by simp [SwitchSample.front_length])
  rw [r.rawSize_toNat]
  simp [SwitchSample.bytes_eq, SwitchSample.front, word]

/-- A sample decodes to its event. -/
theorem decodeSample_bytes (hfmt : fmts.swFmt = format.table) (r : SwitchSample format) :
    decodeSample fmts .sw r.bytes = .ok (some r.event) := by
  have hlen : r.bytes.length = 36 + r.raw.length + r.padding.length := by
    rw [r.bytes_eq, List.length_append, List.length_append, r.front_length]
  have hcomm := readComm_carries r.front r.padding r.bytes_eq r.front_length r.rawSize_toNat r.comm_length r.comm_at
  unfold decodeSample
  rw [if_neg (by omega), r.loadU32_pid, ok_bind, r.loadU32_tid, ok_bind, r.loadU64_time, ok_bind, r.loadU32_cpu,
    ok_bind]
  simp only [hfmt]
  rw [r.loadU32_rawSize, ok_bind, readField_absent format.findKey_nextPid, ok_bind,
    readField_absent format.findKey_prevPid, ok_bind, hcomm, ok_bind]
  simp [SwitchSample.event, cString_terminated]

/-- The counters after a list of events of one kind. -/
def CaptureSummary.counts (s : CaptureSummary) (kind : SlotKind) (n : Nat) : CaptureSummary :=
  (fun s => s.count kind)^[n] s

theorem drainRecord_bytes (hfmt : fmts.swFmt = format.table) (r : SwitchSample format) (st : DrainState) :
    drainRecord fmts .sw st r.bytes = .ok { out := st.out ++ [r.event], summary := st.summary.count .sw } := by
  unfold drainRecord
  rw [r.loadU32_type, ok_bind, if_neg (by decide), if_pos rfl, decodeSample_bytes hfmt, ok_bind]
  rfl

/-- The samples of a ring become their events, in order. -/
theorem drainRecords_bytes (hfmt : fmts.swFmt = format.table) (rs : List (SwitchSample format)) (st : DrainState) :
    drainRecords fmts .sw (rs.map SwitchSample.bytes) st =
      .ok { out := st.out ++ rs.map SwitchSample.event, summary := st.summary.counts .sw rs.length } := by
  induction rs generalizing st with
  | nil => simp [drainRecords, CaptureSummary.counts]
  | cons r rs ih =>
    unfold drainRecords at ih ⊢
    rw [List.map_cons, List.foldlM_cons, drainRecord_bytes hfmt, ok_bind, ih]
    simp [CaptureSummary.counts]

end Switches

end Exasphere.Collectors

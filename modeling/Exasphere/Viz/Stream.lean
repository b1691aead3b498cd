import Exasphere.Json.Dump
import Exasphere.Viz.Journal

/-!
# Streaming a journal in chunks (`src/viz/chrome_trace.cpp`)

`streamTimelineChunked` reads a journal like `replayFromJournal` and writes a document of chunks: whenever the batch is
full it exports the batch and writes it. It holds at most `chunk_size` events, but reserves room for as many when it
starts. So a `chunk_size` above the size limit of a vector throws, and so does one for which the host has no memory,
however short the journal is. What the host grants is a parameter (`grants`).

`Streams` relates the states of the two loops behind the same lines: the batches written so far and the batch at hand
are the events of the journal, and one of them has the gap that the replay has found.
-/

namespace Exasphere.Viz

open Exasphere.Lib Exasphere.Json Exasphere.Core

/-- What ends a stream early. -/
inductive StreamFailure
  | parser (e : Raise)
  | lengthError
  | badAlloc
  deriving DecidableEq

/-- `sizeof(RawEvent)` -/
def rawEventSize : Nat := 120

/-- `batch.max_size()`: the bytes that pointers can span, by those of a `RawEvent`. -/
def batchMaxSize : Nat := (2 ^ 63 - 1) / rawEventSize

/-- The variables of the loop and what is written. -/
structure StreamState where
  batch : List RawEvent := []
  gapInBatch : Bool := false
  prevTsNs : UInt64 := 0
  rowsParsed : Nat := 0
  firstChunk : Bool := true
  out : Bytes

def StreamState.flushBatch (st : StreamState) : StreamState :=
  if st.batch.isEmpty && !st.gapInBatch then st
  else
    let doc := markLoss st.gapInBatch (exportEvents st.batch)
    { st with
      batch := []
      gapInBatch := false
      firstChunk := false
      out := st.out ++ (if st.firstChunk then [] else [44]) ++ doc.dump false }

def StreamState.next (chunkSize : Nat) (st : StreamState) : Line → StreamState
  | .blank => st
  | .unparseable => { st with gapInBatch := true }
  | .notEvent => st
  | .event e =>
    let st := { st with
      batch := st.batch ++ [e]
      gapInBatch := st.gapInBatch || gapAfter st.prevTsNs e.tsNs
      prevTsNs := e.tsNs
      rowsParsed := st.rowsParsed + 1 }
    if st.batch.length ≥ chunkSize then st.flushBatch else st

/-- What is written first. -/
def chunksHeader : Bytes := utf8 "\x7b\"chunks\":["

def streamLoop (chunkSize : Nat) (input : Bytes) : Except Raise StreamState :=
  (lines input).foldlM (fun st line => readLine line >>= fun l => .ok (st.next chunkSize l)) { out := chunksHeader }

/-- `batch.reserve(chunk_size)` on the empty batch, where an allocation of `n` bytes succeeds if `grants n`. -/
def reserveBatch (grants : Nat → Bool) (chunkSize : Nat) : Except StreamFailure Unit :=
  if chunkSize > batchMaxSize then .error .lengthError
  else if grants (chunkSize * rawEventSize) then .ok ()
  else .error .badAlloc

/-- `stream_timeline_chunked`: what is written and `rows_parsed`. -/
def streamTimelineChunked (grants : Nat → Bool) (input : Bytes) (chunkSize : UInt64) :
    Except StreamFailure (Bytes × Nat) := do
  let chunkSize := if chunkSize = 0 then 100000 else chunkSize.toNat
  reserveBatch grants chunkSize
  match streamLoop chunkSize input with
    | .error e => .error (.parser e)
    | .ok st => .ok (st.flushBatch.out ++ utf8 "]\x7d", st.rowsParsed)

/-! ## The chunks -/

section Chunks

/-- The document of a batch. -/
def chunkDoc (c : List RawEvent × Bool) : Value := markLoss c.2 (exportEvents c.1)

/-- The trace events of the journal in a document: neither metadata nor markers. -/
def journalEvents (doc : Value) : List Value := (traceEvents doc).filter (fun ev => !isMetadata ev && !isUnsafe ev)

theorem journalEvents_markLoss (gap : Bool) (events : List RawEvent) :
    journalEvents (markLoss gap (exportEvents events)) = events.map exported := by
  rw [journalEvents, markLoss_eq, traceEvents_document, List.cons_append, List.filter_cons, isMetadata_laneName,
    List.filter_append]
  have hevents : (events.map exported).filter (fun ev => !isMetadata ev && !isUnsafe ev) = events.map exported := by
    rw [List.filter_eq_self]
    intro ev hev
    obtain ⟨e, -, rfl⟩ := List.mem_map.mp hev
    rw [isMetadata_exported, isUnsafe_exported]
    rfl
  have hmarker : (if gap then [lossMarker] else []).filter (fun ev => !isMetadata ev && !isUnsafe ev) = [] := by
    cases gap with
    | true => simp [isUnsafe_lossMarker]
    | false => rfl
  rw [hevents, hmarker]
  simp

theorem flatMap_journalEvents (cs : List (List RawEvent × Bool)) :
    (cs.map chunkDoc).flatMap journalEvents = (cs.flatMap Prod.fst).map exported := by
  induction cs with
  | nil => rfl
  | cons c cs ih =>
    rw [List.map_cons, List.flatMap_cons, ih, chunkDoc, journalEvents_markLoss, List.flatMap_cons, List.map_append]

/-- The batches `flushed` are written, and the loop of the replay is in the state `js`. -/
structure Streams (js : JournalState) (st : StreamState) (flushed : List (List RawEvent × Bool)) : Prop where
  out : st.out = chunksHeader ++ dumpItems false 0 true (flushed.map chunkDoc)
  first : st.firstChunk = flushed.isEmpty
  events : flushed.flatMap Prod.fst ++ st.batch = js.events
  prev : st.prevTsNs = js.prevTsNs
  rows : st.rowsParsed = js.rowsParsed
  gap : js.gapDetected = true ↔ (∃ c ∈ flushed, c.2 = true) ∨ st.gapInBatch = true

/-- The batches that were written are full, and the one at hand is not. -/
structure Sized (chunkSize : Nat) (st : StreamState) (flushed : List (List RawEvent × Bool)) : Prop where
  full : ∀ c ∈ flushed, c.1.length = chunkSize
  room : st.batch.length < chunkSize

variable {chunkSize : Nat} {js : JournalState} {st : StreamState} {flushed : List (List RawEvent × Bool)}

/-- Writing the batch at hand. -/
theorem Streams.flush (h : Streams js st flushed) (hne : (st.batch.isEmpty && !st.gapInBatch) = false) :
    Streams js st.flushBatch (flushed ++ [(st.batch, st.gapInBatch)]) := by
  unfold StreamState.flushBatch
  rw [if_neg (by simp [hne])]
  constructor
  · rw [List.map_append, List.map_singleton, dumpItems_concat, h.out, h.first]
    simp [chunkDoc]
  · simp
  · simp [h.events]
  · exact h.prev
  · exact h.rows
  · rw [h.gap]
    simp [or_and_right, exists_or]

/-- An event that joins the batch at hand. -/
theorem Streams.push (h : Streams js st flushed) (e : RawEvent) :
    Streams (js.next (.event e))
      { st with
        batch := st.batch ++ [e]
        gapInBatch := st.gapInBatch || gapAfter st.prevTsNs e.tsNs
        prevTsNs := e.tsNs
        rowsParsed := st.rowsParsed + 1 } flushed := by
  constructor
  · exact h.out
  · exact h.first
  · simp only [JournalState.next]
    rw [← h.events, List.append_assoc]
  · rfl
  · simp only [JournalState.next]
    rw [h.rows]
  · simp only [JournalState.next, Bool.or_eq_true]
    rw [h.gap, h.prev, or_assoc]

/-- One line. -/
theorem Streams.next (h : Streams js st flushed) (hs : Sized chunkSize st flushed) (l : Line) :
    ∃ flushed', Streams (js.next l) (st.next chunkSize l) flushed' ∧
      Sized chunkSize (st.next chunkSize l) flushed' := by
  cases l with
  | blank => exact ⟨flushed, h, hs⟩
  | unparseable =>
    exact ⟨flushed, ⟨h.out, h.first, h.events, h.prev, h.rows, by simp [JournalState.next, StreamState.next]⟩,
      ⟨hs.full, hs.room⟩⟩
  | notEvent => exact ⟨flushed, h, hs⟩
  | event e =>
    have hpush := h.push e
    have hroom := hs.room
    simp only [StreamState.next]
    split
    next hfull =>
      refine ⟨_, hpush.flush (by simp), ⟨fun c hc => ?_, ?_⟩⟩
      · rcases List.mem_append.mp hc with hc | hc
        · exact hs.full c hc
        · rw [List.mem_singleton] at hc
          subst hc
          simp only [List.length_append, List.length_singleton] at hfull ⊢
          omega
      · unfold StreamState.flushBatch
        rw [if_neg (by simp)]
        simp only [List.length_nil]
        omega
    next hfull => exact ⟨flushed, hpush, ⟨hs.full, by simpa using hfull⟩⟩

/-- All lines. -/
theorem streams_foldl (hpos : 0 < chunkSize) (ls : List Line) : ∃ flushed,
    Streams (ls.foldl JournalState.next {}) (ls.foldl (StreamState.next chunkSize) { out := chunksHeader }) flushed ∧
      Sized chunkSize (ls.foldl (StreamState.next chunkSize) { out := chunksHeader }) flushed := by
  induction ls using List.reverseRecOn with
  | nil => exact ⟨[], ⟨by simp [dumpItems], rfl, rfl, rfl, rfl, by simp⟩, ⟨by simp, hpos⟩⟩
  | append_singleton ls l ih =>
    obtain ⟨flushed, h, hs⟩ := ih
    rw [List.foldl_concat, List.foldl_concat]
    exact h.next hs l

end Chunks

/-! ## Documents are JSON -/

section Json

open Rfc8259 (Str)

variable {args : Value} {t : TraceEvent} {e : RawEvent}

theorem plain_foldl_setBytes {ms : List (Bytes × Value)} {v : Value} (hv : v.Plain) (h : allMembers plain ms = true) :
    (ms.foldl (fun acc m => acc.setBytes m.1 m.2) v).Plain := by
  induction ms generalizing v with
  | nil => exact hv
  | cons m ms ih =>
    simp only [allMembers, Bool.and_eq_true] at h
    exact ih (hv.setBytes h.1) h.2

theorem utf8_foldl_setBytes {ms : List (Bytes × Value)} {v : Value} (hv : v.Utf8)
    (h : ∀ s ∈ textsMembers ms, Str Rfc8259.Char (quoted s)) :
    (ms.foldl (fun acc m => acc.setBytes m.1 m.2) v).Utf8 := by
  induction ms generalizing v with
  | nil => exact hv
  | cons m ms ih =>
    simp only [textsMembers, List.cons_append, List.mem_cons, List.mem_append] at h
    refine ih (hv.setBytes (fun s hs => h s (Or.inr (Or.inl hs))) (h m.1 (Or.inl rfl))) ?_
    intro s hs
    exact h s (Or.inr (Or.inr hs))

theorem instantArgs_plain (h : args.Plain) : (ChromeTraceBuilder.instantArgs args).Plain :=
  plain_foldl_setBytes (Value.plain_makeObject.set Value.plain_literal) h.members.2

theorem instantArgs_utf8 (h : args.Utf8) : (ChromeTraceBuilder.instantArgs args).Utf8 := by
  refine utf8_foldl_setBytes (Value.utf8_makeObject.set Value.utf8_literal) (fun s hs => h s ?_)
  cases args with
  | object members => exact hs
  | _ => simp [Value.asObject, textsMembers] at hs

theorem traceOf_plain (e : RawEvent) : (traceOf e).args.Plain := by
  have hswitch : (Value.makeObject |>.set "cpu" (.ofInt32 e.cpu) |>.set "next_pid" (.ofInt32 e.pid)
      |>.setNonempty "comm" e.comm).Plain :=
    ((Value.plain_makeObject.set Value.plain_int).set Value.plain_int).setNonempty
  unfold traceOf exportEvent
  cases e.kind
  case schedSwitch => exact hswitch
  case schedWakeup => exact Value.plain_makeObject
  case schedMigrate =>
    exact instantArgs_plain ((Value.plain_makeObject.set Value.plain_int).set Value.plain_int)
  case pageFault | tlbMiss | cacheMiss | mallocHotspot | allocSample =>
    exact instantArgs_plain (Value.plain_makeObject.set Value.plain_int)
  all_goals exact instantArgs_plain Value.plain_makeObject

/-- The name and the arguments of the trace event, and its literals, are in UTF-8. -/
theorem traceOf_utf8 (h : Str Rfc8259.Char (quoted e.comm)) : (traceOf e).args.Utf8 ∧
    Str Rfc8259.Char (quoted (traceOf e).name) ∧ (utf8 (traceOf e).ph).all isUnescaped = true ∧
    (utf8 (traceOf e).cat).all isUnescaped = true := by
  have hswitch : (Value.makeObject |>.set "cpu" (.ofInt32 e.cpu) |>.set "next_pid" (.ofInt32 e.pid)
      |>.setNonempty "comm" e.comm).Utf8 :=
    ((Value.utf8_makeObject.set Value.utf8_int).set Value.utf8_int).setNonempty h
  have hname : Str Rfc8259.Char (quoted (if e.comm.isEmpty then utf8 "run" else e.comm)) := by
    split
    · exact str_literal (by decide)
    · exact h
  unfold traceOf exportEvent
  cases e.kind
  case schedSwitch => exact ⟨hswitch, hname, rfl, rfl⟩
  case schedWakeup => exact ⟨Value.utf8_makeObject, str_literal (by decide), rfl, rfl⟩
  case schedMigrate =>
    exact ⟨instantArgs_utf8 ((Value.utf8_makeObject.set Value.utf8_int).set Value.utf8_int), str_literal (by decide),
      rfl, rfl⟩
  case pageFault | tlbMiss | cacheMiss | mallocHotspot | allocSample =>
    exact ⟨instantArgs_utf8 (Value.utf8_makeObject.set Value.utf8_int), str_literal (by decide), rfl, rfl⟩
  all_goals exact ⟨instantArgs_utf8 Value.utf8_makeObject, str_literal (by decide), rfl, rfl⟩

theorem traceEventToJson_plain (h : t.args.Plain) : (traceEventToJson t).Plain := by
  unfold traceEventToJson
  split_ifs
  all_goals repeat' apply Value.Plain.set
  all_goals first | exact h | rfl

theorem traceEventToJson_utf8 (hargs : t.args.Utf8) (hname : Str Rfc8259.Char (quoted t.name))
    (hph : (utf8 t.ph).all isUnescaped = true) (hcat : (utf8 t.cat).all isUnescaped = true) :
    (traceEventToJson t).Utf8 := by
  unfold traceEventToJson
  split_ifs
  all_goals repeat' apply Value.Utf8.set
  all_goals first
    | exact hargs
    | exact Value.utf8_makeObject
    | exact Value.utf8_int
    | exact Value.utf8_string hname
    | exact Value.utf8_literal hph
    | exact Value.utf8_literal hcat
    | decide

theorem document_plain {events : List Value} (h : ∀ ev ∈ events, ev.Plain) : (document events).Plain :=
  (Value.plain_makeObject.set (Value.plain_array h)).set Value.plain_literal

theorem document_utf8 {events : List Value} (h : ∀ ev ∈ events, ev.Utf8) : (document events).Utf8 :=
  (Value.utf8_makeObject.set (Value.utf8_array h)).set Value.utf8_literal

theorem lossMarker_plain : lossMarker.Plain := rfl

theorem lossMarker_utf8 : lossMarker.Utf8 := Value.utf8_of_unescaped (by decide)

theorem laneName_plain : (traceEventToJson laneName).Plain := rfl

theorem laneName_utf8 : (traceEventToJson laneName).Utf8 := Value.utf8_of_unescaped (by decide)

theorem chunkDoc_plain (c : List RawEvent × Bool) : (chunkDoc c).Plain := by
  rw [chunkDoc, markLoss_eq]
  apply document_plain
  intro ev hev
  rcases List.mem_append.mp hev with hev | hev
  · rcases List.mem_cons.mp hev with rfl | hev
    · exact laneName_plain
    · obtain ⟨e, -, rfl⟩ := List.mem_map.mp hev
      exact traceEventToJson_plain (traceOf_plain e)
  · split at hev
    · rw [List.mem_singleton.mp hev]
      exact lossMarker_plain
    · cases hev

theorem chunkDoc_utf8 {c : List RawEvent × Bool} (h : ∀ e ∈ c.1, Str Rfc8259.Char (quoted e.comm)) :
    (chunkDoc c).Utf8 := by
  rw [chunkDoc, markLoss_eq]
  apply document_utf8
  intro ev hev
  rcases List.mem_append.mp hev with hev | hev
  · rcases List.mem_cons.mp hev with rfl | hev
    · exact laneName_utf8
    · obtain ⟨e, he, rfl⟩ := List.mem_map.mp hev
      obtain ⟨hargs, hname, hph, hcat⟩ := traceOf_utf8 (h e he)
      exact traceEventToJson_utf8 hargs hname hph hcat
  · split at hev
    · rw [List.mem_singleton.mp hev]
      exact lossMarker_utf8
    · cases hev

/-- The document of all chunks. -/
def chunksDoc (docs : List Value) : Value := Value.makeObject.set "chunks" (.array docs)

theorem dump_chunksDoc (docs : List Value) :
    (chunksDoc docs).dump false = chunksHeader ++ dumpItems false 0 true docs ++ utf8 "]\x7d" := by
  have hhead : chunksHeader = 123 :: quoted (utf8 "chunks") ++ [58, 91] := by decide
  have htail : utf8 "]\x7d" = [93, 125] := by decide
  rw [hhead, htail, dumpItems_compact docs 0 1 true]
  simp [chunksDoc, Value.dump, Value.set, Value.setBytes, Value.makeObject, Value.asObject, insertKey, Value.dumpTo,
    dumpMembers, lineBreak]

theorem chunksDoc_plain {cs : List (List RawEvent × Bool)} : (chunksDoc (cs.map chunkDoc)).Plain := by
  refine Value.plain_makeObject.set (Value.plain_array (fun doc hdoc => ?_))
  obtain ⟨c, -, rfl⟩ := List.mem_map.mp hdoc
  exact chunkDoc_plain c

theorem chunksDoc_utf8 {cs : List (List RawEvent × Bool)}
    (h : ∀ e ∈ cs.flatMap Prod.fst, Str Rfc8259.Char (quoted e.comm)) : (chunksDoc (cs.map chunkDoc)).Utf8 := by
  refine Value.utf8_makeObject.set (Value.utf8_array (fun doc hdoc => ?_))
  obtain ⟨c, hc, rfl⟩ := List.mem_map.mp hdoc
  exact chunkDoc_utf8 (fun e he => h e (List.mem_flatMap.mpr ⟨c, hc, he⟩))

end Json

/-! ## The stream and the replay -/

section Refinement

open Rfc8259 (Str)

variable {chunkSize : Nat} {js : JournalState} {st : StreamState} {flushed : List (List RawEvent × Bool)}

theorem exists_hasMarker (cs : List (List RawEvent × Bool)) :
    (∃ doc ∈ cs.map chunkDoc, HasMarker doc) ↔ ∃ c ∈ cs, c.2 = true := by
  constructor
  · rintro ⟨doc, hdoc, hmarker⟩
    obtain ⟨c, hc, rfl⟩ := List.mem_map.mp hdoc
    exact ⟨c, hc, (hasMarker_markLoss c.2 c.1).mp hmarker⟩
  · rintro ⟨c, hc, hgap⟩
    exact ⟨chunkDoc c, List.mem_map_of_mem hc, (hasMarker_markLoss c.2 c.1).mpr hgap⟩

/-- The last flush writes the batch at hand, if there is something to write. -/
theorem Streams.finish (h : Streams js st flushed) (hs : Sized chunkSize st flushed) : ∃ last,
    Streams js st.flushBatch (flushed ++ last) ∧ last.length ≤ 1 ∧ (∀ c ∈ last, c.1.length < chunkSize) ∧
      st.flushBatch.batch = [] ∧ st.flushBatch.gapInBatch = false := by
  cases hempty : st.batch.isEmpty && !st.gapInBatch with
  | true =>
    have hst : st.flushBatch = st := by rw [StreamState.flushBatch, if_pos hempty]
    refine ⟨[], by rw [hst, List.append_nil]; exact h, by simp, by simp, ?_⟩
    rw [hst]
    simpa using hempty
  | false =>
    refine ⟨[(st.batch, st.gapInBatch)], h.flush hempty, by simp, by simpa using hs.room, ?_⟩
    unfold StreamState.flushBatch
    rw [if_neg (by simp [hempty])]
    exact ⟨rfl, rfl⟩

theorem reserveBatch_ok {grants : Nat → Bool} {n : Nat} (hmax : n ≤ batchMaxSize)
    (hgrant : grants (n * rawEventSize) = true) : reserveBatch grants n = .ok () := by
  rw [reserveBatch, if_neg (Nat.not_lt.mpr hmax), if_pos hgrant]

/-- **Streaming equivalence.** The text that is written is the document of its chunks, with one list of chunks `full`
from the loop and at most one chunk from the last flush; the chunks hold the events of the replay. -/
theorem streamTimelineChunked_refines (grants : Nat → Bool) (input : Bytes) (chunkSize : UInt64) (h : Readable input)
    (hpos : 1 ≤ chunkSize) (hmax : chunkSize.toNat ≤ batchMaxSize)
    (hgrant : grants (chunkSize.toNat * rawEventSize) = true) :
    ∃ (out : Bytes) (full last : List Value) (doc : Value) (rows : Nat),
      streamTimelineChunked grants input chunkSize = .ok (out, rows) ∧
      replayFromJournal input = .ok (doc, rows) ∧
      parse out = .ok (chunksDoc (full ++ last)) ∧
      Rfc8259.TextOver Rfc8259.ByteChar out ∧
      ((∀ e ∈ decoded (journal input), Str Rfc8259.Char (quoted e.comm)) → Rfc8259.Text out) ∧
      (full ++ last).flatMap journalEvents = journalEvents doc ∧
      (∀ c ∈ full, (journalEvents c).length = chunkSize.toNat) ∧
      last.length ≤ 1 ∧ (∀ c ∈ last, (journalEvents c).length < chunkSize.toNat) ∧
      ((∃ c ∈ full ++ last, HasMarker c) ↔ HasMarker doc) := by
  have hpos' : 0 < chunkSize.toNat := UInt64.le_iff_toNat_le.mp hpos
  have hne : chunkSize ≠ 0 := by
    rintro rfl
    exact absurd hpos' (by decide)
  obtain ⟨flushed, hstreams, hsized⟩ := streams_foldl hpos' (journal input)
  obtain ⟨last, hfinish, hone, hshort, hbatch, hgap⟩ := hstreams.finish hsized
  have hloop : streamLoop chunkSize.toNat input =
      .ok ((journal input).foldl (StreamState.next chunkSize.toNat) { out := chunksHeader }) := foldlM_read h.forall₂
  have hevents : (flushed ++ last).flatMap Prod.fst = decoded (journal input) := by
    have := hfinish.events
    rw [hbatch, List.append_nil] at this
    rw [this, (found_journal _).events]
  have hout := dump_chunksDoc ((flushed ++ last).map chunkDoc)
  rw [← hfinish.out] at hout
  refine ⟨(chunksDoc ((flushed ++ last).map chunkDoc)).dump false, flushed.map chunkDoc, last.map chunkDoc, _, _, ?_,
    by rw [replayFromJournal, readJournal_eq h]; rfl, ?_, ?_, ?_, ?_, ?_, ?_, ?_, ?_⟩
  · simp only [streamTimelineChunked, if_neg hne, reserveBatch_ok hmax hgrant, ok_bind, hloop, hstreams.rows]
    rw [hout]
  · rw [← List.map_append]
    exact chunksDoc_plain.read_back
  · exact chunksDoc_plain.textOver (fun s _ => str_quoted s)
  · intro hcomm
    exact chunksDoc_plain.textOver (chunksDoc_utf8 (by rw [hevents]; exact hcomm))
  · rw [← List.map_append, flatMap_journalEvents, hevents, journalEvents_markLoss, (found_journal _).events]
  · intro c hc
    obtain ⟨b, hb, rfl⟩ := List.mem_map.mp hc
    rw [chunkDoc, journalEvents_markLoss, List.length_map]
    exact hsized.full b hb
  · rw [List.length_map]
    exact hone
  · intro c hc
    obtain ⟨b, hb, rfl⟩ := List.mem_map.mp hc
    rw [chunkDoc, journalEvents_markLoss, List.length_map]
    exact hshort b hb
  · rw [hasMarker_markLoss, hfinish.gap, hgap, ← List.map_append, exists_hasMarker]
    simp only [Bool.false_eq_true, or_false]

/-- A record of a context switch to a task of the given name. -/
def switchLine (comm : Bytes) : Bytes :=
  utf8 "\x7b\"schema\":\"xsprof/event/v1\",\"event\":\"sched_switch\",\"comm\":\"" ++ comm ++ utf8 "\"\x7d\n"

theorem streamTimelineChunked_refines_two :
    let input := switchLine (utf8 "a") ++ switchLine (utf8 "b") ++ utf8 "x"
    ∃ (out : Bytes) (full last : List Value) (doc : Value) (rows : Nat),
      streamTimelineChunked (fun n => decide (n ≤ 2 ^ 20)) input 1 = .ok (out, rows) ∧
      replayFromJournal input = .ok (doc, rows) ∧
      parse out = .ok (chunksDoc (full ++ last)) ∧
      (full ++ last).flatMap journalEvents = journalEvents doc ∧
      ((∃ c ∈ full ++ last, HasMarker c) ↔ HasMarker doc) := by
  intro input
  have hreadable : Readable input := by
    intro line hline _
    have hlines : lines input =
      [(switchLine (utf8 "a")).dropLast, (switchLine (utf8 "b")).dropLast, utf8 "x"] := by decide
    rw [hlines, List.mem_cons, List.mem_cons, List.mem_singleton] at hline
    rcases hline with rfl | rfl | rfl
    · exact ⟨_, rfl⟩
    · exact ⟨_, rfl⟩
    · exact ⟨_, rfl⟩
  obtain ⟨out, full, last, doc, rows, hstream, hreplay, hparse, -, -, hevents, -, -, -, hmarker⟩ :=
    streamTimelineChunked_refines (fun n => decide (n ≤ 2 ^ 20)) input 1 hreadable (by decide) (by decide) (by decide)
  exact ⟨out, full, last, doc, rows, hstream, hreplay, hparse, hevents, hmarker⟩

/-- A chunk size beyond the limit of a vector throws whatever the host grants, one for which it has no memory throws
below that limit, and a name that is not in UTF-8 is written as it is. -/
theorem streamTimelineChunked_limits :
    (Readable [] ∧ streamTimelineChunked (fun _ => true) [] 9223372036854775807 = .error .lengthError) ∧
    streamTimelineChunked (fun n => decide (n ≤ 2 ^ 40)) [] 100000000000000 = .error .badAlloc ∧
    Readable (switchLine [255]) ∧
    ∃ out rows, streamTimelineChunked (fun _ => true) (switchLine [255]) 1 = .ok (out, rows) ∧
      ¬Rfc8259.Text out := by
  have hnil : Readable [] := by
    intro line hline
    cases hline
  refine ⟨⟨hnil, rfl⟩, rfl, ?_, ?_⟩
  · intro line hline _
    have hlines : lines (switchLine [255]) = [(switchLine [255]).dropLast] := by decide
    rw [hlines, List.mem_singleton] at hline
    rw [hline]
    exact ⟨_, rfl⟩
  · refine ⟨_, _, rfl, fun htext => htext.ne_ff ?_⟩
    decide

end Refinement

end Exasphere.Viz

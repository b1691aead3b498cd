import Exasphere.Lib.Sequence
import Exasphere.Viz.Journal

/-!
# Parts of a trace: windows and chunks (`src/viz/chrome_trace.cpp`)

A window of a trace has its metadata and the events that start in the window, as the whole trace has them
(`exportEventsWindowed_filter`). `build_chunked` divides a trace into chunks that all begin with the metadata; the loop
adds the chunk size to its offset before it compares the sum with the number of events (`buildChunked_partition`).
-/

namespace Exasphere.Viz

open Exasphere.Lib Exasphere.Json Exasphere.Core

/-! ## Windows -/

section Window

variable (w : TimeWindow) (e : RawEvent)

/-- The time of a trace event in a document. -/
def tsOf (ev : Value) : UInt64 :=
  ((ev.find "ts").getD .null).asInt.toUInt64

/-- Metadata, or an event of the window. -/
def inWindow (ev : Value) : Bool :=
  isMetadata ev || w.contains (tsOf ev)

theorem tsOf_toJson (t : TraceEvent) : tsOf (traceEventToJson t) = t.tsUs := by
  rw [tsOf, find_ts, Option.getD_some, Value.toUInt64_ofUInt64]

theorem isMetadata_toJson (t : TraceEvent) : isMetadata (traceEventToJson t) = decide (t.ph = "M") := by
  simp only [isMetadata, tag_ph, utf8_inj]

theorem traceOf_tsUs : (traceOf e).tsUs = e.tsNs / 1000 := by
  unfold traceOf exportEvent
  cases e.kind <;> rfl

/-- The two switches add the same trace event. -/
theorem exportEventWindowed_eq (b : ChromeTraceBuilder) :
    exportEventWindowed w b e = if w.contains (e.tsNs / 1000) then b ++ [traceOf e] else b := by
  by_cases hin : w.contains (e.tsNs / 1000) = true
  · rw [if_pos hin]
    simp only [exportEventWindowed, hin, Bool.not_true, Bool.false_eq_true, if_false]
    unfold traceOf exportEvent
    cases e.kind <;> rfl
  · rw [if_neg hin]
    simp only [exportEventWindowed, hin, Bool.not_false, if_true]

theorem foldl_exportEventWindowed (events : List RawEvent) (b : ChromeTraceBuilder) :
    events.foldl (exportEventWindowed w) b =
      b ++ (events.filter fun e => w.contains (e.tsNs / 1000)).map traceOf := by
  induction events generalizing b with
  | nil => simp
  | cons e events ih =>
    rw [List.foldl_cons, ih, exportEventWindowed_eq, List.filter_cons]
    split <;> simp

/-- The document of a window has the name of the lanes and a trace event for each event of the window, in order. -/
theorem exportEventsWindowed_eq (events : List RawEvent) : exportEventsWindowed events w = document
    (traceEventToJson laneName :: (events.filter fun e => w.contains (e.tsNs / 1000)).map exported) := by
  rw [exportEventsWindowed, ChromeTraceBuilder.build, foldl_exportEventWindowed, List.map_append, List.map_map]
  rfl

theorem inWindow_exported : inWindow w (exported e) = w.contains (e.tsNs / 1000) := by
  rw [inWindow, isMetadata_exported, Bool.false_or, exported, tsOf_toJson, traceOf_tsUs]

theorem traceEvents_exportEventsWindowed (events : List RawEvent) :
    traceEvents (exportEventsWindowed events w) = (traceEvents (exportEvents events)).filter (inWindow w) := by
  have hlane : inWindow w (traceEventToJson laneName) = true := by
    rw [inWindow, isMetadata_laneName, Bool.true_or]
  rw [exportEventsWindowed_eq, exportEvents_eq, traceEvents_document, traceEvents_document,
    List.filter_cons_of_pos hlane, List.filter_map]
  congr 2
  apply List.filter_congr
  intro e _
  exact (inWindow_exported w e).symm

/-- The window of the whole builder is the builder of the window. -/
theorem buildWindowed_exportEvents (events : List RawEvent) :
    (events.foldl exportEvent cpuLanes).buildWindowed w = exportEventsWindowed events w := by
  have hpass : ∀ t : TraceEvent, (decide (t.ph = "M") || w.contains t.tsUs) = inWindow w (traceEventToJson t) := by
    intro t
    rw [inWindow, isMetadata_toJson, tsOf_toJson]
  have hfull : traceEvents (exportEvents events) = (events.foldl exportEvent cpuLanes).map traceEventToJson := by
    rw [exportEvents, ChromeTraceBuilder.build, traceEvents_document]
  have hwin : exportEventsWindowed events w = document (traceEvents (exportEventsWindowed events w)) := by
    rw [exportEventsWindowed_eq, traceEvents_document]
  rw [hwin, traceEvents_exportEventsWindowed, hfull, List.filter_map, ChromeTraceBuilder.buildWindowed]
  simp only [hpass]
  rfl

theorem hasMarker_markLoss_windowed (gap : Bool) (events : List RawEvent) :
    HasMarker (markLoss gap (exportEventsWindowed events w)) ↔ gap = true := by
  cases gap with
  | true =>
    simp only [markLoss, if_true, iff_true]
    rw [exportEventsWindowed_eq, pushBackAt_document, HasMarker, traceEvents_document]
    exact ⟨lossMarker, by simp, isUnsafe_lossMarker⟩
  | false =>
    simp only [markLoss, Bool.false_eq_true, if_false, iff_false]
    -- what the window leaves is in the document without a marker
    rintro ⟨ev, hev, hunsafe⟩
    rw [traceEvents_exportEventsWindowed, List.mem_filter] at hev
    have hfull : HasMarker (markLoss false (exportEvents events)) := ⟨ev, hev.1, hunsafe⟩
    exact Bool.false_ne_true ((hasMarker_markLoss false events).mp hfull)

/-- The trace events of a window are those of the whole trace that are metadata or start in the window, and a replay of
a window is marked exactly if the replay of the journal is. -/
theorem exportEventsWindowed_filter (events : List RawEvent) (w : TimeWindow) {input : Bytes} (h : Readable input) :
    traceEvents (exportEventsWindowed events w) =
        (traceEvents (exportEvents events)).filter (fun ev => isMetadata ev || w.contains (tsOf ev)) ∧
      ∃ doc docWindowed rows, replayFromJournal input = .ok (doc, rows) ∧
        replayFromJournalWindowed input w = .ok (docWindowed, rows) ∧ (HasMarker docWindowed ↔ HasMarker doc) := by
  refine ⟨traceEvents_exportEventsWindowed w events, ?_⟩
  obtain ⟨st, hst⟩ := readJournal_ok_iff.mpr h
  refine ⟨_, _, _, by rw [replayFromJournal, hst, ok_bind],
    by rw [replayFromJournalWindowed, readJournalWindowed_eq, hst, ok_bind], ?_⟩
  rw [hasMarker_markLoss, hasMarker_markLoss_windowed]

theorem exportEventsWindowed_filter_garbage :
    traceEvents (exportEventsWindowed [{ tsNs := 5000 }] ⟨0, 3⟩) =
        (traceEvents (exportEvents [{ tsNs := 5000 }])).filter
          (fun ev => isMetadata ev || TimeWindow.contains ⟨0, 3⟩ (tsOf ev)) ∧
      ∃ doc docWindowed rows, replayFromJournal (utf8 "x\n") = .ok (doc, rows) ∧
        replayFromJournalWindowed (utf8 "x\n") ⟨0, 3⟩ = .ok (docWindowed, rows) ∧
        (HasMarker docWindowed ↔ HasMarker doc) :=
  exportEventsWindowed_filter [{ tsNs := 5000 }] ⟨0, 3⟩ readable_garbage

end Window

/-! ## Chunks -/

section Chunks

variable (b : ChromeTraceBuilder) (chunkSize : UInt64)

def isMeta (t : TraceEvent) : Bool :=
  decide (t.ph = "M")

/-- The elements of `data` with indices from `start` to before `stop`. -/
def slice (data : List TraceEvent) (start stop : UInt64) : List TraceEvent :=
  (data.drop start.toNat).take (stop.toNat - start.toNat)

/-- One chunk: the metadata and a part of the data events. -/
def chunkOf (metas part : List TraceEvent) : Value :=
  document (metas.map traceEventToJson ++ part.map traceEventToJson)

/-- Where a chunk ends: the sum is taken in a `size_t` before it is clamped. -/
def chunkEnd (size chunkSize offset : UInt64) : UInt64 :=
  if offset + chunkSize > size then size else offset + chunkSize

/-- The loop of `build_chunked`, with a bound on its turns; `none` while it is still running. -/
def chunkLoop (metas data : List TraceEvent) (chunkSize : UInt64) : Nat → UInt64 → List Value → Option (List Value)
  | 0, _, _ => none
  | turns + 1, offset, chunks =>
    let size := UInt64.ofNat data.length
    if offset < size ∨ (offset = 0 ∧ data.isEmpty) then
      let stop := chunkEnd size chunkSize offset
      let chunks := chunks ++ [chunkOf metas (slice data offset stop)]
      if data.isEmpty then some chunks else chunkLoop metas data chunkSize turns stop chunks
    else some chunks

def chunkedDocument (chunks : List Value) : Value :=
  Value.makeObject.set "chunks" (.array chunks) |>.set "displayTimeUnit" (.ofLiteral "ns")

def ChromeTraceBuilder.buildChunked (turns : Nat) : Option Value :=
  let chunkSize := if chunkSize = 0 then 1 else chunkSize
  (chunkLoop (b.filter isMeta) (b.filter fun t => !isMeta t) chunkSize turns 0 []).map chunkedDocument

section Loop

variable {data : List TraceEvent} {chunkSize offset : UInt64}

/-- The sum does not wrap: a chunk that is not the first begins at or behind one chunk size. -/
theorem chunkEnd_toNat (hsize : data.length < 2 ^ 63) (hoff : offset.toNat < data.length)
    (hstep : offset.toNat = 0 ∨ chunkSize.toNat ≤ offset.toNat) :
    (chunkEnd (UInt64.ofNat data.length) chunkSize offset).toNat =
      min data.length (offset.toNat + chunkSize.toNat) := by
  have hlen : (UInt64.ofNat data.length).toNat = data.length := by
    rw [UInt64.toNat_ofNat', Nat.mod_eq_of_lt (by omega)]
  have hadd : (offset + chunkSize).toNat = offset.toNat + chunkSize.toNat := by
    have := chunkSize.toNat_lt
    rw [UInt64.toNat_add, Nat.mod_eq_of_lt (by omega)]
  unfold chunkEnd
  by_cases hgt : offset + chunkSize > UInt64.ofNat data.length
  · have hlt := UInt64.lt_iff_toNat_lt.mp hgt
    rw [if_pos hgt, hlen]
    omega
  · have hle := UInt64.le_iff_toNat_le.mp (UInt64.not_lt.mp hgt)
    rw [if_neg hgt, hadd]
    omega

/-- One turn of the loop. -/
theorem chunkLoop_turn (metas : List TraceEvent) (hsize : data.length < 2 ^ 63) (hoff : offset.toNat < data.length)
    (turns : Nat) (chunks : List Value) :
    chunkLoop metas data chunkSize (turns + 1) offset chunks =
      chunkLoop metas data chunkSize turns (chunkEnd (UInt64.ofNat data.length) chunkSize offset)
        (chunks ++ [chunkOf metas (slice data offset (chunkEnd (UInt64.ofNat data.length) chunkSize offset))]) := by
  have hlen : (UInt64.ofNat data.length).toNat = data.length := by
    rw [UInt64.toNat_ofNat', Nat.mod_eq_of_lt (by omega)]
  have hdata : data.isEmpty = false := by
    rw [List.isEmpty_eq_false_iff, ← List.length_pos_iff]
    omega
  have hguard : offset < UInt64.ofNat data.length := UInt64.lt_iff_toNat_lt.mpr (by omega)
  rw [chunkLoop]
  simp only [hguard, true_or, if_true, hdata, Bool.false_eq_true, if_false]

/-- The loop stops at the end of the data. -/
theorem chunkLoop_end (metas : List TraceEvent) (hsize : data.length < 2 ^ 63) (hdata : data ≠ [])
    (hoff : offset.toNat = data.length) (turns : Nat) (chunks : List Value) :
    chunkLoop metas data chunkSize (turns + 1) offset chunks = some chunks := by
  have hlen : (UInt64.ofNat data.length).toNat = data.length := by
    rw [UInt64.toNat_ofNat', Nat.mod_eq_of_lt (by omega)]
  have hdone : ¬(offset < UInt64.ofNat data.length ∨ (offset = 0 ∧ data.isEmpty = true)) := by
    rintro (h | ⟨-, h⟩)
    · have := UInt64.lt_iff_toNat_lt.mp h
      omega
    · exact hdata (List.isEmpty_iff.mp h)
  rw [chunkLoop]
  simp only [hdone, if_false]

/-- The loop over data events that are not done yet cuts them into chunks. -/
theorem chunkLoop_cut (metas : List TraceEvent) (hc : 0 < chunkSize.toNat) (hsize : data.length < 2 ^ 63)
    (hoff : offset.toNat < data.length) (hstep : offset.toNat = 0 ∨ chunkSize.toNat ≤ offset.toNat)
    {turns : Nat} (hturns : data.length - offset.toNat < turns) (chunks : List Value) :
    ∃ parts, Cut chunkSize.toNat (data.drop offset.toNat) parts ∧
      chunkLoop metas data chunkSize turns offset chunks = some (chunks ++ parts.map (chunkOf metas)) := by
  induction turns generalizing offset chunks with
  | zero => omega
  | succ turns ih =>
    have hend := chunkEnd_toNat hsize hoff hstep
    rw [chunkLoop_turn metas hsize hoff]
    generalize chunkEnd (UInt64.ofNat data.length) chunkSize offset = stop at hend
    by_cases hlast : data.length ≤ offset.toNat + chunkSize.toNat
    · -- the last chunk
      obtain ⟨turns, rfl⟩ : ∃ k, turns = k + 1 := ⟨turns - 1, by omega⟩
      have hstop : stop.toNat = data.length := by omega
      have hdata : data ≠ [] := by
        rw [← List.length_pos_iff]
        omega
      refine ⟨[data.drop offset.toNat], .last ?_ ?_, ?_⟩
      · rw [← List.length_pos_iff, List.length_drop]
        omega
      · rw [List.length_drop]
        omega
      · have hslice : slice data offset stop = data.drop offset.toNat := by
          rw [slice, hstop, List.take_of_length_le (by rw [List.length_drop])]
        rw [chunkLoop_end metas hsize hdata hstop, hslice, List.map_singleton]
    · have hstop : stop.toNat = offset.toNat + chunkSize.toNat := by omega
      obtain ⟨parts, hcut, hparts⟩ := ih (by omega : stop.toNat < data.length) (Or.inr (by omega)) (by omega)
        (chunks ++ [chunkOf metas (slice data offset stop)])
      refine ⟨slice data offset stop :: parts, ?_, ?_⟩
      · have hsplit : data.drop offset.toNat = slice data offset stop ++ data.drop stop.toNat := by
          rw [slice, hstop, Nat.add_sub_cancel_left, ← List.drop_drop, List.take_append_drop]
        rw [hsplit]
        refine .more ?_ hcut
        rw [slice, List.length_take, List.length_drop]
        omega
      · rw [hparts, List.map_cons, List.append_assoc, List.singleton_append]

/-- The data events of the chunks: all of them in order, at most one chunk size in each chunk and exactly that many in
all but the last. -/
theorem chunkLoop_parts (metas : List TraceEvent) (hc : 0 < chunkSize.toNat)
    (hsize : data.length < 2 ^ 63) {turns : Nat}
    (hturns : data.length < turns) : ∃ parts : List (List TraceEvent),
      chunkLoop metas data chunkSize turns 0 [] = some (parts.map (chunkOf metas)) ∧ parts.flatten = data ∧
        parts.length = max 1 ((data.length + (chunkSize.toNat - 1)) / chunkSize.toNat) ∧
      (∀ part ∈ parts, part.length ≤ chunkSize.toNat) ∧ ∀ part ∈ parts.dropLast, part.length = chunkSize.toNat := by
  cases data with
  | nil =>
    obtain ⟨turns, rfl⟩ : ∃ k, turns = k + 1 := ⟨turns - 1, by omega⟩
    have hdiv : (chunkSize.toNat - 1) / chunkSize.toNat = 0 := Nat.div_eq_of_lt (by omega)
    refine ⟨[[]], ?_, rfl, ?_, by simp, by simp⟩
    · rw [chunkLoop]
      simp [slice]
    · simp [hdiv]
  | cons t data =>
    have hpos : (0 : UInt64).toNat < (t :: data).length := Nat.succ_pos _
    obtain ⟨parts, hcut, hrun⟩ := chunkLoop_cut metas hc hsize hpos (Or.inl rfl)
      (Nat.lt_of_le_of_lt (Nat.sub_le _ _) hturns) []
    have hcount := hcut.count hc
    have hone := List.length_pos_iff.mpr hcut.ne_nil
    rw [UInt64.toNat_zero, List.drop_zero] at hcut hcount
    refine ⟨parts, hrun, hcut.flatten, ?_, hcut.length_le, hcut.length_eq⟩
    omega

end Loop

/-- The chunks of a document. -/
def chunksOf (doc : Value) : List Value :=
  ((doc.find "chunks").getD .null).asArray

def metadataEvents (doc : Value) : List Value :=
  (traceEvents doc).filter isMetadata

def dataEvents (doc : Value) : List Value :=
  (traceEvents doc).filter fun ev => !isMetadata ev

@[simp] theorem chunksOf_chunkedDocument (chunks : List Value) : chunksOf (chunkedDocument chunks) = chunks := by
  simp [chunksOf, chunkedDocument, Value.asArray]

theorem filter_map_toJson {p : Value → Bool} {q : TraceEvent → Bool} (h : ∀ t, p (traceEventToJson t) = q t)
    (ts : List TraceEvent) : (ts.map traceEventToJson).filter p = (ts.filter q).map traceEventToJson := by
  rw [List.filter_map]
  congr 2
  funext t
  exact h t

theorem metadataEvents_build (b : ChromeTraceBuilder) :
    metadataEvents b.build = (b.filter isMeta).map traceEventToJson := by
  rw [metadataEvents, ChromeTraceBuilder.build, traceEvents_document, filter_map_toJson isMetadata_toJson]
  rfl

theorem dataEvents_build (b : ChromeTraceBuilder) :
    dataEvents b.build = (b.filter fun t => !isMeta t).map traceEventToJson := by
  rw [dataEvents, ChromeTraceBuilder.build, traceEvents_document,
    filter_map_toJson fun t => congrArg (! ·) (isMetadata_toJson t)]
  rfl

/-- The data events of a chunk are its part. -/
theorem dataEvents_chunkOf {metas part : List TraceEvent} (hmetas : ∀ t ∈ metas, isMeta t = true)
    (hpart : ∀ t ∈ part, isMeta t = false) : dataEvents (chunkOf metas part) = part.map traceEventToJson := by
  have hnot : ∀ t, (!isMetadata (traceEventToJson t)) = !isMeta t := fun t => congrArg (! ·) (isMetadata_toJson t)
  rw [dataEvents, chunkOf, traceEvents_document, List.filter_append, filter_map_toJson hnot, filter_map_toJson hnot,
    List.filter_eq_nil_iff.mpr (fun t ht => by simp [hmetas t ht]),
    List.filter_eq_self.mpr (fun t ht => by simp [hpart t ht])]
  rfl

/-- `build_chunked` ends with chunks that partition the data events: each begins with the metadata, and all but the last
are full. A `std::vector` has fewer than `2 ^ 63` elements. -/
theorem buildChunked_partition (b : ChromeTraceBuilder) (chunkSize : UInt64) (hsize : b.length < 2 ^ 63) (turns : Nat)
    (hturns : b.length < turns) :
    ∃ doc, b.buildChunked chunkSize turns = some doc ∧
      (chunksOf doc).length =
        max 1 (((dataEvents b.build).length + (max 1 chunkSize.toNat - 1)) / max 1 chunkSize.toNat) ∧
      (∀ chunk ∈ chunksOf doc, traceEvents chunk = metadataEvents b.build ++ dataEvents chunk ∧
        (dataEvents chunk).length ≤ max 1 chunkSize.toNat) ∧
      (∀ chunk ∈ (chunksOf doc).dropLast, (dataEvents chunk).length = max 1 chunkSize.toNat) ∧
      (chunksOf doc).flatMap dataEvents = dataEvents b.build := by
  have hchunk : (if chunkSize = 0 then 1 else chunkSize).toNat = max 1 chunkSize.toNat := by
    split
    · rename_i h
      rw [h]
      rfl
    · rename_i h
      have : chunkSize.toNat ≠ 0 := fun h0 => h (UInt64.toNat_inj.mp h0)
      omega
  have hdata := List.length_filter_le (fun t => !isMeta t) b
  obtain ⟨parts, hrun, hflat, hcount, hle, heq⟩ := chunkLoop_parts (b.filter isMeta)
    (by rw [hchunk]; omega : 0 < (if chunkSize = 0 then 1 else chunkSize).toNat)
    (by omega : (b.filter fun t => !isMeta t).length < 2 ^ 63) (by omega : _ < turns)
  rw [hchunk] at hcount hle heq
  have hpart : ∀ part ∈ parts, dataEvents (chunkOf (b.filter isMeta) part) = part.map traceEventToJson := by
    intro part hmem
    apply dataEvents_chunkOf
    · intro t ht
      exact (List.mem_filter.mp ht).2
    · intro t ht
      have hin : t ∈ b.filter fun t => !isMeta t := by
        rw [← hflat]
        exact List.mem_flatten.mpr ⟨part, hmem, ht⟩
      simpa using (List.mem_filter.mp hin).2
  refine ⟨_, by rw [ChromeTraceBuilder.buildChunked, hrun]; rfl, ?_, ?_, ?_, ?_⟩
  · rw [chunksOf_chunkedDocument, List.length_map, hcount, dataEvents_build, List.length_map]
  · rw [chunksOf_chunkedDocument, List.forall_mem_map]
    intro part hmem
    rw [hpart part hmem, metadataEvents_build, chunkOf, traceEvents_document, List.length_map]
    exact ⟨rfl, hle part hmem⟩
  · rw [chunksOf_chunkedDocument, ← List.map_dropLast, List.forall_mem_map]
    intro part hmem
    rw [hpart part (List.mem_of_mem_dropLast hmem), List.length_map]
    exact heq part hmem
  · rw [chunksOf_chunkedDocument, dataEvents_build, ← hflat, List.flatMap_map, List.map_flatten]
    exact congrArg List.flatten (List.map_congr_left hpart)

/-- Three data events around the name of the lanes. -/
def threeInstants : ChromeTraceBuilder :=
  [{ name := utf8 "a", ph := "i" }, laneName, { name := utf8 "b", ph := "i" }, { name := utf8 "c", ph := "i" }]

theorem buildChunked_partition_threeInstants :
    ∃ doc, threeInstants.buildChunked 2 5 = some doc ∧
      (chunksOf doc).length = max 1 (((dataEvents threeInstants.build).length + (max 1 2 - 1)) / max 1 2) ∧
      (∀ chunk ∈ chunksOf doc, traceEvents chunk = metadataEvents threeInstants.build ++ dataEvents chunk ∧
        (dataEvents chunk).length ≤ max 1 2) ∧
      (∀ chunk ∈ (chunksOf doc).dropLast, (dataEvents chunk).length = max 1 2) ∧
      (chunksOf doc).flatMap dataEvents = dataEvents threeInstants.build :=
  buildChunked_partition threeInstants 2 (by decide) 5 (by decide)

end Chunks

end Exasphere.Viz

import Exasphere.Cli.Sound

/-!
# Recordings

What `record` has written into a journal, `timeline` reads back: every event that was captured, sanitized, in order,
with a marker exactly if the detector sees a jump of the clock (`timeline_record`). In chunks the events are the same
(`timeline_record_chunked`); but where the chunks are to go into the journal itself, it is emptied before it is read.
-/

namespace Exasphere.Cli

open Exasphere.Lib Exasphere.Json Exasphere.Core Exasphere.Proc

/-! ## The journal -/

section Journal

/-- Somewhere in the capture the detector sees a gap. -/
def Jumps (events : List RawEvent) : Prop := Consecutive (fun x y => Viz.gapAfter x.tsNs y.tsNs = true) events

/-- The line of an event. -/
def eventLine (e : RawEvent) : Bytes := (eventToJson e).dump false

theorem filtered_eq (e : RawEvent) : filtered e = sanitizeEvent e := by
  rw [sanitizeEvent_eq]
  obtain ⟨kind, tsNs, cpu, pid, tid, a, b, c, comm, detail⟩ := e
  cases detail <;> rfl

theorem journalText_eq (events : List RawEvent) : journalText events = unlines (events.map eventLine) := by
  rw [journalText, unlines, List.flatMap_map]
  refine List.flatMap_congr fun e _ => ?_
  rw [filtered_eq, eventToJson_sanitizeEvent]
  rfl

theorem lines_journalText (events : List RawEvent) : lines (journalText events) = events.map eventLine := by
  rw [journalText_eq]
  refine lines_unlines fun l hl => ?_
  obtain ⟨e, -, rfl⟩ := List.mem_map.mp hl
  exact (eventToJson_plain e).newline_not_mem

theorem readLine_eventLine (e : RawEvent) : Viz.readLine (eventLine e) = .ok (.event (sanitizeEvent e)) := by
  have hhead : (eventLine e).head? = some 123 := (dump_ends rfl).1
  have hne : ¬(eventLine e).isEmpty = true := by
    rw [List.isEmpty_iff]
    intro hnil
    rw [hnil] at hhead
    cases hhead
  have hnull : (eventToJson e).isNull = false := rfl
  unfold Viz.readLine
  rw [if_neg hne, eventLine, (eventToJson_plain e).read_back, ok_bind, hnull, if_neg Bool.false_ne_true,
    eventFromJson_eventToJson]
  rfl

theorem readable_journalText (events : List RawEvent) : Viz.Readable (journalText events) := by
  intro l hl _
  rw [lines_journalText] at hl
  obtain ⟨e, -, rfl⟩ := List.mem_map.mp hl
  exact ⟨_, (eventToJson_plain e).read_back⟩

theorem journal_journalText (events : List RawEvent) :
    Viz.journal (journalText events) = events.map fun e => .event (sanitizeEvent e) := by
  rw [Viz.journal, lines_journalText, List.map_map]
  refine List.map_congr_left fun e _ => ?_
  rw [Function.comp_apply, Viz.lineOf, readLine_eventLine]
  rfl

theorem decoded_journalText (events : List RawEvent) :
    Viz.decoded (Viz.journal (journalText events)) = events.map sanitizeEvent := by
  rw [journal_journalText, Viz.decoded, List.filterMap_map]
  exact congrFun List.filterMap_eq_map' events

/-- Sanitizing keeps the times. -/
theorem jumps_sanitized (events : List RawEvent) :
    Consecutive (fun x y => Viz.gapAfter x.tsNs y.tsNs = true) (events.map sanitizeEvent) ↔ Jumps events := by
  have hts : ∀ e : RawEvent, (sanitizeEvent e).tsNs = e.tsNs := fun e => by rw [sanitizeEvent_eq]
  rw [consecutive_map, Jumps]
  simp only [hts]

/-- What the loop over the lines finds in a journal. -/
theorem found_journalText (events : List RawEvent) :
    let st := (Viz.journal (journalText events)).foldl Viz.JournalState.next {}
    st.events = events.map sanitizeEvent ∧ st.rowsParsed = events.length ∧ (st.gapDetected = true ↔ Jumps events) := by
  have hfound := Viz.found_journal (Viz.journal (journalText events))
  have hparses : Viz.Line.unparseable ∉ Viz.journal (journalText events) := by
    rw [journal_journalText]
    simp
  refine ⟨?_, ?_, ?_⟩
  · rw [hfound.events, decoded_journalText]
  · rw [hfound.rows, decoded_journalText, List.length_map]
  · rw [hfound.gap, decoded_journalText, jumps_sanitized, or_iff_right hparses]

theorem replay_journalText (events : List RawEvent) : ∃ gap, (gap = true ↔ Jumps events) ∧
    Viz.replayFromJournal (journalText events) =
      .ok (Viz.markLoss gap (Viz.exportEvents (events.map sanitizeEvent)), events.length) ∧
    ∀ w, Viz.replayFromJournalWindowed (journalText events) w =
      .ok (Viz.markLoss gap (Viz.exportEventsWindowed (events.map sanitizeEvent) w), events.length) := by
  obtain ⟨hevents, hrows, hgap⟩ := found_journalText events
  refine ⟨_, hgap, ?_, fun w => ?_⟩
  · rw [Viz.replayFromJournal, Viz.readJournal_eq (readable_journalText events), ok_bind, hevents, hrows]
  · rw [Viz.replayFromJournalWindowed, Viz.readJournalWindowed_eq, Viz.readJournal_eq (readable_journalText events),
      ok_bind, hevents, hrows]

/-- A journal in chunks. -/
theorem stream_journalText {grants : Nat → Bool} (events : List RawEvent) {chunkSize : UInt64}
    (hpos : 0 < chunkSize.toNat) (hmax : chunkSize.toNat ≤ Viz.batchMaxSize)
    (hgrant : grants (chunkSize.toNat * Viz.rawEventSize) = true) : ∃ docs,
    docs.flatMap Viz.journalEvents = events.map (fun e => Viz.exported (sanitizeEvent e)) ∧
    ((∃ doc ∈ docs, Viz.HasMarker doc) ↔ Jumps events) ∧
    Viz.streamTimelineChunked grants (journalText events) chunkSize =
      .ok ((Viz.chunksDoc docs).dump false, events.length) := by
  obtain ⟨hevents, hrows, hgap⟩ := found_journalText events
  have hne : chunkSize ≠ 0 := by
    rintro rfl
    exact absurd hpos (by decide)
  obtain ⟨flushed, hstreams, hsized⟩ := Viz.streams_foldl hpos (Viz.journal (journalText events))
  obtain ⟨last, hfinish, -, -, hbatch, hlast⟩ := hstreams.finish hsized
  have hloop : Viz.streamLoop chunkSize.toNat (journalText events) = .ok ((Viz.journal (journalText events)).foldl
      (Viz.StreamState.next chunkSize.toNat) { out := Viz.chunksHeader }) :=
    foldlM_read (readable_journalText events).forall₂
  have hflat : (flushed ++ last).flatMap Prod.fst = events.map sanitizeEvent := by
    have hall := hfinish.events
    rw [hbatch, List.append_nil] at hall
    rw [hall, hevents]
  have hmarked := hfinish.gap
  rw [hlast, hgap] at hmarked
  refine ⟨(flushed ++ last).map Viz.chunkDoc, ?_, ?_, ?_⟩
  · rw [Viz.flatMap_journalEvents, hflat, List.map_map]
    rfl
  · rw [Viz.exists_hasMarker, hmarked]
    simp
  · simp only [Viz.streamTimelineChunked, if_neg hne, Viz.reserveBatch_ok hmax hgrant, ok_bind, hloop, hstreams.rows,
      hrows]
    rw [Viz.dump_chunksDoc, hfinish.out]

theorem stream_empty {grants : Nat → Bool} {chunkSize : UInt64} (hpos : 0 < chunkSize.toNat)
    (hmax : chunkSize.toNat ≤ Viz.batchMaxSize) (hgrant : grants (chunkSize.toNat * Viz.rawEventSize) = true) :
    Viz.streamTimelineChunked grants [] chunkSize = .ok ((Viz.chunksDoc []).dump false, 0) := by
  have hne : chunkSize ≠ 0 := by
    rintro rfl
    exact absurd hpos (by decide)
  have hloop : Viz.streamLoop chunkSize.toNat [] = .ok { out := Viz.chunksHeader } := rfl
  simp only [Viz.streamTimelineChunked, if_neg hne, Viz.reserveBatch_ok hmax hgrant, ok_bind, hloop]
  rw [Viz.dump_chunksDoc]
  simp [Viz.StreamState.flushBatch, dumpItems]

end Journal

/-! ## The commands -/

section Commands

variable {m : Machine} {files : Files} {args targs : List Bytes} {prog : Bytes}

/-- `record` writes the journal of its capture, where it has one. -/
theorem record_writes {outcome : Outcome} (hrec : main m files (prog :: utf8 "record" :: args) = .exited outcome)
    (hcode : outcome.code = 0) (hne : (recordArgs args {}).output ≠ [])
    (hwrite : m.writable (recordArgs args {}).output = true) :
    ∃ state events, captureEvents m (recordArgs args {}) = .ok (state, events) ∧
      outcome.files = Function.update files (recordArgs args {}).output (some (journalText events)) := by
  rw [main_record] at hrec
  obtain rfl := Result.exited.inj hrec
  cases hcap : captureEvents m (recordArgs args {}) with
  | error capability =>
    rw [cmdRecord_error hcap] at hcode
    cases hcode
  | ok captured =>
    obtain ⟨state, events⟩ := captured
    refine ⟨state, events, rfl, ?_⟩
    rw [cmdRecord_ok hcap, if_pos ⟨hne, hwrite⟩]

theorem cmdTimeline_reads {content : Bytes} {window : Option Viz.TimeWindow} (hne : (timelineArgs targs {}).input ≠ [])
    (hfile : files (timelineArgs targs {}).input = some content)
    (hwindow : timelineWindow (timelineArgs targs {}).windowStr = some window) :
    cmdTimeline m files targs = if 0 < (timelineArgs targs {}).chunkSize then
      timelineChunked m files (timelineArgs targs {}) window else timelineLoaded files content window := by
  unfold cmdTimeline
  dsimp only
  rw [if_neg hne, hfile]
  dsimp only
  rw [hwindow]

/-- **A recording is replayed**: after a `record` into a journal, `timeline` shows the events that were captured,
sanitized, in their order, or those of a window, with their number. -/
theorem timeline_record {outcome : Outcome} (hrec : main m files (prog :: utf8 "record" :: args) = .exited outcome)
    (hcode : outcome.code = 0) (hne : (recordArgs args {}).output ≠ [])
    (hwrite : m.writable (recordArgs args {}).output = true) :
    ∃ state events gap, captureEvents m (recordArgs args {}) = .ok (state, events) ∧ (gap = true ↔ Jumps events) ∧
      ∀ targs, (timelineArgs targs {}).input = (recordArgs args {}).output → (timelineArgs targs {}).chunkSize ≤ 0 →
        ((timelineArgs targs {}).windowStr = [] →
          main m outcome.files (prog :: utf8 "timeline" :: targs) = .exited {
            code := 0
            out := jsonLine (withRows (Viz.markLoss gap (Viz.exportEvents (events.map sanitizeEvent))) events.length)
            files := outcome.files }) ∧
        ∀ w, (timelineArgs targs {}).windowStr ≠ [] → Viz.parseWindow (timelineArgs targs {}).windowStr = some w →
          main m outcome.files (prog :: utf8 "timeline" :: targs) = .exited {
            code := 0
            out := jsonLine (withRows (Viz.markLoss gap (Viz.exportEventsWindowed (events.map sanitizeEvent) w))
              events.length)
            files := outcome.files } := by
  obtain ⟨state, events, hcap, hfiles⟩ := record_writes hrec hcode hne hwrite
  obtain ⟨gap, hgap, hreplay, hwindowed⟩ := replay_journalText events
  refine ⟨state, events, gap, hcap, hgap, fun targs hinput hsize => ?_⟩
  have hfile : outcome.files (timelineArgs targs {}).input = some (journalText events) := by
    rw [hinput, hfiles, Function.update_self]
  have hin : (timelineArgs targs {}).input ≠ [] := hinput ▸ hne
  refine ⟨fun hnone => ?_, fun w hsome hparse => ?_⟩
  · rw [main_timeline, cmdTimeline_reads hin hfile (if_pos hnone), if_neg (Int.not_lt.mpr hsize), timelineLoaded,
      Option.elim_none, hreplay]
  · have hwindow : timelineWindow (timelineArgs targs {}).windowStr = some (some w) := by
      rw [timelineWindow, if_neg hsome, hparse]
      rfl
    rw [main_timeline, cmdTimeline_reads hin hfile hwindow, if_neg (Int.not_lt.mpr hsize), timelineLoaded,
      Option.elim_some, hwindowed]

theorem captureEvents_live : captureEvents liveMachine (recordArgs recordingArgs {}) = .ok ("READY", twoSwitches) := by
  rfl

theorem record_live : (cmdRecord liveMachine (fun _ => none) recordingArgs).code = 0 := by decide +kernel

theorem timeline_record_live : ∃ outcome gap,
    main liveMachine (fun _ => none) (utf8 "xsprof" :: utf8 "record" :: recordingArgs) = .exited outcome ∧
      main liveMachine outcome.files [utf8 "xsprof", utf8 "timeline", utf8 "--input", utf8 "j"] = .exited {
        code := 0
        out := jsonLine (withRows (Viz.markLoss gap (Viz.exportEvents (twoSwitches.map sanitizeEvent))) 2)
        files := outcome.files } := by
  obtain ⟨state, events, gap, hcap, -, hread⟩ := timeline_record (main_record (m := liveMachine))
    record_live (by decide) rfl
  obtain ⟨rfl, rfl⟩ := Prod.mk.inj (Except.ok.inj (captureEvents_live.symm.trans hcap))
  exact ⟨_, gap, rfl, (hread [utf8 "--input", utf8 "j"] (by decide) (by decide)).1 (by decide)⟩

theorem toNat_ofInt {v : Int} (hnonneg : 0 ≤ v) (hlt : v < 2 ^ 64) : (UInt64.ofInt v).toNat = v.toNat := by
  rw [UInt64.ofInt, Int.emod_eq_of_lt hnonneg hlt, UInt64.toNat_ofNat']
  exact Nat.mod_eq_of_lt (by omega)

/-- The journal is read as the chunks' file leaves it. -/
theorem timelineChunked_streamed {o : TimelineOptions} {text : Bytes} {rows : Nat}
    (h : Viz.streamTimelineChunked m.grants (if chunkTarget m o = some o.input then [] else (files o.input).getD [])
      (UInt64.ofInt o.chunkSize) = .ok (text, rows)) :
    timelineChunked m files o none = .exited (chunkedOutcome files (chunkTarget m o) (line text)
      (utf8 "\x7b\"journal_rows\":" ++ decimal rows ++ utf8 "\x7d\n")) := by
  unfold timelineChunked
  dsimp only
  rw [h]

/-- **A recording is replayed in chunks**, to the same events; only a journal that is itself named behind `--output` is
emptied before it is read. -/
theorem timeline_record_chunked {outcome : Outcome}
    (hrec : main m files (prog :: utf8 "record" :: args) = .exited outcome) (hcode : outcome.code = 0)
    (hne : (recordArgs args {}).output ≠ []) (hwrite : m.writable (recordArgs args {}).output = true) :
    ∃ state events, captureEvents m (recordArgs args {}) = .ok (state, events) ∧
      ∀ targs, (timelineArgs targs {}).input = (recordArgs args {}).output → (timelineArgs targs {}).windowStr = [] →
        0 < (timelineArgs targs {}).chunkSize → (timelineArgs targs {}).chunkSize ≤ Viz.batchMaxSize →
        m.grants ((timelineArgs targs {}).chunkSize.toNat * Viz.rawEventSize) = true →
        ∃ docs rows, main m outcome.files (prog :: utf8 "timeline" :: targs) = .exited (chunkedOutcome outcome.files
            (chunkTarget m (timelineArgs targs {})) (line ((Viz.chunksDoc docs).dump false))
            (utf8 "\x7b\"journal_rows\":" ++ decimal rows ++ utf8 "\x7d\n")) ∧
          ((timelineArgs targs {}).output = (timelineArgs targs {}).input → docs = [] ∧ rows = 0) ∧
          ((timelineArgs targs {}).output ≠ (timelineArgs targs {}).input → rows = events.length ∧
            docs.flatMap Viz.journalEvents = events.map (fun e => Viz.exported (sanitizeEvent e)) ∧
            ((∃ doc ∈ docs, Viz.HasMarker doc) ↔ Jumps events)) := by
  obtain ⟨state, events, hcap, hfiles⟩ := record_writes hrec hcode hne hwrite
  refine ⟨state, events, hcap, fun targs hinput hnone hpos hmax hgrant => ?_⟩
  have hfile : outcome.files (timelineArgs targs {}).input = some (journalText events) := by
    rw [hinput, hfiles, Function.update_self]
  have hin : (timelineArgs targs {}).input ≠ [] := hinput ▸ hne
  have hbound : (Viz.batchMaxSize : Int) < 2 ^ 64 := by decide
  have hchunk := toNat_ofInt hpos.le (hmax.trans_lt hbound)
  have hpos' : 0 < (UInt64.ofInt (timelineArgs targs {}).chunkSize).toNat := by omega
  have hmax' : (UInt64.ofInt (timelineArgs targs {}).chunkSize).toNat ≤ Viz.batchMaxSize := by omega
  rw [← hchunk] at hgrant
  obtain ⟨docs, hdocs, hmarker, hstream⟩ := stream_journalText events hpos' hmax' hgrant
  have hrun : main m outcome.files (prog :: utf8 "timeline" :: targs) =
      timelineChunked m outcome.files (timelineArgs targs {}) none := by
    rw [main_timeline, cmdTimeline_reads hin hfile (if_pos hnone), if_pos hpos]
  by_cases hsame : (timelineArgs targs {}).output = (timelineArgs targs {}).input
  · have htarget : chunkTarget m (timelineArgs targs {}) = some (timelineArgs targs {}).input :=
      chunkTarget_eq_some.mpr ⟨hsame, hin, by rw [hinput]; exact hwrite⟩
    refine ⟨[], 0, ?_, fun _ => ⟨rfl, rfl⟩, fun hother => absurd hsame hother⟩
    rw [hrun, timelineChunked_streamed]
    rw [if_pos htarget, stream_empty hpos' hmax' hgrant]
  · have htarget : chunkTarget m (timelineArgs targs {}) ≠ some (timelineArgs targs {}).input :=
      fun h => hsame (chunkTarget_eq_some.mp h).1
    refine ⟨docs, events.length, ?_, fun h => absurd h hsame, fun _ => ⟨rfl, hdocs, hmarker⟩⟩
    rw [hrun, timelineChunked_streamed]
    rw [if_neg htarget, hfile, Option.getD_some, hstream]

theorem timeline_record_chunked_live : ∃ outcome docs,
    main liveMachine (fun _ => none) (utf8 "xsprof" :: utf8 "record" :: recordingArgs) = .exited outcome ∧
      main liveMachine outcome.files
          [utf8 "xsprof", utf8 "timeline", utf8 "--input", utf8 "j", utf8 "--chunk-size", utf8 "1"] =
        .exited (chunkedOutcome outcome.files none (line ((Viz.chunksDoc docs).dump false))
          (utf8 "\x7b\"journal_rows\":2\x7d\n")) ∧
      docs.flatMap Viz.journalEvents = twoSwitches.map (fun e => Viz.exported (sanitizeEvent e)) := by
  obtain ⟨state, events, hcap, hread⟩ := timeline_record_chunked (main_record (m := liveMachine))
    record_live (by decide) rfl
  obtain ⟨rfl, rfl⟩ := Prod.mk.inj (Except.ok.inj (captureEvents_live.symm.trans hcap))
  obtain ⟨docs, rows, hrun, -, hother⟩ := hread [utf8 "--input", utf8 "j", utf8 "--chunk-size", utf8 "1"] (by decide)
    (by decide) (by decide) (by decide +kernel) (by decide +kernel)
  obtain ⟨rfl, hdocs, -⟩ := hother (by decide)
  exact ⟨_, docs, rfl, hrun, hdocs⟩

end Commands

end Exasphere.Cli

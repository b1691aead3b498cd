import Exasphere.Lib.Checked
import Exasphere.Lib.Consecutive
import Exasphere.Lib.Lines
import Exasphere.Viz.ChromeTrace

/-!
# Replay of a journal (`src/viz/chrome_trace.cpp`)

A journal has an event record on each line. `replayFromJournal` collects the events and exports them; it appends one
marker to the document if it noticed a loss: a line that is no JSON, or an event more than 100 ms behind the one before
it. The detector takes 0 for "no event yet", adds in 64 bits and passes over a line that is JSON but no event, so the
marker tells of a loss exactly where these three do not matter.
-/

namespace Exasphere.Viz

open Exasphere.Lib Exasphere.Json Exasphere.Core

/-! ## Lines -/

/-- What the loop makes of a line. -/
inductive Line
  | blank
  | unparseable
  | notEvent
  | event (e : RawEvent)

def readLine (line : Bytes) : Except Raise Line :=
  if line.isEmpty then .ok .blank
  else do
    let v ← parse line
    if v.isNull then .ok .unparseable
    else .ok ((eventFromJson v {}).elim .notEvent .event)

/-- The variables of the loop. -/
structure JournalState where
  events : List RawEvent := []
  gapDetected : Bool := false
  prevTsNs : UInt64 := 0
  rowsParsed : Nat := 0

/-- `prev_ts_ns > 0 && e.ts_ns > prev_ts_ns + 100000000ULL` -/
def gapAfter (prevTsNs tsNs : UInt64) : Bool := decide (prevTsNs > 0 ∧ tsNs > prevTsNs + 100000000)

def JournalState.next (st : JournalState) : Line → JournalState
  | .blank => st
  | .unparseable => { st with gapDetected := true }
  | .notEvent => st
  | .event e =>
    { events := st.events ++ [e]
      gapDetected := st.gapDetected || gapAfter st.prevTsNs e.tsNs
      prevTsNs := e.tsNs
      rowsParsed := st.rowsParsed + 1 }

/-- The loop of `replay_from_journal` over the lines. -/
def readJournal (input : Bytes) : Except Raise JournalState :=
  (lines input).foldlM (fun st line => readLine line >>= fun l => .ok (st.next l)) {}

/-- The loop of `replay_from_journal_windowed`, which the source has a second time. -/
def readJournalWindowed (input : Bytes) : Except Raise JournalState :=
  (lines input).foldlM (fun st line => readLine line >>= fun l => .ok (st.next l)) {}

/-- The marker of a gap. -/
def lossMarker : Value :=
  let args := Value.makeObject
    |>.set "scope" (.ofLiteral "thread")
    |>.set "unsafe" (.bool true)
    |>.set "reason" (.ofLiteral "journal gap or unparseable line detected")
  Value.makeObject
    |>.set "name" (.ofLiteral "SAMPLE_LOSS")
    |>.set "ph" (.ofLiteral "i")
    |>.set "cat" (.ofLiteral "unsafe")
    |>.set "ts" (.ofUInt64 0)
    |>.set "pid" (.int (-1))
    |>.set "tid" (.int 0)
    |>.set "args" args

def markLoss (gapDetected : Bool) (doc : Value) : Value :=
  if gapDetected then doc.pushBackAt "traceEvents" lossMarker else doc

/-- `replay_from_journal`: the document and `rows_parsed`. -/
def replayFromJournal (input : Bytes) : Except Raise (Value × Nat) := do
  let st ← readJournal input
  .ok (markLoss st.gapDetected (exportEvents st.events), st.rowsParsed)

def replayFromJournalWindowed (input : Bytes) (w : TimeWindow) : Except Raise (Value × Nat) := do
  let st ← readJournalWindowed input
  .ok (markLoss st.gapDetected (exportEventsWindowed st.events w), st.rowsParsed)

/-! ## Reading all lines -/

section Lines

variable {input : Bytes}

/-- The line that a text is read as; a text that throws is not read. -/
def lineOf (line : Bytes) : Line := (readLine line).toOption.getD .blank

/-- The lines of a journal. -/
def journal (input : Bytes) : List Line := (lines input).map lineOf

/-- The parser throws on no line of the journal. -/
def Readable (input : Bytes) : Prop := ∀ line ∈ lines input, line ≠ [] → ∃ v, parse line = .ok v

def Line.event? : Line → Option RawEvent
  | .event e => some e
  | _ => none

/-- The events of the journal, in order. -/
def decoded (ls : List Line) : List RawEvent := ls.filterMap Line.event?

/-- The two loops find the same in a journal. -/
theorem readJournalWindowed_eq (input : Bytes) : readJournalWindowed input = readJournal input := rfl

theorem readLine_ok_iff {line : Bytes} : (∃ l, readLine line = .ok l) ↔ (line ≠ [] → ∃ v, parse line = .ok v) := by
  cases line with
  | nil => simp [readLine]
  | cons c s =>
    constructor
    · rintro ⟨l, hl⟩ -
      simp only [readLine, List.isEmpty_cons, Bool.false_eq_true, if_false] at hl
      obtain ⟨v, hv, -⟩ := bind_eq_ok.mp hl
      exact ⟨v, hv⟩
    · intro h
      obtain ⟨v, hv⟩ := h (by simp)
      simp only [readLine, List.isEmpty_cons, Bool.false_eq_true, if_false, hv, ok_bind]
      split
      · exact ⟨_, rfl⟩
      · exact ⟨_, rfl⟩

theorem Readable.forall₂ (h : Readable input) :
    List.Forall₂ (fun line l => readLine line = .ok l) (lines input) (journal input) := by
  rw [journal, List.forall₂_map_right_iff, List.forall₂_same]
  intro line hline
  obtain ⟨l, hl⟩ := readLine_ok_iff.mpr (h line hline)
  rw [lineOf, hl]
  rfl

/-- The loop runs through the lines as they are read. -/
theorem readJournal_eq (h : Readable input) : readJournal input = .ok ((journal input).foldl JournalState.next {}) :=
  foldlM_read h.forall₂

/-- The loop ends exactly if the parser throws on no line. -/
theorem readJournal_ok_iff : (∃ st, readJournal input = .ok st) ↔ Readable input := by
  rw [readJournal, foldlM_read_ok_iff]
  exact forall₂_congr (fun line _ => readLine_ok_iff)

end Lines

/-! ## The gap detector -/

section Gaps

variable {ls : List Line}

/-- What the loop has found behind the lines `ls`. -/
structure Found (ls : List Line) (st : JournalState) : Prop where
  events : st.events = decoded ls
  rows : st.rowsParsed = (decoded ls).length
  prev : st.prevTsNs = ((decoded ls).getLast?.map RawEvent.tsNs).getD 0
  gap : st.gapDetected = true ↔
    .unparseable ∈ ls ∨ Consecutive (fun x y => gapAfter x.tsNs y.tsNs = true) (decoded ls)

theorem decoded_concat (ls : List Line) (l : Line) : decoded (ls ++ [l]) = decoded ls ++ l.event?.toList := by
  cases l <;> simp [decoded, Line.event?]

/-- A line without an event, that says `loss` about the journal. -/
theorem Found.skip {st st' : JournalState} (h : Found ls st) {l : Line} (hl : l.event? = none)
    (hst : st' = { st with gapDetected := st'.gapDetected })
    (hgap : st'.gapDetected = true ↔ st.gapDetected = true ∨ l = .unparseable) : Found (ls ++ [l]) st' := by
  have hdec : decoded (ls ++ [l]) = decoded ls := by rw [decoded_concat, hl, Option.toList_none, List.append_nil]
  constructor
  · rw [hst, hdec]
    exact h.events
  · rw [hst, hdec]
    exact h.rows
  · rw [hst, hdec]
    exact h.prev
  · rw [hgap, hdec, h.gap, List.mem_append, List.mem_singleton, @eq_comm _ Line.unparseable]
    tauto

theorem Found.next {st : JournalState} (h : Found ls st) (l : Line) : Found (ls ++ [l]) (st.next l) := by
  cases l with
  | blank => exact h.skip rfl rfl (by simp [JournalState.next])
  | unparseable => exact h.skip rfl rfl (by simp [JournalState.next])
  | notEvent => exact h.skip rfl rfl (by simp [JournalState.next])
  | event e =>
    have hdec : decoded (ls ++ [.event e]) = decoded ls ++ [e] := decoded_concat ls (.event e)
    constructor
    · rw [hdec, JournalState.next, h.events]
    · rw [hdec, JournalState.next, h.rows, List.length_append, List.length_singleton]
    · rw [hdec, JournalState.next, List.getLast?_concat]
      rfl
    · have hlast : gapAfter st.prevTsNs e.tsNs = true ↔
          ∃ x, (decoded ls).getLast? = some x ∧ gapAfter x.tsNs e.tsNs = true := by
        rw [h.prev]
        cases (decoded ls).getLast? with
        | none => simp [gapAfter]
        | some x => simp
      simp only [JournalState.next, Bool.or_eq_true, hdec, consecutive_concat, h.gap, hlast, List.mem_append,
        List.mem_singleton, reduceCtorEq, or_false]
      tauto

theorem found_journal (ls : List Line) : Found ls (ls.foldl JournalState.next {}) :=
  foldl_inv (P := Found) ⟨rfl, rfl, rfl, by simp [decoded]⟩ (fun done l _ st _ h => h.next l)

end Gaps

/-! ## The document -/

section Document

theorem pushBackAt_document (events : List Value) (ev : Value) :
    (document events).pushBackAt "traceEvents" ev = document (events ++ [ev]) := rfl

/-- The trace events of a replay: the name of the lanes, one for each event, and the marker. -/
theorem markLoss_eq (gap : Bool) (events : List RawEvent) : markLoss gap (exportEvents events) =
    document (traceEventToJson laneName :: events.map exported ++ if gap then [lossMarker] else []) := by
  rw [exportEvents_eq]
  cases gap with
  | true => exact pushBackAt_document _ _
  | false => simp [markLoss]

theorem isUnsafe_lossMarker : isUnsafe lossMarker = true := by
  simp [isUnsafe, tag, lossMarker]

/-- The document has a marker of lost samples. -/
def HasMarker (doc : Value) : Prop := ∃ ev ∈ traceEvents doc, isUnsafe ev = true

theorem hasMarker_markLoss (gap : Bool) (events : List RawEvent) :
    HasMarker (markLoss gap (exportEvents events)) ↔ gap = true := by
  rw [HasMarker, markLoss_eq, traceEvents_document]
  constructor
  · rintro ⟨ev, hev, hunsafe⟩
    cases gap with
    | true => rfl
    | false =>
      rw [if_neg (by decide), List.append_nil] at hev
      rcases List.mem_cons.mp hev with rfl | hev
      · rw [isUnsafe_laneName] at hunsafe
        exact hunsafe
      · obtain ⟨e, -, rfl⟩ := List.mem_map.mp hev
        rw [isUnsafe_exported] at hunsafe
        exact hunsafe
  · rintro rfl
    exact ⟨lossMarker, by simp, isUnsafe_lossMarker⟩

end Document

/-! ## Losses -/

section Losses

variable {x y : UInt64}

/-- A line of the journal does not decode, or two consecutive events are more than 100 ms apart. -/
def Loss (ls : List Line) : Prop :=
  .unparseable ∈ ls ∨ .notEvent ∈ ls ∨
    Consecutive (fun x y => (y.tsNs.toNat : Int) - x.tsNs.toNat > 100000000) (decoded ls)

/-- A loss that the detector sees: a line that is no JSON, or a gap behind an event with a positive time. -/
def Detected (ls : List Line) : Prop :=
  .unparseable ∈ ls ∨
    Consecutive (fun x y => 0 < x.tsNs.toNat ∧ x.tsNs.toNat + 100000000 < y.tsNs.toNat) (decoded ls)

/-- A loss that the detector does not see: JSON that is no event, or a gap behind an event at time 0. -/
def Silent (ls : List Line) : Prop :=
  .notEvent ∈ ls ∨ Consecutive (fun x y => x.tsNs.toNat = 0 ∧ 100000000 < y.tsNs.toNat) (decoded ls)

/-- An event less than 100 ms before the end of the clock, and one behind it that is past the bound that wrapped. -/
def Wrapped (ls : List Line) : Prop :=
  Consecutive (fun x y => 2 ^ 64 ≤ x.tsNs.toNat + 100000000 ∧ x.tsNs.toNat + 100000000 - 2 ^ 64 < y.tsNs.toNat)
    (decoded ls)

theorem gapAfter_iff : gapAfter x y = true ↔ (0 < x.toNat ∧ x.toNat + 100000000 < y.toNat) ∨
    (2 ^ 64 ≤ x.toNat + 100000000 ∧ x.toNat + 100000000 - 2 ^ 64 < y.toNat) := by
  have hx := x.toNat_lt
  have hy := y.toNat_lt
  simp only [gapAfter, decide_eq_true_eq, gt_iff_lt, UInt64.lt_iff_toNat_lt, UInt64.toNat_add, UInt64.toNat_ofNat]
  omega

theorem detected_or_wrapped (ls : List Line) : Detected ls ∨ Wrapped ls ↔
    .unparseable ∈ ls ∨ Consecutive (fun x y => gapAfter x.tsNs y.tsNs = true) (decoded ls) := by
  simp only [gapAfter_iff]
  rw [consecutive_or, Detected, Wrapped, or_assoc]

theorem detected_or_silent (ls : List Line) : Detected ls ∨ Silent ls ↔ Loss ls := by
  have hgap (x y : RawEvent) : (y.tsNs.toNat : Int) - x.tsNs.toNat > 100000000 ↔
      (0 < x.tsNs.toNat ∧ x.tsNs.toNat + 100000000 < y.tsNs.toNat) ∨
      (x.tsNs.toNat = 0 ∧ 100000000 < y.tsNs.toNat) := by
    omega
  simp only [Loss, hgap]
  rw [consecutive_or, Detected, Silent]
  tauto

/-- **Loss is marked.** On a journal whose lines the parser does not throw on, the marker tells of a loss exactly if
the detector sees one, or what it does not see coincides with a wrapped bound. -/
theorem replayFromJournal_marks_loss_iff (input : Bytes) (h : Readable input) :
    ∃ doc rows, replayFromJournal input = .ok (doc, rows) ∧
      ((HasMarker doc ↔ Loss (journal input)) ↔
        Detected (journal input) ∨ (Silent (journal input) ↔ Wrapped (journal input))) := by
  refine ⟨_, _, by rw [replayFromJournal, readJournal_eq h]; rfl, ?_⟩
  rw [hasMarker_markLoss, (found_journal _).gap, ← detected_or_wrapped, ← detected_or_silent]
  by_cases hd : Detected (journal input)
  · simp only [hd, true_or]
  · simp only [hd, false_or]
    exact iff_comm

theorem lines_garbage : lines (utf8 "x\n") = [utf8 "x"] := by decide

theorem readable_garbage : Readable (utf8 "x\n") := by
  intro line hline _
  rw [lines_garbage, List.mem_singleton] at hline
  rw [hline]
  exact ⟨_, rfl⟩

theorem replayFromJournal_marks_garbage : ∃ doc rows, replayFromJournal (utf8 "x\n") = .ok (doc, rows) ∧
    (HasMarker doc ↔ Loss (journal (utf8 "x\n"))) := by
  obtain ⟨doc, rows, hdoc, hiff⟩ := replayFromJournal_marks_loss_iff (utf8 "x\n") readable_garbage
  refine ⟨doc, rows, hdoc, hiff.mpr (Or.inl (Or.inl ?_))⟩
  rw [journal, lines_garbage]
  exact List.mem_singleton.mpr rfl

/-- A line with an empty object is lost without a marker. -/
theorem replayFromJournal_drops_object : Readable (utf8 "\x7b\x7d\n") ∧ Loss (journal (utf8 "\x7b\x7d\n")) ∧
    ∃ doc rows, replayFromJournal (utf8 "\x7b\x7d\n") = .ok (doc, rows) ∧ ¬HasMarker doc := by
  have hlines : lines (utf8 "\x7b\x7d\n") = [utf8 "\x7b\x7d"] := by decide
  refine ⟨?_, ?_, markLoss false (exportEvents []), 0, rfl, ?_⟩
  · intro line hline _
    rw [hlines, List.mem_singleton] at hline
    rw [hline]
    exact ⟨_, rfl⟩
  · refine Or.inr (Or.inl ?_)
    rw [journal, hlines]
    exact List.mem_singleton.mpr rfl
  · rw [hasMarker_markLoss]
    decide

end Losses

end Exasphere.Viz

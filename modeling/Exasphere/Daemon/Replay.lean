import Exasphere.Daemon.Stdio

/-!
# Replay of a transcript (`src/daemon/daemon.cpp`)

`replayTranscript` checks the rows of a transcript one after the other and emits those from `from_seq` on, each printed
again from its parsed value. A replay succeeds exactly if every row decodes and its `seq` is 0 or above the `seq` of
the row before it (`replayLoop_ok_iff`). The output of the daemon is such a transcript, so it replays to itself. A row
with `seq` 0 passes and hides the rows before it, so the rows increase exactly if no later row has `seq` 0; and the
check of `host_mutation` reads it as a boolean, so a row without one is emitted as it is.
-/

namespace Exasphere.Daemon

open Exasphere.Lib Exasphere.Json

structure ReplayResult where
  output : Bytes := []
  rows : Nat := 0
  ok : Bool := true
  error : Bytes := []
  deriving DecidableEq

/-- The result of a replay that stops at the next row. -/
def ReplayResult.fail (result : ReplayResult) (message : String) : ReplayResult :=
  { result with ok := false, error := utf8 message ++ decimal (result.rows + 1) }

def ReplayResult.emit (result : ReplayResult) (parsed : Value) : ReplayResult :=
  { result with output := result.output ++ (parsed.dump false ++ [10]), rows := result.rows + 1 }

/-- The loop of `replay_transcript`. -/
def replayLoop (fromSeq prevSeq : UInt64) (result : ReplayResult) : List Bytes → Except Raise ReplayResult
  | [] => .ok result
  | row :: rest => do
    let parsed ← parse row
    if parsed.isNull then .ok (result.fail "invalid JSON at row ")
    else match eventFromJson parsed {} with
      | none => .ok (result.fail "invalid daemon-event at row ")
      | some evt =>
        if evt.seq > 0 ∧ evt.seq ≤ prevSeq then .ok (result.fail "non-monotonic seq at row ")
        else if evt.seq < fromSeq then replayLoop fromSeq evt.seq result rest
        else replayLoop fromSeq evt.seq (result.emit parsed) rest

def replayTranscript (input : Bytes) (fromSeq : UInt64) : Except Raise ReplayResult :=
  replayLoop fromSeq 0 {} (rows input)

/-! ## Successful replays -/

section Replay

variable {fromSeq prevSeq : UInt64} {result res : ReplayResult} {rs : List Bytes}

/-- A row that passes the checks of one row: its value and its event. -/
def Decodes (row : Bytes) (d : Value × DaemonEvent) : Prop :=
  parse row = .ok d.1 ∧ d.1.isNull = false ∧ eventFromJson d.1 {} = some d.2

/-- The check on the `seq` of the rows, behind a row with `prevSeq`. -/
def SeqsPass (prevSeq : UInt64) : List UInt64 → Prop
  | [] => True
  | seq :: rest => (0 < seq → prevSeq < seq) ∧ SeqsPass seq rest

/-- The rows that are let through. -/
def emitted (fromSeq : UInt64) (ds : List (Value × DaemonEvent)) : List Value :=
  (ds.filter (fun d => decide (fromSeq ≤ d.2.seq))).map Prod.fst

/-- The result after the rows `vs` are emitted. -/
def ReplayResult.emitAll (result : ReplayResult) (vs : List Value) : ReplayResult :=
  { result with output := result.output ++ unlines (vs.map (fun v => v.dump false)), rows := result.rows + vs.length }

theorem ReplayResult.emitAll_cons (result : ReplayResult) (v : Value) (vs : List Value) :
    result.emitAll (v :: vs) = (result.emit v).emitAll vs := by
  simp [ReplayResult.emitAll, ReplayResult.emit]
  omega

theorem emitted_cons (d : Value × DaemonEvent) (ds : List (Value × DaemonEvent)) : emitted fromSeq (d :: ds) =
    if d.2.seq < fromSeq then emitted fromSeq ds else d.1 :: emitted fromSeq ds := by
  unfold emitted
  rw [List.filter_cons]
  by_cases h : d.2.seq < fromSeq
  · simp [h, UInt64.not_le.mpr h]
  · simp [h, UInt64.not_lt.mp h]

/-- One row that passes. -/
theorem replayLoop_pass {row : Bytes} {d : Value × DaemonEvent} (hd : Decodes row d)
    (hseq : 0 < d.2.seq → prevSeq < d.2.seq) : replayLoop fromSeq prevSeq result (row :: rs) =
      replayLoop fromSeq d.2.seq (if d.2.seq < fromSeq then result else result.emit d.1) rs := by
  obtain ⟨hparse, hnull, hevent⟩ := hd
  have hcheck : ¬(d.2.seq > 0 ∧ d.2.seq ≤ prevSeq) := by
    rintro ⟨hpos, hle⟩
    exact absurd (hseq hpos) (UInt64.not_lt.mpr hle)
  rw [replayLoop, hparse, ok_bind]
  simp only [hnull, hevent, if_neg hcheck, Bool.false_eq_true, if_false]
  split <;> rfl

/-- A row behind which the replay still succeeds. -/
theorem replayLoop_inv {row : Bytes} (h : replayLoop fromSeq prevSeq result (row :: rs) = .ok res)
    (hok : res.ok = true) : ∃ d, Decodes row d ∧ (0 < d.2.seq → prevSeq < d.2.seq) := by
  rw [replayLoop] at h
  obtain ⟨parsed, hparse, h⟩ := bind_eq_ok.mp h
  split at h
  · obtain rfl := Except.ok.inj h
    cases hok
  next hnull =>
    split at h
    · obtain rfl := Except.ok.inj h
      cases hok
    next evt hevent =>
      split at h
      · obtain rfl := Except.ok.inj h
        cases hok
      next hcheck =>
        refine ⟨(parsed, evt), ⟨hparse, by simpa using hnull, hevent⟩, fun hpos => ?_⟩
        exact UInt64.not_le.mp (fun hle => hcheck ⟨hpos, hle⟩)

/-- The rows of a transcript on which the replay succeeds, and what it returns. -/
theorem replayLoop_ok_iff (hresult : result.ok = true) :
    (replayLoop fromSeq prevSeq result rs = .ok res ∧ res.ok = true) ↔
      ∃ ds, List.Forall₂ Decodes rs ds ∧ SeqsPass prevSeq (ds.map (fun d => d.2.seq)) ∧
        res = result.emitAll (emitted fromSeq ds) := by
  induction rs generalizing prevSeq result with
  | nil =>
    constructor
    · rintro ⟨h, -⟩
      exact ⟨[], .nil, trivial, by simp [← Except.ok.inj h, emitted, ReplayResult.emitAll]⟩
    · rintro ⟨ds, hds, -, rfl⟩
      cases hds
      exact ⟨by simp [replayLoop, emitted, ReplayResult.emitAll], hresult⟩
  | cons row rs ih =>
    have hnext (d : Value × DaemonEvent) : (if d.2.seq < fromSeq then result else result.emit d.1).ok = true := by
      split <;> exact hresult
    have hemit (d : Value × DaemonEvent) (ds : List (Value × DaemonEvent)) :
        (if d.2.seq < fromSeq then result else result.emit d.1).emitAll (emitted fromSeq ds) =
          result.emitAll (emitted fromSeq (d :: ds)) := by
      rw [emitted_cons]
      split
      · rfl
      · rw [ReplayResult.emitAll_cons]
    constructor
    · rintro ⟨h, hok⟩
      obtain ⟨d, hd, hseq⟩ := replayLoop_inv h hok
      rw [replayLoop_pass hd hseq] at h
      obtain ⟨ds, hds, hpass, hres⟩ := (ih (hnext d)).mp ⟨h, hok⟩
      exact ⟨d :: ds, .cons hd hds, ⟨hseq, hpass⟩, by rw [hres, hemit]⟩
    · rintro ⟨ds, hds, hpass, hres⟩
      obtain ⟨d, rest, hd, hrest, rfl⟩ := List.forall₂_cons_left_iff.mp hds
      rw [replayLoop_pass hd hpass.1]
      exact (ih (hnext d)).mpr ⟨rest, hrest, hpass.2, by rw [hres, hemit]⟩

theorem replayTranscript_ok_iff {input : Bytes} :
    (replayTranscript input fromSeq = .ok res ∧ res.ok = true) ↔
      ∃ ds, List.Forall₂ Decodes (rows input) ds ∧ SeqsPass 0 (ds.map (fun d => d.2.seq)) ∧
        res = { output := unlines ((emitted fromSeq ds).map (fun v => v.dump false)),
                rows := (emitted fromSeq ds).length } := by
  rw [replayTranscript, replayLoop_ok_iff rfl]
  simp [ReplayResult.emitAll]

end Replay

/-! ## Transcripts written from values -/

section Written

variable {v : Value} {vs : List Value}

/-- The text of an object is a row of its own. -/
theorem rows_unlines (hplain : ∀ v ∈ vs, v.Plain) (hobj : ∀ v ∈ vs, v.isObject = true) :
    rows (unlines (vs.map (fun v => v.dump false))) = vs.map (fun v => v.dump false) := by
  have hline : ∀ l ∈ vs.map (fun v => v.dump false), 10 ∉ l := by
    intro l hl
    obtain ⟨v, hv, rfl⟩ := List.mem_map.mp hl
    exact (hplain v hv).newline_not_mem
  have hends (v : Value) (hv : v ∈ vs) : strip isWhite (v.dump false) = v.dump false ∧ v.dump false ≠ [] := by
    obtain ⟨hhead, hlast⟩ := dump_ends (hobj v hv)
    refine ⟨strip_eq_self ?_ ?_, ?_⟩
    · rw [hhead]
      simp only [Option.mem_some_iff, forall_eq']
      decide
    · rw [hlast]
      simp only [Option.mem_some_iff, forall_eq']
      decide
    · intro hnil
      rw [hnil] at hhead
      cases hhead
  rw [rows, lines_unlines hline, List.map_map]
  have hstrip : vs.map (strip isWhite ∘ fun v => v.dump false) = vs.map (fun v => v.dump false) :=
    List.map_congr_left (fun v hv => (hends v hv).1)
  rw [hstrip, List.filter_eq_self]
  intro l hl
  obtain ⟨v, hv, rfl⟩ := List.mem_map.mp hl
  simpa using (hends v hv).2

theorem decodes_dump {e : DaemonEvent} (hplain : v.Plain) (he : eventFromJson v {} = some e) :
    Decodes (v.dump false) (v, e) := by
  refine ⟨hplain.read_back, ?_, he⟩
  have hobj := (eventFromJson_eq_some he).1
  cases v with
  | object members => rfl
  | _ => cases hobj

/-- A transcript of records without a `double` replays, for every `from_seq`, if their `seq` pass the check. -/
theorem replayTranscript_written (ds : List (Value × DaemonEvent)) (hplain : ∀ d ∈ ds, d.1.Plain)
    (hevent : ∀ d ∈ ds, eventFromJson d.1 {} = some d.2) (hpass : SeqsPass 0 (ds.map (fun d => d.2.seq)))
    (fromSeq : UInt64) :
    replayTranscript (unlines (ds.map (fun d => d.1.dump false))) fromSeq =
      .ok { output := unlines ((emitted fromSeq ds).map (fun v => v.dump false)),
            rows := (emitted fromSeq ds).length } := by
  have hobj : ∀ v ∈ ds.map Prod.fst, v.isObject = true := by
    intro v hv
    obtain ⟨d, hd, rfl⟩ := List.mem_map.mp hv
    exact (eventFromJson_eq_some (hevent d hd)).1
  have hplain' : ∀ v ∈ ds.map Prod.fst, v.Plain := by
    intro v hv
    obtain ⟨d, hd, rfl⟩ := List.mem_map.mp hv
    exact hplain d hd
  have hrows := rows_unlines hplain' hobj
  rw [List.map_map] at hrows
  refine (replayTranscript_ok_iff.mpr ⟨ds, ?_, hpass, rfl⟩).1
  have hrows' : rows (unlines (ds.map (fun d => d.1.dump false))) = ds.map (fun d => d.1.dump false) := hrows
  rw [hrows', List.forall₂_map_left_iff, List.forall₂_same]
  intro d hd
  exact decodes_dump (hplain d hd) (hevent d hd)

end Written

/-! ## The daemon's own transcript -/

section SelfReplay

/-- Numbers from 1 on pass, also where the counter wraps around. -/
theorem seqsPass_numbered {events : List DaemonEvent} {n : Nat}
    (h : ∀ i e, events[i]? = some e → e.seq = UInt64.ofNat (n + i + 1)) :
    SeqsPass (UInt64.ofNat n) (events.map DaemonEvent.seq) := by
  induction events generalizing n with
  | nil => trivial
  | cons e events ih =>
    have he : e.seq = UInt64.ofNat (n + 1) := h 0 e rfl
    rw [List.map_cons, he]
    refine ⟨fun hpos => ?_, ih (fun i e hi => ?_)⟩
    · simp only [UInt64.lt_iff_toNat_lt, UInt64.toNat_ofNat', UInt64.toNat_zero] at hpos ⊢
      omega
    · rw [h (i + 1) e hi]
      congr 1
      omega

/-- **Self-replay.** On an input whose rows all parse, the daemon writes one line for boot and one for each row,
numbered from 1 on, and the replay of this text succeeds and returns it. (The counter is exact below 2^63, which is
more lines than a text has.) -/
theorem runForegroundStdio_replays (input : Bytes) (h : ∀ row ∈ rows input, ∃ v, parse row = .ok v) :
    ∃ (text : Bytes) (events : List DaemonEvent),
      runForegroundStdio input = .ok text ∧
      text = unlines ((boot :: events).map DaemonEvent.line) ∧
      lines text = (boot :: events).map DaemonEvent.line ∧
      events.length = (rows input).length ∧
      (∀ (i : Nat) (e : DaemonEvent), (boot :: events)[i]? = some e →
        e.toJson.find "seq" = some (.int (Int64.ofNat (i + 1)))) ∧
      replayTranscript text 0 = .ok { output := text, rows := (rows input).length + 1, ok := true, error := [] } := by
  obtain ⟨events, hrun, hlen, hseq⟩ := runForegroundStdio_ok h
  have hlines : lines (unlines ((boot :: events).map DaemonEvent.line)) = (boot :: events).map DaemonEvent.line := by
    apply lines_unlines
    intro l hl
    obtain ⟨e, -, rfl⟩ := List.mem_map.mp hl
    exact e.toJson_plain.newline_not_mem
  refine ⟨_, events, hrun, rfl, hlines, hlen, fun i e he => ?_, ?_⟩
  · rw [e.find_seq_toJson, hseq i e he]
    rfl
  · have hpass : SeqsPass 0 ((boot :: events).map DaemonEvent.seq) :=
      seqsPass_numbered (n := 0) (fun i e he => by rw [hseq i e he, Nat.zero_add])
    have hreplay := replayTranscript_written ((boot :: events).map (fun e => (e.toJson, e))) ?_ ?_ ?_ 0
    · have hall : emitted 0 ((boot :: events).map (fun e => (e.toJson, e))) =
          (boot :: events).map DaemonEvent.toJson := by
        unfold emitted
        rw [List.filter_eq_self.mpr (by simp), List.map_map]
        rfl
      rw [hall, List.map_map, List.map_map, List.length_map, List.length_cons, hlen] at hreplay
      exact hreplay
    · intro d hd
      obtain ⟨e, -, rfl⟩ := List.mem_map.mp hd
      exact e.toJson_plain
    · intro d hd
      obtain ⟨e, -, rfl⟩ := List.mem_map.mp hd
      exact eventFromJson_toJson e
    · rw [List.map_map]
      exact hpass

/-- A request, a blank line and a line that is no JSON: three lines out. -/
theorem runForegroundStdio_replays_requests :
    let input := utf8 "\x7b\"schema\":\"xsprof/operator-action/v1\",\"action\":\"stop\"\x7d\r\n \n stop"
    ∃ (text : Bytes) (events : List DaemonEvent),
      runForegroundStdio input = .ok text ∧
      text = unlines ((boot :: events).map DaemonEvent.line) ∧
      lines text = (boot :: events).map DaemonEvent.line ∧
      events.length = 2 ∧
      (∀ (i : Nat) (e : DaemonEvent), (boot :: events)[i]? = some e →
        e.toJson.find "seq" = some (.int (Int64.ofNat (i + 1)))) ∧
      replayTranscript text 0 = .ok { output := text, rows := 3, ok := true, error := [] } := by
  intro input
  apply runForegroundStdio_replays input
  intro row hrow
  have hrows : rows input =
      [utf8 "\x7b\"schema\":\"xsprof/operator-action/v1\",\"action\":\"stop\"\x7d", utf8 "stop"] := by decide
  rw [hrows, List.mem_cons, List.mem_singleton] at hrow
  rcases hrow with rfl | rfl
  · exact ⟨_, rfl⟩
  · exact ⟨_, rfl⟩

end SelfReplay

/-! ## What a successful replay says about the transcript -/

section Accepted

variable {fromSeq prevSeq : UInt64} {rs : List Bytes} {ds : List (Value × DaemonEvent)}

/-- The value of a row. -/
def rowValue (row : Bytes) : Value := (parse row).toOption.getD .null

/-- The `seq` that a row decodes to: 0 for a row without one or with one that is no integer. -/
def rowSeq (row : Bytes) : UInt64 := ((eventFromJson (rowValue row) {}).getD {}).seq

/-- The rows from `from_seq` on. -/
def rowsFrom (fromSeq : UInt64) (input : Bytes) : List Bytes :=
  (rows input).filter (fun row => decide (fromSeq ≤ rowSeq row))

theorem Decodes.rowValue_eq {row : Bytes} {d : Value × DaemonEvent} (h : Decodes row d) : rowValue row = d.1 := by
  rw [rowValue, h.1]
  rfl

theorem Decodes.rowSeq_eq {row : Bytes} {d : Value × DaemonEvent} (h : Decodes row d) : rowSeq row = d.2.seq := by
  rw [rowSeq, h.rowValue_eq, h.2.2]
  rfl

theorem map_rowSeq (h : List.Forall₂ Decodes rs ds) : rs.map rowSeq = ds.map (fun d => d.2.seq) := by
  induction h with
  | nil => rfl
  | cons hd _ ih => rw [List.map_cons, List.map_cons, ih, hd.rowSeq_eq]

theorem emitted_eq (h : List.Forall₂ Decodes rs ds) :
    emitted fromSeq ds = (rs.filter (fun row => decide (fromSeq ≤ rowSeq row))).map rowValue := by
  induction h with
  | nil => rfl
  | @cons row d rs ds hd _ ih =>
    rw [emitted_cons, ih, List.filter_cons, hd.rowSeq_eq]
    by_cases hlt : d.2.seq < fromSeq
    · simp [hlt, UInt64.not_le.mpr hlt]
    · simp [hlt, UInt64.not_lt.mp hlt, hd.rowValue_eq]

/-- Rows that pass increase as long as none has `seq` 0. -/
theorem SeqsPass.increasing {seqs : List UInt64} (h : SeqsPass prevSeq seqs) (hpos : ∀ seq ∈ seqs, seq ≠ 0) :
    (prevSeq :: seqs).Pairwise (· < ·) := by
  induction seqs generalizing prevSeq with
  | nil => simp
  | cons seq seqs ih =>
    have hlt : prevSeq < seq := h.1 (UInt64.pos_iff_ne_zero.mpr (hpos seq (by simp)))
    have hrest := ih h.2 (fun x hx => hpos x (by simp [hx]))
    refine List.pairwise_cons.mpr ⟨fun x hx => ?_, hrest⟩
    rcases List.mem_cons.mp hx with rfl | hx
    · exact hlt
    · exact UInt64.lt_trans hlt (List.rel_of_pairwise_cons hrest hx)

/-- Rows that increase pass. -/
theorem seqsPass_of_increasing {seqs : List UInt64} (h : seqs.Pairwise (· < ·))
    (hprev : ∀ seq ∈ seqs, 0 < seq → prevSeq < seq) : SeqsPass prevSeq seqs := by
  induction seqs generalizing prevSeq with
  | nil => trivial
  | cons seq seqs ih =>
    obtain ⟨hlt, hrest⟩ := List.pairwise_cons.mp h
    exact ⟨hprev seq (by simp), ih hrest (fun x hx _ => hlt x hx)⟩

theorem SeqsPass.increasing_iff {seqs : List UInt64} (h : SeqsPass prevSeq seqs) :
    seqs.Pairwise (· < ·) ↔ ∀ seq ∈ seqs.tail, seq ≠ 0 := by
  cases seqs with
  | nil => simp
  | cons seq seqs =>
    constructor
    · intro hinc x hx hzero
      have hlt : seq < x := List.rel_of_pairwise_cons hinc hx
      rw [hzero] at hlt
      exact absurd hlt (UInt64.not_lt.mpr UInt64.zero_le)
    · intro hpos
      exact h.2.increasing hpos

theorem Decodes.plain {row : Bytes} {d : Value × DaemonEvent} (h : Decodes row d) (hd : d.1.NoDouble) : d.1.Plain :=
  d.1.all_and (parse_wellFormed h.1) hd

/-- The line of a marker event with further members. -/
def markerLine (members : String) : Bytes :=
  utf8 "\x7b\"schema\":\"xsprof/daemon-event/v1\",\"event\":\"marker\"," ++ utf8 members ++ utf8 "\x7d\n"

/-- **Monotonicity.** In a transcript that replays, the `seq` of the rows increase exactly if no row behind the first
decodes to `seq` 0. Then the output replays too, when its rows hold no `double`. -/
theorem replayTranscript_increasing_iff (input : Bytes) (fromSeq : UInt64) (res : ReplayResult)
    (h : replayTranscript input fromSeq = .ok res) (hok : res.ok = true) :
    (((rows input).map rowSeq).Pairwise (· < ·) ↔ ∀ seq ∈ ((rows input).map rowSeq).tail, seq ≠ 0) ∧
    ((∀ seq ∈ ((rows input).map rowSeq).tail, seq ≠ 0) →
      (∀ row ∈ rowsFrom fromSeq input, (rowValue row).NoDouble) →
      ∀ smaller ≤ fromSeq, ∃ again, replayTranscript res.output smaller = .ok again ∧ again.ok = true) := by
  obtain ⟨ds, hds, hpass, rfl⟩ := replayTranscript_ok_iff.mp ⟨h, hok⟩
  rw [map_rowSeq hds]
  refine ⟨hpass.increasing_iff, fun hpos hdouble smaller _ => ?_⟩
  have hinc := hpass.increasing_iff.mpr hpos
  have hmem (d : Value × DaemonEvent) (hd : d ∈ ds.filter (fun d => decide (fromSeq ≤ d.2.seq))) :
      d.1.Plain ∧ eventFromJson d.1 {} = some d.2 := by
    obtain ⟨hd, hfrom⟩ := List.mem_filter.mp hd
    obtain ⟨row, hrow, hdec⟩ := exists_of_forall₂ (R := flip Decodes) hds.flip hd
    have hrowFrom : row ∈ rowsFrom fromSeq input := List.mem_filter.mpr ⟨hrow, by rw [hdec.rowSeq_eq]; exact hfrom⟩
    have hnd := hdouble row hrowFrom
    rw [hdec.rowValue_eq] at hnd
    exact ⟨hdec.plain hnd, hdec.2.2⟩
  have hkept : ((ds.filter (fun d => decide (fromSeq ≤ d.2.seq))).map (fun d => d.2.seq)).Pairwise (· < ·) :=
    hinc.sublist (List.filter_sublist.map _)
  have hagain := replayTranscript_written _ (fun d hd => (hmem d hd).1) (fun d hd => (hmem d hd).2)
    (seqsPass_of_increasing hkept (fun _ _ h => h)) smaller
  rw [emitted, List.map_map]
  exact ⟨_, hagain, rfl⟩

theorem replayTranscript_increasing_two :
    let input := markerLine "\"seq\":1" ++ markerLine "\"seq\":9"
    ∃ res, replayTranscript input 2 = .ok res ∧ res.ok = true ∧ ((rows input).map rowSeq).Pairwise (· < ·) := by
  intro input
  have hok : ∃ res, replayTranscript input 2 = .ok res ∧ res.ok = true := ⟨_, rfl, rfl⟩
  obtain ⟨res, hres, hok⟩ := hok
  have hseqs : (rows input).map rowSeq = [1, 9] := rfl
  refine ⟨res, hres, hok, (replayTranscript_increasing_iff input 2 res hres hok).1.mpr ?_⟩
  rw [hseqs]
  simp

/-- A row numbered 0 lets the numbers start again below the ones before it. -/
theorem replayTranscript_accepts_restart :
    let input := markerLine "\"seq\":5" ++ markerLine "\"seq\":0" ++ markerLine "\"seq\":3"
    (∃ res, replayTranscript input 0 = .ok res ∧ res.ok = true) ∧ (rows input).map rowSeq = [5, 0, 3] ∧
      ¬((rows input).map rowSeq).Pairwise (· < ·) := by
  intro input
  have hseqs : (rows input).map rowSeq = [5, 0, 3] := rfl
  refine ⟨⟨_, rfl, rfl⟩, hseqs, ?_⟩
  rw [hseqs]
  decide

/-- **Safety flag.** In a transcript that replays, the rows that are emitted are objects whose `host_mutation` is
`false` exactly if those rows have a boolean there. -/
theorem replayTranscript_flag_iff (input : Bytes) (fromSeq : UInt64) (res : ReplayResult)
    (h : replayTranscript input fromSeq = .ok res) (hok : res.ok = true) :
    res.output = unlines ((rowsFrom fromSeq input).map (fun row => (rowValue row).dump false)) ∧
    ((∀ row ∈ rowsFrom fromSeq input, (rowValue row).isObject = true ∧
        (rowValue row).find "host_mutation" = some (.bool false)) ↔
      ∀ row ∈ rowsFrom fromSeq input, ∃ b, (rowValue row).find "host_mutation" = some (.bool b)) := by
  obtain ⟨ds, hds, -, rfl⟩ := replayTranscript_ok_iff.mp ⟨h, hok⟩
  refine ⟨?_, ?_⟩
  · rw [emitted_eq hds, List.map_map]
    rfl
  · constructor
    · intro hflag row hrow
      exact ⟨false, (hflag row hrow).2⟩
    · intro hbool row hrow
      obtain ⟨b, hb⟩ := hbool row hrow
      obtain ⟨d, -, hd⟩ := exists_of_forall₂ hds (List.mem_of_mem_filter hrow)
      rw [hd.rowValue_eq] at hb ⊢
      obtain ⟨hobj, hflag, -⟩ := eventFromJson_eq_some hd.2.2
      have hfalse : b = false := hflag _ hb
      exact ⟨hobj, by rw [hb, hfalse]⟩

theorem replayTranscript_flag_false :
    let input := markerLine "\"host_mutation\":false,\"seq\":1"
    ∃ res, replayTranscript input 0 = .ok res ∧ res.ok = true ∧
      ∀ row ∈ rowsFrom 0 input, (rowValue row).isObject = true ∧
        (rowValue row).find "host_mutation" = some (.bool false) := by
  intro input
  have hok : ∃ res, replayTranscript input 0 = .ok res ∧ res.ok = true := ⟨_, rfl, rfl⟩
  obtain ⟨res, hres, hok⟩ := hok
  refine ⟨res, hres, hok, (replayTranscript_flag_iff input 0 res hres hok).2.mpr (fun row hrow => ⟨false, ?_⟩)⟩
  have hrows : rowsFrom 0 input = rows input := rfl
  have hrow' : row ∈ rows input := hrows ▸ hrow
  have hone : rows input = [input.dropLast] := rfl
  rw [hone, List.mem_singleton] at hrow'
  rw [hrow']
  rfl

/-- A number in place of the flag is emitted. -/
theorem replayTranscript_emits_number :
    let input := markerLine "\"host_mutation\":1,\"seq\":1"
    (∃ res, replayTranscript input 0 = .ok res ∧ res.ok = true ∧ res.rows = 1 ∧
      res.output = unlines ((rowsFrom 0 input).map (fun row => (rowValue row).dump false))) ∧
    ∃ row ∈ rowsFrom 0 input, (rowValue row).find "host_mutation" = some (.int 1) := by
  intro input
  refine ⟨⟨_, rfl, rfl, rfl, rfl⟩, input.dropLast, ?_, rfl⟩
  have hone : rowsFrom 0 input = [input.dropLast] := rfl
  rw [hone]
  exact List.mem_singleton.mpr rfl

end Accepted

end Exasphere.Daemon

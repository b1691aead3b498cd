import Exasphere.Json.Raises
import Exasphere.Daemon.Replay
import Exasphere.Viz.Stream

/-!
# Untrusted input

The stdio requests, the transcripts and the journals all go through `parse`, and none of the loops over their lines
catches what `std::stoll` and `std::stod` throw. So each of them ends exactly if no line that it reads is a text of
`Raises`. The journal replays read every line; the replay of a transcript stops at the first row that does not pass.
-/

namespace Exasphere

open Exasphere.Lib Exasphere.Json Exasphere.Daemon Exasphere.Viz

/-- A text in which the parser meets no number that does not convert. -/
def Harmless (s : Bytes) : Prop := ¬Raises .value s

theorem parse_returns_iff (s : Bytes) : (∃ v, parse s = .ok v) ↔ Harmless s := by
  rw [Harmless, ← parse_raises_iff]
  cases parse s with
  | ok v => simp
  | error e => simp

theorem readable_iff (input : Bytes) : Readable input ↔ ∀ line ∈ lines input, line ≠ [] → Harmless line := by
  unfold Readable
  simp only [parse_returns_iff]

/-! ## Requests -/

theorem processActionLine_returns_iff (line : Bytes) (seq : UInt64) :
    (∃ out, processActionLine line seq = .ok out) ↔ Harmless line := by
  rw [← parse_returns_iff, processActionLine]
  exact exists_map_ok_iff

/-! ## Transcripts -/

/-- The rows pass the checks of the replay, behind a row with `prevSeq`. -/
def Passes (prevSeq : UInt64) (rs : List Bytes) : Prop :=
  ∃ ds, List.Forall₂ Decodes rs ds ∧ SeqsPass prevSeq (ds.map (fun d => d.2.seq))

theorem passes_cons_iff {prevSeq : UInt64} {row : Bytes} {rs : List Bytes} : Passes prevSeq (row :: rs) ↔
    ∃ d, Decodes row d ∧ (0 < d.2.seq → prevSeq < d.2.seq) ∧ Passes d.2.seq rs := by
  constructor
  · rintro ⟨ds, hds, hseq⟩
    cases hds with
    | cons hd hds => exact ⟨_, hd, hseq.1, _, hds, hseq.2⟩
  · rintro ⟨d, hd, hseq, ds, hds, hseqs⟩
    exact ⟨d :: ds, .cons hd hds, hseq, hseqs⟩

/-- A row that is parsed and does not pass ends the replay. -/
theorem replayLoop_stops {fromSeq prevSeq : UInt64} {result : ReplayResult} {row : Bytes} {rs : List Bytes} {v : Value}
    (hv : parse row = .ok v) (h : ¬∃ d, Decodes row d ∧ (0 < d.2.seq → prevSeq < d.2.seq)) :
    ∃ res, replayLoop fromSeq prevSeq result (row :: rs) = .ok res := by
  rw [replayLoop, hv, ok_bind]
  split
  · exact ⟨_, rfl⟩
  next hnull =>
    split
    · exact ⟨_, rfl⟩
    next evt hevent =>
      by_cases hcheck : evt.seq > 0 ∧ evt.seq ≤ prevSeq
      · rw [if_pos hcheck]
        exact ⟨_, rfl⟩
      · refine absurd ⟨(v, evt), ⟨hv, by simpa using hnull, hevent⟩, fun hpos => ?_⟩ h
        exact UInt64.not_le.mp (fun hle => hcheck ⟨hpos, hle⟩)

/-- The loop returns exactly if no row that it reaches throws. -/
theorem replayLoop_returns_iff {fromSeq prevSeq : UInt64} {result : ReplayResult} {rs : List Bytes} :
    (∃ res, replayLoop fromSeq prevSeq result rs = .ok res) ↔
      ∀ before row after, rs = before ++ row :: after → Passes prevSeq before → Harmless row := by
  induction rs generalizing prevSeq result with
  | nil => simp [replayLoop]
  | cons row rs ih =>
    constructor
    · rintro ⟨res, h⟩ before row' after hsplit hpass
      cases before with
      | nil =>
        obtain ⟨rfl, rfl⟩ := List.cons.inj hsplit
        rw [replayLoop] at h
        obtain ⟨v, hv, -⟩ := bind_eq_ok.mp h
        exact (parse_returns_iff row).mp ⟨v, hv⟩
      | cons _ before =>
        obtain ⟨rfl, rfl⟩ := List.cons.inj hsplit
        obtain ⟨d, hd, hseq, hpass⟩ := passes_cons_iff.mp hpass
        rw [replayLoop_pass hd hseq] at h
        exact ih.mp ⟨res, h⟩ before row' after rfl hpass
    · intro h
      obtain ⟨v, hv⟩ := (parse_returns_iff row).mpr (h [] row rs rfl ⟨[], .nil, trivial⟩)
      by_cases hd : ∃ d, Decodes row d ∧ (0 < d.2.seq → prevSeq < d.2.seq)
      · obtain ⟨d, hd, hseq⟩ := hd
        rw [replayLoop_pass hd hseq]
        apply ih.mpr
        rintro before row' after rfl hpass
        exact h (row :: before) row' after rfl (passes_cons_iff.mpr ⟨d, hd, hseq, hpass⟩)
      · exact replayLoop_stops hv hd

/-! ## Journals -/

theorem replayFromJournal_returns_iff (input : Bytes) :
    (∃ out, replayFromJournal input = .ok out) ↔ Readable input := by
  rw [← readJournal_ok_iff, replayFromJournal]
  exact exists_map_ok_iff

theorem replayFromJournalWindowed_returns_iff (input : Bytes) (w : TimeWindow) :
    (∃ out, replayFromJournalWindowed input w = .ok out) ↔ Readable input := by
  rw [← readJournal_ok_iff, replayFromJournalWindowed, readJournalWindowed_eq]
  exact exists_map_ok_iff

theorem streamLoop_returns_iff (chunkSize : Nat) (input : Bytes) :
    (∃ st, streamLoop chunkSize input = .ok st) ↔ Readable input := by
  rw [streamLoop, foldlM_read_ok_iff]
  exact forall₂_congr (fun line _ => readLine_ok_iff)

/-! ## All of them -/

/-- The parser returns a value, and what reads its lines through the parser returns, exactly if the parser meets no
number that the standard library does not convert. -/
theorem ingest_total_iff (s : Bytes) (seq fromSeq : UInt64) (w : TimeWindow) (chunkSize : Nat) :
    ((∃ v, parse s = .ok v) ↔ Harmless s) ∧
    ((∃ out, processActionLine s seq = .ok out) ↔ Harmless s) ∧
    ((∃ res, replayTranscript s fromSeq = .ok res) ↔
      ∀ before row after, rows s = before ++ row :: after → Passes 0 before → Harmless row) ∧
    ((∃ out, replayFromJournal s = .ok out) ↔ ∀ line ∈ lines s, line ≠ [] → Harmless line) ∧
    ((∃ out, replayFromJournalWindowed s w = .ok out) ↔ ∀ line ∈ lines s, line ≠ [] → Harmless line) ∧
    ((∃ st, streamLoop chunkSize s = .ok st) ↔ ∀ line ∈ lines s, line ≠ [] → Harmless line) := by
  rw [← readable_iff]
  exact ⟨parse_returns_iff s, processActionLine_returns_iff s seq, replayLoop_returns_iff,
    replayFromJournal_returns_iff s, replayFromJournalWindowed_returns_iff s w, streamLoop_returns_iff chunkSize s⟩

/-- A lone minus sign: `std::stoll` throws `invalid_argument`, and every reader ends. -/
theorem minus_not_ingested :
    (∃ e, parse (utf8 "-") = .error e) ∧ (∃ e, processActionLine (utf8 "-") 2 = .error e) ∧
    (∃ e, replayTranscript (utf8 "-") 0 = .error e) ∧ (∃ e, replayFromJournal (utf8 "-") = .error e) ∧
    (∃ e, replayFromJournalWindowed (utf8 "-") {} = .error e) := by
  have hparse : parse (utf8 "-") = .error .invalidArgument := rfl
  have hrows : rows (utf8 "-") = [utf8 "-"] := by decide
  have hjournal : readJournal (utf8 "-") = .error .invalidArgument := rfl
  refine ⟨⟨_, hparse⟩, ⟨.invalidArgument, ?_⟩, ⟨.invalidArgument, ?_⟩, ⟨.invalidArgument, ?_⟩,
    ⟨.invalidArgument, ?_⟩⟩
  · rw [processActionLine, hparse, error_bind]
  · rw [replayTranscript, hrows, replayLoop, hparse, error_bind]
  · rw [replayFromJournal, hjournal, error_bind]
  · rw [replayFromJournalWindowed, readJournalWindowed_eq, hjournal, error_bind]

end Exasphere

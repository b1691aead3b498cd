import Mathlib.Data.UInt
import Exasphere.Collectors.Capture

/-!
# Draining a perf ring (`src/collectors/live_capture.cpp`)

The loop of `drain`: records are copied out of the ring, each as long as its header says, from `data_tail` on until no
header fits before `data_head`. Positions are `uint64_t` and wrap; the ring is read in a circle.

The header bounds a record by the size of the ring, not by `data_head`, and nothing bounds the payload of a sample by
the size of its record. `drain_safe_iff` says for which rings the loop stays in its records and does not pass
`data_head`. For records that are laid out in the ring one behind the other the loop is the decoder of the unwrapped
records (`drainLoop_laidOut`).
-/

namespace Exasphere.Collectors

open Exasphere.Lib Exasphere.Core

section Ring

variable (fmts : Formats) (kind : SlotKind) (data : Bytes) (head : UInt64)

/-- `size` of a `perf_event_header`, a `uint16_t` behind `type` and `misc`. -/
def headerSize (rec : Bytes) : Nat :=
  readWord ((rec.drop 6).take 2)

def sizeAt (tail : UInt64) : Nat :=
  headerSize (loadRound data tail.toNat 8)

/-- The record that is copied out of the ring. -/
def recordAt (tail : UInt64) : Bytes :=
  loadRound data tail.toNat (sizeAt data tail)

/-- The loop of `drain`, with a bound on its turns: the `tail` it stores and what it has decoded, or `none` while the
loop is still running. -/
def drainLoop : Nat → UInt64 → DrainState → Except Fault (Option (UInt64 × DrainState))
  | 0, _, _ => .ok none
  | turns + 1, tail, st =>
    if tail + 8 ≤ head then
      if sizeAt data tail < 8 ∨ sizeAt data tail > data.length then .ok (some (tail, st))
      else do
        let st ← drainRecord fmts kind st (recordAt data tail)
        drainLoop turns (tail + UInt64.ofNat (sizeAt data tail)) st
    else .ok (some (tail, st))

/-- Where the loop goes on behind the record at `tail`, if it takes one there. -/
def nextTail (tail : UInt64) : Option UInt64 :=
  if tail + 8 ≤ head then
    if sizeAt data tail < 8 ∨ sizeAt data tail > data.length then none
    else some (tail + UInt64.ofNat (sizeAt data tail))
  else none

/-- The positions the chain of headers leads to. -/
inductive Reached : UInt64 → UInt64 → Prop
  | here (tail : UInt64) : Reached tail tail
  | next {tail tail' t : UInt64} (h : nextTail data head tail = some tail') (ht : Reached tail' t) : Reached tail t

/-- No read of the loop leaves its record, and the `data_tail` it stores is not past `data_head`. -/
def DrainSafe (tail : UInt64) (st : DrainState) : Prop :=
  ∀ turns, drainLoop fmts kind data head turns tail st ≠ .error .outOfBounds ∧
    ∀ tail' st', drainLoop fmts kind data head turns tail st = .ok (some (tail', st')) → tail' ≤ head

end Ring

/-! ## Reads of a record -/

section Reads

variable {fmts : Formats} {kind : SlotKind} {rec : Bytes} {offset : Nat}

/-- `raw_size` of a sample. -/
def rawSizeOf (rec : Bytes) : UInt32 :=
  UInt32.ofNat (readWord ((rec.drop 32).take 4))

def recordType (rec : Bytes) : UInt32 :=
  UInt32.ofNat (readWord (rec.take 4))

/-- The fields that are read from a sample of each kind, by the format that places them, with their widths. -/
def fieldReads (fmts : Formats) : SlotKind → Format × List (String × Nat)
  | .sw => (fmts.swFmt, [("next_pid", 4), ("prev_pid", 4), ("next_comm", 16)])
  | .wk => (fmts.wkFmt, [("pid", 4), ("target_cpu", 4)])
  | .mg => (fmts.mgFmt, [("pid", 4), ("orig_cpu", 4), ("dest_cpu", 4)])
  | .pf => ([], [])

/-- A field that ends before `raw_size` ends in the record. -/
def FieldFits (fmt : Format) (rec : Bytes) (field : String) (width : Nat) : Prop :=
  ∀ offset size, findKey (utf8 field) fmt = some (offset, size) → 0 ≤ offset →
    offset.toInt.toNat + width ≤ (rawSizeOf rec).toNat → 36 + offset.toInt.toNat + width ≤ rec.length

/-- The payload of a sample of a tracepoint is in the record, as far as it is read. A sample without room for the fixed
fields is skipped. -/
def SampleFits (fmts : Formats) (kind : SlotKind) (rec : Bytes) : Prop :=
  kind ≠ .pf → 32 ≤ rec.length →
    36 ≤ rec.length ∧ ∀ read ∈ (fieldReads fmts kind).2, FieldFits (fieldReads fmts kind).1 rec read.1 read.2

theorem loadU32_ok_iff : (∃ x, loadU32 rec offset = .ok x) ↔ offset + 4 ≤ rec.length := by
  rw [loadU32, exists_map_ok_iff, load_ok_iff]

theorem loadU32_eq (h : offset + 4 ≤ rec.length) :
    loadU32 rec offset = .ok (UInt32.ofNat (readWord ((rec.drop offset).take 4))) := by
  rw [loadU32, load_eq h, ok_bind]

theorem loadU64_eq (h : offset + 8 ≤ rec.length) :
    loadU64 rec offset = .ok (UInt64.ofNat (readWord ((rec.drop offset).take 8))) := by
  rw [loadU64, load_eq h, ok_bind]

/-- The two guards of a field read, with the result `d` where one of them fails. -/
theorem guarded_ok_iff {α : Type} {x : Except Fault α} {d : α} {at_ : Int32} {width : Nat} {rawSize : UInt32}
    (hx : (∃ a, x = .ok a) ↔ 36 + at_.toInt.toNat + width ≤ rec.length) :
    (∃ a, (if at_ < 0 then .ok d else if at_.toInt.toNat + width > rawSize.toNat then .ok d else x) = .ok a) ↔
      (0 ≤ at_ → at_.toInt.toNat + width ≤ rawSize.toNat → 36 + at_.toInt.toNat + width ≤ rec.length) := by
  by_cases hneg : at_ < 0
  · simp [hneg]
  · rw [if_neg hneg]
    by_cases hout : at_.toInt.toNat + width > rawSize.toNat
    · rw [if_pos hout]
      simp only [Except.ok.injEq, exists_eq', true_iff]
      intro _ hin
      omega
    · rw [if_neg hout, hx]
      constructor
      · intro h _ _
        exact h
      · intro h
        exact h (Int32.not_lt.mp hneg) (by omega)

theorem readField_ok_iff {fmt : Format} {field : String} :
    (∃ x, readField fmt rec 36 (rawSizeOf rec) field = .ok x) ↔ FieldFits fmt rec field 4 := by
  unfold readField FieldFits
  cases findKey (utf8 field) fmt with
  | none => simp
  | some entry =>
    obtain ⟨at_, size⟩ := entry
    simp only [Option.some.injEq, Prod.mk.injEq, and_imp, forall_apply_eq_imp_iff, forall_eq']
    exact guarded_ok_iff loadU32_ok_iff

theorem readComm_ok_iff {fmt : Format} {field : String} :
    (∃ x, readComm fmt rec 36 (rawSizeOf rec) field = .ok x) ↔ FieldFits fmt rec field 16 := by
  unfold readComm FieldFits
  cases findKey (utf8 field) fmt with
  | none => simp
  | some entry =>
    obtain ⟨at_, size⟩ := entry
    simp only [Option.some.injEq, Prod.mk.injEq, and_imp, forall_apply_eq_imp_iff, forall_eq']
    exact guarded_ok_iff (by rw [exists_map_ok_iff, load_ok_iff])

/-- A sample is decoded exactly where its payload fits. -/
theorem decodeSample_ok_iff : (∃ e, decodeSample fmts kind rec = .ok e) ↔ SampleFits fmts kind rec := by
  unfold decodeSample SampleFits
  by_cases hshort : 8 + 24 > rec.length
  · rw [if_pos hshort]
    simp only [Except.ok.injEq, exists_eq', true_iff]
    intro _ h
    omega
  · rw [if_neg hshort, loadU32_eq (by omega), ok_bind, loadU32_eq (by omega), ok_bind, loadU64_eq (by omega), ok_bind,
      loadU32_eq (by omega), ok_bind]
    by_cases hraw : 36 ≤ rec.length
    · have hsize : loadU32 rec 32 = .ok (rawSizeOf rec) := loadU32_eq (by omega)
      have hlen : 32 ≤ rec.length := by omega
      cases kind with
      | sw =>
        simp only [hsize, ok_bind]
        rw [exists_bind_ok_iff fun _ => exists_bind_ok_iff fun _ => exists_map_ok_iff, readField_ok_iff,
          readField_ok_iff, readComm_ok_iff]
        simp [fieldReads, hraw, hlen]
      | wk =>
        simp only [hsize, ok_bind]
        rw [exists_bind_ok_iff fun _ => exists_map_ok_iff, readField_ok_iff, readField_ok_iff]
        simp [fieldReads, hraw, hlen]
      | mg =>
        simp only [hsize, ok_bind]
        rw [exists_bind_ok_iff fun _ => exists_bind_ok_iff fun _ => exists_map_ok_iff, readField_ok_iff,
          readField_ok_iff, readField_ok_iff]
        simp [fieldReads, hraw, hlen]
      | pf => simp
    · -- there is no room for `raw_size`
      have hsize : loadU32 rec 32 = .error .outOfBounds := by
        rw [loadU32, load, if_neg (by omega), error_bind]
      have hlen : 32 ≤ rec.length := by omega
      cases kind <;> simp [hsize, hraw, hlen]

theorem loadU32_type (h : 8 ≤ rec.length) : loadU32 rec 0 = .ok (recordType rec) := by
  rw [loadU32_eq (by omega), List.drop_zero]
  rfl

/-- A record is decoded exactly where it is no sample, or one that fits. -/
theorem drainRecord_ok_iff (st : DrainState) (h : 8 ≤ rec.length) :
    (∃ st', drainRecord fmts kind st rec = .ok st') ↔
      (recordType rec = perfRecordSample → SampleFits fmts kind rec) := by
  unfold drainRecord
  rw [loadU32_type h, ok_bind]
  by_cases hlost : recordType rec = perfRecordLost
  · have hne : ¬perfRecordLost = perfRecordSample := by decide
    simp only [hlost, if_true, hne, false_implies, iff_true]
    by_cases hlen : rec.length ≥ 8 + 16
    · rw [if_pos hlen, loadU64_eq (by omega), ok_bind]
      exact ⟨_, rfl⟩
    · rw [if_neg hlen]
      exact ⟨_, rfl⟩
  · rw [if_neg hlost]
    by_cases hsample : recordType rec = perfRecordSample
    · rw [if_pos hsample, exists_map_ok_iff, decodeSample_ok_iff]
      simp [hsample]
    · rw [if_neg hsample]
      simp [hsample]

end Reads

/-! ## The loop -/

section Loop

variable {fmts : Formats} {kind : SlotKind} {data : Bytes} {head tail tail' : UInt64} {st : DrainState}

/-- A turn of the loop that takes no record. -/
theorem drainLoop_stop (turns : Nat) (st : DrainState) (h : nextTail data head tail = none) :
    drainLoop fmts kind data head (turns + 1) tail st = .ok (some (tail, st)) := by
  unfold nextTail at h
  unfold drainLoop
  by_cases hguard : tail + 8 ≤ head
  · rw [if_pos hguard] at h ⊢
    by_cases hbad : sizeAt data tail < 8 ∨ sizeAt data tail > data.length
    · rw [if_pos hbad]
    · rw [if_neg hbad] at h
      cases h
  · rw [if_neg hguard]

/-- A turn of the loop that takes a record. -/
theorem drainLoop_take (turns : Nat) (st : DrainState) (h : nextTail data head tail = some tail') :
    drainLoop fmts kind data head (turns + 1) tail st =
      drainRecord fmts kind st (recordAt data tail) >>= drainLoop fmts kind data head turns tail' := by
  unfold nextTail at h
  rw [drainLoop]
  by_cases hguard : tail + 8 ≤ head
  · rw [if_pos hguard] at h ⊢
    by_cases hbad : sizeAt data tail < 8 ∨ sizeAt data tail > data.length
    · rw [if_pos hbad] at h
      cases h
    · rw [if_neg hbad] at h ⊢
      obtain rfl := Option.some.inj h
      rfl
  · rw [if_neg hguard] at h
    cases h

/-- A record that is taken has room for its header. -/
theorem recordAt_length (h : nextTail data head tail = some tail') : 8 ≤ (recordAt data tail).length := by
  unfold nextTail at h
  rw [recordAt, length_loadRound]
  split at h
  · split at h
    · cases h
    · omega
  · cases h

/-- The record at `tail` can be decoded, and does not end past `head` unless another one follows it there. -/
def RecordFits (fmts : Formats) (kind : SlotKind) (data : Bytes) (head tail tail' : UInt64) : Prop :=
  (recordType (recordAt data tail) = perfRecordSample → SampleFits fmts kind (recordAt data tail)) ∧
    (tail' ≤ head ∨ nextTail data head tail' ≠ none)

/-- The loop stays safe as long as the records fit; what is carried along is that it would not stop past `head`. -/
theorem drainSafe_of_fits (hfit : ∀ t t', Reached data head tail t → nextTail data head t = some t' →
      RecordFits fmts kind data head t t')
    (hstart : tail ≤ head ∨ nextTail data head tail ≠ none) : DrainSafe fmts kind data head tail st := by
  intro turns
  induction turns generalizing tail st with
  | zero =>
    refine ⟨ok_ne_error, ?_⟩
    intro tail' st' h
    cases h
  | succ turns ih =>
    cases hnext : nextTail data head tail with
    | none =>
      rw [drainLoop_stop turns st hnext]
      refine ⟨ok_ne_error, ?_⟩
      intro tail' st' h
      obtain ⟨rfl, rfl⟩ : tail = tail' ∧ st = st' := by simpa using h
      rcases hstart with hle | hgo
      · exact hle
      · exact absurd hnext hgo
    | some t' =>
      obtain ⟨hdecode, hend⟩ := hfit tail t' (.here tail) hnext
      obtain ⟨st', hst'⟩ := (drainRecord_ok_iff st (recordAt_length hnext)).mpr hdecode
      rw [drainLoop_take turns st hnext, hst', ok_bind]
      exact ih (fun t u ht hu => hfit t u (.next hnext ht) hu) hend

/-- What a safe loop has decoded at `tail`, it goes on safely from. -/
theorem DrainSafe.next (h : DrainSafe fmts kind data head tail st) (hnext : nextTail data head tail = some tail') :
    ∃ st', drainRecord fmts kind st (recordAt data tail) = .ok st' ∧ DrainSafe fmts kind data head tail' st' := by
  cases hrec : drainRecord fmts kind st (recordAt data tail) with
  | error e =>
    have hrun := (h 1).1
    rw [drainLoop_take 0 st hnext, hrec, error_bind] at hrun
    cases e
    exact absurd rfl hrun
  | ok st' =>
    refine ⟨st', rfl, ?_⟩
    intro turns
    have hrun := h (turns + 1)
    rwa [drainLoop_take turns st hnext, hrec, ok_bind] at hrun

theorem DrainSafe.reached {t : UInt64} (h : DrainSafe fmts kind data head tail st) (ht : Reached data head tail t) :
    ∃ st', DrainSafe fmts kind data head t st' := by
  induction ht generalizing st with
  | here => exact ⟨st, h⟩
  | next hnext _ ih =>
    obtain ⟨st', -, hsafe⟩ := h.next hnext
    exact ih hsafe

/-- For every ring, formats and positions with `data_tail` not past `data_head`: the loop reads inside its records and
stores a tail that is not past `data_head`, exactly if every record of the chain of headers fits. -/
theorem drain_safe_iff (fmts : Formats) (kind : SlotKind) (data : Bytes) {head tail : UInt64} (st : DrainState)
    (htail : tail ≤ head) : DrainSafe fmts kind data head tail st ↔
      ∀ t t', Reached data head tail t → nextTail data head t = some t' → RecordFits fmts kind data head t t' := by
  constructor
  · intro h t t' ht hnext
    obtain ⟨st₁, hsafe⟩ := h.reached ht
    obtain ⟨st₂, hrec, hsafe'⟩ := hsafe.next hnext
    refine ⟨(drainRecord_ok_iff st₁ (recordAt_length hnext)).mp ⟨st₂, hrec⟩, ?_⟩
    cases hstop : nextTail data head t' with
    | none => exact Or.inl ((hsafe' 1).2 t' st₂ (drainLoop_stop 0 st₂ hstop))
    | some u => exact Or.inr (by simp)
  · intro h
    exact drainSafe_of_fits h (Or.inl htail)

/-- A sample of a tracepoint that ends with its fixed fields. -/
def bareSample : Bytes :=
  word 4 perfRecordSample.toNat ++ word 2 0 ++ word 2 32 ++ List.replicate 24 0

/-- A record of no interest (`PERF_RECORD_MMAP`), of 16 bytes. -/
def longRecord : Bytes :=
  word 4 1 ++ word 2 0 ++ word 2 16 ++ List.replicate 8 0

def noFormats : Formats := ⟨[], [], []⟩

/-- `raw_size` is read behind the end of a record of 32 bytes; and of a record of 16 bytes only the header is before
`data_head`, past which the tail is then stored. -/
theorem drain_leaves_record : drainLoop noFormats .sw bareSample 32 1 0 {} = .error .outOfBounds ∧
    drainLoop noFormats .sw longRecord 8 2 0 {} = .ok (some (16, {})) ∧ ¬(16 : UInt64) ≤ 8 :=
  ⟨rfl, rfl, by decide⟩

theorem drain_safe_iff_longRecord : (0 : UInt64) ≤ 16 ∧ (DrainSafe noFormats .sw longRecord 16 0 {} ↔
    ∀ t t', Reached longRecord 16 0 t → nextTail longRecord 16 t = some t' →
      RecordFits noFormats .sw longRecord 16 t t') :=
  ⟨by decide, drain_safe_iff noFormats .sw longRecord {} (by decide)⟩

end Loop

/-! ## Records that are laid out in the ring -/

section LaidOut

variable {fmts : Formats} {kind : SlotKind} {data rec : Bytes} {recs : List Bytes} {head tail : UInt64}
  {st : DrainState}

/-- A record as the kernel writes one into a ring of `dataSize` bytes. -/
structure WellFormed (kind : SlotKind) (dataSize : Nat) (rec : Bytes) : Prop where
  size_eq : headerSize rec = rec.length
  header_le : 8 ≤ rec.length
  le_ring : rec.length ≤ dataSize
  sample_le : recordType rec = perfRecordSample → kind ≠ .pf → 36 + (rawSizeOf rec).toNat ≤ rec.length
  lost_le : recordType rec = perfRecordLost → 24 ≤ rec.length

/-- A sample with room for the fixed fields, as all samples of a tracepoint are. -/
def isSample (rec : Bytes) : Bool :=
  decide (recordType rec = perfRecordSample) && decide (32 ≤ rec.length)

def isLost (rec : Bytes) : Bool :=
  decide (recordType rec = perfRecordLost)

/-- `lost` of a `PERF_RECORD_LOST`, behind `id`. -/
def lostCount (rec : Bytes) : UInt64 :=
  UInt64.ofNat (readWord ((rec.drop 16).take 8))

def CaptureSummary.addLost (s : CaptureSummary) (lost : UInt64) : CaptureSummary :=
  { s with lostSamples := s.lostSamples + lost }

theorem sizeAt_of_laidOut (h : LaidOut data tail.toNat rec) (hrec : WellFormed kind data.length rec) :
    sizeAt data tail = rec.length := by
  have hlen : (rec.take 8).length = 8 := by
    rw [List.length_take]
    have := hrec.header_le
    omega
  rw [← List.take_append_drop 8 rec] at h
  have hfront := loadRound_of_laidOut h.append.1
  rw [hlen] at hfront
  rw [sizeAt, hfront, headerSize, List.drop_take, List.take_take, ← hrec.size_eq, headerSize]
  rfl

/-- A laid out record is taken as it is, and the loop goes on behind it. -/
theorem nextTail_of_laidOut (head : UInt64) (h : LaidOut data tail.toNat rec) (hrec : WellFormed kind data.length rec)
    (hhead : tail.toNat + rec.length ≤ head.toNat) : recordAt data tail = rec ∧
      ∃ tail', nextTail data head tail = some tail' ∧ tail'.toNat = tail.toNat + rec.length := by
  have hsize := sizeAt_of_laidOut h hrec
  have hlt := head.toNat_lt
  have h8 := hrec.header_le
  have hring := hrec.le_ring
  have height : (8 : UInt64).toNat = 8 := rfl
  have hguard : tail + 8 ≤ head := by
    rw [UInt64.le_iff_toNat_le, UInt64.toNat_add, height]
    omega
  refine ⟨by rw [recordAt, hsize, loadRound_of_laidOut h], tail + UInt64.ofNat rec.length, ?_, ?_⟩
  · rw [nextTail, if_pos hguard, hsize, if_neg (by omega)]
  · rw [UInt64.toNat_add, UInt64.toNat_ofNat', Nat.mod_eq_of_lt (by omega : rec.length < 2 ^ 64)]
    exact Nat.mod_eq_of_lt (by omega)

/-- The loop over a ring with the records laid out in it decodes the records, and stops at `head`. -/
theorem drainLoop_laidOut (hrecs : ∀ rec ∈ recs, WellFormed kind data.length rec)
    (hlaid : LaidOut data tail.toNat recs.flatten) (hhead : tail.toNat + recs.flatten.length = head.toNat)
    (hlast : head.toNat + 8 < 2 ^ 64) {turns : Nat} (hturns : recs.length < turns) :
    drainLoop fmts kind data head turns tail st =
      drainRecords fmts kind recs st >>= fun st' => .ok (some (head, st')) := by
  induction recs generalizing tail st turns with
  | nil =>
    obtain ⟨turns, rfl⟩ : ∃ k, turns = k + 1 := ⟨turns - 1, by simp at hturns; omega⟩
    obtain rfl : tail = head := UInt64.toNat_inj.mp (by simpa using hhead)
    have hstop : nextTail data tail tail = none := by
      have height : (8 : UInt64).toNat = 8 := rfl
      rw [nextTail, if_neg]
      rw [UInt64.le_iff_toNat_le, UInt64.toNat_add, height]
      omega
    rw [drainLoop_stop turns st hstop]
    rfl
  | cons rec recs ih =>
    obtain ⟨turns, rfl⟩ : ∃ k, turns = k + 1 := ⟨turns - 1, by simp at hturns; omega⟩
    rw [List.flatten_cons] at hlaid hhead
    rw [List.length_append] at hhead
    obtain ⟨hfirst, hrest⟩ := hlaid.append
    obtain ⟨hcopy, tail', hnext, htail'⟩ := nextTail_of_laidOut head hfirst (hrecs rec List.mem_cons_self)
      (by omega)
    have hih : ∀ st', drainLoop fmts kind data head turns tail' st' =
        drainRecords fmts kind recs st' >>= fun st'' => .ok (some (head, st'')) := by
      intro st'
      apply ih (fun r hr => hrecs r (List.mem_cons_of_mem rec hr))
      · rwa [htail']
      · omega
      · simpa using hturns
    rw [drainLoop_take turns st hnext, hcopy, drainRecords, List.foldlM_cons, bind_assoc]
    exact bind_congr hih

theorem decodeSample_short (h : rec.length < 32) : decodeSample fmts kind rec = .ok none := by
  rw [decodeSample, if_pos (by omega)]

theorem decodeSample_isSome {e : Option RawEvent} (h : 32 ≤ rec.length) (hdec : decodeSample fmts kind rec = .ok e) :
    e.isSome = true := by
  rw [decodeSample, if_neg (by omega)] at hdec
  cases kind <;> simp only [bind_eq_ok] at hdec
  case sw =>
    obtain ⟨_, -, _, -, _, -, _, -, _, -, _, -, _, -, _, -, h⟩ := hdec
    rw [← Except.ok.inj h, Option.isSome_some]
  case wk =>
    obtain ⟨_, -, _, -, _, -, _, -, _, -, _, -, _, -, h⟩ := hdec
    rw [← Except.ok.inj h, Option.isSome_some]
  case mg =>
    obtain ⟨_, -, _, -, _, -, _, -, _, -, _, -, _, -, _, -, h⟩ := hdec
    rw [← Except.ok.inj h, Option.isSome_some]
  case pf =>
    obtain ⟨_, -, _, -, _, -, _, -, h⟩ := hdec
    rw [← Except.ok.inj h, Option.isSome_some]

/-- In a well-formed sample the payload ends in the record. -/
theorem WellFormed.sampleFits (fmts : Formats) (hrec : WellFormed kind data.length rec)
    (htype : recordType rec = perfRecordSample) : SampleFits fmts kind rec := by
  intro hkind _
  have hraw := hrec.sample_le htype hkind
  refine ⟨by omega, ?_⟩
  intro read _ offset size _ _ hin
  omega

/-- The event of a sample with room for the fixed fields. -/
theorem WellFormed.decodes (fmts : Formats) (hrec : WellFormed kind data.length rec) (h : isSample rec = true) :
    ∃ e, decodeSample fmts kind rec = .ok (some e) := by
  rw [isSample, Bool.and_eq_true, decide_eq_true_iff, decide_eq_true_iff] at h
  obtain ⟨e, he⟩ := decodeSample_ok_iff.mpr (hrec.sampleFits fmts h.1)
  obtain ⟨e', rfl⟩ := Option.isSome_iff_exists.mp (decodeSample_isSome h.2 he)
  exact ⟨e', he⟩

/-- What a well-formed record adds: the event of a sample, the count of a loss, or nothing. -/
theorem drainRecord_sample {e : RawEvent} (hrec : WellFormed kind data.length rec) (h : isSample rec = true)
    (he : decodeSample fmts kind rec = .ok (some e)) :
    drainRecord fmts kind st rec = .ok { out := st.out ++ [e], summary := st.summary.count kind } := by
  rw [isSample, Bool.and_eq_true, decide_eq_true_iff] at h
  rw [drainRecord, loadU32_type hrec.header_le, ok_bind, if_neg (by rw [h.1]; decide), if_pos h.1, he, ok_bind]
  rfl

theorem drainRecord_lost (hrec : WellFormed kind data.length rec) (h : isLost rec = true) :
    drainRecord fmts kind st rec = .ok { st with summary := st.summary.addLost (lostCount rec) } := by
  rw [isLost, decide_eq_true_iff] at h
  have hlen := hrec.lost_le h
  rw [drainRecord, loadU32_type hrec.header_le, ok_bind, if_pos h, if_pos (by omega), loadU64_eq (by omega), ok_bind]
  rfl

theorem drainRecord_other (hrec : WellFormed kind data.length rec) (hsample : isSample rec = false)
    (hlost : isLost rec = false) : drainRecord fmts kind st rec = .ok st := by
  rw [isLost, decide_eq_false_iff_not] at hlost
  rw [drainRecord, loadU32_type hrec.header_le, ok_bind, if_neg hlost]
  by_cases htype : recordType rec = perfRecordSample
  · have hshort : rec.length < 32 := by simpa [isSample, htype] using hsample
    rw [if_pos htype, decodeSample_short hshort, ok_bind, Option.elim_none]
  · rw [if_neg htype]

theorem isLost_eq_false (h : isSample rec = true) : isLost rec = false := by
  rw [isSample, Bool.and_eq_true, decide_eq_true_iff] at h
  rw [isLost, h.1]
  decide

theorem CaptureSummary.count_addLost (s : CaptureSummary) (kind : SlotKind) (lost : UInt64) :
    (s.addLost lost).count kind = (s.count kind).addLost lost := by
  cases kind <;> rfl

theorem CaptureSummary.counts_addLost (s : CaptureSummary) (kind : SlotKind) (lost : UInt64) (n : Nat) :
    (s.addLost lost).counts kind n = (s.counts kind n).addLost lost := by
  induction n generalizing s with
  | zero => rfl
  | succ n ih =>
    simp only [CaptureSummary.counts, Function.iterate_succ, Function.comp_apply] at ih ⊢
    rw [CaptureSummary.count_addLost, ih]

/-- The samples of well-formed records become their events in order, and the losses are added up. -/
theorem drainRecords_wellFormed (fmts : Formats) (hrecs : ∀ rec ∈ recs, WellFormed kind data.length rec)
    (st : DrainState) : ∃ events,
    List.Forall₂ (fun rec e => decodeSample fmts kind rec = .ok (some e)) (recs.filter isSample) events ∧
      drainRecords fmts kind recs st = .ok {
        out := st.out ++ events
        summary := (st.summary.counts kind events.length).addLost ((recs.filter isLost).map lostCount).sum } := by
  induction recs generalizing st with
  | nil =>
    refine ⟨[], .nil, ?_⟩
    simp [drainRecords, CaptureSummary.counts, CaptureSummary.addLost, pure, Except.pure]
  | cons rec recs ih =>
    have hrec := hrecs rec List.mem_cons_self
    have ih := fun st => ih (fun r hr => hrecs r (List.mem_cons_of_mem rec hr)) st
    unfold drainRecords at ih ⊢
    rw [List.foldlM_cons]
    by_cases hsample : isSample rec = true
    · obtain ⟨e, he⟩ := hrec.decodes fmts hsample
      obtain ⟨events, hall, hrun⟩ := ih { out := st.out ++ [e], summary := st.summary.count kind }
      refine ⟨e :: events, ?_, ?_⟩
      · rw [List.filter_cons_of_pos hsample]
        exact .cons he hall
      · rw [drainRecord_sample hrec hsample he, ok_bind, hrun,
          List.filter_cons_of_neg (by simp [isLost_eq_false hsample])]
        simp [CaptureSummary.counts]
    · rw [Bool.not_eq_true] at hsample
      rw [List.filter_cons_of_neg (by simp [hsample])]
      by_cases hlost : isLost rec = true
      · obtain ⟨events, hall, hrun⟩ := ih { st with summary := st.summary.addLost (lostCount rec) }
        refine ⟨events, hall, ?_⟩
        rw [drainRecord_lost hrec hlost, ok_bind, hrun, List.filter_cons_of_pos hlost, CaptureSummary.counts_addLost]
        simp [CaptureSummary.addLost, UInt64.add_assoc]
      · rw [Bool.not_eq_true] at hlost
        obtain ⟨events, hall, hrun⟩ := ih st
        refine ⟨events, hall, ?_⟩
        rw [drainRecord_other hrec hsample hlost, ok_bind, hrun, List.filter_cons_of_neg (by simp [hlost])]

/-- For records laid out in the ring from any position on, wherever it wraps: one event per sample in order, with the
fields of the unwrapped record, the losses added up, other records skipped, and `data_head` stored as the new tail. -/
theorem drain_laidOut (fmts : Formats) (kind : SlotKind) {data : Bytes} {recs : List Bytes} {head tail : UInt64}
    (st : DrainState) (hrecs : ∀ rec ∈ recs, WellFormed kind data.length rec)
    (hlaid : LaidOut data tail.toNat recs.flatten) (hhead : tail.toNat + recs.flatten.length = head.toNat)
    (hlast : head.toNat + 8 < 2 ^ 64) (turns : Nat) (hturns : recs.length < turns) :
    ∃ events, List.Forall₂ (fun rec e => decodeSample fmts kind rec = .ok (some e)) (recs.filter isSample) events ∧
      drainLoop fmts kind data head turns tail st = .ok (some (head, {
        out := st.out ++ events
        summary := (st.summary.counts kind events.length).addLost ((recs.filter isLost).map lostCount).sum })) := by
  obtain ⟨events, hall, hrun⟩ := drainRecords_wellFormed fmts hrecs st
  refine ⟨events, hall, ?_⟩
  rw [drainLoop_laidOut hrecs hlaid hhead hlast hturns, hrun, ok_bind]

/-- A sample without fields in a page-fault ring. -/
def emptySample : Bytes :=
  word 4 perfRecordSample.toNat ++ word 2 0 ++ word 2 8

theorem emptySample_wellFormed : WellFormed .pf 8 emptySample :=
  ⟨by decide, by decide, by decide, by decide, by decide⟩

/-- A ring of 40 bytes with `bareSample` from position 8 on. -/
def sampleRing : Bytes :=
  List.replicate 8 0 ++ bareSample

/-- A sample without room for the fixed fields gives no event; and at the last positions, where `tail + 8` wraps, the
loop takes a record that is not before `data_head`. -/
theorem drain_short_or_wrapping :
    (WellFormed .pf 8 emptySample ∧ LaidOut emptySample 0 [emptySample].flatten ∧
      recordType emptySample = perfRecordSample ∧
      drainLoop noFormats .pf emptySample 8 2 0 {} = .ok (some (8, {}))) ∧
    (LaidOut sampleRing (2 ^ 64 - 8) [].flatten ∧ ∃ st, st.out.length = 1 ∧
      drainLoop noFormats .pf sampleRing 18446744073709551608 2 18446744073709551608 {} = .ok (some (24, st))) := by
  refine ⟨⟨emptySample_wellFormed, ?_, by decide, rfl⟩, ?_, _, ?_, rfl⟩
  · unfold LaidOut
    decide
  · intro k hk
    simp at hk
  · rfl

/-- A ring of 40 bytes with `bareSample` from position 24 on, around its end. -/
def wrappedRing : Bytes :=
  bareSample.drop 16 ++ List.replicate 8 0 ++ bareSample.take 16

theorem drain_laidOut_wrappedRing :
    ∃ events, List.Forall₂ (fun rec e => decodeSample noFormats .pf rec = .ok (some e))
        ([bareSample].filter isSample) events ∧
      drainLoop noFormats .pf wrappedRing 56 2 24 {} = .ok (some (56, {
        out := [] ++ events
        summary := (CaptureSummary.counts {} .pf events.length).addLost
          (([bareSample].filter isLost).map lostCount).sum })) := by
  have hrec : WellFormed .pf wrappedRing.length bareSample := ⟨by decide, by decide, by decide, by decide, by decide⟩
  have hlaid : LaidOut wrappedRing 24 [bareSample].flatten := by
    unfold LaidOut
    decide
  refine drain_laidOut noFormats .pf {} ?_ hlaid (by decide) (by decide) 2 (by decide)
  intro rec hmem
  rwa [List.mem_singleton.mp hmem]

end LaidOut

end Exasphere.Collectors

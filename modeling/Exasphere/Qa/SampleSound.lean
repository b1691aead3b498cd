import Exasphere.Lib.Consecutive
import Exasphere.Qa.RuntimeSample

/-!
# What an accepted stream of samples holds

The loop over the rows compares the number of a row with the last one it has seen (`Tracked`), so the numbers of all
rows are in order. The check of one row takes its state without the white space around it, the loop as it is: a row
before the attach may state `enabled` with white space around it. The rows are consistent exactly when none does
(`validateFile_consistent_iff`).
-/

namespace Exasphere.Qa.RuntimeSample

open Exasphere.Lib Exasphere.Py

variable {b : Builtins} {fs : Files} {path : Path}

/-! ## Consistent rows -/

section Consistent

def sequenceOf (row : Dict) : Option Int := (row.get "sequence").asInt?

/-- The number of a row's `enable_seq`, if it has one. -/
def enableSeqOf (b : Builtins) (row : Dict) : Option Nat := (numericFactValue b row "enable_seq").toOption.join

/-- The value of a fact without the white space around it. -/
def trimmed (b : Builtins) (row : Dict) (field : String) : Str := strip isSpace (valueText b (row.get field))

def InPhase (row : Dict) (phase : String) : Prop := row.get "sched_ext_phase" = .str (str phase)

/-- A row after the scheduler is gone reports no scheduler. -/
def DetachedSound (b : Builtins) (row : Dict) : Prop :=
  ∀ phase ∈ detachedPhases, InPhase row phase →
    (isOneOf (trimmed b row "state") ["disabled", "unknown", "unavailable"] = true ∧
      (trimmed b row "state" = str "disabled" →
        isOneOf (trimmed b row "ops") ["none", "unavailable", "unknown"] = true))

structure Consistent (b : Builtins) (rows : List Dict) : Prop where
  numbered : ∀ row ∈ rows, (sequenceOf row).isSome
  sequence : (rows.filterMap sequenceOf).Pairwise (· < ·)
  enableSeq : (rows.filterMap (enableSeqOf b)).Pairwise (· ≤ ·)
  beforeAttach : ∀ row ∈ rows, InPhase row "before_attach" → trimmed b row "state" ≠ str "enabled"
  detached : ∀ row ∈ rows, DetachedSound b row

/-- The state is `enabled` with white space around it. -/
def PaddedEnabled (b : Builtins) (row : Dict) : Prop :=
  valueText b (row.get "state") ≠ str "enabled" ∧ trimmed b row "state" = str "enabled"

end Consistent

/-! ## The loop -/

section Loop

theorem nextSequence_ok {last last' : Option Int} {value : Value} {context : Str} {l : List Int}
    (h : nextSequence last value context = .ok last') (hl : Tracked (· < ·) l last) :
    Tracked (· < ·) (l ++ value.asInt?.toList) last' := by
  unfold nextSequence at h
  cases hvalue : value.asInt? with
  | none =>
    rw [hvalue] at h
    obtain rfl := Except.ok.inj h
    simpa using hl
  | some n =>
    rw [hvalue] at h
    obtain ⟨u, hlt, h⟩ := bind_eq_ok.mp h
    obtain rfl := Except.ok.inj h
    rw [require_ok, Option.all_eq_true] at hlt
    exact hl.concat (fun x hx => of_decide_eq_true (hlt x hx))

theorem nextEnableSeq_ok {last last' value : Option Nat} {context : Str} {l : List Nat}
    (h : nextEnableSeq last value context = .ok last') (hl : Tracked (· ≤ ·) l last) :
    Tracked (· ≤ ·) (l ++ value.toList) last' := by
  unfold nextEnableSeq at h
  cases value with
  | none =>
    obtain rfl := Except.ok.inj h
    simpa using hl
  | some n =>
    obtain ⟨u, hle, h⟩ := bind_eq_ok.mp h
    obtain rfl := Except.ok.inj h
    rw [require_ok, Option.all_eq_true] at hle
    exact hl.concat (fun x hx => of_decide_eq_true (hle x hx))

theorem strip_of_isOneOf {s : Str} {words : List String} (hwords : ∀ w ∈ words, strip isSpace (str w) = str w)
    (h : isOneOf s words = true) : strip isSpace s = s := by
  rw [isOneOf, List.contains_iff_mem] at h
  obtain ⟨w, hw, rfl⟩ := List.mem_map.mp h
  exact hwords w hw

/-- What the loop asks of a row on its own. -/
structure PhaseSound (b : Builtins) (row : Dict) : Prop where
  beforeAttach : InPhase row "before_attach" → valueText b (row.get "state") ≠ str "enabled"
  detached : DetachedSound b row

theorem validatePhaseState_ok {row : Dict} {context : Str}
    (h : validatePhaseState b (row.get "sched_ext_phase") (valueText b (row.get "state")) (valueText b (row.get "ops"))
      context = .ok ()) : PhaseSound b row := by
  simp only [validatePhaseState, bind_eq_ok, require_ok, checkWhen_ok, Bool.not_eq_true', Bool.and_eq_false_iff,
    decide_eq_false_iff_not, Bool.not_eq_false'] at h
  obtain ⟨-, hbefore, hdetached⟩ := h
  refine ⟨?_, ?_⟩
  · intro hphase
    rcases hbefore with hbefore | hbefore
    · rw [Value.eqStr_iff.mpr hphase] at hbefore
      cases hbefore
    · exact hbefore
  · intro phase hphase hrow
    obtain ⟨-, hstate, hops⟩ := hdetached (List.any_eq_true.mpr ⟨phase, hphase, Value.eqStr_iff.mpr hrow⟩)
    have htrim : trimmed b row "state" = valueText b (row.get "state") := strip_of_isOneOf (by decide) hstate
    rw [htrim]
    refine ⟨hstate, ?_⟩
    intro hdisabled
    have hops' := hops.resolve_left (not_not_intro hdisabled)
    have htrim' : trimmed b row "ops" = valueText b (row.get "ops") := strip_of_isOneOf (by decide) hops'
    rwa [htrim']

/-- What the loop has found of the rows done. -/
structure Walked (b : Builtins) (rows : List Dict) (last : Last) : Prop where
  sequence : Tracked (· < ·) (rows.filterMap sequenceOf) last.sequence
  enableSeq : Tracked (· ≤ ·) (rows.filterMap (enableSeqOf b)) last.enableSeq
  phases : ∀ row ∈ rows, PhaseSound b row

/-- One turn of the loop. -/
theorem Walked.step {rows : List Dict} {last last' : Last} {entry : Dict × Nat} (hwalked : Walked b rows last)
    (h : validateSchedExtRow b last entry = .ok last') : Walked b (rows ++ [entry.1]) last' := by
  obtain ⟨row, index⟩ := entry
  simp only [validateSchedExtRow, bind_eq_ok, Except.ok.injEq] at h
  obtain ⟨sequence, hsequence, value, hvalue, enableSeq, henable, u, hphase, rfl⟩ := h
  have hseq : enableSeqOf b row = value := by simp [enableSeqOf, hvalue, Except.toOption]
  refine ⟨?_, ?_, ?_⟩
  · rw [filterMap_concat]
    exact nextSequence_ok hsequence hwalked.sequence
  · rw [filterMap_concat, hseq]
    exact nextEnableSeq_ok henable hwalked.enableSeq
  · intro row' hrow'
    rcases List.mem_append.mp hrow' with hrow' | hrow'
    · exact hwalked.phases row' hrow'
    · rw [List.mem_singleton.mp hrow']
      exact validatePhaseState_ok hphase

theorem validateSchedExtSequence_walked {rows : List Dict} (h : validateSchedExtSequence b rows = .ok ()) :
    ∃ last, Walked b rows last := by
  obtain ⟨last, hloop, -⟩ := bind_eq_ok.mp h
  have hwalked := foldlM_inv (P := fun done last => Walked b (done.map Prod.fst) last)
    ⟨tracked_nil, tracked_nil, by simp⟩ (fun done entry rest last last' _ hacc hstep => by
      rw [List.map_append, List.map_singleton]
      exact hacc.step hstep) hloop
  rw [List.zipIdx_map_fst] at hwalked
  exact ⟨last, hwalked⟩

end Loop

/-! ## Accepted streams -/

section Accepted

theorem validateSample_numbered {row : Dict} {index : Nat} (h : validateSample b row index = .ok ()) :
    (sequenceOf row).isSome := by
  obtain ⟨u, -, h⟩ := bind_eq_ok.mp h
  obtain ⟨u, -, h⟩ := bind_eq_ok.mp h
  obtain ⟨schema, -, h⟩ := bind_eq_ok.mp h
  obtain ⟨u, -, h⟩ := bind_eq_ok.mp h
  obtain ⟨sequence, hsequence, -⟩ := bind_eq_ok.mp h
  unfold requireInt at hsequence
  unfold sequenceOf
  cases hvalue : (row.get "sequence").asInt? with
  | none =>
    rw [hvalue] at hsequence
    cases hsequence
  | some n => rfl

/-- **An accepted stream is consistent** exactly when no row before the attach states `enabled` with white space around
it. -/
theorem validateFile_consistent_iff {rows : List Dict} (h : validateFile b fs path = .ok ())
    (hrows : loadJsonl fs path = .ok rows) :
    Consistent b rows ↔ ∀ row ∈ rows, InPhase row "before_attach" → ¬PaddedEnabled b row := by
  constructor
  · intro hconsistent row hrow hphase hpadded
    exact hconsistent.beforeAttach row hrow hphase hpadded.2
  · intro hpadded
    obtain ⟨rows', hrows', h⟩ := bind_eq_ok.mp h
    obtain rfl := Except.ok.inj (hrows.symm.trans hrows')
    obtain ⟨u, hsamples, hsequence⟩ := bind_eq_ok.mp h
    obtain ⟨last, hwalked⟩ := validateSchedExtSequence_walked hsequence
    refine ⟨?_, hwalked.sequence.pairwise, hwalked.enableSeq.pairwise, ?_,
      fun row hrow => (hwalked.phases row hrow).detached⟩
    · intro row hrow
      obtain ⟨i, hi⟩ := List.mem_iff_getElem?.mp hrow
      exact validateSample_numbered (forM_eq_ok.mp hsamples (row, i) (List.mk_mem_zipIdx_iff_getElem?.mpr hi))
    · intro row hrow hphase htrimmed
      exact hpadded row hrow hphase ⟨(hwalked.phases row hrow).beforeAttach hphase, htrimmed⟩

def factOf (status value : String) : Value := object [("status", word status), ("value", word value)]

/-- A sample before the attach that states `enabled` after a blank. -/
def paddedSample : Value :=
  object [("schema", word sampleSchema), ("sequence", .int 0), ("sched_ext_phase", word "before_attach"),
    ("state", factOf "present" " enabled"), ("ops", factOf "present" "p"), ("enable_seq", factOf "present" "1"),
    ("events", factOf "present" "none"), ("nr_rejected", factOf "present" "0"), ("debug_dump", factOf "missing" ""),
    ("events_hash", word "0"),
    ("cgroup_membership_digest", word "1111111111111111111111111111111111111111111111111111111111111111"),
    ("workload_alive", .bool true), ("private_command_lines_sampled", .bool false),
    ("policy_abi", object [("policy_name", word "p"), ("policy_version", word "1"), ("struct_ops", word "p"),
      ("object_sha256", word "0"), ("btf_required", .bool true)])]

def samplesPath : Path := .parse (str "samples.jsonl")

def paddedStream : Files := fun p => if p = samplesPath then some (written paddedSample) else none

theorem paddedStream_accepted : validateFile .ascii paddedStream samplesPath = .ok () :=
  eq_ok_of_okAnd (by decide +kernel)

theorem validateFile_consistent_iff_padded : ∃ rows, loadJsonl paddedStream samplesPath = .ok rows ∧
    (Consistent .ascii rows ↔ ∀ row ∈ rows, InPhase row "before_attach" → ¬PaddedEnabled .ascii row) := by
  obtain ⟨rows, hrows, -⟩ := bind_eq_ok.mp paddedStream_accepted
  exact ⟨rows, hrows, validateFile_consistent_iff paddedStream_accepted hrows⟩

/-- The sample is accepted, and its state is `enabled` before the attach. -/
theorem validateFile_accepts_padded : ∃ rows, loadJsonl paddedStream samplesPath = .ok rows ∧
    validateFile .ascii paddedStream samplesPath = .ok () ∧ ¬Consistent .ascii rows := by
  have hread : okAnd (fun rows => rows.any (fun row =>
      (row.get "sched_ext_phase").eqStr .ascii (str "before_attach") &&
        decide (trimmed .ascii row "state" = str "enabled"))) (loadJsonl paddedStream samplesPath) = true := by
    decide +kernel
  obtain ⟨rows, hrows, hany⟩ := okAnd_eq_true.mp hread
  obtain ⟨row, hrow, hstate⟩ := List.any_eq_true.mp hany
  rw [Bool.and_eq_true, Value.eqStr_iff, decide_eq_true_eq] at hstate
  refine ⟨rows, hrows, paddedStream_accepted, ?_⟩
  intro hconsistent
  exact hconsistent.beforeAttach row hrow hstate.1 hstate.2

end Accepted

end Exasphere.Qa.RuntimeSample

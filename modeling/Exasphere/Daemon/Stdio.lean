import Exasphere.Lib.Lines
import Exasphere.Json.Dump
import Exasphere.Daemon.Protocol

/-!
# Foreground stdio mode (`src/daemon/daemon.cpp`)

The daemon writes a boot event and then answers every row of its input with one event, numbered by `seq`. A row is a
line without the blanks at its ends, unless nothing remains. Nothing catches what the JSON parser throws, so an answer
exists for the rows that it parses; on these every row is answered by one line (`stdioLoop_ok`).
-/

namespace Exasphere.Daemon

open Exasphere.Lib Exasphere.Json

/-- The trimmed lines of a text, without the blank ones. -/
def rows (text : Bytes) : List Bytes := ((lines text).map (strip isWhite)).filter (fun row => !row.isEmpty)

/-- The event that `process_action_line` answers a parsed line with. -/
def respond (parsed : Value) (seq : UInt64) : DaemonEvent :=
  if parsed.isNull then
    { kind := .incident, actionId := [], status := utf8 "REFUSE", reason := utf8 "invalid_json", seq := seq }
  else match actionFromJson parsed {} with
    | none => { kind := .refusal, actionId := [], status := utf8 "REFUSE", reason := utf8 "unknown_action", seq := seq }
    | some action =>
      let evt : DaemonEvent :=
        { actionId := action.actionId, runId := action.runId, targetId := action.targetId,
          auditId := action.auditId, rollbackId := action.rollbackId, seq := seq }
      match action.kind with
      | .preflight => { evt with kind := .marker, status := utf8 "PASS", reason := utf8 "preflight_complete" }
      | .observe => { evt with kind := .runtimeSample, status := utf8 "PASS", reason := utf8 "observing" }
      | .stop => { evt with kind := .cleanup, status := utf8 "PASS", reason := utf8 "stopped" }
      | .runLabHostSafe | .runLabVm | .runLabMicrovmLive | .verifierOnly | .partialAttach | .rollback | .stopLabRun
      | .rollbackLabRun | .incidentDrill =>
        { evt with kind := .refusal, status := utf8 "REFUSE", reason := utf8 "refused_host" }

/-- The text of an event on the wire. -/
def DaemonEvent.line (e : DaemonEvent) : Bytes := e.toJson.dump false

/-- `process_action_line`: the answer and the next `seq`. -/
def processActionLine (line : Bytes) (seq : UInt64) : Except Raise (Bytes × UInt64) := do
  let parsed ← parse line
  .ok ((respond parsed seq).line, seq + 1)

/-- The loop of `run_foreground_stdio`: what it writes from here on. -/
def stdioLoop (seq : UInt64) : List Bytes → Except Raise Bytes
  | [] => .ok []
  | row :: rest => do
    let (response, seq) ← processActionLine row seq
    let out ← stdioLoop seq rest
    .ok (response ++ [10] ++ out)

def boot : DaemonEvent :=
  { kind := .boot, actionId := [], status := utf8 "PASS", reason := utf8 "daemon_ready", seq := 1 }

/-- `run_foreground_stdio`: what it writes. -/
def runForegroundStdio (input : Bytes) : Except Raise Bytes := do
  let out ← stdioLoop 2 (rows input)
  .ok (boot.line ++ [10] ++ out)

/-! ## The answers -/

section Answers

theorem ofNat_succ (i : Nat) : UInt64.ofNat (i + 1) = UInt64.ofNat i + 1 := UInt64.ofNat_add i 1

@[simp] theorem respond_seq (parsed : Value) (seq : UInt64) : (respond parsed seq).seq = seq := by
  unfold respond
  split
  · rfl
  · split
    · rfl
    next action _ => cases action.kind <;> rfl

/-- One event for each row, numbered from `seq` on. -/
theorem stdioLoop_ok {rs : List Bytes} (h : ∀ row ∈ rs, ∃ v, parse row = .ok v) (seq : UInt64) :
    ∃ events : List DaemonEvent, stdioLoop seq rs = .ok (unlines (events.map DaemonEvent.line)) ∧
      events.length = rs.length ∧ ∀ i e, events[i]? = some e → e.seq = seq + UInt64.ofNat i := by
  induction rs generalizing seq with
  | nil => exact ⟨[], rfl, rfl, by simp⟩
  | cons row rs ih =>
    obtain ⟨v, hv⟩ := h row (by simp)
    obtain ⟨events, hloop, hlen, hseq⟩ := ih (fun r hr => h r (by simp [hr])) (seq + 1)
    refine ⟨respond v seq :: events, ?_, by simp [hlen], ?_⟩
    · rw [stdioLoop, processActionLine, hv, ok_bind, ok_bind]
      simp only
      rw [hloop, ok_bind]
      simp
    · intro i e he
      cases i with
      | zero =>
        obtain rfl := Option.some.inj he
        simp
      | succ i => rw [hseq i e he, ofNat_succ, UInt64.add_assoc, UInt64.add_comm 1]

/-- The output is the lines of the events, numbered from 1 on. -/
theorem runForegroundStdio_ok {input : Bytes} (h : ∀ row ∈ rows input, ∃ v, parse row = .ok v) :
    ∃ events : List DaemonEvent, runForegroundStdio input = .ok (unlines ((boot :: events).map DaemonEvent.line)) ∧
      events.length = (rows input).length ∧
      ∀ i e, (boot :: events)[i]? = some e → e.seq = UInt64.ofNat (i + 1) := by
  obtain ⟨events, hloop, hlen, hseq⟩ := stdioLoop_ok h 2
  refine ⟨events, ?_, hlen, ?_⟩
  · rw [runForegroundStdio, hloop, ok_bind]
    simp
  · intro i e he
    cases i with
    | zero =>
      obtain rfl := Option.some.inj he
      rfl
    | succ i => rw [hseq i e he, ofNat_succ, ofNat_succ, UInt64.add_assoc, UInt64.add_comm 2]; rfl

end Answers

end Exasphere.Daemon

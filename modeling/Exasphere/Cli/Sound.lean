import Exasphere.Cli.Commands

/-!
# What a run of the operator changes

- The options of a command stand on its command line, each behind its word (`recordArgs_from`,
  `timelineArgs_from`).
- A run touches a file only where `--output` names it: `record` writes the journal of its capture, `timeline` its
  chunks (`main_touches`).
- What a BPF object would do has no influence on a run whose command line does not have all that the safety gate asks
  for (`main_gated`).
-/

namespace Exasphere.Cli

open Exasphere.Lib Exasphere.Json Exasphere.Core Exasphere.Proc

/-! ## Command lines -/

section Words

variable {args : List Bytes} {arg value : Bytes} {rest : List Bytes}

/-- The value stands behind the word. -/
def Behind (word : String) (args : List Bytes) (value : Bytes) : Prop := [utf8 word, value] <:+: args

/-- The options of `timeline` that write, as they stand on the command line. -/
structure TimelineOptions.From (args : List Bytes) (o : TimelineOptions) : Prop where
  output : o.output ≠ [] → Behind "--output" args o.output
  chunkSize : o.chunkSize ≠ 0 → ∃ size, Behind "--chunk-size" args size

/-- The options of `record`, as they stand on the command line. -/
structure RecordOptions.From (args : List Bytes) (o : RecordOptions) : Prop where
  output : o.output ≠ [] → Behind "--output" args o.output
  allow : o.audit.allowMutate = true → utf8 "--allow-mutate" ∈ args
  lab : o.audit.vmLabMarker = true → utf8 "--vm-lab" ∈ args
  audit : o.audit.auditId ≠ [] → Behind "--audit-id" args o.audit.auditId
  rollback : o.audit.rollbackId ≠ [] → Behind "--rollback-id" args o.audit.rollbackId

theorem infix_of_suffix (h : arg :: value :: rest <:+ args) : [arg, value] <:+: args := by
  obtain ⟨front, rfl⟩ := h
  exact ⟨front, rest, by simp⟩

theorem suffix_of_cons (h : arg :: rest <:+ args) : rest <:+ args := (List.suffix_cons arg rest).trans h

theorem timelineOption_from {o o' : TimelineOptions} (hin : [arg, value] <:+: args) (h : o.From args)
    (hopt : timelineOption o arg value = some o') : o'.From args := by
  unfold timelineOption at hopt
  split at hopt
  · obtain rfl := Option.some.inj hopt
    exact ⟨h.output, h.chunkSize⟩
  split at hopt
  · obtain rfl := Option.some.inj hopt
    exact ⟨h.output, h.chunkSize⟩
  split at hopt
  next hsize =>
    subst hsize
    obtain rfl := Option.some.inj hopt
    exact ⟨h.output, fun _ => ⟨value, hin⟩⟩
  split at hopt
  next houtput =>
    subst houtput
    obtain rfl := Option.some.inj hopt
    exact ⟨fun _ => hin, h.chunkSize⟩
  cases hopt

theorem timelineArgs_suffix : ∀ (rest : List Bytes) {o : TimelineOptions}, rest <:+ args → o.From args →
    (timelineArgs rest o).From args
  | [], _, _, h => h
  | [_], _, _, h => h
  | arg :: value :: rest, o, hsuf, h => by
    unfold timelineArgs
    cases hopt : timelineOption o arg value with
    | none => exact timelineArgs_suffix (value :: rest) (suffix_of_cons hsuf) h
    | some o' =>
      exact timelineArgs_suffix rest (suffix_of_cons (suffix_of_cons hsuf))
        (timelineOption_from (infix_of_suffix hsuf) h hopt)

theorem timelineArgs_from (args : List Bytes) : (timelineArgs args {}).From args :=
  timelineArgs_suffix args List.suffix_rfl ⟨fun h => absurd rfl h, fun h => absurd rfl h⟩

theorem recordOption_from {o o' : RecordOptions} (hin : [arg, value] <:+: args) (h : o.From args)
    (hopt : recordOption o arg value = some o') : o'.From args := by
  unfold recordOption at hopt
  split at hopt
  · obtain rfl := Option.some.inj hopt
    exact ⟨h.output, h.allow, h.lab, h.audit, h.rollback⟩
  split at hopt
  next houtput =>
    subst houtput
    obtain rfl := Option.some.inj hopt
    exact ⟨fun _ => hin, h.allow, h.lab, h.audit, h.rollback⟩
  split at hopt
  · obtain rfl := Option.some.inj hopt
    exact ⟨h.output, h.allow, h.lab, h.audit, h.rollback⟩
  split at hopt
  next haudit =>
    subst haudit
    obtain rfl := Option.some.inj hopt
    exact ⟨h.output, h.allow, h.lab, fun _ => hin, h.rollback⟩
  split at hopt
  next hrollback =>
    subst hrollback
    obtain rfl := Option.some.inj hopt
    exact ⟨h.output, h.allow, h.lab, h.audit, fun _ => hin⟩
  cases hopt

theorem recordFlag_from {o : RecordOptions} (hmem : arg ∈ args) (h : o.From args) : (recordFlag o arg).From args := by
  unfold recordFlag
  split
  next hallow =>
    subst hallow
    exact ⟨h.output, fun _ => hmem, h.lab, h.audit, h.rollback⟩
  split
  next hlab =>
    subst hlab
    exact ⟨h.output, h.allow, fun _ => hmem, h.audit, h.rollback⟩
  exact h

theorem recordArgs_suffix : ∀ (rest : List Bytes) {o : RecordOptions}, rest <:+ args → o.From args →
    (recordArgs rest o).From args
  | [], _, _, h => h
  | [arg], _, hsuf, h => recordFlag_from (hsuf.subset (by simp)) h
  | arg :: value :: rest, o, hsuf, h => by
    unfold recordArgs
    cases hopt : recordOption o arg value with
    | none =>
      exact recordArgs_suffix (value :: rest) (suffix_of_cons hsuf) (recordFlag_from (hsuf.subset (by simp)) h)
    | some o' =>
      exact recordArgs_suffix rest (suffix_of_cons (suffix_of_cons hsuf))
        (recordOption_from (infix_of_suffix hsuf) h hopt)

theorem recordArgs_from (args : List Bytes) : (recordArgs args {}).From args :=
  recordArgs_suffix args List.suffix_rfl
    ⟨fun h => absurd rfl h, nofun, nofun, fun h => absurd rfl h, fun h => absurd rfl h⟩

end Words

/-! ## Files -/

section Files

variable {m : Machine} {files : Files} {args : List Bytes} {path : Bytes}

theorem main_record {prog : Bytes} :
    main m files (prog :: utf8 "record" :: args) = .exited (cmdRecord m files args) := rfl

theorem main_timeline {prog : Bytes} :
    main m files (prog :: utf8 "timeline" :: args) = cmdTimeline m files args := rfl

theorem cmdRecord_error {capability : Value} (h : captureEvents m (recordArgs args {}) = .error capability) :
    cmdRecord m files args = { code := 1, out := jsonLine capability, files } := by
  unfold cmdRecord
  dsimp only
  rw [h]

/-- A capture goes to the journal, or else to the output. -/
theorem cmdRecord_ok {state : String} {events : List RawEvent}
    (h : captureEvents m (recordArgs args {}) = .ok (state, events)) : cmdRecord m files args =
      if (recordArgs args {}).output ≠ [] ∧ m.writable (recordArgs args {}).output then {
        code := 0
        err := jsonLine (captureSummary (recordArgs args {}) state events)
        files := Function.update files (recordArgs args {}).output (some (journalText events)) }
      else {
        code := 0
        out := journalText events
        err := jsonLine (captureSummary (recordArgs args {}) state events)
        files } := by
  unfold cmdRecord
  dsimp only
  rw [h]

theorem chunkTarget_eq_some {o : TimelineOptions} :
    chunkTarget m o = some path ↔ o.output = path ∧ path ≠ [] ∧ m.writable path = true := by
  unfold chunkTarget
  constructor
  · intro h
    split at h
    next hwrite =>
      obtain rfl := Option.some.inj h
      exact ⟨rfl, hwrite⟩
    · cases h
  · rintro ⟨rfl, hwrite⟩
    rw [if_pos hwrite]

/-- The run leaves another content in the file, or stopped while it was writing it. -/
def Result.Touches (files : Files) : Result → Bytes → Prop
  | .exited outcome, path => outcome.files path ≠ files path
  | .aborted writing, path => writing = some path

theorem not_touches_kept {outcome : Outcome} (h : outcome.files = files) :
    ¬(Result.exited outcome).Touches files path :=
  fun ht => ht (by rw [h])

theorem cmdPreflight_files (host : Host) : (cmdPreflight host files args).files = files := by
  unfold cmdPreflight
  split <;> rfl

theorem cmdCapabilities_files (host : Host) : (cmdCapabilities host files args).files = files := by
  unfold cmdCapabilities
  split <;> rfl

theorem cmdAdvise_touches : ¬(cmdAdvise m files args).Touches files path := by
  unfold cmdAdvise
  split
  · exact nofun
  · split
    · exact not_touches_kept rfl
    · exact not_touches_kept rfl

/-- Chunks go to the file that is named, if it can be written. -/
theorem chunkedOutcome_touches {target : Option Bytes} {text err : Bytes}
    (h : (Result.exited (chunkedOutcome files target text err)).Touches files path) : target = some path := by
  cases target with
  | none => exact absurd rfl h
  | some named =>
    by_cases hpath : path = named
    · rw [hpath]
    · exact absurd (Function.update_of_ne hpath _ _) h

theorem timelineChunked_touches {o : TimelineOptions} {window : Option Viz.TimeWindow}
    (h : (timelineChunked m files o window).Touches files path) :
    o.output = path ∧ path ≠ [] ∧ m.writable path = true := by
  refine chunkTarget_eq_some.mp ?_
  unfold timelineChunked at h
  cases window with
  | some w =>
    dsimp only at h
    split at h
    · exact h
    · exact chunkedOutcome_touches h
  | none =>
    dsimp only at h
    split at h
    · exact h
    · exact chunkedOutcome_touches h

theorem timelineLoaded_touches {content : Bytes} {window : Option Viz.TimeWindow} :
    ¬(timelineLoaded files content window).Touches files path := by
  unfold timelineLoaded
  split
  · exact nofun
  · exact not_touches_kept rfl

theorem cmdTimeline_touches (h : (cmdTimeline m files args).Touches files path) :
    Behind "--output" args path ∧ (∃ size, Behind "--chunk-size" args size) ∧ path ≠ [] ∧ m.writable path = true := by
  have hfrom := timelineArgs_from args
  unfold cmdTimeline at h
  dsimp only at h
  split at h
  · exact absurd h (not_touches_kept rfl)
  split at h
  · exact absurd h (not_touches_kept rfl)
  split at h
  · exact absurd h (not_touches_kept rfl)
  split at h
  next hsize =>
    obtain ⟨rfl, hne, hwrite⟩ := timelineChunked_touches h
    exact ⟨hfrom.output hne, hfrom.chunkSize hsize.ne', hne, hwrite⟩
  · exact absurd h timelineLoaded_touches

theorem cmdRecord_touches (h : (Result.exited (cmdRecord m files args)).Touches files path) :
    Behind "--output" args path ∧ path ≠ [] ∧ m.writable path = true ∧
      ∃ state events, captureEvents m (recordArgs args {}) = .ok (state, events) ∧
        cmdRecord m files args = {
          code := 0
          err := jsonLine (captureSummary (recordArgs args {}) state events)
          files := Function.update files path (some (journalText events)) } := by
  have hfrom := recordArgs_from args
  cases hcap : captureEvents m (recordArgs args {}) with
  | error capability => exact absurd h (not_touches_kept (by rw [cmdRecord_error hcap]))
  | ok captured =>
    obtain ⟨state, events⟩ := captured
    have hrun : cmdRecord m files args = _ := cmdRecord_ok hcap
    split at hrun
    next hwrite =>
      have hpath : path = (recordArgs args {}).output := by
        by_contra hne
        exact h (by rw [hrun]; exact Function.update_of_ne hne _ _)
      subst hpath
      exact ⟨hfrom.output hwrite.1, hwrite.1, hwrite.2, state, events, rfl, hrun⟩
    · exact absurd h (not_touches_kept (by rw [hrun]))

/-- **What a run touches**: the file that is named behind `--output`, if it can be written; by `record` with the journal
of what was captured, by `timeline` when it writes in chunks. -/
theorem main_touches (m : Machine) (files : Files) (argv : List Bytes) (path : Bytes)
    (h : (main m files argv).Touches files path) :
    ∃ prog cmd args, argv = prog :: cmd :: args ∧ Behind "--output" args path ∧ path ≠ [] ∧ m.writable path = true ∧
      ((cmd = utf8 "timeline" ∧ ∃ size, Behind "--chunk-size" args size) ∨
        (cmd = utf8 "record" ∧ ∃ state events, captureEvents m (recordArgs args {}) = .ok (state, events) ∧
          main m files argv = .exited {
            code := 0
            err := jsonLine (captureSummary (recordArgs args {}) state events)
            files := Function.update files path (some (journalText events)) })) := by
  match argv with
  | [] => exact absurd h (not_touches_kept rfl)
  | [_] => exact absurd h (not_touches_kept rfl)
  | prog :: cmd :: args =>
    refine ⟨prog, cmd, args, rfl, ?_⟩
    unfold main at h
    dsimp only [List.tail_cons] at h
    split at h
    · exact absurd h (not_touches_kept rfl)
    split at h
    · exact absurd h (not_touches_kept rfl)
    split at h
    · exact absurd h (not_touches_kept rfl)
    split at h
    · exact absurd h (not_touches_kept (cmdPreflight_files _))
    split at h
    · exact absurd h (not_touches_kept (cmdCapabilities_files _))
    split at h
    · exact absurd h cmdAdvise_touches
    split at h
    next hcmd =>
      obtain ⟨houtput, hsize, hne, hwrite⟩ := cmdTimeline_touches h
      exact ⟨houtput, hne, hwrite, Or.inl ⟨hcmd, hsize⟩⟩
    split at h
    next hcmd =>
      obtain ⟨houtput, hne, hwrite, state, events, hcap, hrecord⟩ := cmdRecord_touches h
      subst hcmd
      exact ⟨houtput, hne, hwrite, Or.inr ⟨rfl, state, events, hcap, by rw [main_record, hrecord]⟩⟩
    · exact absurd h (not_touches_kept rfl)

/-- Two switches of one process. -/
def twoSwitches : List RawEvent :=
  [{ kind := .schedSwitch, tsNs := 5000, cpu := 0, pid := 7, tid := 7, comm := utf8 "worker" },
    { kind := .schedSwitch, tsNs := 9000, cpu := 0, pid := 0, tid := 0, detail := utf8 "token=abc" }]

/-- A machine whose live capture delivers them. -/
def liveMachine : Machine where
  readFile path := if path = tracepointIdPath then some (utf8 "321\n") else none
  fileExists _ := true
  readable _ := true
  listDir _ := none
  hostname := none
  kernelRelease := none
  onlineCpus := 1
  indeterminate := 0
  perfError := none
  liveRun _ := (.ready, twoSwitches)
  libbpfLinked := true
  libbpf _ _ := .ok twoSwitches
  writable _ := true
  grants n := decide (n ≤ 2 ^ 30)
  texts := ⟨fun _ => [], fun _ => []⟩

/-- The words of a recording. -/
def recordingArgs : List Bytes := [utf8 "--output", utf8 "j"]

theorem main_touches_journal : Behind "--output" recordingArgs (utf8 "j") := by
  have htouches : (main liveMachine (fun _ => none) (utf8 "xsprof" :: utf8 "record" :: recordingArgs)).Touches
      (fun _ => none) (utf8 "j") := by
    show (cmdRecord liveMachine (fun _ => none) recordingArgs).files (utf8 "j") ≠ none
    decide +kernel
  obtain ⟨prog, cmd, args, hargv, houtput, -⟩ := main_touches _ _ _ _ htouches
  obtain ⟨-, -, rfl⟩ : utf8 "xsprof" = prog ∧ utf8 "record" = cmd ∧ recordingArgs = args := by simpa using hargv
  exact houtput

end Files

/-! ## The gate -/

section Gate

variable {m : Machine} {files : Files} {args : List Bytes}

/-- The command line has all that the safety gate asks for. -/
structure Authorized (args : List Bytes) : Prop where
  allow : utf8 "--allow-mutate" ∈ args
  lab : utf8 "--vm-lab" ∈ args
  audit : ∃ id, id ≠ [] ∧ Behind "--audit-id" args id
  rollback : ∃ id, id ≠ [] ∧ Behind "--rollback-id" args id

theorem RecordOptions.From.authorized {o : RecordOptions} (h : o.From args) (hfull : o.audit.Full) :
    Authorized args where
  allow := h.allow hfull.asked
  lab := h.lab hfull.lab
  audit := ⟨_, hfull.audit, h.audit hfull.audit⟩
  rollback := ⟨_, hfull.rollback, h.rollback hfull.rollback⟩

theorem bpfCapture_gated {libbpf : Bytes → Int → Except Bytes (List RawEvent)} {ctx : AuditContext} (h : ¬ctx.Full)
    (object : Bytes) (durationMs : Int) :
    bpfCapture m object ctx durationMs = bpfCapture { m with libbpf := libbpf } object ctx durationMs := by
  have hrefused : (gateDecision .schedExtLoad ctx).allowed = false :=
    Bool.eq_false_iff.mpr (mt (gateDecision_allowed_iff _ _).mp h)
  unfold bpfCapture
  dsimp only
  rw [if_pos hrefused, if_pos hrefused]

theorem cmdRecord_gated {libbpf : Bytes → Int → Except Bytes (List RawEvent)} (h : ¬Authorized args) :
    cmdRecord m files args = cmdRecord { m with libbpf := libbpf } files args := by
  have hcap : captureEvents m (recordArgs args {}) =
      captureEvents { m with libbpf := libbpf } (recordArgs args {}) := by
    unfold captureEvents
    rw [bpfCapture_gated fun hfull => h ((recordArgs_from args).authorized hfull)]
    rfl
  unfold cmdRecord
  dsimp only
  rw [hcap]

/-- **Fail-closed**: where the command line of a `record` does not ask for it in a lab with both ids, and under every
other command, the run is the same whatever a BPF object would do. -/
theorem main_gated (m : Machine) (files : Files) (libbpf : Bytes → Int → Except Bytes (List RawEvent))
    (prog cmd : Bytes) (args : List Bytes) (h : cmd = utf8 "record" → ¬Authorized args) :
    main m files (prog :: cmd :: args) = main { m with libbpf := libbpf } files (prog :: cmd :: args) := by
  have hrecord : cmd = utf8 "record" →
      Result.exited (cmdRecord m files args) = .exited (cmdRecord { m with libbpf := libbpf } files args) := by
    intro hcmd
    rw [cmdRecord_gated (h hcmd)]
  unfold main
  dsimp only [List.tail_cons]
  repeat' refine if_congr Iff.rfl rfl ?_
  split
  next hcmd => exact hrecord hcmd
  · rfl

/-- Without the marker of a lab. -/
theorem main_gated_unmarked :
    main liveMachine (fun _ => none)
        [utf8 "xsprof", utf8 "record", utf8 "--bpf", utf8 "sched.o", utf8 "--allow-mutate",
          utf8 "--audit-id", utf8 "a"] =
      main { liveMachine with libbpf := fun _ _ => .error (utf8 "gone") } (fun _ => none)
        [utf8 "xsprof", utf8 "record", utf8 "--bpf", utf8 "sched.o", utf8 "--allow-mutate", utf8 "--audit-id",
          utf8 "a"] :=
  main_gated liveMachine _ _ _ _ _ fun _ h => absurd h.lab (by decide)

end Gate

end Exasphere.Cli

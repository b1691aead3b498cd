import Exasphere.Cli.Recording

/-!
# What the operator prints

Every line that a command prints on its output, other than the texts of `help`, `version` and the Markdown report and
the traces of `timeline`, is a JSON document that reads back and says that the host was not mutated
(`main_announces`).
-/

namespace Exasphere.Cli

open Exasphere.Lib Exasphere.Json Exasphere.Core Exasphere.Proc

section Documents

variable {doc : Value}

/-- The record says that the host was not mutated, or each record of a list does. -/
def ReadOnly : Value → Prop
  | .array items => ∀ item ∈ items, item.find "host_mutation" = some (.bool false)
  | doc => doc.find "host_mutation" = some (.bool false)

/-- Every line is such a document. -/
def Announces (out : Bytes) : Prop := ∀ l ∈ lines out, ∃ doc, parse l = .ok doc ∧ ReadOnly doc

theorem announces_nil : Announces [] := fun _ hl => absurd hl List.not_mem_nil

theorem announces_unlines {docs : List Value} (h : ∀ doc ∈ docs, doc.Plain ∧ ReadOnly doc) :
    Announces (unlines (docs.map (·.dump false))) := by
  have hlines : ∀ l ∈ docs.map (·.dump false), 10 ∉ l := by
    intro l hl
    obtain ⟨doc, hdoc, rfl⟩ := List.mem_map.mp hl
    exact (h doc hdoc).1.newline_not_mem
  intro l hl
  rw [lines_unlines hlines] at hl
  obtain ⟨doc, hdoc, rfl⟩ := List.mem_map.mp hl
  exact ⟨doc, (h doc hdoc).1.read_back, (h doc hdoc).2⟩

theorem announces_jsonLine (hplain : doc.Plain) (hread : ReadOnly doc) : Announces (jsonLine doc) := by
  have hline : jsonLine doc = unlines ([doc].map (·.dump false)) := by simp [jsonLine, line]
  rw [hline]
  exact announces_unlines fun d hd => by
    obtain rfl := List.mem_singleton.mp hd
    exact ⟨hplain, hread⟩

/-- The record of an event. -/
theorem readOnly_eventToJson (e : RawEvent) : ReadOnly (eventToJson e) := by
  show (eventToJson e).find "host_mutation" = _
  simp [eventToJson]

theorem announces_journalText (events : List RawEvent) : Announces (journalText events) := by
  have htext : journalText events = unlines ((events.map eventToJson).map (·.dump false)) := by
    rw [journalText_eq, List.map_map]
    rfl
  rw [htext]
  refine announces_unlines fun doc hdoc => ?_
  obtain ⟨e, -, rfl⟩ := List.mem_map.mp hdoc
  exact ⟨eventToJson_plain e, readOnly_eventToJson e⟩

end Documents

/-! ## The documents of the commands -/

section Commands

variable {m : Machine} {files : Files} {args : List Bytes}

theorem announces_refusal (verb : Bytes) : Announces (writeRefusal files verb).out := by
  refine announces_jsonLine ?_ ?_
  · unfold refusal
    repeat' apply Value.Plain.set
    all_goals rfl
  · show (refusal verb).find "host_mutation" = _
    simp [refusal]

theorem Capability.toJson_plain (c : Capability) : c.toJson.Plain := by
  unfold Capability.toJson
  repeat' apply Value.Plain.set
  all_goals rfl

theorem capabilities_plain (host : Host) : (Value.array ((probeCapabilities host).map Capability.toJson)).Plain :=
  Value.plain_array fun v hv => by
    obtain ⟨c, -, rfl⟩ := List.mem_map.mp hv
    exact Capability.toJson_plain c

theorem cpuJson_plain (cpu : CpuStat) (count : Nat) : (cpuJson cpu count).Plain := by
  unfold cpuJson
  repeat' apply Value.Plain.set
  all_goals rfl

theorem memJson_plain (mem : MemInfo) : (memJson mem).Plain := by
  unfold memJson
  repeat' apply Value.Plain.set
  all_goals rfl

theorem schedExtJson_plain (se : SchedExtState) : (schedExtJson se).Plain := by
  unfold schedExtJson
  repeat' apply Value.Plain.set
  all_goals rfl

theorem factsToJson_plain (f : Proc.SystemFacts) : (factsToJson f).Plain := by
  have hbuddyinfo : (Value.array (f.buddyinfo.map .string)).Plain := Value.plain_array fun v hv => by
    obtain ⟨l, -, rfl⟩ := List.mem_map.mp hv
    exact Value.plain_string
  have hnodes : (Value.array (f.numaNodes.map nodeJson)).Plain := Value.plain_array fun v hv => by
    obtain ⟨node, -, rfl⟩ := List.mem_map.mp hv
    exact (Value.plain_makeObject.set Value.plain_int).set Value.plain_string
  have hhost : (Value.makeObject |>.set "hostname" (.string f.hostname)
      |>.set "kernel_release" (.string f.kernelRelease)
      |>.set "online_cpus" (intJson f.onlineCpus)
      |>.set "perf_event_paranoid" (intJson f.perfEventParanoid)
      |>.set "kptr_restrict" (intJson f.kptrRestrict)
      |>.set "btf_present" (.bool f.btfPresent)
      |>.set "tracefs_present" (.bool f.tracefsPresent)).Plain :=
    ((((((Value.plain_makeObject.set Value.plain_string).set Value.plain_string).set Value.plain_int).set
      Value.plain_int).set Value.plain_int).set Value.plain_bool).set Value.plain_bool
  unfold factsToJson
  exact ((((((hhost.set (cpuJson_plain _ _)).set (memJson_plain _)).set hbuddyinfo).set hnodes).set
    (schedExtJson_plain _)).set Value.plain_int).set Value.plain_bool

theorem preflightDoc_plain (host : Host) : (preflightDoc host).Plain := by
  unfold preflightDoc
  exact ((((Value.plain_makeObject.set Value.plain_literal).set Value.plain_literal).set Value.plain_bool).set
    (capabilities_plain host)).set (factsToJson_plain _)

theorem announces_preflight (host : Host) : Announces (cmdPreflight host files args).out := by
  unfold cmdPreflight
  split
  · refine announces_jsonLine (preflightDoc_plain host) ?_
    show (preflightDoc host).find "host_mutation" = _
    simp [preflightDoc]
  · exact announces_nil

theorem announces_capabilities (host : Host) : Announces (cmdCapabilities host files args).out := by
  unfold cmdCapabilities
  split
  · refine announces_jsonLine (capabilities_plain host) fun item hitem => ?_
    obtain ⟨c, -, rfl⟩ := List.mem_map.mp hitem
    simp [Capability.toJson]
  · exact announces_nil

theorem announces_advise {outcome : Outcome} (h : cmdAdvise m files args = .exited outcome)
    (hmd : utf8 "--md" ∉ args) : Announces outcome.out := by
  unfold cmdAdvise at h
  split at h
  · cases h
  next agg _ =>
    rw [if_neg hmd] at h
    obtain rfl := Result.exited.inj h
    refine announces_jsonLine Advisor.reportJson_plain ?_
    show (Advisor.reportJson m.texts {} agg).find "host_mutation" = _
    simp [Advisor.reportJson]

/-- A capability that is missing. -/
theorem captureEvents_error {o : RecordOptions} {capability : Value} (h : captureEvents m o = .error capability) :
    capability.Plain ∧ ReadOnly capability := by
  unfold captureEvents at h
  split at h
  · split at h
    · cases h
    next result reason _ _ _ =>
      obtain rfl := Except.error.inj h
      refine ⟨?_, ?_⟩
      · unfold bpfCapability
        repeat' apply Value.Plain.set
        all_goals rfl
      · show (bpfCapability result reason).find "host_mutation" = _
        simp [bpfCapability]
  · dsimp only at h
    split at h
    · obtain rfl := Except.error.inj h
      refine ⟨((Capability.toJson_plain _).set Value.plain_literal).set Value.plain_literal, ?_⟩
      show (liveCapability (probeLive m)).find "host_mutation" = _
      simp [liveCapability, Capability.toJson]
    · cases h

theorem announces_record : Announces (cmdRecord m files args).out := by
  cases hcap : captureEvents m (recordArgs args {}) with
  | error capability =>
    obtain ⟨hplain, hread⟩ := captureEvents_error hcap
    rw [cmdRecord_error hcap]
    exact announces_jsonLine hplain hread
  | ok captured =>
    rw [cmdRecord_ok hcap]
    split
    · exact announces_nil
    · exact announces_journalText _

/-- The commands that print texts and traces. -/
def textCommands : List Bytes := ["help", "--help", "-h", "version", "--version", "timeline"].map utf8

/-- **Every record says it**: what a command prints, other than texts and traces, is read back line by line as documents
that carry `host_mutation` as false. -/
theorem main_announces {outcome : Outcome} {prog cmd : Bytes}
    (h : main m files (prog :: cmd :: args) = .exited outcome) (hcmd : cmd ∉ textCommands)
    (hmd : cmd = utf8 "advise" → utf8 "--md" ∉ args) : Announces outcome.out := by
  unfold main at h
  dsimp only [List.tail_cons] at h
  split at h
  next htext => exact absurd (by rcases htext with rfl | rfl | rfl <;> decide) hcmd
  split at h
  next htext => exact absurd (by rcases htext with rfl | rfl <;> decide) hcmd
  split at h
  · exact Result.exited.inj h ▸ announces_refusal cmd
  split at h
  · exact Result.exited.inj h ▸ announces_preflight m.toHost
  split at h
  · exact Result.exited.inj h ▸ announces_capabilities m.toHost
  split at h
  next hadvise => exact announces_advise h (hmd hadvise)
  split at h
  next htimeline => exact absurd (by rw [htimeline]; decide) hcmd
  split at h
  · exact Result.exited.inj h ▸ announces_record
  · exact Result.exited.inj h ▸ announces_refusal cmd

/-- A recording on the output. -/
theorem main_announces_live : Announces (cmdRecord liveMachine (fun _ => none) []).out :=
  main_announces (@main_record liveMachine (fun _ => none) [] (utf8 "xsprof")) (by decide)
    (fun h => absurd h (by decide))

end Commands

end Exasphere.Cli

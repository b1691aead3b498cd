import Exasphere.Lib.Consecutive
import Exasphere.Qa.VerifierLog

/-!
# What a verdict rests on

The loop over the lines keeps the last value of each key, the last reason to skip and the last status of `bpftool`
(`Folded`). A verdict is then read off the lines of the log (`parseLog_sound`):

- `PASS` of a log of a virtual machine rests on the results it records and on its whole text;
- `PASS` of any other log rests on the phrases that `reason_from` consults, on the last status and on the values before
  and after;
- `SKIP` rests on a reason to skip, which is looked at before anything else, or on the absence of a status.
-/

namespace Exasphere.Qa.Verifier

open Exasphere.Lib Exasphere.Py Exasphere.Qa.Bpf

variable {b : Digits} {host : Host} {fs : Files} {path : Path} {s : Str}

/-! ## Lower case -/

section Lower

/-- White space has no case, and separates what stands on its two sides. -/
def LowersAtSpaces (b : Builtins) : Prop :=
  ∀ s c t, isSpace c = true → b.lower (s ++ c :: t) = b.lower s ++ c :: b.lower t

theorem isSpace_of_isLineBreak {c : Nat} (h : isLineBreak c = true) : isSpace c = true := by
  simp only [isLineBreak, isSpace, Bool.or_eq_true, Bool.and_eq_true, decide_eq_true_eq, beq_iff_eq] at h ⊢
  omega

variable (hlower : LowersAtSpaces b.toBuiltins)

include hlower

theorem lower_before {t : Str} {c : Nat} {rest : Str} (hc : isSpace c = true) :
    b.lower t <:+: b.lower (t ++ c :: rest) := by
  rw [hlower t c rest hc]
  exact List.infix_append_left

theorem lower_behind {t : Str} {c : Nat} (hc : isSpace c = true) : b.lower t <:+: b.lower (s ++ c :: t) := by
  rw [hlower s c t hc]
  exact (List.suffix_append_of_suffix (List.suffix_cons c _)).isInfix

theorem lower_spaces {t pre : Str} (hpre : ∀ c ∈ pre, isSpace c = true) : b.lower t <:+: b.lower (pre ++ t) := by
  induction pre with
  | nil => exact List.infix_rfl
  | cons c pre ih =>
    obtain ⟨hc, hpre⟩ := List.forall_mem_cons.mp hpre
    exact (ih hpre).trans (lower_behind hlower (s := []) hc)

theorem lower_strip (t : Str) : b.lower (strip isSpace t) <:+: b.lower t := by
  have hhead : b.lower (t.dropWhile isSpace) <:+: b.lower t := by
    have hrun : ∀ c ∈ t.takeWhile isSpace, isSpace c = true := fun c hc => List.mem_takeWhile_imp hc
    have hspaces := lower_spaces hlower (t := t.dropWhile isSpace) hrun
    rwa [List.takeWhile_append_dropWhile] at hspaces
  refine List.IsInfix.trans ?_ hhead
  unfold strip
  generalize t.dropWhile isSpace = u
  have hsplit : u.rdropWhile isSpace ++ u.rtakeWhile isSpace = u := List.rdropWhile_append_rtakeWhile
  cases htail : u.rtakeWhile isSpace with
  | nil =>
    rw [htail, List.append_nil] at hsplit
    rw [hsplit]
  | cons c rest =>
    have hc : isSpace c = true := List.mem_rtakeWhile_imp (htail ▸ List.mem_cons_self)
    rw [htail] at hsplit
    conv_rhs => rw [← hsplit]
    exact lower_before hlower hc

/-- A line in lower case is part of the text in lower case. -/
theorem lower_line {acc : Str} {line : Str} (h : line ∈ splitlinesFrom acc s) :
    b.lower line <:+: b.lower (acc.reverse ++ s) := by
  fun_induction splitlinesFrom acc s with
  | case1 => cases h
  | case2 acc hne =>
    rw [List.mem_singleton.mp h, List.append_nil]
  | case3 acc rest ih =>
    rcases List.mem_cons.mp h with rfl | h
    · exact lower_before hlower (by decide)
    · exact (ih h).trans ((lower_behind hlower (s := []) (by decide)).trans (lower_behind hlower (by decide)))
  | case4 acc c rest hne hbreak ih =>
    rcases List.mem_cons.mp h with rfl | h
    · exact lower_before hlower (isSpace_of_isLineBreak hbreak)
    · exact (ih h).trans (lower_behind hlower (isSpace_of_isLineBreak hbreak))
  | case5 acc c rest hne hbreak ih =>
    simpa using ih h

/-- A text in lower case is part of the joined texts in lower case. -/
theorem lower_join {lines : List Str} {line : Str} (h : line ∈ lines) :
    b.lower line <:+: b.lower (join [10] lines) := by
  unfold join
  induction lines with
  | nil => cases h
  | cons first lines ih =>
    cases lines with
    | nil =>
      rw [List.mem_singleton.mp h, List.intercalate_singleton]
    | cons second lines =>
      rw [List.intercalate_cons_cons, List.append_assoc, List.singleton_append]
      rcases List.mem_cons.mp h with rfl | h
      · exact lower_before hlower (by decide)
      · exact (ih h).trans (lower_behind hlower (by decide))

end Lower

/-! ## What the lines record -/

section Lines

def logLines (s : Str) : List Str := (splitlines s).map (strip isSpace)

/-- The value on the last line that assigns the key. -/
def recorded (lines : List Str) (key : String) : Option Str := findKey (str key) (lines.filterMap assignment).reverse

/-- The lines that state a status of `bpftool`. -/
def rcLines (lines : List Str) : List Str := lines.filter (rcPrefix.isPrefixOf ·)

/-- The reasons on the lines that state one. -/
def skipReasons (b : Digits) (lines : List Str) : List Str :=
  (lines.filter (fun line => hasPhrase b line "skip:")).map (fun line => strip isSpace (behind 58 line))

/-- What the loop keeps of the lines it has read. -/
structure Folded (b : Digits) (lines : List Str) (parsed : ParsedLog) : Prop where
  values : parsed.values = (lines.filterMap assignment).reverse
  errors : parsed.errors = lines.filter (isVerifierError b)
  skipReason : parsed.skipReason = (skipReasons b lines).getLast?.getD []
  noRc : parsed.bpftoolRc = none → rcLines lines = []
  rc : ∀ rc, parsed.bpftoolRc = some rc →
    ∃ line, (rcLines lines).getLast? = some line ∧ requireRc b (behind 61 line) = .ok rc

theorem nextRc_ok {lines : List Str} {line : Str} {last last' : Option Nat} (h : nextRc b last line = .ok last')
    (hnone : last = none → rcLines lines = [])
    (hsome : ∀ rc, last = some rc → ∃ line,
      (rcLines lines).getLast? = some line ∧ requireRc b (behind 61 line) = .ok rc) :
    (last' = none → rcLines (lines ++ [line]) = []) ∧
      ∀ rc, last' = some rc →
        ∃ line', (rcLines (lines ++ [line])).getLast? = some line' ∧ requireRc b (behind 61 line') = .ok rc := by
  unfold nextRc at h
  unfold rcLines at hnone hsome ⊢
  rw [List.filter_append]
  by_cases hprefix : rcPrefix.isPrefixOf line = true
  · rw [if_pos hprefix] at h
    obtain ⟨rc, hrc, h⟩ := bind_eq_ok.mp h
    obtain rfl := Except.ok.inj h
    rw [List.filter_cons_of_pos hprefix, List.filter_nil]
    refine ⟨by simp, ?_⟩
    rintro rc' ⟨⟩
    exact ⟨line, List.getLast?_concat, hrc⟩
  · rw [if_neg hprefix] at h
    obtain rfl := Except.ok.inj h
    rw [List.filter_cons_of_neg hprefix, List.filter_nil, List.append_nil]
    exact ⟨hnone, hsome⟩

theorem Folded.step {lines : List Str} {raw : Str} {parsed parsed' : ParsedLog} (hfolded : Folded b lines parsed)
    (h : parseLine b parsed raw = .ok parsed') : Folded b (lines ++ [strip isSpace raw]) parsed' := by
  obtain ⟨rc, hrc, h⟩ := bind_eq_ok.mp h
  obtain rfl := Except.ok.inj h
  obtain ⟨hnone, hsome⟩ := nextRc_ok hrc hfolded.noRc hfolded.rc
  refine ⟨?_, ?_, ?_, hnone, hsome⟩
  · rw [filterMap_concat, List.reverse_append, hfolded.values]
    cases assignment (strip isSpace raw) <;> rfl
  · rw [List.filter_append, hfolded.errors]
    by_cases herror : isVerifierError b (strip isSpace raw) = true <;> simp [herror]
  · rw [skipReasons, List.filter_append, List.map_append]
    by_cases hskip : hasPhrase b (strip isSpace raw) "skip:" = true
    · simp [hskip]
    · simpa [hskip, skipReasons] using hfolded.skipReason

theorem parseLines_folded {parsed : ParsedLog} (h : parseLines b s = .ok parsed) : Folded b (logLines s) parsed := by
  have hstart : Folded b [] ⟨[], [], [], none⟩ := ⟨rfl, rfl, rfl, fun _ => rfl, by simp⟩
  exact foldlM_inv (P := fun done parsed => Folded b (done.map (strip isSpace)) parsed) hstart
    (fun done raw rest parsed parsed' _ hacc hstep => by
      rw [List.map_append, List.map_singleton]
      exact hacc.step hstep) h

end Lines

/-! ## Verdicts -/

section Verdict

/-- The phrases of `reason_from`. -/
def consultedPhrases : List String := ["invalid mem access", "relocation", "unknown func", "invalid func"]

/-- No line has one of the phrases, up to case. -/
def FreeOf (b : Digits) (phrases : List String) (lines : List Str) : Prop :=
  ∀ line ∈ lines, ∀ phrase ∈ phrases, hasPhrase b line phrase = false

/-- The values that are recorded before and after. -/
def statePairs : List (String × String) :=
  [("sched_ext_state_before", "sched_ext_state_after"), ("sched_ext_enable_seq_before", "sched_ext_enable_seq_after"),
    ("cgroup_membership_before", "cgroup_membership_after")]

/-- Where both values of a pair are recorded, they are equal. -/
def Unchanged (lines : List Str) : Prop :=
  ∀ pair ∈ statePairs, ∀ v w, recorded lines pair.1 = some v → recorded lines pair.2 = some w → v = w

/-- The line states that `bpftool` succeeded. -/
def CarriesZero (b : Digits) (line : Str) : Prop := requireRc b (behind 61 line) = .ok 0

/-- The log states that it is that of a virtual machine. -/
def VmLive (lines : List Str) : Prop :=
  recorded lines "schema" = some (str vmLogSchema) ∧ (recorded lines "evidence_mode").isSome = true

/-- What `reason_from` looks at besides the reason to skip and the status. -/
structure Clean (b : Digits) (parsed : ParsedLog) : Prop where
  errors : ∀ phrase ∈ consultedPhrases, contains (b.lower (join [10] parsed.errors)) (str phrase) = false
  state : stateChanged parsed.values = false
  cgroup : cgroupChanged parsed.values = false

theorem statusFrom_skipped {parsed : ParsedLog} (hskip : parsed.skipReason ≠ []) :
    statusFrom (reasonFrom b parsed) = .skip := by
  unfold reasonFrom
  dsimp only
  rw [if_pos hskip]
  split
  · rfl
  · split <;> rfl

theorem clean_of_statusFrom {parsed : ParsedLog} (hskip : ¬parsed.skipReason ≠ [])
    (h : statusFrom (reasonFrom b parsed) ≠ .fail) : Clean b parsed := by
  unfold reasonFrom at h
  dsimp only at h
  rw [if_neg hskip] at h
  split at h
  · exact absurd rfl h
  next hmem =>
  split at h
  · exact absurd rfl h
  next hhelper =>
  split at h
  · exact absurd rfl h
  next hstate =>
  split at h
  · exact absurd rfl h
  next hcgroup =>
  simp only [Bool.or_eq_true, not_or, Bool.not_eq_true] at hmem hhelper hstate hcgroup
  obtain ⟨⟨hrelocation, hunknown⟩, hinvalid⟩ := hhelper
  refine ⟨?_, hstate, hcgroup⟩
  intro phrase hphrase
  simp only [consultedPhrases, List.mem_cons, List.not_mem_nil, or_false] at hphrase
  rcases hphrase with rfl | rfl | rfl | rfl
  · exact hmem
  · exact hrelocation
  · exact hunknown
  · exact hinvalid

/-- A clean log is judged by the status of `bpftool`. -/
theorem reasonFrom_of_clean {parsed : ParsedLog} (hskip : ¬parsed.skipReason ≠ []) (hclean : Clean b parsed) :
    reasonFrom b parsed = parsed.bpftoolRc.elim .unknownSkipped (fun rc =>
      if rc ≠ 0 then .verifierRejected
      else if missingStateEvidence parsed.values then .missingStateEvidence
      else .verifierAccepted) := by
  have hmem := hclean.errors "invalid mem access" (by decide)
  have hrelocation := hclean.errors "relocation" (by decide)
  have hunknown := hclean.errors "unknown func" (by decide)
  have hinvalid := hclean.errors "invalid func" (by decide)
  unfold reasonFrom
  dsimp only
  rw [if_neg hskip]
  simp only [hmem, hrelocation, hunknown, hinvalid, hclean.state, hclean.cgroup, Bool.or_self,
    Bool.false_eq_true, if_false]
  cases parsed.bpftoolRc <;> rfl

theorem reasonFrom_cases (parsed : ParsedLog) (h : statusFrom (reasonFrom b parsed) ≠ .fail) :
    (parsed.skipReason ≠ [] ∧ statusFrom (reasonFrom b parsed) = .skip) ∨
      (Clean b parsed ∧ parsed.bpftoolRc = none ∧ statusFrom (reasonFrom b parsed) = .skip) ∨
      (Clean b parsed ∧ parsed.bpftoolRc = some 0 ∧ statusFrom (reasonFrom b parsed) = .pass) := by
  by_cases hskip : parsed.skipReason ≠ []
  · exact Or.inl ⟨hskip, statusFrom_skipped hskip⟩
  have hclean := clean_of_statusFrom hskip h
  rw [reasonFrom_of_clean hskip hclean] at h ⊢
  cases hrc : parsed.bpftoolRc with
  | none => exact Or.inr (Or.inl ⟨hclean, rfl, rfl⟩)
  | some rc =>
    rw [hrc, Option.elim_some] at h
    rw [Option.elim_some]
    split at h
    · exact absurd rfl h
    next hzero =>
    split at h
    · exact absurd rfl h
    next hevidence =>
    refine Or.inr (Or.inr ⟨hclean, by rw [not_not.mp hzero], ?_⟩)
    rw [if_neg hzero, if_neg hevidence]
    rfl

/-- A phrase that is collected and consulted is on no line. -/
theorem Clean.freeOf (hlower : LowersAtSpaces b.toBuiltins) {lines : List Str} {parsed : ParsedLog}
    (h : Clean b parsed) (hfolded : Folded b lines parsed) : FreeOf b consultedPhrases lines := by
  intro line hline phrase hphrase
  by_contra hhas
  rw [Bool.not_eq_false] at hhas
  have herror : line ∈ parsed.errors := by
    rw [hfolded.errors]
    refine List.mem_filter.mpr ⟨hline, List.any_eq_true.mpr ⟨phrase, ?_, hhas⟩⟩
    simp only [consultedPhrases, errorPhrases, List.mem_cons, List.not_mem_nil, or_false] at hphrase ⊢
    tauto
  have hjoined := h.errors phrase hphrase
  rw [contains_iff.mpr ((contains_iff.mp hhas).trans (lower_join hlower herror))] at hjoined
  cases hjoined

theorem changed_recorded {lines : List Str} {parsed : ParsedLog} {before after : String}
    (hfolded : Folded b lines parsed)
    (h : changed parsed.values before after = false) {v w : Str} (hv : recorded lines before = some v)
    (hw : recorded lines after = some w) : v = w := by
  rw [changed, decide_eq_false_iff_not, not_not] at h
  unfold recorded at hv hw
  rw [← hfolded.values] at hv hw
  rw [Values.getD, Values.getD, hv, hw] at h
  exact h

theorem Clean.unchanged {lines : List Str} {parsed : ParsedLog} (h : Clean b parsed) (hfolded : Folded b lines parsed) :
    Unchanged lines := by
  obtain ⟨hstate, hseq⟩ := Bool.or_eq_false_iff.mp h.state
  intro pair hpair v w hv hw
  simp only [statePairs, List.mem_cons, List.not_mem_nil, or_false] at hpair
  rcases hpair with rfl | rfl | rfl
  · exact changed_recorded hfolded hstate hv hw
  · exact changed_recorded hfolded hseq hv hw
  · exact changed_recorded hfolded h.cgroup hv hw

theorem isVmLive_iff {lines : List Str} {parsed : ParsedLog} (hfolded : Folded b lines parsed) :
    isVmLive parsed.values = true ↔ VmLive lines := by
  rw [isVmLive, hfolded.values, Bool.and_eq_true, decide_eq_true_eq]
  rfl

/-- What a log of a virtual machine is accepted for. -/
structure VmAccepted (b : Digits) (lines : List Str) : Prop where
  free : FreeOf b rejectionPhrases lines
  recorded : ∀ e ∈ vmLogValues, recorded lines e.1 = some (str e.2.1)

theorem parseVmLiveLog_ok {parsed : ParsedLog} {result : Result} (hlower : LowersAtSpaces b.toBuiltins)
    (hfolded : Folded b (logLines s) parsed) (h : parseVmLiveLog b host fs path parsed.values s = .ok result) :
    VmAccepted b (logLines s) ∧ result.status = .pass := by
  obtain ⟨u, hvalues, h⟩ := bind_eq_ok.mp h
  obtain ⟨objectSha, -, h⟩ := bind_eq_ok.mp h
  obtain ⟨metadataSha, -, h⟩ := bind_eq_ok.mp h
  obtain ⟨object, -, h⟩ := bind_eq_ok.mp h
  obtain ⟨⟨objectPath, fs'⟩, -, h⟩ := bind_eq_ok.mp h
  obtain ⟨metadata, -, h⟩ := bind_eq_ok.mp h
  obtain ⟨⟨metadataPath, fs''⟩, -, h⟩ := bind_eq_ok.mp h
  obtain ⟨u, -, h⟩ := bind_eq_ok.mp h
  obtain ⟨u, haccepted, h⟩ := bind_eq_ok.mp h
  obtain ⟨bpftoolRc, -, h⟩ := bind_eq_ok.mp h
  obtain rfl := Except.ok.inj h
  refine ⟨⟨?_, ?_⟩, rfl⟩
  · intro line hline phrase hphrase
    obtain ⟨raw, hraw, rfl⟩ := List.mem_map.mp hline
    obtain ⟨u, hfree, -⟩ := bind_eq_ok.mp haccepted
    have hphrase' := forM_eq_ok.mp hfree phrase hphrase
    rw [require_ok, Bool.not_eq_true'] at hphrase'
    by_contra hhas
    rw [Bool.not_eq_false] at hhas
    have hline : b.lower raw <:+: b.lower s := lower_line hlower hraw
    have hinfix := (lower_strip hlower raw).trans hline
    have htext : hasPhrase b s phrase = true := contains_iff.mpr ((contains_iff.mp hhas).trans hinfix)
    rw [htext] at hphrase'
    cases hphrase'
  · intro e he
    have hvalue := forM_eq_ok.mp hvalues e he
    rw [require_ok, decide_eq_true_eq, hfolded.values] at hvalue
    exact hvalue

theorem parseHostLog_ok {parsed : ParsedLog} {result : Result} (h : parseHostLog b path parsed = .ok result) :
    result.status = statusFrom (reasonFrom b parsed) := by
  obtain ⟨u, -, h⟩ := bind_eq_ok.mp h
  obtain ⟨u, -, h⟩ := bind_eq_ok.mp h
  obtain rfl := Except.ok.inj h
  rfl

/-- **What a verdict rests on.** -/
theorem parseLog_sound {result : Result} (hlower : LowersAtSpaces b.toBuiltins)
    (h : parseLog b host fs path = .ok result) (hs : fs.readText path = .ok s) :
    (result.status = .pass →
      (VmLive (logLines s) → VmAccepted b (logLines s)) ∧
        (¬VmLive (logLines s) → FreeOf b consultedPhrases (logLines s) ∧
          (∃ line, (rcLines (logLines s)).getLast? = some line ∧ CarriesZero b line) ∧ Unchanged (logLines s))) ∧
      (result.status = .skip → ¬VmLive (logLines s) ∧
        ((skipReasons b (logLines s)).getLast?.getD [] ≠ [] ∨
          (FreeOf b consultedPhrases (logLines s) ∧ rcLines (logLines s) = [] ∧ Unchanged (logLines s)))) := by
  obtain ⟨s', hs', h⟩ := bind_eq_ok.mp h
  obtain rfl := Except.ok.inj (hs'.symm.trans hs)
  obtain ⟨parsed, hparsed, h⟩ := bind_eq_ok.mp h
  have hfolded := parseLines_folded hparsed
  by_cases hvm : isVmLive parsed.values = true
  · rw [if_pos hvm] at h
    obtain ⟨haccepted, hstatus⟩ := parseVmLiveLog_ok hlower hfolded h
    have hlive := (isVmLive_iff hfolded).mp hvm
    refine ⟨fun _ => ⟨fun _ => haccepted, fun hnot => absurd hlive hnot⟩, ?_⟩
    intro hskip
    rw [hstatus] at hskip
    cases hskip
  · rw [if_neg hvm] at h
    rw [isVmLive_iff hfolded] at hvm
    rw [parseHostLog_ok h]
    constructor
    · intro hpass
      refine ⟨fun hlive => absurd hlive hvm, fun _ => ?_⟩
      rcases reasonFrom_cases parsed (by rw [hpass]; decide) with ⟨-, hskip⟩ | ⟨-, -, hskip⟩ | ⟨hclean, hrc, -⟩
      · rw [hpass] at hskip
        cases hskip
      · rw [hpass] at hskip
        cases hskip
      · exact ⟨hclean.freeOf hlower hfolded, hfolded.rc 0 hrc, hclean.unchanged hfolded⟩
    · intro hskip
      refine ⟨hvm, ?_⟩
      rcases reasonFrom_cases parsed (by rw [hskip]; decide) with ⟨hreason, -⟩ | ⟨hclean, hrc, -⟩ | ⟨-, -, hpass⟩
      · exact Or.inl (hfolded.skipReason ▸ hreason)
      · exact Or.inr ⟨hclean.freeOf hlower hfolded, hfolded.noRc hrc, hclean.unchanged hfolded⟩
      · rw [hskip] at hpass
        cases hpass

end Verdict

/-! ## Logs that are accepted or skipped -/

section Logs

/-- The interpreter on ASCII texts. -/
def asciiDigits : Digits where
  toBuiltins := .ascii
  isDigitChar := Py.isDigit

theorem lowersAtSpaces_ascii : LowersAtSpaces asciiDigits.toBuiltins := by
  intro s c t hc
  have hcase : ¬(65 ≤ c ∧ c ≤ 90) := by
    simp only [isSpace, Bool.or_eq_true, Bool.and_eq_true, decide_eq_true_eq, beq_iff_eq] at hc
    omega
  simp [asciiDigits, Builtins.ascii, hcase]

/-- The symbolic links of the host are none, and nothing is built. -/
def plainHost : Host where
  isSymlink _ := false
  resolve p := p
  buildBpf _ := fail (str "BPF build failed: ")

def logPath : Path := .parse (str "verifier.log")

def emptySha : String := "e3b0c44298fc1c149afbf4c8996fb92427ae41e4649b934ca495991b7852b855"

def bpfMetadata : Value :=
  object [("schema", word "zig-scheduler/bpf-object-metadata/v1"), ("object_sha256", word emptySha),
    ("object_hash", word ("sha256:" ++ emptySha)), ("host_mutation", .bool false), ("host_attach_allowed", .bool false),
    ("vm_only", .bool true), ("verification_claimed", .bool false),
    ("tool_versions", object [("clang_path", word "/usr/bin/clang")])]

/-- A log beside an object and its metadata. -/
def logFiles (lines : List String) : Files := fun p =>
  if p = logPath then some (lines.flatMap (fun line => utf8 (line ++ "\n")))
  else if p = .parse (str "p.o") then some []
  else if p = .parse (str "p.json") then some (written bpfMetadata)
  else none

/-- A log that is skipped, with an error and a change of state. -/
def skippedLog : List String :=
  ["SKIP: bpftool unavailable", "invalid mem access", "sched_ext_state_before=enabled",
    "sched_ext_state_after=disabled"]

/-- A log with two statuses of `bpftool`. -/
def retriedLog : List String :=
  ["object_sha256=" ++ emptySha, "bpf_metadata_object_sha256=" ++ emptySha, "bpftool_rc=1", "bpftool_rc=0",
    "sched_ext_state_before=enabled", "sched_ext_state_after=enabled", "sched_ext_enable_seq_before=1",
    "sched_ext_enable_seq_after=1", "cgroup_membership_before=a", "cgroup_membership_after=a"]

/-- The log of a virtual machine, with a failure of `bpftool` and a change of state. -/
def vmLog : List String :=
  ["verification time 1 usec", "Registered sched_ext_ops p", "Unregistered sched_ext_ops p",
    "schema=zig-scheduler/bpf-verifier-log/v1", "evidence_mode=vm-live", "vm_kind=qemu-vm", "vm_marker_present=true",
    "vm_marker_path=/run/zig-scheduler-vm-lab.marker", "host_mutation=false", "release_eligible_live_proof=true",
    "verifier_result=accepted", "attach_result=registered", "rollback_status=PASS", "object=p.o",
    "object_sha256=" ++ emptySha, "bpf_metadata_path=p.json", "bpf_metadata_object_sha256=" ++ emptySha,
    "bpftool_rc=1", "sched_ext_state_before=enabled", "sched_ext_state_after=disabled"]

/-- The status of a log and a property of its text. -/
def verdictAnd (status : Status) (p : Str → Bool) (lines : List String) : Bool :=
  okAnd (fun result => decide (result.status = status)) (parseLog asciiDigits plainHost (logFiles lines) logPath) &&
    okAnd p ((logFiles lines).readText logPath)

theorem verdictAnd_eq_true {status : Status} {p : Str → Bool} {lines : List String}
    (h : verdictAnd status p lines = true) :
    ∃ s result, (logFiles lines).readText logPath = .ok s ∧
      parseLog asciiDigits plainHost (logFiles lines) logPath = .ok result ∧ result.status = status ∧ p s = true := by
  rw [verdictAnd, Bool.and_eq_true] at h
  obtain ⟨result, hresult, hstatus⟩ := okAnd_eq_true.mp h.1
  obtain ⟨s, hs, hp⟩ := okAnd_eq_true.mp h.2
  exact ⟨s, result, hs, hresult, of_decide_eq_true hstatus, hp⟩

/-- Some line states a status other than 0. -/
def someRcFails (lines : List Str) : Bool :=
  (rcLines lines).any (fun line => okAnd (fun rc => decide (rc ≠ 0)) (requireRc asciiDigits (behind 61 line)))

theorem not_carriesZero {lines : List Str} (h : someRcFails lines = true) :
    ¬∀ line ∈ rcLines lines, CarriesZero asciiDigits line := by
  intro hzero
  obtain ⟨line, hline, hfails⟩ := List.any_eq_true.mp h
  obtain ⟨rc, hrc, hne⟩ := okAnd_eq_true.mp hfails
  obtain rfl := Except.ok.inj (hrc.symm.trans (hzero line hline))
  cases hne

def stateDiffers (lines : List Str) : Bool :=
  decide (recorded lines "sched_ext_state_before" = some (str "enabled") ∧
    recorded lines "sched_ext_state_after" = some (str "disabled"))

theorem not_unchanged {lines : List Str} (h : stateDiffers lines = true) : ¬Unchanged lines := by
  intro hunchanged
  obtain ⟨hbefore, hafter⟩ := of_decide_eq_true h
  have heq := hunchanged _ List.mem_cons_self _ _ hbefore hafter
  revert heq
  decide

theorem not_freeOf {lines : List Str} (h : lines.any (isVerifierError asciiDigits) = true) :
    ¬FreeOf asciiDigits errorPhrases lines := by
  intro hfree
  obtain ⟨line, hline, herror⟩ := List.any_eq_true.mp h
  obtain ⟨phrase, hphrase, hhas⟩ := List.any_eq_true.mp herror
  rw [hfree line hline phrase hphrase] at hhas
  cases hhas

theorem parseLog_sound_retried : ∃ s result, (logFiles retriedLog).readText logPath = .ok s ∧
    parseLog asciiDigits plainHost (logFiles retriedLog) logPath = .ok result ∧ result.status = .pass ∧
      (VmLive (logLines s) → VmAccepted asciiDigits (logLines s)) ∧
        (¬VmLive (logLines s) → FreeOf asciiDigits consultedPhrases (logLines s) ∧
          (∃ line, (rcLines (logLines s)).getLast? = some line ∧ CarriesZero asciiDigits line) ∧
          Unchanged (logLines s)) := by
  have hverdict : verdictAnd .pass (fun _ => true) retriedLog = true := by decide +kernel
  obtain ⟨s, result, hs, hresult, hstatus, -⟩ := verdictAnd_eq_true hverdict
  exact ⟨s, result, hs, hresult, hstatus, (parseLog_sound lowersAtSpaces_ascii hresult hs).1 hstatus⟩

/-- A log is skipped in spite of an error and a change of state, passes in spite of an earlier failure of `bpftool`, and
passes as the log of a virtual machine in spite of the last failure and of a change of state. -/
theorem parseLog_overlooks :
    (∃ s result, (logFiles skippedLog).readText logPath = .ok s ∧
      parseLog asciiDigits plainHost (logFiles skippedLog) logPath = .ok result ∧ result.status = .skip ∧
        ¬FreeOf asciiDigits errorPhrases (logLines s) ∧ ¬Unchanged (logLines s)) ∧
    (∃ s result, (logFiles retriedLog).readText logPath = .ok s ∧
      parseLog asciiDigits plainHost (logFiles retriedLog) logPath = .ok result ∧ result.status = .pass ∧
        ¬∀ line ∈ rcLines (logLines s), CarriesZero asciiDigits line) ∧
    (∃ s result, (logFiles vmLog).readText logPath = .ok s ∧
      parseLog asciiDigits plainHost (logFiles vmLog) logPath = .ok result ∧ result.status = .pass ∧
        (¬∀ line ∈ rcLines (logLines s), CarriesZero asciiDigits line) ∧ ¬Unchanged (logLines s)) := by
  have hskipped : verdictAnd .skip
    (fun s => (logLines s).any (isVerifierError asciiDigits) && stateDiffers (logLines s))
      skippedLog = true := by decide +kernel
  have hretried : verdictAnd .pass (fun s => someRcFails (logLines s)) retriedLog = true := by decide +kernel
  have hvm : verdictAnd .pass (fun s => someRcFails (logLines s) && stateDiffers (logLines s)) vmLog = true := by
    decide +kernel
  refine ⟨?_, ?_, ?_⟩
  · obtain ⟨s, result, hs, hresult, hstatus, hfails⟩ := verdictAnd_eq_true hskipped
    rw [Bool.and_eq_true] at hfails
    exact ⟨s, result, hs, hresult, hstatus, not_freeOf hfails.1, not_unchanged hfails.2⟩
  · obtain ⟨s, result, hs, hresult, hstatus, hfails⟩ := verdictAnd_eq_true hretried
    exact ⟨s, result, hs, hresult, hstatus, not_carriesZero hfails⟩
  · obtain ⟨s, result, hs, hresult, hstatus, hfails⟩ := verdictAnd_eq_true hvm
    rw [Bool.and_eq_true] at hfails
    exact ⟨s, result, hs, hresult, hstatus, not_carriesZero hfails.1, not_unchanged hfails.2⟩

end Logs

end Exasphere.Qa.Verifier

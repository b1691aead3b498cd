import Exasphere.Sim.Types
import Exasphere.Zig.Fmt

/-!
# The command line (`tui/args.zig`)

The options of the terminal program and their parser. What is parsed is sound (`parseArgs_sound`): a source has exactly
the settings that it needs. Every sound value has a command line (`parseArgs_arguments`), so nothing sound is refused.
-/

namespace Exasphere.Tui

open Exasphere.Lib Exasphere.Sim

inductive InputSource
  | dashboard
  | inputFile (path : Bytes)
  | stdinReport
  | simulateBuiltin (name : Bytes)
  | simulateFile (path : Bytes)
  | observabilityDefault
  | observabilityManifest (path : Bytes)
  | comparisonDefault
  | comparisonPairing (path : Bytes)
  deriving DecidableEq, Repr

inductive RuntimeMode
  | interactive
  | snapshot
  deriving DecidableEq, Repr

def defaultSnapshotWidth : Nat := 120
def defaultSnapshotHeight : Nat := 40

structure Options where
  inputSource : InputSource := .dashboard
  runtimeMode : RuntimeMode := .interactive
  policy : Option PolicyKind := none
  snapshotWidth : Nat := defaultSnapshotWidth
  snapshotHeight : Nat := defaultSnapshotHeight
  snapshotTick : Option Nat := none
  deriving DecidableEq, Repr

inductive ArgsError
  | invalidArguments
  | invalidPolicy
  deriving DecidableEq, Repr

/-! ## Values -/

def parseDimension (raw : Bytes) : Except ArgsError Nat :=
  match Zig.parseUnsigned 16 raw with
  | .error _ => .error .invalidArguments
  | .ok value => if value = 0 then .error .invalidArguments else .ok value

def parseTick (raw : Bytes) : Except ArgsError Nat :=
  match Zig.parseUnsigned 32 raw with
  | .error _ => .error .invalidArguments
  | .ok value => .ok value

def parsePolicy : Bytes → Option PolicyKind :=
  findName [("fcfs", .fcfs), ("rr", .roundRobin), ("round-robin", .roundRobin), ("round_robin", .roundRobin),
    ("cfs", .cfsLike), ("cfs-like", .cfsLike), ("cfs_like", .cfsLike), ("deadline", .deadline), ("edf", .deadline),
    ("deadline-like", .deadline)]

/-! ## The parser -/

/-- The state of the loop over the arguments. -/
structure Parsing where
  options : Options := {}
  sawSnapshotWidth : Bool := false
  sawSnapshotHeight : Bool := false
  sawSnapshotTick : Bool := false
  deriving DecidableEq, Repr

/-- What an argument does, alone or with the next one. -/
inductive Argument
  | flag (apply : Parsing → Except ArgsError Parsing)
  | option (apply : Bytes → Parsing → Except ArgsError Parsing)

def setSnapshot (p : Parsing) : Except ArgsError Parsing := .ok { p with options.runtimeMode := .snapshot }

def setWidth (raw : Bytes) (p : Parsing) : Except ArgsError Parsing := do
  let value ← parseDimension raw
  .ok { p with options.snapshotWidth := value, sawSnapshotWidth := true }

def setHeight (raw : Bytes) (p : Parsing) : Except ArgsError Parsing := do
  let value ← parseDimension raw
  .ok { p with options.snapshotHeight := value, sawSnapshotHeight := true }

def setTick (raw : Bytes) (p : Parsing) : Except ArgsError Parsing := do
  let value ← parseTick raw
  .ok { p with options.snapshotTick := some value, sawSnapshotTick := true }

/-- A source is given once. -/
def setSource (source : InputSource) (p : Parsing) : Except ArgsError Parsing :=
  if p.options.inputSource ≠ .dashboard then .error .invalidArguments
  else .ok { p with options.inputSource := source }

def setPolicy (raw : Bytes) (p : Parsing) : Except ArgsError Parsing :=
  match parsePolicy raw with
  | none => .error .invalidPolicy
  | some policy => .ok { p with options.policy := some policy }

def argumentTable : List (String × Argument) :=
  [ ("--snapshot", .flag setSnapshot),
    ("--width", .option setWidth),
    ("--height", .option setHeight),
    ("--tick", .option setTick),
    ("--input", .option fun path => setSource (.inputFile path)),
    ("--stdin", .flag (setSource .stdinReport)),
    ("--scenario", .option fun name => setSource (.simulateBuiltin name)),
    ("--scenario-file", .option fun path => setSource (.simulateFile path)),
    ("--observability", .flag (setSource .observabilityDefault)),
    ("--observability-manifest", .option fun path => setSource (.observabilityManifest path)),
    ("--comparison", .flag (setSource .comparisonDefault)),
    ("--comparison-pairing", .option fun path => setSource (.comparisonPairing path)),
    ("--policy", .option setPolicy) ]

/-- The loop over the arguments; `--help` is refused with the unknown ones. -/
def parseLoop (p : Parsing) : List Bytes → Except ArgsError Parsing
  | [] => .ok p
  | arg :: rest =>
    match findName argumentTable arg with
    | none => .error .invalidArguments
    | some (.flag apply) => do parseLoop (← apply p) rest
    | some (.option apply) =>
      match rest with
      | [] => .error .invalidArguments
      | value :: rest => do parseLoop (← apply value p) rest

/-- The settings that go with the source. -/
def sourceAllows (options : Options) : Bool :=
  match options.inputSource with
  | .dashboard => options.policy.isNone && options.runtimeMode ≠ .snapshot
  | .inputFile _ => options.policy.isNone
  | .stdinReport => options.policy.isNone && options.runtimeMode = .snapshot
  | .simulateBuiltin _ | .simulateFile _ => options.policy.isSome
  | .observabilityDefault | .observabilityManifest _ | .comparisonDefault | .comparisonPairing _ =>
    options.policy.isNone && options.snapshotTick.isNone

def parseArgs (args : List Bytes) : Except ArgsError Options := do
  let p ← parseLoop {} args
  if ¬sourceAllows p.options then .error .invalidArguments
  else if p.options.runtimeMode ≠ .snapshot ∧ (p.sawSnapshotWidth ∨ p.sawSnapshotHeight ∨ p.sawSnapshotTick) then
    .error .invalidArguments
  else .ok p.options

/-! ## What is parsed is sound -/

theorem parseDimension_range {raw : Bytes} {value : Nat} (h : parseDimension raw = .ok value) :
    0 < value ∧ value < 2 ^ 16 := by
  unfold parseDimension at h
  split at h
  · cases h
  next hp =>
    split_ifs at h with hz
    obtain rfl := Except.ok.inj h
    exact ⟨Nat.pos_of_ne_zero hz, Zig.parseUnsigned_lt hp⟩

theorem parseTick_lt {raw : Bytes} {value : Nat} (h : parseTick raw = .ok value) : value < 2 ^ 32 := by
  unfold parseTick at h
  split at h
  · cases h
  next hp =>
    obtain rfl := Except.ok.inj h
    exact Zig.parseUnsigned_lt hp

/-- What holds of the options between two arguments. -/
structure Parsing.Ranged (p : Parsing) : Prop where
  width : 0 < p.options.snapshotWidth ∧ p.options.snapshotWidth < 2 ^ 16
  height : 0 < p.options.snapshotHeight ∧ p.options.snapshotHeight < 2 ^ 16
  tick : ∀ tick ∈ p.options.snapshotTick, tick < 2 ^ 32
  sawWidth : p.sawSnapshotWidth = false → p.options.snapshotWidth = defaultSnapshotWidth
  sawHeight : p.sawSnapshotHeight = false → p.options.snapshotHeight = defaultSnapshotHeight
  sawTick : p.sawSnapshotTick = p.options.snapshotTick.isSome

def Argument.Keeps : Argument → Prop
  | .flag apply => ∀ {p p' : Parsing}, p.Ranged → apply p = .ok p' → p'.Ranged
  | .option apply => ∀ {raw : Bytes} {p p' : Parsing}, p.Ranged → apply raw p = .ok p' → p'.Ranged

theorem setSource_keeps {source : InputSource} {p p' : Parsing} (h : p.Ranged) (hs : setSource source p = .ok p') :
    p'.Ranged := by
  obtain ⟨-, hs⟩ := ite_error_eq_ok.mp hs
  exact Except.ok.inj hs ▸ { h with }

theorem setSnapshot_keeps : (Argument.flag setSnapshot).Keeps := fun h hs => Except.ok.inj hs ▸ { h with }

theorem setWidth_keeps : (Argument.option setWidth).Keeps := by
  intro raw p p' h hs
  obtain ⟨value, hv, hs⟩ := bind_eq_ok.mp hs
  exact Except.ok.inj hs ▸ { h with
    width := parseDimension_range hv
    sawWidth := nofun }

theorem setHeight_keeps : (Argument.option setHeight).Keeps := by
  intro raw p p' h hs
  obtain ⟨value, hv, hs⟩ := bind_eq_ok.mp hs
  exact Except.ok.inj hs ▸ { h with
    height := parseDimension_range hv
    sawHeight := nofun }

theorem setTick_keeps : (Argument.option setTick).Keeps := by
  intro raw p p' h hs
  obtain ⟨value, hv, hs⟩ := bind_eq_ok.mp hs
  exact Except.ok.inj hs ▸ { h with
    tick := fun tick ht => Option.mem_some_iff.mp ht ▸ parseTick_lt hv
    sawTick := rfl }

theorem setPolicy_keeps : (Argument.option setPolicy).Keeps := by
  intro raw p p' h hs
  unfold setPolicy at hs
  split at hs
  · cases hs
  · exact Except.ok.inj hs ▸ { h with }

theorem argumentTable_keeps : ∀ e ∈ argumentTable, e.2.Keeps := by
  simp only [argumentTable, List.forall_mem_cons, List.not_mem_nil, false_implies, implies_true, and_true]
  exact ⟨setSnapshot_keeps, setWidth_keeps, setHeight_keeps, setTick_keeps, setSource_keeps, setSource_keeps,
    setSource_keeps, setSource_keeps, setSource_keeps, setSource_keeps, setSource_keeps, setSource_keeps,
    setPolicy_keeps⟩

theorem findName_mem {κ : Type*} {table : List (String × κ)} {name : Bytes} {value : κ}
    (h : findName table name = some value) : ∃ e ∈ table, e.2 = value := by
  obtain ⟨e, he, rfl⟩ := Option.map_eq_some_iff.mp h
  exact ⟨e, List.mem_of_find?_eq_some he, rfl⟩

theorem parseLoop_ranged (args : List Bytes) {p p' : Parsing} (h : p.Ranged) (hp : parseLoop p args = .ok p') :
    p'.Ranged := by
  fun_induction parseLoop p args with
  | case1 p => exact Except.ok.inj hp ▸ h
  | case2 => cases hp
  | case3 p arg rest apply hfind ih =>
    obtain ⟨next, hn, hp⟩ := bind_eq_ok.mp hp
    obtain ⟨e, he, hvalue⟩ := findName_mem hfind
    have hkeeps := argumentTable_keeps e he
    rw [hvalue] at hkeeps
    exact ih next (hkeeps h hn) hp
  | case4 => cases hp
  | case5 p arg apply hfind value rest ih =>
    obtain ⟨next, hn, hp⟩ := bind_eq_ok.mp hp
    obtain ⟨e, he, hvalue⟩ := findName_mem hfind
    have hkeeps := argumentTable_keeps e he
    rw [hvalue] at hkeeps
    exact ih next (hkeeps h hn) hp

theorem ranged_default : ({} : Parsing).Ranged where
  width := by decide
  height := by decide
  tick := by simp
  sawWidth _ := rfl
  sawHeight _ := rfl
  sawTick := rfl

/-- The options that the program runs on. -/
structure Options.Sound (options : Options) : Prop where
  source : sourceAllows options = true
  width : 0 < options.snapshotWidth ∧ options.snapshotWidth < 2 ^ 16
  height : 0 < options.snapshotHeight ∧ options.snapshotHeight < 2 ^ 16
  tick : ∀ tick ∈ options.snapshotTick, tick < 2 ^ 32
  /-- The settings of a snapshot are for snapshots. -/
  interactive : options.runtimeMode = .interactive → options.snapshotWidth = defaultSnapshotWidth ∧
    options.snapshotHeight = defaultSnapshotHeight ∧ options.snapshotTick = none

theorem parseArgs_sound {args : List Bytes} {options : Options} (h : parseArgs args = .ok options) :
    options.Sound := by
  obtain ⟨p, hp, h⟩ := bind_eq_ok.mp h
  obtain ⟨hsource, h⟩ := ite_error_eq_ok.mp h
  obtain ⟨hsaw, h⟩ := ite_error_eq_ok.mp h
  obtain rfl := Except.ok.inj h
  have hr := parseLoop_ranged args ranged_default hp
  refine ⟨not_not.mp hsource, hr.width, hr.height, hr.tick, fun hmode => ?_⟩
  simp only [hmode, ne_eq, reduceCtorEq, not_false_eq_true, true_and, not_or, Bool.not_eq_true] at hsaw
  obtain ⟨hw, hh, ht⟩ := hsaw
  exact ⟨hr.sawWidth hw, hr.sawHeight hh, by simpa [hr.sawTick] using ht⟩

/-! ## Every sound value has a command line -/

def InputSource.arguments : InputSource → List Bytes
  | .dashboard => []
  | .inputFile path => [utf8 "--input", path]
  | .stdinReport => [utf8 "--stdin"]
  | .simulateBuiltin name => [utf8 "--scenario", name]
  | .simulateFile path => [utf8 "--scenario-file", path]
  | .observabilityDefault => [utf8 "--observability"]
  | .observabilityManifest path => [utf8 "--observability-manifest", path]
  | .comparisonDefault => [utf8 "--comparison"]
  | .comparisonPairing path => [utf8 "--comparison-pairing", path]

def snapshotArguments (options : Options) : List Bytes :=
  match options.runtimeMode with
  | .interactive => []
  | .snapshot =>
    utf8 "--snapshot" :: utf8 "--width" :: decimal options.snapshotWidth :: utf8 "--height" ::
      decimal options.snapshotHeight ::
      match options.snapshotTick with
      | none => []
      | some tick => [utf8 "--tick", decimal tick]

/-- A command line for the options. -/
def Options.arguments (options : Options) : List Bytes :=
  snapshotArguments options ++ (options.inputSource.arguments ++
    match options.policy with
    | none => []
    | some policy => [utf8 "--policy", policy.tagName])

theorem parsePolicy_tagName (policy : PolicyKind) : parsePolicy policy.tagName = some policy := by
  cases policy <;> simp [parsePolicy, PolicyKind.tagName, findName]

theorem parseLoop_flag {p : Parsing} {arg : Bytes} {rest : List Bytes} {apply : Parsing → Except ArgsError Parsing}
    (h : findName argumentTable arg = some (.flag apply)) :
    parseLoop p (arg :: rest) = (do parseLoop (← apply p) rest) := by
  rw [parseLoop, h]

theorem parseLoop_option {p : Parsing} {arg value : Bytes} {rest : List Bytes}
    {apply : Bytes → Parsing → Except ArgsError Parsing} (h : findName argumentTable arg = some (.option apply)) :
    parseLoop p (arg :: value :: rest) = (do parseLoop (← apply value p) rest) := by
  rw [parseLoop, h]

/-- The state of the loop after the arguments of a snapshot. -/
def Parsing.ofSnapshot (options : Options) : Parsing :=
  { options := { options with inputSource := .dashboard, policy := none }
    sawSnapshotWidth := options.runtimeMode = .snapshot
    sawSnapshotHeight := options.runtimeMode = .snapshot
    sawSnapshotTick := options.snapshotTick.isSome }

theorem parseDimension_decimal {n : Nat} (hn : 0 < n ∧ n < 2 ^ 16) : parseDimension (decimal n) = .ok n := by
  rw [parseDimension, Zig.parseUnsigned_decimal hn.2]
  exact if_neg (by omega)

theorem parseTick_decimal {n : Nat} (hn : n < 2 ^ 32) : parseTick (decimal n) = .ok n := by
  rw [parseTick, Zig.parseUnsigned_decimal hn]

theorem parseLoop_snapshotArguments {options : Options} (h : options.Sound) (rest : List Bytes) :
    parseLoop {} (snapshotArguments options ++ rest) = parseLoop (.ofSnapshot options) rest := by
  obtain ⟨source, mode, policy, width, height, tick⟩ := options
  cases mode with
  | interactive =>
    obtain ⟨hw, hh, ht⟩ := h.interactive rfl
    simp only at hw hh ht
    subst hw hh ht
    rfl
  | snapshot =>
    simp only [snapshotArguments, List.cons_append]
    have hsnapshot : findName argumentTable (utf8 "--snapshot") = some (.flag setSnapshot) := rfl
    have hwidth : findName argumentTable (utf8 "--width") = some (.option setWidth) := rfl
    have hheight : findName argumentTable (utf8 "--height") = some (.option setHeight) := rfl
    have htick : findName argumentTable (utf8 "--tick") = some (.option setTick) := rfl
    rw [parseLoop_flag hsnapshot, setSnapshot, ok_bind, parseLoop_option hwidth, setWidth,
      parseDimension_decimal h.width, ok_bind, ok_bind, parseLoop_option hheight, setHeight,
      parseDimension_decimal h.height, ok_bind, ok_bind]
    cases tick with
    | none => rfl
    | some tick =>
      simp only [List.cons_append, List.nil_append]
      rw [parseLoop_option htick, setTick, parseTick_decimal (h.tick tick rfl), ok_bind, ok_bind]
      rfl

/-- A source is set by its arguments. -/
theorem parseLoop_sourceArguments {p : Parsing} (hp : p.options.inputSource = .dashboard) (source : InputSource)
    (rest : List Bytes) :
    parseLoop p (source.arguments ++ rest) = parseLoop { p with options.inputSource := source } rest := by
  have hset : setSource source p = .ok { p with options.inputSource := source } := if_neg (not_not.mpr hp)
  have hoption : ∀ {arg value : Bytes} {apply : Bytes → InputSource},
      findName argumentTable arg = some (.option fun raw => setSource (apply raw)) → apply value = source →
      parseLoop p (arg :: value :: rest) = parseLoop { p with options.inputSource := source } rest := by
    rintro arg value apply hfind rfl
    rw [parseLoop_option hfind, hset, ok_bind]
  have hflag : ∀ {arg : Bytes}, findName argumentTable arg = some (.flag (setSource source)) →
      parseLoop p (arg :: rest) = parseLoop { p with options.inputSource := source } rest := by
    intro arg hfind
    rw [parseLoop_flag hfind, hset, ok_bind]
  cases source with
  | dashboard =>
    have hsame : { p with options.inputSource := .dashboard } = p := by rw [← hp]
    rw [hsame]
    rfl
  | inputFile path => exact hoption rfl rfl
  | stdinReport => exact hflag rfl
  | simulateBuiltin name => exact hoption rfl rfl
  | simulateFile path => exact hoption rfl rfl
  | observabilityDefault => exact hflag rfl
  | observabilityManifest path => exact hoption rfl rfl
  | comparisonDefault => exact hflag rfl
  | comparisonPairing path => exact hoption rfl rfl

theorem parseArgs_arguments {options : Options} (h : options.Sound) : parseArgs options.arguments = .ok options := by
  have hloop : ∃ p, parseLoop {} options.arguments = .ok p ∧ p.options = options ∧
      (p.sawSnapshotWidth ∨ p.sawSnapshotHeight ∨ p.sawSnapshotTick → options.runtimeMode = .snapshot) := by
    have hsaw : options.runtimeMode = .snapshot ∨ options.snapshotTick.isSome → options.runtimeMode = .snapshot := by
      rintro (hmode | htick)
      · exact hmode
      cases hmode : options.runtimeMode with
      | interactive => simp [(h.interactive hmode).2.2] at htick
      | snapshot => rfl
    rw [Options.arguments, parseLoop_snapshotArguments h, parseLoop_sourceArguments rfl]
    cases hpolicy : options.policy with
    | none =>
      refine ⟨_, rfl, ?_, ?_⟩
      · simp only [Parsing.ofSnapshot, ← hpolicy]
      · simpa [Parsing.ofSnapshot] using hsaw
    | some policy =>
      have hfind : findName argumentTable (utf8 "--policy") = some (.option setPolicy) := rfl
      rw [parseLoop_option hfind, setPolicy, parsePolicy_tagName, ok_bind]
      refine ⟨_, rfl, ?_, ?_⟩
      · simp only [Parsing.ofSnapshot, ← hpolicy]
      · simpa [Parsing.ofSnapshot] using hsaw
  obtain ⟨p, hp, hoptions, hsaw⟩ := hloop
  rw [parseArgs, hp, ok_bind, hoptions, if_neg (not_not.mpr h.source), if_neg]
  exact fun hbad => hbad.1 (hsaw hbad.2)

/-- **The command lines stand for the sound options**: the parser returns no others, and it returns each of them. -/
theorem exists_parseArgs_iff (options : Options) : (∃ args, parseArgs args = .ok options) ↔ options.Sound :=
  ⟨fun ⟨_, h⟩ => parseArgs_sound h, fun h => ⟨options.arguments, parseArgs_arguments h⟩⟩

end Exasphere.Tui

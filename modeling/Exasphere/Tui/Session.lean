import Exasphere.Sim.Report
import Exasphere.Tui.Actions
import Exasphere.Tui.Args

/-!
# The terminal session (`tui/root.zig`)

The state of the terminal shell (`App`), its event loop and the program around it (`runTui`). Scenarios are simulated by
the engines; what the shell reads from files is a parameter (`Sources`): scenarios, report files, observability fixtures
and comparisons. Drawing a frame (`tui/render.zig`) reads the state and does not change it, but it computes with it and
can end the process; so what drawing a state ends with is a parameter too (`Drawing`). The terminal can be opened, read
and written, and the memory suffices.

A safety panic ends the process even where the source catches errors, so the two are told apart (`AppError.isPanic`).
-/

namespace Exasphere.Tui

open Exasphere.Lib Exasphere.Sim

/-! ## The state -/

inductive AppError
  | integerOverflow
  | indexOutOfBounds
  | unwrapNull
  /-- An error value, by its name. -/
  | raised (name : Bytes)
  deriving DecidableEq, Repr

def AppError.isPanic : AppError → Bool
  | .raised _ => false
  | _ => true

/-- An error of the simulator in the shell. -/
def AppError.ofSim : SimError → AppError
  | .integerOverflow => .integerOverflow
  | .indexOutOfBounds => .indexOutOfBounds
  | .emptyScenario => .raised (utf8 "EmptyScenario")
  | .taskExecutedTwiceInSameTick => .raised (utf8 "TaskExecutedTwiceInSameTick")
  | .invalidTaskPhaseTransition => .raised (utf8 "InvalidTaskPhaseTransition")
  | .incompleteSimulation => .raised (utf8 "IncompleteSimulation")
  | .neverDispatchedTask => .raised (utf8 "NeverDispatchedTask")

inductive SimulationSource
  | builtin (name : Bytes)
  | file (path : Bytes)
  deriving DecidableEq, Repr

/-- A report as the shell reads it back. -/
structure ParsedReport extends Report where
  source : SimulationSource
  scenarioName : Bytes
  roundRobinQuantum : Nat
  policy : PolicyKind
  deriving DecidableEq, Repr

structure LoadedFixture where
  fixtureName : Bytes
  deriving DecidableEq, Repr

structure ComparisonSummary where
  pairingId : Bytes
  deriving DecidableEq, Repr

structure ScenarioPackEntry where
  key : Bytes
  path : Bytes
  dashboardPolicy : PolicyKind
  deriving DecidableEq, Repr

structure DashboardEntry where
  scenarioKey : Bytes
  scenarioLabel : Bytes
  policy : PolicyKind
  cores : Nat
  tasks : Nat
  ticks : Nat
  deriving DecidableEq, Repr

/-- What the shell reads from outside. -/
structure Sources where
  loadScenario : SimulationSource → Except AppError ScenarioOwned
  readReport : Bytes → Except AppError ParsedReport
  stdinReport : Except AppError ParsedReport
  loadFixture : Bytes → Except AppError LoadedFixture
  buildApprovedComparison : Bytes → Except AppError ComparisonSummary

/-- The entries of the core scenario pack (`sim/scenario_pack.zig`). -/
def corePackEntries : List ScenarioPackEntry :=
  [ ⟨utf8 "arrivals", utf8 "scenarios/basic/arrivals.zon", .fcfs⟩,
    ⟨utf8 "contention", utf8 "scenarios/basic/contention.zon", .fcfs⟩,
    ⟨utf8 "deadline-priority", utf8 "scenarios/basic/deadline-priority.zon", .deadline⟩,
    ⟨utf8 "equal-arrival-contention", utf8 "scenarios/basic/equal-arrival-contention.zon", .fcfs⟩,
    ⟨utf8 "group-fairness", utf8 "scenarios/basic/group-fairness.zon", .cfsLike⟩,
    ⟨utf8 "latency-probe", utf8 "scenarios/basic/latency-probe.zon", .roundRobin⟩,
    ⟨utf8 "multi-phase-io", utf8 "scenarios/basic/multi-phase-io.zon", .roundRobin⟩,
    ⟨utf8 "multicore-balancing", utf8 "scenarios/basic/multicore-balancing.zon", .fcfs⟩,
    ⟨utf8 "multicore-contention", utf8 "scenarios/basic/multicore-contention.zon", .fcfs⟩,
    ⟨utf8 "multicore-rr-quantum", utf8 "scenarios/basic/multicore-rr-quantum.zon", .roundRobin⟩,
    ⟨utf8 "multicore-simultaneous-complete", utf8 "scenarios/basic/multicore-simultaneous-complete.zon", .fcfs⟩,
    ⟨utf8 "multicore-staggered", utf8 "scenarios/basic/multicore-staggered.zon", .fcfs⟩,
    ⟨utf8 "multicore-weighted", utf8 "scenarios/basic/multicore-weighted.zon", .cfsLike⟩,
    ⟨utf8 "short-vs-long", utf8 "scenarios/basic/short-vs-long.zon", .fcfs⟩,
    ⟨utf8 "sleep-wakeup", utf8 "scenarios/basic/sleep-wakeup.zon", .cfsLike⟩,
    ⟨utf8 "staggered-arrivals", utf8 "scenarios/basic/staggered-arrivals.zon", .fcfs⟩,
    ⟨utf8 "starvation-pressure", utf8 "scenarios/basic/starvation-pressure.zon", .cfsLike⟩,
    ⟨utf8 "topology-domains", utf8 "scenarios/basic/topology-domains.zon", .fcfs⟩,
    ⟨utf8 "weighted-fairness", utf8 "scenarios/basic/weighted-fairness.zon", .cfsLike⟩ ]

def findScenarioPackEntry (scenarioKey : Bytes) : Option ScenarioPackEntry :=
  corePackEntries.find? (fun entry => entry.key = scenarioKey)

structure App where
  currentReport : Option ParsedReport := none
  compareReport : Option ParsedReport := none
  observabilityFixture : Option LoadedFixture := none
  observabilityComparison : Option ComparisonSummary := none
  domainMode : DomainMode := .simulator
  view : View := .home
  theme : ThemeKind := .dark
  focus : PaneFocus := .gantt
  cursor : Nat := 0
  selectedTaskIndex : Option Nat := none
  dashboardIndex : Nat := 0
  playing : Bool := false
  dashboardEntries : List DashboardEntry
  history : List Bytes := []
  source : Option SimulationSource := none

structure Size where
  cols : Nat
  rows : Nat
  deriving DecidableEq, Repr

def defaultInteractiveSize : Size := ⟨120, 40⟩
def maxRenderArea : Nat := 400000

def normalizeInteractiveSize (raw fallback : Size) : Size :=
  if raw.cols = 0 ∨ raw.rows = 0 then fallback
  else if raw.cols * raw.rows > maxRenderArea then fallback
  else raw

def defaultManifestPath : Bytes := utf8 "fixtures/linux-observability/manifests/tracefs-sched-demo.json"
def defaultPairingManifestPath : Bytes :=
  utf8 "fixtures/linux-observability/pairings/sleep-wakeup-vs-tracefs-sched-demo.json"

/-- The loop over a trace that keeps the largest tick. -/
def maxTick (trace : List TraceEntry) : Nat := trace.foldl (fun maxTick event => max maxTick event.tick) 0

def lastTick (report : Report) : Nat := maxTick report.trace

/-- The ticks of a trace, for a card of the dashboard. -/
def tickCount (trace : List TraceEntry) : Except AppError Nat :=
  if trace = [] then .ok 0 else addChecked .integerOverflow 32 (maxTick trace) 1

/-- `@as(i32, @intCast(value)) + delta`. -/
def signedAdd (value : Nat) (delta : Int) : Except AppError Int :=
  if value < 2 ^ 31 ∧ (value : Int) + delta < 2 ^ 31 then .ok (value + delta) else .error .integerOverflow

/-! ## Loading -/

section Loading

variable (sources : Sources) (app : App)

def clearSimulatorState : App := { app with currentReport := none, compareReport := none }

def clearObservabilityState : App := { app with observabilityFixture := none, observabilityComparison := none }

def appendHistory (label : Bytes) : App :=
  let history := if app.history.getLast? = some label then app.history else app.history ++ [label]
  { app with history := history.drop (history.length - 4) }

def historyLabel (parts : List Bytes) : Bytes := (utf8 " ").intercalate (parts.map (fun part => utf8 "· " ++ part))

/-- `loadReportBytes`, from the parsed report on. -/
def loadReport (report : ParsedReport) : App :=
  let app := clearObservabilityState (clearSimulatorState app)
  appendHistory
    { app with
      currentReport := some report
      domainMode := .simulator
      cursor := 0
      selectedTaskIndex := if report.tasks.length > 0 then some 0 else none
      source := some report.source }
    (historyLabel [report.scenarioName, report.policy.tagName])

/-- The report of a simulation, as `parseReport` reads back what `writeJsonReport` writes. -/
def simulateReport (source : SimulationSource) (scenario : ScenarioOwned) (policy : PolicyKind) :
    Except AppError ParsedReport := do
  let result ← (simulate scenario policy).mapError AppError.ofSim
  let report ← (SimulationReport.report result).mapError AppError.ofSim
  .ok { report with
        source
        scenarioName := scenario.name
        roundRobinQuantum := scenario.roundRobinQuantum
        policy := result.policy }

def loadSimulation (source : SimulationSource) (policy : PolicyKind) : Except AppError App := do
  let scenario ← sources.loadScenario source
  let report ← simulateReport source scenario policy
  .ok { loadReport app report with source := some source }

def loadObservabilityFixture (manifestPath : Bytes) : Except AppError App := do
  let app := clearObservabilityState (clearSimulatorState app)
  let fixture ← sources.loadFixture manifestPath
  .ok (appendHistory
    { app with
      observabilityFixture := some fixture
      domainMode := .observabilitySummary
      source := none
      cursor := 0
      selectedTaskIndex := none }
    (historyLabel [utf8 "observability", fixture.fixtureName]))

def loadObservabilityComparison (pairingManifestPath : Bytes) : Except AppError App := do
  let app := clearObservabilityState (clearSimulatorState app)
  let comparison ← sources.buildApprovedComparison pairingManifestPath
  .ok (appendHistory
    { app with
      observabilityComparison := some comparison
      domainMode := .observabilityComparison
      source := none
      cursor := 0
      selectedTaskIndex := none }
    (historyLabel [utf8 "comparison", comparison.pairingId]))

/-- The policy a report is compared with. -/
def comparePolicy : PolicyKind → PolicyKind
  | .fcfs => .roundRobin
  | .roundRobin => .fcfs
  | .cfsLike => .fcfs
  | .deadline => .fcfs

def ensureCompareReport : Except AppError App :=
  if app.domainMode ≠ .simulator then .ok app
  else if app.compareReport.isSome then .ok app
  else match app.currentReport, app.source with
    | some report, some source => do
      let policy := comparePolicy report.policy
      let scenario ← sources.loadScenario source
      let scenario :=
        if policy = .roundRobin then { scenario with roundRobinQuantum := report.roundRobinQuantum } else scenario
      let compare ← simulateReport source scenario policy
      .ok { app with compareReport := some compare }
    | _, _ => .ok app

/-- A card of the dashboard: its scenario, simulated under its policy. -/
def buildDashboardEntry (entry : ScenarioPackEntry) (policy : PolicyKind) : Except AppError DashboardEntry := do
  let scenario ← sources.loadScenario (.file entry.path)
  let result ← (simulate scenario policy).mapError AppError.ofSim
  let tasks ← addChecked .integerOverflow 32 0 scenario.tasks.length
  let ticks ← tickCount result.trace
  .ok { scenarioKey := entry.path, scenarioLabel := entry.key, policy, cores := scenario.coreCount, tasks, ticks }

def buildDashboardEntries : Except AppError (List DashboardEntry) :=
  corePackEntries.mapM (fun entry => buildDashboardEntry sources entry entry.dashboardPolicy)

def updateDashboardEntry (policy : PolicyKind) : Except AppError App :=
  match app.dashboardEntries[app.dashboardIndex]? with
  | none => .error .indexOutOfBounds
  | some current =>
    match findScenarioPackEntry current.scenarioLabel with
    | none => .error (.raised (utf8 "UnknownScenario"))
    | some entry => do
      let built ← buildDashboardEntry sources entry policy
      .ok { app with dashboardEntries := app.dashboardEntries.set app.dashboardIndex built }

/-- The policy before or after one, around the list of the four. -/
def neighbourPolicy (reverse : Bool) : PolicyKind → PolicyKind
  | .fcfs => if reverse then .deadline else .roundRobin
  | .roundRobin => if reverse then .fcfs else .cfsLike
  | .cfsLike => if reverse then .roundRobin else .deadline
  | .deadline => if reverse then .cfsLike else .fcfs

/-- `x catch {}`: an error value leaves the state as it is, a panic ends the process. -/
def catchError (x : Except AppError App) : Except AppError App :=
  match x with
  | .ok app => .ok app
  | .error e => if e.isPanic then .error e else .ok app

def cycleDashboardPolicy (reverse : Bool) : Except AppError App :=
  match app.dashboardEntries[app.dashboardIndex]? with
  | none => .error .indexOutOfBounds
  | some entry => catchError app (updateDashboardEntry sources app (neighbourPolicy reverse entry.policy))

def openDashboardSelection : Except AppError App :=
  match app.dashboardEntries[app.dashboardIndex]? with
  | none => .error .indexOutOfBounds
  | some entry => do
    let app ← loadSimulation sources app (.file entry.scenarioKey) entry.policy
    .ok { app with view := .explorer }

def openObservabilitySummary : Except AppError App := do
  let app ← loadObservabilityFixture sources app defaultManifestPath
  .ok { app with view := .observabilitySummary }

def openObservabilityComparison : Except AppError App := do
  let app ← loadObservabilityComparison sources app defaultPairingManifestPath
  .ok { app with view := .observabilityComparison }

end Loading

/-! ## Actions -/

section Actions

variable (sources : Sources) (app : App) (contract : ViewLayoutContract)

def primaryView : View :=
  match app.domainMode with
  | .simulator => if app.view = .help ∧ app.currentReport.isSome then .explorer else .home
  | .observabilitySummary => .observabilitySummary
  | .observabilityComparison => .observabilityComparison

def moveCursor (delta : Int) : Except AppError App :=
  match app.currentReport with
  | none => .ok app
  | some report => do
    let next ← signedAdd app.cursor delta
    .ok { app with cursor := if next < 0 then 0 else min (lastTick report.toReport) next.toNat }

def advanceCursor : App :=
  match app.currentReport with
  | none => app
  | some report => { app with cursor := if app.cursor ≥ lastTick report.toReport then 0 else app.cursor + 1 }

def moveTask (delta : Int) : Except AppError App :=
  match app.currentReport with
  | none => .ok app
  | some report =>
    if report.tasks.length = 0 then .ok app
    else do
      let next ← signedAdd (app.selectedTaskIndex.getD 0) delta
      let next := if next < 0 then report.tasks.length - 1 else next.toNat % report.tasks.length
      .ok { app with selectedTaskIndex := some next, focus := .tasks }

def moveSelection (delta : Int) : Except AppError App :=
  if app.view = .home then
    if app.dashboardEntries.length = 0 then .ok app
    else if delta < 0 then .ok { app with dashboardIndex := app.dashboardIndex - 1 }
    else .ok { app with dashboardIndex := min (app.dashboardEntries.length - 1) (app.dashboardIndex + 1) }
  else if contract.tier = .tooSmall then .ok app
  else moveTask app delta

def handleEnter : Except AppError App :=
  match app.view with
  | .home => openDashboardSelection sources app
  | .scenario => do
    let app ← openDashboardSelection sources app
    .ok { app with view := .explorer }
  | .explorer =>
    if contract.canEnterDrawer ∧ app.selectedTaskIndex.isSome then .ok { app with view := .drawer } else .ok app
  | .help => .ok { app with view := primaryView app }
  | _ => .ok app

def handleEscape : App :=
  match app.view with
  | .help => { app with view := primaryView app }
  | .drawer | .diff => { app with view := .explorer }
  | .scenario | .performance | .reports => { app with view := .home }
  | .home =>
    if app.domainMode = .simulator ∧ app.currentReport.isSome then { app with view := .explorer } else app
  | .explorer => { app with selectedTaskIndex := none }
  | .observabilitySummary | .observabilityComparison => app

def cycleFocus (reverse : Bool) : App :=
  match nextFocus app.focus contract reverse with
  | some focus => { app with focus }
  | none => app

def toggleDiff : Except AppError App :=
  if app.domainMode ≠ .simulator then .ok app
  else if app.view = .diff then .ok { app with view := .explorer }
  else if contract.tier = .tooSmall then .ok app
  else if app.currentReport.isNone then .ok app
  else do
    let app ← ensureCompareReport sources app
    .ok (if app.compareReport.isSome then { app with view := .diff } else app)

def openTimeline : Except AppError App :=
  if app.domainMode ≠ .simulator then .ok app
  else if app.currentReport.isSome then .ok { app with view := .explorer }
  else do
    let app ← openDashboardSelection sources app
    .ok { app with view := .explorer }

def scrubLeft (event : Event) : Except AppError App :=
  if app.domainMode ≠ .simulator then .ok app
  else if event = .home then .ok { app with cursor := 0 }
  else moveCursor app (-1)

def scrubRight (event : Event) : Except AppError App :=
  if app.domainMode ≠ .simulator then .ok app
  else if event = .last then
    .ok (match app.currentReport with
      | some report => { app with cursor := lastTick report.toReport }
      | none => app)
  else moveCursor app 1

/-- `handleAction`; `none` where the source returns `true` and the loop ends. -/
def handleAction (action : ActionId) (event : Event) : Except AppError (Option App) :=
  match action with
  | .quit => .ok none
  | .help =>
    .ok (some (if contract.helpMode ≠ .disabled ∨ app.view = .help then
      { app with view := if app.view = .help then primaryView app else .help } else app))
  | .back => .ok (some (handleEscape app))
  | .home => .ok (some { app with domainMode := .simulator, view := .home, playing := false })
  | .theme => .ok (some { app with theme := if app.theme = .dark then .light else .dark })
  | .moveUp => some <$> if app.domainMode = .simulator then moveSelection app contract (-1) else .ok app
  | .moveDown => some <$> if app.domainMode = .simulator then moveSelection app contract 1 else .ok app
  | .nextFocus => .ok (some (cycleFocus app contract false))
  | .previousFocus => .ok (some (cycleFocus app contract true))
  | .activate => some <$> handleEnter sources app contract
  | .scenarioDetails =>
    .ok (some (if app.domainMode = .simulator then { app with view := .scenario } else app))
  | .timeline => some <$> openTimeline sources app
  | .observability => some <$> openObservabilitySummary sources app
  | .observabilityComparison => some <$> openObservabilityComparison sources app
  | .performance => .ok (some { app with view := .performance })
  | .reports => .ok (some { app with view := .reports })
  | .playPause =>
    .ok (some (if app.domainMode = .simulator ∧ app.view = .explorer ∧ contract.tier ≠ .tooSmall then
      { app with playing := !app.playing } else app))
  | .scrubLeft => some <$> scrubLeft app event
  | .scrubRight => some <$> scrubRight app event
  | .taskDetails => some <$> handleEnter sources app contract
  | .policyCompare =>
    some <$> if app.domainMode = .simulator ∧ (app.view ≠ .explorer ∨ contract.tier ≠ .tooSmall) then
      toggleDiff sources app contract else .ok app
  | .previousPolicy =>
    some <$> if app.domainMode = .simulator ∧ (app.view = .home ∨ app.view = .scenario) then
      cycleDashboardPolicy sources app true else .ok app
  | .nextPolicy =>
    some <$> if app.domainMode = .simulator ∧ (app.view = .home ∨ app.view = .scenario) then
      cycleDashboardPolicy sources app false else .ok app

end Actions

/-! ## The event loop -/

section Loop

variable (sources : Sources)

def activeContract (app : App) (size : Size) : ViewLayoutContract :=
  viewContract app.view size.cols size.rows app.compareReport.isSome

def normalizeLayoutState (app : App) (size : Size) : App :=
  match normalizedFocus app.focus (activeContract app size) with
  | some focus => { app with focus }
  | none => app

/-- `handleEvent` and `handleChar`: the action of the event's key on the current screen. -/
def handleEvent (app : App) (event : Event) (size : Size) : Except AppError (Option App) :=
  match keyNameForEvent event with
  | none => .ok (some app)
  | some key =>
    match actionForKey (dashboardScreenForView app.view) key with
    | none => .ok (some app)
    | some action => handleAction sources app (activeContract app size) action event

structure Session where
  app : App
  size : Size

/-- A size other than the current one changes the layout. -/
def Session.resize (session : Session) (rawSize : Size) : Session :=
  let size := normalizeInteractiveSize rawSize session.size
  if session.size = size then session else { app := normalizeLayoutState session.app size, size }

/-- One turn of the loop without its drawing, on an event and the size the terminal has then; `none` ends the loop. -/
def turn (session : Session) (rawSize : Size) (event : Event) : Except AppError (Option Session) :=
  let session := session.resize rawSize
  match event with
  | .none =>
    .ok (some (if session.app.playing ∧ session.app.view = .explorer then
      { session with app := advanceCursor session.app } else session))
  | event => do
    let app ← handleEvent sources session.app event session.size
    .ok (app.map (fun app => { session with app := normalizeLayoutState app session.size }))

/-- The turns over a sequence of events, until one of them ends the loop. -/
def runLoop (session : Session) : List (Size × Event) → Except AppError (Option Session)
  | [] => .ok (some session)
  | (rawSize, event) :: inputs => do
    match ← turn sources session rawSize event with
    | some session => runLoop session inputs
    | none => .ok none

/-- What `render.zig` ends with on a state and a size: on the screen of a session, and on a snapshot. -/
structure Drawing where
  frame : App → Size → Except AppError Unit
  snapshot : App → Size → Except AppError Unit

/-- The state in which a turn leaves `needs_redraw`. -/
def Session.redraws (session : Session) (rawSize : Size) (event : Event) : Bool :=
  let resized := session.resize rawSize
  decide (session.size ≠ resized.size) ||
    match event with
    | .none => resized.app.playing && decide (resized.app.view = .explorer)
    | _ => true

def Drawing.draw (drawing : Drawing) (needsRedraw : Bool) (session : Session) : Except AppError Unit :=
  if needsRedraw then drawing.frame session.app session.size else .ok ()

/-- The loop with its drawing: before an event is read, the frame is drawn anew if it may have changed. -/
def displayLoop (drawing : Drawing) (session : Session) (needsRedraw : Bool) :
    List (Size × Event) → Except AppError (Option Session)
  | [] => do
    drawing.draw needsRedraw session
    .ok (some session)
  | (rawSize, event) :: inputs => do
    drawing.draw needsRedraw session
    match ← turn sources session rawSize event with
    | some next => displayLoop drawing next (session.redraws rawSize event) inputs
    | none => .ok none

end Loop

/-! ## Starting -/

section Start

variable (sources : Sources)

/-- `options.policy.?` -/
def unwrapPolicy (options : Options) : Except AppError PolicyKind :=
  match options.policy with
  | some policy => .ok policy
  | none => .error .unwrapNull

def bootstrap (app : App) (options : Options) (stdinIsTty : Bool) : Except AppError App :=
  match options.inputSource with
  | .dashboard =>
    if stdinIsTty then .ok { app with domainMode := .simulator, view := .home }
    else .error (.raised (utf8 "NonTtyDashboardRequiresSnapshot"))
  | .inputFile path => do
    let report ← sources.readReport path
    .ok { loadReport app report with view := .explorer }
  | .stdinReport => do
    let report ← sources.stdinReport
    .ok { loadReport app report with view := .explorer }
  | .simulateBuiltin name => do
    let policy ← unwrapPolicy options
    let app ← loadSimulation sources app (.builtin name) policy
    .ok { app with view := .explorer }
  | .simulateFile path => do
    let policy ← unwrapPolicy options
    let app ← loadSimulation sources app (.file path) policy
    .ok { app with view := .explorer }
  | .observabilityDefault => do
    let app ← loadObservabilityFixture sources app defaultManifestPath
    .ok { app with view := .observabilitySummary }
  | .observabilityManifest path => do
    let app ← loadObservabilityFixture sources app path
    .ok { app with view := .observabilitySummary }
  | .comparisonDefault => do
    let app ← loadObservabilityComparison sources app defaultPairingManifestPath
    .ok { app with view := .observabilityComparison }
  | .comparisonPairing path => do
    let app ← loadObservabilityComparison sources app path
    .ok { app with view := .observabilityComparison }

def validateTerminalMode (options : Options) (stdinIsTty stdoutIsTty : Bool) : Except AppError Unit :=
  if options.runtimeMode = .snapshot then .ok ()
  else if stdinIsTty && stdoutIsTty then .ok ()
  else if options.inputSource = .dashboard ∧ ¬stdinIsTty then
    .error (.raised (utf8 "NonTtyDashboardRequiresSnapshot"))
  else .error (.raised (utf8 "NotATerminal"))

/-- The state that `renderSnapshotAlloc` draws. -/
def renderSnapshot (app : App) (options : Options) : Except AppError App :=
  if options.inputSource = .dashboard then .error (.raised (utf8 "InvalidArguments"))
  else match app.domainMode with
    | .simulator =>
      match app.currentReport with
      | none => .error (.raised (utf8 "InvalidArguments"))
      | some report =>
        match options.snapshotTick with
        | some tick =>
          if tick > lastTick report.toReport then .error (.raised (utf8 "InvalidArguments"))
          else .ok { app with cursor := tick, view := .explorer, playing := false }
        | none => .ok { app with cursor := 0, view := .explorer, playing := false }
    | .observabilitySummary => .ok { app with view := .observabilitySummary, playing := false }
    | .observabilityComparison => .ok { app with view := .observabilityComparison, playing := false }

/-- How the program ends, or the session in which it waits for the next event. -/
inductive Outcome
  | usage
  | needsTerminal
  | needsSnapshot
  | snapshot (app : App)
  | waiting (session : Session)
  | quit

/-- The terminal of a run: whether its ends are terminals, its first size, what it delivers, and what drawing ends
with. -/
structure Console where
  stdinIsTty : Bool
  stdoutIsTty : Bool
  firstSize : Size
  inputs : List (Size × Event)
  drawing : Drawing

/-- The dashboard, the selected source, and the snapshot or the loop. -/
def run (options : Options) (console : Console) : Except AppError Outcome := do
  let dashboardEntries ← buildDashboardEntries sources
  validateTerminalMode options console.stdinIsTty console.stdoutIsTty
  let app ← bootstrap sources { dashboardEntries } options console.stdinIsTty
  match options.runtimeMode with
  | .snapshot => do
    let drawn ← renderSnapshot app options
    console.drawing.snapshot drawn ⟨options.snapshotWidth, options.snapshotHeight⟩
    .ok (.snapshot drawn)
  | .interactive => do
    let size := normalizeInteractiveSize console.firstSize defaultInteractiveSize
    let session ← displayLoop sources console.drawing { app := normalizeLayoutState app size, size } true console.inputs
    .ok (match session with
      | some session => .waiting session
      | none => .quit)

/-- The program on its command line (`main.zig`): some errors are answered with a text. -/
def runTui (args : List Bytes) (console : Console) : Except AppError Outcome :=
  match parseArgs args with
  | .error _ => .ok .usage
  | .ok options =>
    match run sources options console with
    | .ok outcome => .ok outcome
    | .error e =>
      if e = .raised (utf8 "NotATerminal") then .ok .needsTerminal
      else if e = .raised (utf8 "NonTtyDashboardRequiresSnapshot") then .ok .needsSnapshot
      else if e = .raised (utf8 "InvalidArguments") then .ok .usage
      else .error e

end Start

end Exasphere.Tui

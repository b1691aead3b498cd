import Exasphere.Lib.Settles
import Exasphere.Tui.SessionSound

/-!
# The errors of the shell

`Sources.Bounded` says that scenarios are accepted and end early enough for the tick counter, and that the reports that
are read do too. Then no arithmetic on the state of the shell overflows, no index is out of bounds and no value is
missing, after whatever events: the only errors that end the program are those of reading a source, and those of drawing
a consistent and bounded state (`runTui_error`).
-/

namespace Exasphere.Tui

open Exasphere.Lib Exasphere.Sim

/-! ## Bounds -/

structure ParsedReport.Bounded (report : ParsedReport) : Prop where
  ticks : lastTick report.toReport < 2 ^ 31 - 1
  tasks : report.tasks.length < 2 ^ 31
  quantum : 0 < report.roundRobinQuantum

structure Sources.Bounded (sources : Sources) : Prop where
  scenario : ∀ source scenario, sources.loadScenario source = .ok scenario →
    scenario.validate = .ok () ∧ horizon scenario < 2 ^ 31 - 1
  file : ∀ path report, sources.readReport path = .ok report → report.Bounded
  stdin : ∀ report, sources.stdinReport = .ok report → report.Bounded

/-- The errors of reading a source. -/
inductive Sources.Raises (sources : Sources) (e : AppError) : Prop
  | scenario (source : SimulationSource) (h : sources.loadScenario source = .error e)
  | file (path : Bytes) (h : sources.readReport path = .error e)
  | stdin (h : sources.stdinReport = .error e)
  | fixture (path : Bytes) (h : sources.loadFixture path = .error e)
  | comparison (path : Bytes) (h : sources.buildApprovedComparison path = .error e)

/-- What is loaded is bounded. -/
def App.Bounded (app : App) : Prop := ∀ report ∈ app.currentReport, report.Bounded

/-- The errors of drawing: the state that is drawn is consistent and bounded, and the screen has a size to draw on. -/
inductive Drawing.Raises (drawing : Drawing) (sources : Sources) (e : AppError) : Prop
  | frame (session : Session) (good : session.Good sources) (bounded : session.app.Bounded)
      (h : drawing.frame session.app session.size = .error e)
  | snapshot (app : App) (size : Size) (good : Good sources app) (bounded : app.Bounded)
      (h : drawing.snapshot app size = .error e)

section Simulations

variable {scenario : ScenarioOwned}

theorem maxTick_concat (trace : List TraceEntry) (e : TraceEntry) :
    maxTick (trace ++ [e]) = max (maxTick trace) e.tick := by
  simp [maxTick]

theorem maxTick_le {trace : List TraceEntry} {bound : Nat} (h : ∀ e ∈ trace, e.tick ≤ bound) :
    maxTick trace ≤ bound := by
  induction trace using List.reverseRecOn with
  | nil => exact Nat.zero_le _
  | append_singleton trace e ih =>
    rw [maxTick_concat]
    exact max_le (ih fun e he => h e (by simp [he])) (h e (by simp))

/-- A simulation of an accepted scenario returns, within its horizon. -/
theorem simulate_bounded (hv : Valid scenario) (hB : horizon scenario < 2 ^ 31 - 1) (policy : PolicyKind) :
    ∃ r, simulate scenario policy = .ok r ∧ maxTick r.trace < 2 ^ 31 - 1 ∧ r.tasks.length < 2 ^ 31 ∧
      ∃ report, SimulationReport.report r = .ok report := by
  obtain ⟨r, hr⟩ := simulate_returns policy hv (by omega)
  obtain ⟨m, S, k, s, h⟩ := simulate_ok hv hr
  obtain ⟨report, hreport, -⟩ := h.report_ok hv
  refine ⟨r, hr, ?_, ?_, report, hreport⟩
  · have hticks := ((start_init hv m).ordered_run S.lawful S.trace S.init h.run).1
    have hle := h.bound
    rw [h.finalized.trace]
    exact lt_of_le_of_lt (maxTick_le hticks) (by omega)
  · have hlen := length_le_burst hv
    rw [h.finalized.length]
    unfold horizon at hB
    omega

theorem simulateReport_bounded (hv : Valid scenario) (hB : horizon scenario < 2 ^ 31 - 1) (source : SimulationSource)
    (policy : PolicyKind) : ∃ report, simulateReport source scenario policy = .ok report ∧ report.Bounded := by
  obtain ⟨r, hr, hticks, htasks, report, hreport⟩ := simulate_bounded hv hB policy
  refine ⟨_, by rw [simulateReport, hr, Except.mapError, ok_bind, hreport, Except.mapError, ok_bind], ?_⟩
  obtain ⟨order, -, hreport⟩ := bind_eq_ok.mp hreport
  rw [← Except.ok.inj hreport]
  exact ⟨hticks, htasks, hv.quantum_pos⟩

end Simulations

section Steps

variable {sources : Sources} {app : App} {contract : ViewLayoutContract}

/-- A scenario is read, or the reader's error is raised. -/
theorem loadScenario_settles (hs : sources.Bounded) (source : SimulationSource) :
    Settles (fun scenario => Valid scenario ∧ horizon scenario < 2 ^ 31 - 1) sources.Raises
      (sources.loadScenario source) :=
  .of (fun scenario h => ⟨validate_ok (hs.scenario source scenario h).1, (hs.scenario source scenario h).2⟩)
    (fun _ h => .scenario source h)

theorem loadReport_bounded (app : App) {report : ParsedReport} (h : report.Bounded) :
    (loadReport app report).Bounded := by
  intro other ho
  exact Option.mem_some_iff.mp ho ▸ h

theorem loadSimulation_settles (hs : sources.Bounded) (source : SimulationSource) (policy : PolicyKind) :
    Settles App.Bounded sources.Raises (loadSimulation sources app source policy) := by
  refine (loadScenario_settles hs source).bind fun scenario _ ⟨hv, hB⟩ => ?_
  obtain ⟨report, hreport, hbounded⟩ := simulateReport_bounded hv hB source policy
  rw [hreport]
  exact loadReport_bounded app hbounded

theorem loadObservabilityFixture_settles (path : Bytes) :
    Settles App.Bounded sources.Raises (loadObservabilityFixture sources app path) := by
  have hread : Settles (fun _ => True) sources.Raises (sources.loadFixture path) :=
    .of (fun _ _ => trivial) (fun _ h => .fixture path h)
  exact hread.bind fun fixture _ _ => nofun

theorem loadObservabilityComparison_settles (path : Bytes) :
    Settles App.Bounded sources.Raises (loadObservabilityComparison sources app path) := by
  have hread : Settles (fun _ => True) sources.Raises (sources.buildApprovedComparison path) :=
    .of (fun _ _ => trivial) (fun _ h => .comparison path h)
  exact hread.bind fun comparison _ _ => nofun

theorem ensureCompareReport_settles (hs : sources.Bounded) (h : app.Bounded) :
    Settles App.Bounded sources.Raises (ensureCompareReport sources app) := by
  unfold ensureCompareReport
  split_ifs
  · exact h
  · exact h
  · split
    next report source hr _ =>
      refine (loadScenario_settles hs source).bind fun scenario _ ⟨hv, hB⟩ => ?_
      -- the quantum of the report replaces the one of the scenario
      have hvalid : ∀ {q : Nat}, 0 < q → Valid { scenario with roundRobinQuantum := q } := fun hq => { hv with
        quantum_pos := hq }
      obtain ⟨compare, hcompare, -⟩ : ∃ compare, simulateReport source
          (if comparePolicy report.policy = .roundRobin then
            { scenario with roundRobinQuantum := report.roundRobinQuantum } else scenario)
          (comparePolicy report.policy) = .ok compare ∧ compare.Bounded := by
        split_ifs
        · exact simulateReport_bounded (hvalid (h report hr).quantum) hB source _
        · exact simulateReport_bounded hv hB source _
      simp only [hcompare]
      exact h
    next => exact h

theorem tickCount_ok {trace : List TraceEntry} (h : maxTick trace < 2 ^ 31 - 1) : ∃ n, tickCount trace = .ok n := by
  unfold tickCount
  split_ifs
  · exact ⟨0, rfl⟩
  · exact ⟨_, addChecked_eq_ok.mpr ⟨by omega, rfl⟩⟩

theorem buildDashboardEntry_settles (hs : sources.Bounded) (entry : ScenarioPackEntry) (policy : PolicyKind) :
    Settles (fun _ => True) sources.Raises (buildDashboardEntry sources entry policy) := by
  refine (loadScenario_settles hs _).bind fun scenario _ ⟨hv, hB⟩ => ?_
  obtain ⟨r, hr, hticks, htasks, -⟩ := simulate_bounded hv hB policy
  obtain ⟨ticks, ht⟩ := tickCount_ok hticks
  have hlen := length_le_burst hv
  have hcount : addChecked AppError.integerOverflow 32 0 scenario.tasks.length = .ok (0 + scenario.tasks.length) := by
    refine addChecked_eq_ok.mpr ⟨?_, rfl⟩
    unfold horizon at hB
    omega
  rw [hr, Except.mapError, ok_bind, hcount, ok_bind, ht]
  exact trivial

/-- Only a panic passes through. -/
theorem catchError_settles {x : Except AppError App} {E : AppError → Prop}
    (hx : Settles App.Bounded (fun e => e.isPanic = true → E e) x) (h : app.Bounded) :
    Settles App.Bounded E (catchError app x) := by
  unfold catchError
  split
  · exact hx
  · split_ifs with hp
    · exact hx hp
    · exact h

theorem updateDashboardEntry_settles (hs : sources.Bounded) (hg : Good sources app) (h : app.Bounded)
    (policy : PolicyKind) : Settles App.Bounded (fun e => e.isPanic = true → sources.Raises e)
      (updateDashboardEntry sources app policy) := by
  unfold updateDashboardEntry
  rw [List.getElem?_eq_getElem hg.index]
  dsimp only
  split
  · exact nofun
  next entry _ =>
    have hbuilt : Settles (fun _ => True) (fun e => e.isPanic = true → sources.Raises e)
        (buildDashboardEntry sources entry policy) :=
      (buildDashboardEntry_settles hs entry policy).mono (fun _ h => h) fun _ he _ => he
    exact hbuilt.bind fun built _ _ => h

theorem cycleDashboardPolicy_settles (hs : sources.Bounded) (hg : Good sources app) (h : app.Bounded)
    (reverse : Bool) : Settles App.Bounded sources.Raises (cycleDashboardPolicy sources app reverse) := by
  unfold cycleDashboardPolicy
  rw [List.getElem?_eq_getElem hg.index]
  exact catchError_settles (updateDashboardEntry_settles hs hg h _) h

theorem openDashboardSelection_settles (hs : sources.Bounded) (hg : Good sources app) :
    Settles App.Bounded sources.Raises (openDashboardSelection sources app) := by
  unfold openDashboardSelection
  rw [List.getElem?_eq_getElem hg.index]
  exact (loadSimulation_settles hs _ _).bind fun loaded _ h => h

/-! ## Actions -/

/-- A step of one around a bounded value does not overflow. -/
theorem signedAdd_ok {value : Nat} {delta : Int} (hd : delta = 1 ∨ delta = -1) (h : value < 2 ^ 31 - 1) :
    signedAdd value delta = .ok (value + delta) := by
  rw [signedAdd, if_pos]
  rcases hd with rfl | rfl <;> omega

theorem moveCursor_settles (hg : Good sources app) (h : app.Bounded) {delta : Int} (hd : delta = 1 ∨ delta = -1) :
    Settles App.Bounded sources.Raises (moveCursor app delta) := by
  unfold moveCursor
  split
  · exact h
  next report hr =>
    have hcursor := hg.cursor
    rw [hr, Option.elim_some] at hcursor
    rw [signedAdd_ok hd (lt_of_le_of_lt hcursor (h report hr).ticks)]
    exact h

theorem moveTask_settles (hg : Good sources app) (h : app.Bounded) {delta : Int} (hd : delta = 1 ∨ delta = -1) :
    Settles App.Bounded sources.Raises (moveTask app delta) := by
  unfold moveTask
  split
  · exact h
  next report hr =>
    split_ifs with hlen
    · exact h
    · have htasks := (h report hr).tasks
      have hselected : app.selectedTaskIndex.getD 0 < 2 ^ 31 - 1 := by
        cases hsel : app.selectedTaskIndex with
        | none => decide
        | some task =>
          obtain ⟨other, ho, hlt⟩ := hg.selected task hsel
          obtain rfl := Option.some.inj (hr.symm.trans ho)
          simp only [Option.getD_some]
          omega
      rw [signedAdd_ok hd hselected]
      exact h

theorem moveSelection_settles (hg : Good sources app) (h : app.Bounded) {delta : Int} (hd : delta = 1 ∨ delta = -1) :
    Settles App.Bounded sources.Raises (moveSelection app contract delta) := by
  unfold moveSelection
  split_ifs
  · exact h
  · exact h
  · exact h
  · exact h
  · exact moveTask_settles hg h hd

theorem handleEnter_settles (hs : sources.Bounded) (hg : Good sources app) (h : app.Bounded) :
    Settles App.Bounded sources.Raises (handleEnter sources app contract) := by
  unfold handleEnter
  split
  · exact openDashboardSelection_settles hs hg
  · exact (openDashboardSelection_settles hs hg).bind fun opened _ ho => ho
  · split_ifs
    · exact h
    · exact h
  · exact h
  · exact h

theorem handleEscape_bounded (h : app.Bounded) : (handleEscape app).Bounded := by
  unfold handleEscape
  split
  case h_7 => split_ifs <;> exact h
  all_goals exact h

theorem cycleFocus_bounded (h : app.Bounded) (reverse : Bool) : (cycleFocus app contract reverse).Bounded := by
  unfold cycleFocus
  split <;> exact h

theorem toggleDiff_settles (hs : sources.Bounded) (h : app.Bounded) :
    Settles App.Bounded sources.Raises (toggleDiff sources app contract) := by
  unfold toggleDiff
  split_ifs
  · exact h
  · exact h
  · exact h
  · exact h
  · refine (ensureCompareReport_settles hs h).bind fun compared _ hc => ?_
    by_cases hsome : compared.compareReport.isSome
    · rw [if_pos hsome]
      exact hc
    · rw [if_neg hsome]
      exact hc

theorem openTimeline_settles (hs : sources.Bounded) (hg : Good sources app) (h : app.Bounded) :
    Settles App.Bounded sources.Raises (openTimeline sources app) := by
  unfold openTimeline
  split_ifs
  · exact h
  · exact h
  · exact (openDashboardSelection_settles hs hg).bind fun opened _ ho => ho

theorem scrub_settles (hg : Good sources app) (h : app.Bounded) (event : Event) :
    Settles App.Bounded sources.Raises (scrubLeft app event) ∧
      Settles App.Bounded sources.Raises (scrubRight app event) := by
  constructor
  · unfold scrubLeft
    split_ifs
    · exact h
    · exact h
    · exact moveCursor_settles hg h (Or.inr rfl)
  · unfold scrubRight
    split_ifs
    · exact h
    · split <;> exact h
    · exact moveCursor_settles hg h (Or.inl rfl)

theorem settles_map_some {x : Except AppError App} (h : Settles App.Bounded sources.Raises x) :
    Settles (fun next => ∀ app ∈ next, App.Bounded app) sources.Raises (some <$> x) :=
  (h.mono (fun _ hb _ ho => Option.mem_some_iff.mp ho ▸ hb) fun _ he => he).map

theorem settles_some (h : app.Bounded) :
    Settles (fun next => ∀ app ∈ next, App.Bounded app) sources.Raises (.ok (some app)) :=
  fun _ ho => Option.mem_some_iff.mp ho ▸ h

/-- **No action overflows or reads out of bounds.** -/
theorem handleAction_settles (hs : sources.Bounded) (hg : Good sources app) (h : app.Bounded) (action : ActionId)
    (event : Event) :
    Settles (fun next => ∀ app ∈ next, App.Bounded app) sources.Raises
      (handleAction sources app contract action event) := by
  unfold handleAction
  cases action with
  | quit => exact fun app ho => nomatch ho
  | help =>
    refine settles_some ?_
    split_ifs <;> exact h
  | back => exact settles_some (handleEscape_bounded h)
  | home => exact settles_some h
  | theme => exact settles_some h
  | moveUp =>
    refine settles_map_some ?_
    split_ifs
    · exact moveSelection_settles hg h (Or.inr rfl)
    · exact h
  | moveDown =>
    refine settles_map_some ?_
    split_ifs
    · exact moveSelection_settles hg h (Or.inl rfl)
    · exact h
  | nextFocus => exact settles_some (cycleFocus_bounded h _)
  | previousFocus => exact settles_some (cycleFocus_bounded h _)
  | activate => exact settles_map_some (handleEnter_settles hs hg h)
  | scenarioDetails =>
    refine settles_some ?_
    split_ifs <;> exact h
  | timeline => exact settles_map_some (openTimeline_settles hs hg h)
  | observability => exact settles_map_some ((loadObservabilityFixture_settles _).bind fun loaded _ hl => hl)
  | observabilityComparison =>
    exact settles_map_some ((loadObservabilityComparison_settles _).bind fun loaded _ hl => hl)
  | performance => exact settles_some h
  | reports => exact settles_some h
  | playPause =>
    refine settles_some ?_
    split_ifs <;> exact h
  | scrubLeft => exact settles_map_some (scrub_settles hg h event).1
  | scrubRight => exact settles_map_some (scrub_settles hg h event).2
  | taskDetails => exact settles_map_some (handleEnter_settles hs hg h)
  | policyCompare =>
    refine settles_map_some ?_
    split_ifs
    · exact toggleDiff_settles hs h
    · exact h
  | previousPolicy =>
    refine settles_map_some ?_
    split_ifs
    · exact cycleDashboardPolicy_settles hs hg h _
    · exact h
  | nextPolicy =>
    refine settles_map_some ?_
    split_ifs
    · exact cycleDashboardPolicy_settles hs hg h _
    · exact h

end Steps

/-! ## Every run -/

section Runs

variable {sources : Sources} {session : Session}

theorem turn_settles (hs : sources.Bounded) (hg : session.Good sources) (h : session.app.Bounded) (rawSize : Size)
    (event : Event) :
    Settles (fun next => ∀ session ∈ next, session.app.Bounded) sources.Raises
      (turn sources session rawSize event) := by
  have hlayout : ∀ {app : App} {size : Size}, app.Bounded → (normalizeLayoutState app size).Bounded := by
    intro app size hb
    obtain ⟨focus, hf⟩ := normalizeLayoutState_eq app size
    rw [hf]
    exact hb
  have hresized : (session.resize rawSize).app.Bounded := by
    unfold Session.resize
    dsimp only
    split_ifs
    · exact h
    · exact hlayout h
  have hhandled : Settles (fun next => ∀ app ∈ next, App.Bounded app) sources.Raises
      (handleEvent sources (session.resize rawSize).app event (session.resize rawSize).size) := by
    unfold handleEvent
    split
    · exact settles_some hresized
    · split
      · exact settles_some hresized
      · exact handleAction_settles hs (resize_good hg rawSize).app hresized _ _
  unfold turn
  split
  · rintro next ⟨⟩
    split_ifs
    · dsimp only
      unfold advanceCursor
      split
      · exact hresized
      · exact hresized
    · exact hresized
  · refine hhandled.bind fun next _ hb => ?_
    intro app ho
    obtain ⟨app, rfl, rfl⟩ := Option.map_eq_some_iff.mp ho
    exact hlayout (hb app rfl)

theorem draw_settles (drawing : Drawing) (needsRedraw : Bool) (hg : session.Good sources) (h : session.app.Bounded) :
    Settles (fun _ => True) (fun e => sources.Raises e ∨ drawing.Raises sources e)
      (drawing.draw needsRedraw session) := by
  unfold Drawing.draw
  split_ifs
  · exact .of (fun _ _ => trivial) fun _ he => Or.inr (.frame session hg h he)
  · exact trivial

theorem displayLoop_settles (hs : sources.Bounded) (drawing : Drawing) (inputs : List (Size × Event))
    (needsRedraw : Bool) (hg : session.Good sources) (h : session.app.Bounded) :
    Settles (fun _ => True) (fun e => sources.Raises e ∨ drawing.Raises sources e)
      (displayLoop sources drawing session needsRedraw inputs) := by
  induction inputs generalizing session needsRedraw with
  | nil => exact (draw_settles drawing needsRedraw hg h).bind fun _ _ _ => trivial
  | cons input inputs ih =>
    have hturn : Settles (fun next => ∀ session ∈ next, session.app.Bounded)
        (fun e => sources.Raises e ∨ drawing.Raises sources e) (turn sources session input.1 input.2) :=
      (turn_settles hs hg h input.1 input.2).mono (fun _ h => h) fun _ => Or.inl
    refine (draw_settles drawing needsRedraw hg h).bind fun _ _ _ => hturn.bind fun next ht hb => ?_
    cases next with
    | none => exact trivial
    | some next => exact ih _ (turn_good hg ht) (hb next rfl)

/-- Where the source needs a policy, the command line gives one. -/
theorem unwrapPolicy_ok {options : Options} (ho : options.Sound)
    (h : ∃ name, options.inputSource = .simulateBuiltin name ∨ options.inputSource = .simulateFile name) :
    ∃ policy, unwrapPolicy options = .ok policy := by
  have hsome : options.policy.isSome = true := by
    have hsource := ho.source
    obtain ⟨name, hname | hname⟩ := h <;> rwa [sourceAllows, hname] at hsource
  obtain ⟨policy, hpolicy⟩ := Option.isSome_iff_exists.mp hsome
  exact ⟨policy, by rw [unwrapPolicy, hpolicy]⟩

/-- The errors that the program answers with a text. -/
def Answered (e : AppError) : Prop :=
  e = .raised (utf8 "NotATerminal") ∨ e = .raised (utf8 "NonTtyDashboardRequiresSnapshot") ∨
    e = .raised (utf8 "InvalidArguments")

theorem bootstrap_settles (hs : sources.Bounded) {options : Options} (ho : options.Sound) {app : App}
    (h : app.Bounded) (stdinIsTty : Bool) :
    Settles App.Bounded (fun e => sources.Raises e ∨ Answered e) (bootstrap sources app options stdinIsTty) := by
  have hread : ∀ {x : Except AppError App}, Settles App.Bounded sources.Raises x →
      Settles App.Bounded (fun e => sources.Raises e ∨ Answered e) x := fun hx => hx.mono (fun _ h => h) fun _ => Or.inl
  unfold bootstrap
  split
  next =>
    split_ifs
    · exact h
    · exact Or.inr (Or.inr (Or.inl rfl))
  next path _ =>
    have hreport : Settles ParsedReport.Bounded sources.Raises (sources.readReport path) :=
      .of (hs.file path) fun _ he => .file path he
    exact hread (hreport.bind fun report _ hb => loadReport_bounded app hb)
  next =>
    have hreport : Settles ParsedReport.Bounded sources.Raises sources.stdinReport := .of hs.stdin fun _ he => .stdin he
    exact hread (hreport.bind fun report _ hb => loadReport_bounded app hb)
  next name hname =>
    obtain ⟨policy, hpolicy⟩ := unwrapPolicy_ok ho ⟨name, Or.inl hname⟩
    rw [hpolicy, ok_bind]
    exact hread ((loadSimulation_settles hs _ _).bind fun loaded _ hb => hb)
  next path hpath =>
    obtain ⟨policy, hpolicy⟩ := unwrapPolicy_ok ho ⟨path, Or.inr hpath⟩
    rw [hpolicy, ok_bind]
    exact hread ((loadSimulation_settles hs _ _).bind fun loaded _ hb => hb)
  next => exact hread ((loadObservabilityFixture_settles _).bind fun loaded _ hb => hb)
  next => exact hread ((loadObservabilityFixture_settles _).bind fun loaded _ hb => hb)
  next => exact hread ((loadObservabilityComparison_settles _).bind fun loaded _ hb => hb)
  next => exact hread ((loadObservabilityComparison_settles _).bind fun loaded _ hb => hb)

theorem renderSnapshot_settles {app : App} (h : app.Bounded) (options : Options) :
    Settles App.Bounded Answered (renderSnapshot app options) := by
  have hinvalid : Answered (.raised (utf8 "InvalidArguments")) := Or.inr (Or.inr rfl)
  unfold renderSnapshot
  split_ifs
  · exact hinvalid
  · split
    · split
      · exact hinvalid
      · split
        · split_ifs
          · exact hinvalid
          · exact h
        · exact h
    · exact h
    · exact h

theorem run_settles (hs : sources.Bounded) {options : Options} (ho : options.Sound) (console : Console) :
    Settles (fun _ => True) (fun e => (sources.Raises e ∨ console.drawing.Raises sources e) ∨ Answered e)
      (run sources options console) := by
  have hraised : ∀ e, sources.Raises e ∨ Answered e →
      (sources.Raises e ∨ console.drawing.Raises sources e) ∨ Answered e := fun _ h => h.imp_left Or.inl
  have hcards : Settles (fun _ => True) (fun e => sources.Raises e ∨ Answered e) (buildDashboardEntries sources) :=
    (Settles.mapM fun entry _ => buildDashboardEntry_settles hs entry _).mono (fun _ _ => trivial) fun _ => Or.inl
  have hterminal : Settles (fun _ => True) (fun e => sources.Raises e ∨ Answered e)
      (validateTerminalMode options console.stdinIsTty console.stdoutIsTty) := by
    unfold validateTerminalMode
    split_ifs
    · exact trivial
    · exact trivial
    · exact Or.inr (Or.inr (Or.inl rfl))
    · exact Or.inr (Or.inl rfl)
  refine (hcards.mono (fun _ h => h) hraised).bind fun dashboardEntries he _ => ?_
  refine (hterminal.mono (fun _ h => h) hraised).bind fun _ _ _ => ?_
  have hempty : App.Bounded { dashboardEntries } := nofun
  refine ((bootstrap_settles hs ho hempty console.stdinIsTty).mono (fun _ h => h) hraised).bind fun app hb happ => ?_
  have hgood := bootstrapped_good he hb
  split
  · refine ((renderSnapshot_settles happ options).mono (fun _ h => h) fun _ => Or.inr).bind fun drawn hd hdrawn => ?_
    have hshown : Settles (fun _ => True) (fun e => (sources.Raises e ∨ console.drawing.Raises sources e) ∨ Answered e)
        (console.drawing.snapshot drawn ⟨options.snapshotWidth, options.snapshotHeight⟩) :=
      .of (fun _ _ => trivial) fun _ he =>
        Or.inl (Or.inr (.snapshot drawn _ (renderSnapshot_good hgood hd).1 hdrawn he))
    exact hshown.bind fun _ _ _ => trivial
  · obtain ⟨focus, hf⟩ := normalizeLayoutState_eq app
      (normalizeInteractiveSize console.firstSize defaultInteractiveSize)
    have hfirst := first_good hgood console.firstSize
    have hloop := displayLoop_settles hs console.drawing console.inputs true hfirst (by
      rw [hf]
      exact happ)
    exact (hloop.mono (fun _ h => h) fun _ => Or.inl).bind fun session _ _ => trivial

/-- **The program ends with an error only when a source cannot be read or a state cannot be drawn**, on every command
line, on every terminal and after every sequence of events: nothing that the shell itself does with its state fails. -/
theorem runTui_error (sources : Sources) (hs : sources.Bounded) (args : List Bytes) (console : Console) {e : AppError}
    (h : runTui sources args console = .error e) : sources.Raises e ∨ console.drawing.Raises sources e := by
  unfold runTui at h
  split at h
  · cases h
  next options hargs =>
    split at h
    · cases h
    next e' hrun =>
      split_ifs at h with h₁ h₂ h₃
      obtain rfl := Except.error.inj h
      rcases (run_settles hs (parseArgs_sound hargs) console).error hrun with hraises | hanswered
      · exact hraises
      · rcases hanswered with ha | ha | ha
        · exact absurd ha h₁
        · exact absurd ha h₂
        · exact absurd ha h₃

def errorOf {ε α : Type} : Except ε α → Option ε
  | .error e => some e
  | .ok _ => none

theorem errorOf_eq_some {ε α : Type} {r : Except ε α} {e : ε} : errorOf r = some e ↔ r = .error e := by
  cases r <;> simp [errorOf]

/-- The summary of an observability fixture that is not there. -/
theorem runTui_error_lone : loneSources.Raises (.raised (utf8 "FileNotFound")) := by
  have hbounded : loneSources.Bounded := ⟨fun _ _ h => Except.ok.inj h ▸ ⟨by decide, by decide⟩, nofun, nofun⟩
  have hrun : errorOf (runTui loneSources []
    ⟨true, true, ⟨0, 0⟩, [(⟨100, 30⟩, .down), (⟨100, 30⟩, .char 111)], plain⟩) =
      some (.raised (utf8 "FileNotFound")) := by decide +kernel
  rcases runTui_error loneSources hbounded _ _ (errorOf_eq_some.mp hrun) with hraises | hraises
  · exact hraises
  · cases hraises with
    | frame session _ _ h => cases h
    | snapshot app size _ _ h => cases h

end Runs

end Exasphere.Tui

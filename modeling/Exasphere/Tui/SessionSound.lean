import Exasphere.Sim.Comparison
import Exasphere.Tui.Session

/-!
# What holds in every session

`Good` collects what the shell relies on between two events: the view fits what is loaded, the cursor and the selections
are in range, the dashboard's cards are simulations of the scenarios they name, at most one source is loaded, and the
replay runs only over a report. Every action keeps it (`handleAction_good`), so it holds after every sequence of events
(`runTui_good`).
-/

namespace Exasphere.Tui

open Exasphere.Lib Exasphere.Sim

/-! ## The invariant -/

/-- A view fits the domain and what is loaded. -/
def View.Fits (domainMode : DomainMode) (report compare selected : Bool) : View → Prop
  | .home | .scenario | .performance | .reports => domainMode = .simulator
  | .explorer => domainMode = .simulator ∧ report
  | .drawer => domainMode = .simulator ∧ report ∧ selected
  | .diff => domainMode = .simulator ∧ report ∧ compare
  | .observabilitySummary => domainMode = .observabilitySummary
  | .observabilityComparison => domainMode = .observabilityComparison
  | .help => True

/-- More may be loaded. -/
theorem View.Fits.mono {view : View} {domainMode : DomainMode}
    {report compare selected report' compare' selected' : Bool} (h : view.Fits domainMode report compare selected)
    (hr : report = true → report' = true) (hc : compare = true → compare' = true)
    (hs : selected = true → selected' = true) : view.Fits domainMode report' compare' selected' := by
  cases view
  case explorer => exact ⟨h.1, hr h.2⟩
  case drawer => exact ⟨h.1, hr h.2.1, hs h.2.2⟩
  case diff => exact ⟨h.1, hr h.2.1, hc h.2.2⟩
  all_goals exact h

/-- The views that keep a replay running. -/
def View.Replays (view : View) : Prop := view = .explorer ∨ view = .drawer ∨ view = .diff ∨ view = .help

/-- `other` simulates the scenario of the report's source under the other policy, with the report's quantum. -/
def ComparedWith (sources : Sources) (source : SimulationSource) (report other : ParsedReport) : Prop :=
  ∃ scenario, sources.loadScenario source = .ok scenario ∧
    simulateReport source
      (if comparePolicy report.policy = .roundRobin then
        { scenario with roundRobinQuantum := report.roundRobinQuantum } else scenario)
      (comparePolicy report.policy) = .ok other

structure Good (sources : Sources) (app : App) : Prop where
  index : app.dashboardIndex < app.dashboardEntries.length
  /-- The cards are the entries of the core pack, in order, each simulated under the policy it shows. -/
  cards : List.Forall₂ (fun entry card => buildDashboardEntry sources entry card.policy = .ok card) corePackEntries
    app.dashboardEntries
  view : app.view.Fits app.domainMode app.currentReport.isSome app.compareReport.isSome app.selectedTaskIndex.isSome
  fixture : app.domainMode = .observabilitySummary → app.observabilityFixture.isSome
  comparison : app.domainMode = .observabilityComparison → app.observabilityComparison.isSome
  /-- At most one source is loaded. -/
  report_only : app.currentReport.isSome → app.observabilityFixture = none ∧ app.observabilityComparison = none
  fixture_only : app.observabilityFixture.isSome → app.observabilityComparison = none
  source : app.source.isSome = app.currentReport.isSome
  cursor : app.cursor ≤ app.currentReport.elim 0 (fun report => lastTick report.toReport)
  selected : ∀ task ∈ app.selectedTaskIndex, ∃ report ∈ app.currentReport, task < report.tasks.length
  compare : ∀ other ∈ app.compareReport, ∃ report ∈ app.currentReport, ∃ source ∈ app.source,
    ComparedWith sources source report other
  playing : app.playing = true → app.domainMode = .simulator ∧ app.currentReport.isSome ∧ app.view.Replays
  history_le : app.history.length ≤ 4
  history_ne : app.history.IsChain (· ≠ ·)

section Steps

variable {sources : Sources} {app app' : App} {contract : ViewLayoutContract}

/-! ## History -/

theorem appendHistory_history (app : App) (h : app.history.IsChain (· ≠ ·)) (label : Bytes) :
    (appendHistory app label).history.length ≤ 4 ∧ (appendHistory app label).history.IsChain (· ≠ ·) := by
  have hchain : (if app.history.getLast? = some label then app.history
      else app.history ++ [label]).IsChain (· ≠ ·) := by
    split_ifs with hlast
    · exact h
    · refine List.isChain_append.mpr ⟨h, List.isChain_singleton _, ?_⟩
      simp only [List.head?_cons, Option.mem_some_iff, forall_eq']
      rintro x hx rfl
      exact hlast hx
  refine ⟨?_, ?_⟩
  · simp only [appendHistory, List.length_drop]
    omega
  · exact hchain.drop _

/-! ## Loading -/

/-- A loaded report opens in the explorer. -/
theorem loadReport_good (h : Good sources app) (report : ParsedReport) (source : SimulationSource) :
    Good sources { loadReport app report with source := some source, view := .explorer } := by
  obtain ⟨hle, hne⟩ := appendHistory_history ({ clearObservabilityState (clearSimulatorState app) with
    currentReport := some report, domainMode := .simulator, cursor := 0,
    selectedTaskIndex := if report.tasks.length > 0 then some 0 else none, source := some report.source })
    h.history_ne (historyLabel [report.scenarioName, report.policy.tagName])
  refine ⟨h.index, h.cards, ⟨rfl, rfl⟩, nofun, nofun, fun _ => ⟨rfl, rfl⟩, fun _ => rfl, rfl, Nat.zero_le _, ?_, nofun,
    fun _ => ⟨rfl, rfl, Or.inl rfl⟩, hle, hne⟩
  intro task htask
  refine ⟨report, rfl, ?_⟩
  simp only [loadReport, appendHistory] at htask
  split_ifs at htask with hpos
  · exact Option.mem_some_iff.mp htask ▸ hpos
  · simp at htask

theorem loadSimulation_good (h : Good sources app) {source : SimulationSource} {policy : PolicyKind}
    (hl : loadSimulation sources app source policy = .ok app') : Good sources { app' with view := .explorer } := by
  obtain ⟨scenario, -, hl⟩ := bind_eq_ok.mp hl
  obtain ⟨report, -, hl⟩ := bind_eq_ok.mp hl
  rw [← Except.ok.inj hl]
  exact loadReport_good h report source

theorem openDashboardSelection_good (h : Good sources app) (ho : openDashboardSelection sources app = .ok app') :
    Good sources app' ∧ app'.view = .explorer := by
  unfold openDashboardSelection at ho
  split at ho
  · cases ho
  · obtain ⟨loaded, hl, ho⟩ := bind_eq_ok.mp ho
    rw [← Except.ok.inj ho]
    exact ⟨loadSimulation_good h hl, rfl⟩

theorem loadObservabilityFixture_good (h : Good sources app) (hp : app.playing = false) {path : Bytes}
    (hl : loadObservabilityFixture sources app path = .ok app') :
    Good sources { app' with view := .observabilitySummary } := by
  obtain ⟨fixture, -, hl⟩ := bind_eq_ok.mp hl
  obtain ⟨hle, hne⟩ := appendHistory_history ({ clearObservabilityState (clearSimulatorState app) with
    observabilityFixture := some fixture, domainMode := .observabilitySummary, source := none, cursor := 0,
    selectedTaskIndex := none }) h.history_ne (historyLabel [utf8 "observability", fixture.fixtureName])
  rw [← Except.ok.inj hl]
  exact ⟨h.index, h.cards, rfl, fun _ => rfl, nofun, nofun, fun _ => rfl, rfl, le_refl _, nofun, nofun,
    fun hplay => (nomatch hp.symm.trans hplay), hle, hne⟩

theorem loadObservabilityComparison_good (h : Good sources app) (hp : app.playing = false) {path : Bytes}
    (hl : loadObservabilityComparison sources app path = .ok app') :
    Good sources { app' with view := .observabilityComparison } := by
  obtain ⟨comparison, -, hl⟩ := bind_eq_ok.mp hl
  obtain ⟨hle, hne⟩ := appendHistory_history ({ clearObservabilityState (clearSimulatorState app) with
    observabilityComparison := some comparison, domainMode := .observabilityComparison, source := none, cursor := 0,
    selectedTaskIndex := none }) h.history_ne (historyLabel [utf8 "comparison", comparison.pairingId])
  rw [← Except.ok.inj hl]
  exact ⟨h.index, h.cards, rfl, nofun, fun _ => rfl, nofun, nofun, rfl, le_refl _, nofun, nofun,
    fun hplay => (nomatch hp.symm.trans hplay), hle, hne⟩

theorem ensureCompareReport_good (h : Good sources app) (hd : app.domainMode = .simulator)
    (he : ensureCompareReport sources app = .ok app') :
    Good sources app' ∧ ∃ compareReport, app' = { app with compareReport } := by
  unfold ensureCompareReport at he
  rw [if_neg (by simp [hd])] at he
  split_ifs at he with hc
  · rw [← Except.ok.inj he]
    exact ⟨h, _, rfl⟩
  · split at he
    next report source hr hs =>
      obtain ⟨scenario, hscenario, he⟩ := bind_eq_ok.mp he
      obtain ⟨compare, hcompare, he⟩ := bind_eq_ok.mp he
      rw [← Except.ok.inj he]
      refine ⟨{ h with
        view := ?_
        compare := ?_ }, _, rfl⟩
      · exact h.view.mono id (fun _ => rfl) id
      · intro other ho
        obtain rfl := Option.mem_some_iff.mp ho
        exact ⟨report, hr, source, hs, scenario, hscenario, hcompare⟩
    next =>
      rw [← Except.ok.inj he]
      exact ⟨h, _, rfl⟩

theorem buildDashboardEntry_names {entry : ScenarioPackEntry} {policy : PolicyKind} {card : DashboardEntry}
    (h : buildDashboardEntry sources entry policy = .ok card) :
    card.policy = policy ∧ card.scenarioLabel = entry.key ∧ card.scenarioKey = entry.path := by
  obtain ⟨scenario, -, h⟩ := bind_eq_ok.mp h
  obtain ⟨result, -, h⟩ := bind_eq_ok.mp h
  obtain ⟨tasks, -, h⟩ := bind_eq_ok.mp h
  obtain ⟨ticks, -, h⟩ := bind_eq_ok.mp h
  rw [← Except.ok.inj h]
  exact ⟨rfl, rfl, rfl⟩

theorem forall₂_set {α β : Type*} {R : α → β → Prop} {l : List α} {l' : List β} (h : List.Forall₂ R l l') {i : Nat}
    {b : β} (hb : ∀ a, l[i]? = some a → R a b) : List.Forall₂ R l (l'.set i b) := by
  induction h generalizing i with
  | nil => exact .nil
  | cons hr h ih =>
    cases i with
    | zero => exact .cons (hb _ rfl) h
    | succ i => exact .cons hr (ih hb)

theorem corePackEntries_nodup : (corePackEntries.map ScenarioPackEntry.key).Nodup := by decide +kernel

theorem find?_of_nodup {α κ : Type*} [DecidableEq κ] {key : α → κ} {l : List α} (h : (l.map key).Nodup) {a : α}
    (ha : a ∈ l) : l.find? (fun b => key b = key a) = some a := by
  induction l with
  | nil => cases ha
  | cons b l ih =>
    obtain ⟨hb, hl⟩ := List.nodup_cons.mp h
    rcases List.mem_cons.mp ha with rfl | ha
    · simp
    · have hne : key b ≠ key a := fun heq => hb (heq ▸ List.mem_map_of_mem ha)
      rw [List.find?_cons_of_neg (by simpa using hne)]
      exact ih hl ha

/-- A card names the entry at its place. -/
theorem findScenarioPackEntry_card (h : Good sources app) {i : Nat} {card : DashboardEntry}
    (hcard : app.dashboardEntries[i]? = some card) :
    corePackEntries[i]? = findScenarioPackEntry card.scenarioLabel := by
  obtain ⟨hi, rfl⟩ := List.getElem?_eq_some_iff.mp hcard
  have hlen := h.cards.length_eq
  have hbuilt := h.cards.get (by omega) hi
  simp only [List.get_eq_getElem] at hbuilt
  rw [(buildDashboardEntry_names hbuilt).2.1, List.getElem?_eq_getElem (by omega)]
  exact (find?_of_nodup corePackEntries_nodup (List.getElem_mem _)).symm

theorem catchError_ok {x : Except AppError App} (h : catchError app x = .ok app') : x = .ok app' ∨ app' = app := by
  unfold catchError at h
  split at h
  · exact Or.inl h
  · split_ifs at h
    exact Or.inr (Except.ok.inj h).symm

theorem cycleDashboardPolicy_good (h : Good sources app) {reverse : Bool}
    (hc : cycleDashboardPolicy sources app reverse = .ok app') : Good sources app' ∧ app'.view = app.view := by
  unfold cycleDashboardPolicy at hc
  split at hc
  · cases hc
  rcases catchError_ok hc with hu | rfl
  · unfold updateDashboardEntry at hu
    split at hu
    · cases hu
    next current hcurrent =>
      split at hu
      · cases hu
      next entry hentry =>
        obtain ⟨built, hb, hu⟩ := bind_eq_ok.mp hu
        rw [← Except.ok.inj hu]
        refine ⟨{ h with
          index := ?_
          cards := ?_ }, rfl⟩
        · simpa using h.index
        · refine forall₂_set h.cards fun entry' he' => ?_
          rw [findScenarioPackEntry_card h hcurrent, hentry] at he'
          obtain rfl := Option.some.inj he'
          rw [(buildDashboardEntry_names hb).1]
          exact hb
  · exact ⟨h, rfl⟩

/-! ## Actions -/

/-- The first view of the domain fits. -/
theorem primaryView_fits (app : App) (compare selected : Bool) :
    (primaryView app).Fits app.domainMode app.currentReport.isSome compare selected := by
  unfold primaryView
  cases app.domainMode with
  | simulator =>
    simp only
    split_ifs with hr
    · exact ⟨rfl, hr.2⟩
    · rfl
  | observabilitySummary => rfl
  | observabilityComparison => rfl

/-- Leaving the help returns to a view that fits, and to the explorer while a replay runs. -/
theorem leaveHelp_good (h : Good sources app) (hv : app.view = .help) :
    Good sources { app with view := primaryView app } := by
  refine { h with
    view := primaryView_fits app _ _
    playing := fun hp => ?_ }
  obtain ⟨hd, hr, -⟩ := h.playing hp
  refine ⟨hd, hr, Or.inl ?_⟩
  simp only [primaryView, hd, hv, hr, and_self, if_true]

theorem moveCursor_good (h : Good sources app) {delta : Int} (hm : moveCursor app delta = .ok app') :
    Good sources app' := by
  unfold moveCursor at hm
  split at hm
  · rw [← Except.ok.inj hm]
    exact h
  next report hr =>
    obtain ⟨next, -, hm⟩ := bind_eq_ok.mp hm
    rw [← Except.ok.inj hm]
    refine { h with
      cursor := ?_ }
    simp only [hr, Option.elim_some]
    split_ifs
    · exact Nat.zero_le _
    · exact Nat.min_le_left _ _

theorem advanceCursor_good (h : Good sources app) : Good sources (advanceCursor app) := by
  unfold advanceCursor
  split
  · exact h
  next report hr =>
    refine { h with
      cursor := ?_ }
    simp only [hr, Option.elim_some]
    split_ifs
    · exact Nat.zero_le _
    · omega

theorem moveTask_good (h : Good sources app) {delta : Int} (hm : moveTask app delta = .ok app') :
    Good sources app' := by
  unfold moveTask at hm
  split at hm
  · rw [← Except.ok.inj hm]
    exact h
  next report hr =>
    split_ifs at hm with hlen
    · rw [← Except.ok.inj hm]
      exact h
    · obtain ⟨next, -, hm⟩ := bind_eq_ok.mp hm
      rw [← Except.ok.inj hm]
      refine { h with
        view := h.view.mono id id fun _ => rfl
        selected := ?_ }
      intro task htask
      obtain rfl := Option.mem_some_iff.mp htask
      refine ⟨report, hr, ?_⟩
      split_ifs
      · omega
      · exact Nat.mod_lt _ (by omega)

theorem moveSelection_good (h : Good sources app) {delta : Int} (hm : moveSelection app contract delta = .ok app') :
    Good sources app' := by
  have hindex := h.index
  have hself : ∀ {index : Nat}, index < app.dashboardEntries.length →
      Good sources { app with dashboardIndex := index } := fun hi => { h with
    index := hi }
  unfold moveSelection at hm
  split_ifs at hm
  · rw [← Except.ok.inj hm]
    exact h
  · rw [← Except.ok.inj hm]
    exact hself (by omega)
  · rw [← Except.ok.inj hm]
    exact hself (by omega)
  · rw [← Except.ok.inj hm]
    exact h
  · exact moveTask_good h hm

theorem handleEnter_good (h : Good sources app) (hh : handleEnter sources app contract = .ok app') :
    Good sources app' := by
  unfold handleEnter at hh
  split at hh
  next => exact (openDashboardSelection_good h hh).1
  next =>
    obtain ⟨opened, ho, hh⟩ := bind_eq_ok.mp hh
    obtain ⟨hopened, hv⟩ := openDashboardSelection_good h ho
    rw [← Except.ok.inj hh, ← hv]
    exact hopened
  next hv =>
    split_ifs at hh with hd
    · rw [← Except.ok.inj hh]
      have hfits := h.view
      rw [hv] at hfits
      exact { h with
        view := ⟨hfits.1, hfits.2, hd.2⟩
        playing := fun hp => ⟨(h.playing hp).1, (h.playing hp).2.1, Or.inr (Or.inl rfl)⟩ }
    · rw [← Except.ok.inj hh]
      exact h
  next hv =>
    rw [← Except.ok.inj hh]
    exact leaveHelp_good h hv
  next =>
    rw [← Except.ok.inj hh]
    exact h

theorem handleEscape_good (h : Good sources app) : Good sources (handleEscape app) := by
  have hfits := h.view
  have hstop : ¬app.view.Replays → app.playing = true → False := fun hv hp => hv (h.playing hp).2.2
  unfold handleEscape
  split
  next hv => exact leaveHelp_good h hv
  next hv =>
    rw [hv] at hfits
    exact { h with
      view := ⟨hfits.1, hfits.2.1⟩
      playing := fun hp => ⟨(h.playing hp).1, (h.playing hp).2.1, Or.inl rfl⟩ }
  next hv =>
    rw [hv] at hfits
    exact { h with
      view := ⟨hfits.1, hfits.2.1⟩
      playing := fun hp => ⟨(h.playing hp).1, (h.playing hp).2.1, Or.inl rfl⟩ }
  next hv =>
    rw [hv] at hfits hstop
    exact { h with
      view := hfits
      playing := fun hp => (hstop (by simp [View.Replays]) hp).elim }
  next hv =>
    rw [hv] at hfits hstop
    exact { h with
      view := hfits
      playing := fun hp => (hstop (by simp [View.Replays]) hp).elim }
  next hv =>
    rw [hv] at hfits hstop
    exact { h with
      view := hfits
      playing := fun hp => (hstop (by simp [View.Replays]) hp).elim }
  next hv =>
    rw [hv] at hstop
    split_ifs with hd
    · exact { h with
        view := hd
        playing := fun hp => (hstop (by simp [View.Replays]) hp).elim }
    · exact h
  next hv =>
    rw [hv] at hfits
    exact { h with
      view := by rw [hv]; exact hfits
      selected := nofun }
  next => exact h
  next => exact h

theorem focus_good (h : Good sources app) (focus : PaneFocus) : Good sources { app with focus } := { h with }

theorem cycleFocus_good (h : Good sources app) (reverse : Bool) : Good sources (cycleFocus app contract reverse) := by
  unfold cycleFocus
  split
  · exact focus_good h _
  · exact h

theorem toggleDiff_good (h : Good sources app) (ht : toggleDiff sources app contract = .ok app') :
    Good sources app' := by
  unfold toggleDiff at ht
  split_ifs at ht with hd hv hc hr
  · rw [← Except.ok.inj ht]
    exact h
  · rw [← Except.ok.inj ht]
    have hfits := h.view
    rw [hv] at hfits
    exact { h with
      view := ⟨hfits.1, hfits.2.1⟩
      playing := fun hp => ⟨(h.playing hp).1, (h.playing hp).2.1, Or.inl rfl⟩ }
  · rw [← Except.ok.inj ht]
    exact h
  · rw [← Except.ok.inj ht]
    exact h
  · rw [not_not] at hd
    obtain ⟨compared, he, ht⟩ := bind_eq_ok.mp ht
    obtain ⟨hcompared, compareReport, rfl⟩ := ensureCompareReport_good h hd he
    rw [← Except.ok.inj ht]
    split_ifs with hsome
    · exact { hcompared with
        view := ⟨hd, by simpa [Option.isSome_iff_ne_none] using hr, hsome⟩
        playing := fun hp => ⟨(h.playing hp).1, (h.playing hp).2.1, Or.inr (Or.inr (Or.inl rfl))⟩ }
    · exact hcompared

theorem openTimeline_good (h : Good sources app) (ho : openTimeline sources app = .ok app') : Good sources app' := by
  unfold openTimeline at ho
  split_ifs at ho with hd hr
  · rw [← Except.ok.inj ho]
    exact h
  · rw [← Except.ok.inj ho]
    exact { h with
      view := ⟨not_not.mp hd, hr⟩
      playing := fun hp => ⟨(h.playing hp).1, (h.playing hp).2.1, Or.inl rfl⟩ }
  · obtain ⟨opened, hopen, ho⟩ := bind_eq_ok.mp ho
    obtain ⟨hopened, hv⟩ := openDashboardSelection_good h hopen
    rw [← Except.ok.inj ho, ← hv]
    exact hopened

theorem scrub_good (h : Good sources app) {event : Event} :
    (scrubLeft app event = .ok app' → Good sources app') ∧ (scrubRight app event = .ok app' → Good sources app') := by
  constructor
  · intro hs
    unfold scrubLeft at hs
    split_ifs at hs
    · rw [← Except.ok.inj hs]
      exact h
    · rw [← Except.ok.inj hs]
      exact { h with cursor := Nat.zero_le _ }
    · exact moveCursor_good h hs
  · intro hs
    unfold scrubRight at hs
    split_ifs at hs
    · rw [← Except.ok.inj hs]
      exact h
    · rw [← Except.ok.inj hs]
      split
      next report hr => exact { h with cursor := by simp [hr] }
      next => exact h
    · exact moveCursor_good h hs

theorem map_some_ok {x : Except AppError App} (h : some <$> x = .ok (some app')) : x = .ok app' := by
  cases x with
  | error e => cases h
  | ok a =>
    obtain rfl : a = app' := by simpa using Except.ok.inj h
    rfl

/-- **Every action that the screen binds keeps the invariant.** -/
theorem handleAction_good (h : Good sources app) {action : ActionId} {event : Event}
    (hb : Bound (dashboardScreenForView app.view) action)
    (ha : handleAction sources app contract action event = .ok (some app')) : Good sources app' := by
  -- a replay does not run on the screens that open another source or a status page
  have hstop : dashboardScreenForView app.view = .home ∨ dashboardScreenForView app.view = .observability →
      app.playing = false := by
    intro hv
    by_contra hp
    have hreplays := (h.playing (by simpa using hp)).2.2
    rcases hreplays with hr | hr | hr | hr <;> simp [hr, dashboardScreenForView] at hv
  have hpage : action = .scenarioDetails ∨ action = .performance ∨ action = .reports → app.playing = false ∧
      app.domainMode = .simulator := by
    intro hid
    have hs := bound_home hb hid
    refine ⟨hstop (Or.inl hs), ?_⟩
    have hfits := h.view
    revert hs hfits
    cases app.view <;> simp [dashboardScreenForView, View.Fits]
  unfold handleAction at ha
  cases action with
  | quit => cases ha
  | help =>
    obtain rfl := Option.some.inj (Except.ok.inj ha)
    split_ifs with hmode hv
    · exact leaveHelp_good h hv
    · exact { h with
        view := trivial
        playing := fun hp => ⟨(h.playing hp).1, (h.playing hp).2.1, Or.inr (Or.inr (Or.inr rfl))⟩ }
    · exact h
  | back =>
    obtain rfl := Option.some.inj (Except.ok.inj ha)
    exact handleEscape_good h
  | home =>
    obtain rfl := Option.some.inj (Except.ok.inj ha)
    exact { h with
      view := rfl
      fixture := nofun
      comparison := nofun
      playing := nofun }
  | theme =>
    obtain rfl := Option.some.inj (Except.ok.inj ha)
    exact { h with }
  | moveUp =>
    have ha := map_some_ok ha
    split_ifs at ha
    · exact moveSelection_good h ha
    · exact Except.ok.inj ha ▸ h
  | moveDown =>
    have ha := map_some_ok ha
    split_ifs at ha
    · exact moveSelection_good h ha
    · exact Except.ok.inj ha ▸ h
  | nextFocus =>
    obtain rfl := Option.some.inj (Except.ok.inj ha)
    exact cycleFocus_good h _
  | previousFocus =>
    obtain rfl := Option.some.inj (Except.ok.inj ha)
    exact cycleFocus_good h _
  | activate => exact handleEnter_good h (map_some_ok ha)
  | scenarioDetails =>
    obtain ⟨hp, -⟩ := hpage (Or.inl rfl)
    obtain rfl := Option.some.inj (Except.ok.inj ha)
    split_ifs with hd
    · exact { h with
        view := hd
        playing := fun hplay => nomatch hp.symm.trans hplay }
    · exact h
  | timeline => exact openTimeline_good h (map_some_ok ha)
  | observability =>
    obtain ⟨opened, ho, ha⟩ := bind_eq_ok.mp (map_some_ok ha)
    exact Except.ok.inj ha ▸ loadObservabilityFixture_good h (hstop (bound_observability hb (Or.inl rfl))) ho
  | observabilityComparison =>
    obtain ⟨opened, ho, ha⟩ := bind_eq_ok.mp (map_some_ok ha)
    exact Except.ok.inj ha ▸ loadObservabilityComparison_good h (hstop (bound_observability hb (Or.inr rfl))) ho
  | performance =>
    obtain ⟨hp, hd⟩ := hpage (Or.inr (Or.inl rfl))
    obtain rfl := Option.some.inj (Except.ok.inj ha)
    exact { h with
      view := hd
      playing := fun hplay => nomatch hp.symm.trans hplay }
  | reports =>
    obtain ⟨hp, hd⟩ := hpage (Or.inr (Or.inr rfl))
    obtain rfl := Option.some.inj (Except.ok.inj ha)
    exact { h with
      view := hd
      playing := fun hplay => nomatch hp.symm.trans hplay }
  | playPause =>
    obtain rfl := Option.some.inj (Except.ok.inj ha)
    split_ifs with hplay
    · have hfits := h.view
      rw [hplay.2.1] at hfits
      exact { h with playing := fun _ => ⟨hplay.1, hfits.2, Or.inl hplay.2.1⟩ }
    · exact h
  | scrubLeft => exact (scrub_good h).1 (map_some_ok ha)
  | scrubRight => exact (scrub_good h).2 (map_some_ok ha)
  | taskDetails => exact handleEnter_good h (map_some_ok ha)
  | policyCompare =>
    have ha := map_some_ok ha
    split_ifs at ha
    · exact toggleDiff_good h ha
    · exact Except.ok.inj ha ▸ h
  | previousPolicy =>
    have ha := map_some_ok ha
    split_ifs at ha
    · exact (cycleDashboardPolicy_good h ha).1
    · exact Except.ok.inj ha ▸ h
  | nextPolicy =>
    have ha := map_some_ok ha
    split_ifs at ha
    · exact (cycleDashboardPolicy_good h ha).1
    · exact Except.ok.inj ha ▸ h

end Steps

/-! ## Every run -/

section Runs

variable {sources : Sources} {session session' : Session}

/-- The focus is on a visible pane, wherever the layout has panes. -/
def Session.Focused (session : Session) : Prop :=
  (activeContract session.app session.size).panes ≠ [] →
    focusVisible (activeContract session.app session.size) session.app.focus = true

structure Session.Good (sources : Sources) (session : Session) : Prop where
  app : Tui.Good sources session.app
  cols : 0 < session.size.cols
  rows : 0 < session.size.rows
  area : session.size.cols * session.size.rows ≤ maxRenderArea
  focused : session.Focused

theorem normalizeLayoutState_eq (app : App) (size : Size) :
    ∃ focus, normalizeLayoutState app size = { app with focus } := by
  unfold normalizeLayoutState
  split
  · exact ⟨_, rfl⟩
  · exact ⟨app.focus, rfl⟩

theorem normalizeLayoutState_focused (app : App) (size : Size) :
    Session.Focused ⟨normalizeLayoutState app size, size⟩ := by
  have hlawful := viewContract_lawful app.view size.cols size.rows app.compareReport.isSome
  unfold Session.Focused normalizeLayoutState
  split
  next focus hf => exact fun _ => normalizedFocus_visible hlawful hf
  next hf => exact fun hne => absurd (normalizedFocus_eq_none hlawful hf) hne

/-- A layout pass keeps the invariant and puts the focus on a visible pane. -/
theorem Session.Good.layout {app : App} {size : Size} (h : Tui.Good sources app) (hc : 0 < size.cols)
    (hr : 0 < size.rows) (ha : size.cols * size.rows ≤ maxRenderArea) :
    Session.Good sources ⟨normalizeLayoutState app size, size⟩ := by
  refine ⟨?_, hc, hr, ha, normalizeLayoutState_focused app size⟩
  obtain ⟨focus, hf⟩ := normalizeLayoutState_eq app size
  rw [hf]
  exact focus_good h focus

theorem normalizeInteractiveSize_range (raw : Size) {fallback : Size} (hc : 0 < fallback.cols) (hr : 0 < fallback.rows)
    (ha : fallback.cols * fallback.rows ≤ maxRenderArea) : 0 < (normalizeInteractiveSize raw fallback).cols ∧
      0 < (normalizeInteractiveSize raw fallback).rows ∧
      (normalizeInteractiveSize raw fallback).cols * (normalizeInteractiveSize raw fallback).rows ≤ maxRenderArea := by
  unfold normalizeInteractiveSize
  split_ifs with h₁ h₂
  · exact ⟨hc, hr, ha⟩
  · exact ⟨hc, hr, ha⟩
  · exact ⟨by omega, by omega, by omega⟩

theorem resize_good (h : session.Good sources) (rawSize : Size) : (session.resize rawSize).Good sources := by
  unfold Session.resize
  obtain ⟨hc, hr, ha⟩ := normalizeInteractiveSize_range rawSize h.cols h.rows h.area
  simp only
  split_ifs
  · exact h
  · exact Session.Good.layout h.app hc hr ha

/-- The replay changes nothing that the layout depends on. -/
theorem advanceCursor_focused (h : session.Focused) : { session with app := advanceCursor session.app }.Focused := by
  obtain ⟨cursor, hc⟩ : ∃ cursor, advanceCursor session.app = { session.app with cursor } := by
    unfold advanceCursor
    split
    · exact ⟨session.app.cursor, rfl⟩
    · exact ⟨_, rfl⟩
  rw [hc]
  exact h

/-- One turn of the loop keeps the invariant. -/
theorem turn_good (h : session.Good sources) {rawSize : Size} {event : Event}
    (ht : turn sources session rawSize event = .ok (some session')) : session'.Good sources := by
  have hresized := resize_good h rawSize
  have hhandled : ∀ {app : App}, handleEvent sources (session.resize rawSize).app event (session.resize rawSize).size =
      .ok (some app) → Tui.Good sources app := by
    intro app happ
    unfold handleEvent at happ
    split at happ
    · exact Option.some.inj (Except.ok.inj happ) ▸ hresized.app
    · split at happ
      · exact Option.some.inj (Except.ok.inj happ) ▸ hresized.app
      next hkey => exact handleAction_good hresized.app (actionForKey_bound hkey) happ
  have hstep : ∀ {x : Except AppError (Option App)}, (∀ {app : App}, x = .ok (some app) → Tui.Good sources app) →
      (do
        let app ← x
        .ok (app.map fun app => { session.resize rawSize with
          app := normalizeLayoutState app (session.resize rawSize).size })) = .ok (some session') →
      session'.Good sources := by
    intro x hx ht
    obtain ⟨app, rfl, ht⟩ := bind_eq_ok.mp ht
    obtain ⟨app, rfl, rfl⟩ := Option.map_eq_some_iff.mp (Except.ok.inj ht)
    exact Session.Good.layout (hx rfl) hresized.cols hresized.rows hresized.area
  unfold turn at ht
  split at ht
  next =>
    obtain rfl := Option.some.inj (Except.ok.inj ht)
    split_ifs
    · exact { hresized with
        app := advanceCursor_good hresized.app
        focused := advanceCursor_focused hresized.focused }
    · exact hresized
  next => exact hstep hhandled ht

theorem runLoop_good (inputs : List (Size × Event)) (h : session.Good sources)
    (hr : runLoop sources session inputs = .ok (some session')) : session'.Good sources := by
  induction inputs generalizing session with
  | nil => exact Option.some.inj (Except.ok.inj hr) ▸ h
  | cons input inputs ih =>
    obtain ⟨next, ht, hr⟩ := bind_eq_ok.mp hr
    cases next with
    | none => cases hr
    | some next => exact ih (turn_good h ht) hr

/-- The drawing does not change the session. -/
theorem runLoop_of_displayLoop {drawing : Drawing} {needsRedraw : Bool} {inputs : List (Size × Event)}
    {last : Option Session} (h : displayLoop sources drawing session needsRedraw inputs = .ok last) :
    runLoop sources session inputs = .ok last := by
  induction inputs generalizing session needsRedraw with
  | nil =>
    obtain ⟨_, -, h⟩ := bind_eq_ok.mp h
    exact h
  | cons input inputs ih =>
    obtain ⟨_, -, h⟩ := bind_eq_ok.mp h
    obtain ⟨next, ht, h⟩ := bind_eq_ok.mp h
    rw [runLoop, ht, ok_bind]
    cases next with
    | none => exact h
    | some next => exact ih h

end Runs

/-! ## Starting -/

section Start

variable {sources : Sources} {app app' : App} {options : Options}

/-- The cards that the program starts with. -/
theorem initial_good {dashboardEntries : List DashboardEntry}
    (h : buildDashboardEntries sources = .ok dashboardEntries) : Good sources { dashboardEntries } := by
  have hcards : List.Forall₂ (fun entry card => buildDashboardEntry sources entry card.policy = .ok card)
      corePackEntries dashboardEntries := (mapM_eq_ok.mp h).imp fun entry card hcard => by
    rw [(buildDashboardEntry_names hcard).1]
    exact hcard
  have hpos : 0 < corePackEntries.length := by decide
  exact ⟨hcards.length_eq ▸ hpos, hcards, rfl, nofun, nofun, nofun, nofun, rfl, le_refl _, nofun, nofun, nofun,
    Nat.zero_le _, .nil⟩

theorem bootstrap_good (h : Good sources app) (hp : app.playing = false) {stdinIsTty : Bool}
    (hb : bootstrap sources app options stdinIsTty = .ok app') : Good sources app' := by
  unfold bootstrap at hb
  split at hb
  next =>
    split_ifs at hb
    obtain rfl := Except.ok.inj hb
    exact { h with
      view := rfl
      fixture := nofun
      comparison := nofun
      playing := fun hplay => nomatch hp.symm.trans hplay }
  next path =>
    obtain ⟨report, -, hb⟩ := bind_eq_ok.mp hb
    exact Except.ok.inj hb ▸ loadReport_good h report report.source
  next =>
    obtain ⟨report, -, hb⟩ := bind_eq_ok.mp hb
    exact Except.ok.inj hb ▸ loadReport_good h report report.source
  next name =>
    obtain ⟨policy, -, hb⟩ := bind_eq_ok.mp hb
    obtain ⟨loaded, hl, hb⟩ := bind_eq_ok.mp hb
    exact Except.ok.inj hb ▸ loadSimulation_good h hl
  next path =>
    obtain ⟨policy, -, hb⟩ := bind_eq_ok.mp hb
    obtain ⟨loaded, hl, hb⟩ := bind_eq_ok.mp hb
    exact Except.ok.inj hb ▸ loadSimulation_good h hl
  next =>
    obtain ⟨loaded, hl, hb⟩ := bind_eq_ok.mp hb
    exact Except.ok.inj hb ▸ loadObservabilityFixture_good h hp hl
  next path =>
    obtain ⟨loaded, hl, hb⟩ := bind_eq_ok.mp hb
    exact Except.ok.inj hb ▸ loadObservabilityFixture_good h hp hl
  next =>
    obtain ⟨loaded, hl, hb⟩ := bind_eq_ok.mp hb
    exact Except.ok.inj hb ▸ loadObservabilityComparison_good h hp hl
  next path =>
    obtain ⟨loaded, hl, hb⟩ := bind_eq_ok.mp hb
    exact Except.ok.inj hb ▸ loadObservabilityComparison_good h hp hl

/-- A snapshot shows what is loaded, at a tick of its report. -/
theorem renderSnapshot_good (h : Good sources app) (hs : renderSnapshot app options = .ok app') :
    Good sources app' ∧ app'.playing = false := by
  unfold renderSnapshot at hs
  split_ifs at hs
  split at hs
  next hd =>
    split at hs
    · cases hs
    next report hr =>
      split at hs
      next tick =>
        obtain ⟨hle, hs⟩ := ite_error_eq_ok.mp hs
        obtain rfl := Except.ok.inj hs
        refine ⟨{ h with
          view := ⟨hd, by simp [hr]⟩
          cursor := ?_
          playing := nofun }, rfl⟩
        simp only [hr, Option.elim_some]
        omega
      next =>
        obtain rfl := Except.ok.inj hs
        exact ⟨{ h with
          view := ⟨hd, by simp [hr]⟩
          cursor := Nat.zero_le _
          playing := nofun }, rfl⟩
  next hd =>
    obtain rfl := Except.ok.inj hs
    exact ⟨{ h with
      view := hd
      playing := nofun }, rfl⟩
  next hd =>
    obtain rfl := Except.ok.inj hs
    exact ⟨{ h with
      view := hd
      playing := nofun }, rfl⟩

def Outcome.Good (sources : Sources) : Outcome → Prop
  | .snapshot app => Tui.Good sources app ∧ app.playing = false
  | .waiting session => session.Good sources
  | _ => True

theorem bootstrapped_good {dashboardEntries : List DashboardEntry} {stdinIsTty : Bool}
    (he : buildDashboardEntries sources = .ok dashboardEntries)
    (hb : bootstrap sources { dashboardEntries } options stdinIsTty = .ok app) : Good sources app :=
  bootstrap_good (initial_good he) rfl hb

/-- The first layout of a run. -/
theorem first_good (h : Good sources app) (firstSize : Size) :
    Session.Good sources ⟨normalizeLayoutState app (normalizeInteractiveSize firstSize defaultInteractiveSize),
      normalizeInteractiveSize firstSize defaultInteractiveSize⟩ := by
  have hdefault : 0 < defaultInteractiveSize.cols ∧ 0 < defaultInteractiveSize.rows ∧
      defaultInteractiveSize.cols * defaultInteractiveSize.rows ≤ maxRenderArea := by decide
  obtain ⟨hc, hr, ha⟩ := normalizeInteractiveSize_range firstSize hdefault.1 hdefault.2.1 hdefault.2.2
  exact Session.Good.layout h hc hr ha

theorem run_good {console : Console} {outcome : Outcome} (h : run sources options console = .ok outcome) :
    outcome.Good sources := by
  obtain ⟨dashboardEntries, he, h⟩ := bind_eq_ok.mp h
  obtain ⟨_, -, h⟩ := bind_eq_ok.mp h
  obtain ⟨app, hb, h⟩ := bind_eq_ok.mp h
  have happ := bootstrapped_good he hb
  split at h
  next =>
    obtain ⟨drawn, hd, h⟩ := bind_eq_ok.mp h
    obtain ⟨_, -, h⟩ := bind_eq_ok.mp h
    exact Except.ok.inj h ▸ renderSnapshot_good happ hd
  next =>
    obtain ⟨session, hs, h⟩ := bind_eq_ok.mp h
    obtain rfl := Except.ok.inj h
    cases session with
    | none => trivial
    | some session =>
      exact runLoop_good console.inputs (first_good happ console.firstSize) (runLoop_of_displayLoop hs)

theorem outcome_good {args : List Bytes} {console : Console} {outcome : Outcome}
    (h : runTui sources args console = .ok outcome) : outcome.Good sources := by
  unfold runTui at h
  split at h
  · exact Except.ok.inj h ▸ trivial
  · split at h
    next hr => exact Except.ok.inj h ▸ run_good hr
    · split_ifs at h <;> exact Except.ok.inj h ▸ trivial

/-- **The shell is consistent after every sequence of events**, on every command line and terminal. -/
theorem runTui_good (sources : Sources) (args : List Bytes) (console : Console) {outcome : Outcome}
    (h : runTui sources args console = .ok outcome) : outcome.Good sources :=
  outcome_good h

/-- One task of one tick. -/
def lone : ScenarioOwned where
  name := [108]
  tasks := [{ id := [97], arrivalTick := 0, burstTicks := 1 }]

/-- Every scenario is `lone`; nothing else is there. -/
def loneSources : Sources where
  loadScenario _ := .ok lone
  readReport _ := .error (.raised (utf8 "FileNotFound"))
  stdinReport := .error (.raised (utf8 "FileNotFound"))
  loadFixture _ := .error (.raised (utf8 "FileNotFound"))
  buildApprovedComparison _ := .error (.raised (utf8 "FileNotFound"))

/-- Every frame can be drawn. -/
def plain : Drawing := ⟨fun _ _ => .ok (), fun _ _ => .ok ()⟩

/-- A replay of `lone` in a terminal that shrinks, ended by the comparison of its policy with another. -/
theorem runTui_good_lone : ∃ session,
    runTui loneSources [utf8 "--scenario", [97], utf8 "--policy", utf8 "rr"]
      ⟨true, true, ⟨120, 40⟩, [(⟨120, 40⟩, .space), (⟨80, 24⟩, .none), (⟨80, 24⟩, .char 100)], plain⟩ =
        .ok (.waiting session) ∧ session.app.view = .diff ∧ session.Good loneSources := by
  have hrun : (match runTui loneSources [utf8 "--scenario", [97], utf8 "--policy", utf8 "rr"]
      ⟨true, true, ⟨120, 40⟩, [(⟨120, 40⟩, .space), (⟨80, 24⟩, .none), (⟨80, 24⟩, .char 100)], plain⟩ with
    | .ok (.waiting session) => decide (session.app.view = .diff)
    | _ => false) = true := by decide +kernel
  split at hrun
  next session h => exact ⟨session, h, of_decide_eq_true hrun, runTui_good loneSources _ _ h⟩
  · cases hrun

end Start

end Exasphere.Tui

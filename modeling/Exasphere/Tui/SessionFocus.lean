import Exasphere.Tui.SessionSound

/-!
# The focus keys of a session

In the explorer of every session that the program reaches, `tab` and `shift-tab` undo each other, and `tab` comes to
every pane that the layout shows, changing nothing else (`focus_keys`). The layout supplies the law of the cycle; here
the keys are shown to move along it, through the registry of actions and the layout pass that ends each turn.
-/

namespace Exasphere.Tui

open Exasphere.Lib Exasphere.Sim

variable {sources : Sources} {session : Session}

/-- The key that moves the focus forward, or back. -/
def focusKey (reverse : Bool) : Event := if reverse then .backtab else .tab

def Session.contract (session : Session) : ViewLayoutContract := activeContract session.app session.size

def Session.withFocus (session : Session) (focus : PaneFocus) : Session :=
  { session with app := { session.app with focus } }

@[simp] theorem Session.withFocus_contract (focus : PaneFocus) :
    (session.withFocus focus).contract = session.contract := rfl

@[simp] theorem Session.withFocus_withFocus (f g : PaneFocus) :
    (session.withFocus f).withFocus g = session.withFocus g := rfl

@[simp] theorem Session.withFocus_self : session.withFocus session.app.focus = session := rfl

theorem Session.contract_lawful : session.contract.Lawful := viewContract_lawful _ _ _ _

theorem Session.Good.withFocus (h : session.Good sources) {focus : PaneFocus}
    (hv : focusVisible session.contract focus = true) : (session.withFocus focus).Good sources :=
  ⟨focus_good h.app focus, h.cols, h.rows, h.area, fun _ => hv⟩

/-- A terminal that keeps its size leaves the layout. -/
theorem Session.Good.resize_self (h : session.Good sources) : session.resize session.size = session := by
  have hc := h.cols
  have hr := h.rows
  have ha := h.area
  have hsize : normalizeInteractiveSize session.size session.size = session.size := by
    unfold normalizeInteractiveSize
    split_ifs <;> rfl
  simp [Session.resize, hsize]

/-- A visible focus stays in the layout pass. -/
theorem normalizeLayoutState_of_visible {app : App} {size : Size}
    (h : focusVisible (activeContract app size) app.focus = true) : normalizeLayoutState app size = app := by
  rw [normalizeLayoutState, normalizedFocus, if_pos h]

/-- In the explorer, a focus key is the action on the focus, followed by the layout pass. -/
theorem turn_focusKey (h : session.Good sources) (hv : session.app.view = .explorer) (reverse : Bool) :
    turn sources session session.size (focusKey reverse) = .ok (some { session with
      app := normalizeLayoutState (cycleFocus session.app session.contract reverse) session.size }) := by
  have hevent : handleEvent sources session.app (focusKey reverse) session.size =
      .ok (some (cycleFocus session.app session.contract reverse)) := by
    unfold handleEvent
    rw [hv]
    cases reverse <;> rfl
  unfold turn
  rw [h.resize_self]
  dsimp only
  split
  next heq => cases reverse <;> cases heq
  next =>
    rw [hevent, ok_bind]
    rfl

/-- It moves the focus along the cycle of the panes, and nothing else. -/
theorem turn_focusKey_next (h : session.Good sources) (hv : session.app.view = .explorer) {reverse : Bool}
    {next : PaneFocus} (hn : nextFocus session.app.focus session.contract reverse = some next)
    (hnv : focusVisible session.contract next = true) :
    turn sources session session.size (focusKey reverse) = .ok (some (session.withFocus next)) := by
  have hlayout : normalizeLayoutState { session.app with focus := next } session.size =
      { session.app with focus := next } := normalizeLayoutState_of_visible hnv
  rw [turn_focusKey h hv, cycleFocus, hn, hlayout]
  rfl

/-- Without panes it does nothing. -/
theorem turn_focusKey_none (h : session.Good sources) (hv : session.app.view = .explorer) (reverse : Bool)
    (hpanes : session.contract.panes = []) :
    turn sources session session.size (focusKey reverse) = .ok (some session) := by
  have hlawful := session.contract_lawful
  have hlen : session.contract.focusLen = 0 := by rw [← hlawful.length, hpanes, List.length_nil]
  have hlayout : normalizeLayoutState session.app session.size = session.app := by
    unfold normalizeLayoutState
    split
    next focus hf =>
      have hmem := (hlawful.visible focus).mp (normalizedFocus_visible hlawful hf)
      rw [hpanes] at hmem
      cases hmem
    · rfl
  rw [turn_focusKey h hv, cycleFocus, nextFocus, if_pos hlen, hlayout]

theorem runLoop_cons {inputs : List (Size × Event)} {input : Size × Event} {next : Session}
    (h : turn sources session input.1 input.2 = .ok (some next)) :
    runLoop sources session (input :: inputs) = runLoop sources next inputs := by
  rw [runLoop, h, ok_bind]

/-- Repeated `tab` follows the cycle. -/
theorem runLoop_tabs (n : Nat) (h : session.Good sources) (hv : session.app.view = .explorer)
    (hvisible : focusVisible session.contract session.app.focus = true) {goal : PaneFocus}
    (hg : cycle session.contract n session.app.focus = some goal) :
    runLoop sources session (List.replicate n (session.size, .tab)) = .ok (some (session.withFocus goal)) := by
  induction n generalizing session with
  | zero =>
    obtain rfl := Option.some.inj hg
    rfl
  | succ n ih =>
    obtain ⟨next, hn, hg⟩ := Option.bind_eq_some_iff.mp hg
    obtain ⟨next', hn', hnv⟩ := nextFocus_visible session.contract_lawful hvisible false
    obtain rfl := Option.some.inj (hn.symm.trans hn')
    have hstep : turn sources session session.size .tab = .ok (some (session.withFocus next)) :=
      turn_focusKey_next h hv hn hnv
    rw [List.replicate_succ, runLoop_cons hstep]
    exact ih (h.withFocus hnv) hv hnv hg

/-- **The focus keys go around the visible panes**, in every session that the program reaches: they undo each other, and
`tab` comes to each visible pane before it is back. -/
theorem focus_keys {args : List Bytes} {console : Console}
    (hrun : runTui sources args console = .ok (.waiting session)) (hv : session.app.view = .explorer) :
    (∀ reverse, runLoop sources session
      [(session.size, focusKey reverse), (session.size, focusKey !reverse)] = .ok (some session)) ∧
    ∀ goal, focusVisible session.contract goal = true → ∃ n < session.contract.panes.length,
      runLoop sources session (List.replicate n (session.size, .tab)) = .ok (some (session.withFocus goal)) := by
  have h : session.Good sources := outcome_good hrun
  have hlawful := session.contract_lawful
  by_cases hpanes : session.contract.panes = []
  · refine ⟨fun reverse => ?_, fun goal hgoal => ?_⟩
    · rw [runLoop_cons (turn_focusKey_none h hv reverse hpanes)]
      exact runLoop_cons (turn_focusKey_none h hv (!reverse) hpanes)
    · have hmem := (hlawful.visible goal).mp hgoal
      rw [hpanes] at hmem
      cases hmem
  have hvisible := h.focused hpanes
  refine ⟨fun reverse => ?_, fun goal hgoal => ?_⟩
  · obtain ⟨next, hn, hnv⟩ := nextFocus_visible hlawful hvisible reverse
    have hback := nextFocus_inverse hlawful hvisible reverse
    change (nextFocus session.app.focus session.contract reverse).bind _ = _ at hback
    rw [hn, Option.bind_some] at hback
    rw [runLoop_cons (turn_focusKey_next h hv hn hnv)]
    exact runLoop_cons (turn_focusKey_next (h.withFocus hnv) hv hback hvisible)
  · obtain ⟨n, hlt, hn⟩ := cycle_reaches hlawful hvisible hgoal
    exact ⟨n, hlawful.length ▸ hlt, runLoop_tabs n h hv hvisible hn⟩

/-- The three panes of a small terminal, reached from the middle one. -/
theorem focus_keys_lone : ∃ session,
    runTui loneSources [utf8 "--scenario", [97], utf8 "--policy", utf8 "edf"]
      ⟨true, true, ⟨80, 24⟩, [(⟨80, 24⟩, .tab)], plain⟩ = .ok (.waiting session) ∧
    (∀ reverse, runLoop loneSources session
      [(session.size, focusKey reverse), (session.size, focusKey !reverse)] = .ok (some session)) ∧
    ∀ goal, focusVisible session.contract goal = true → ∃ n < session.contract.panes.length,
      runLoop loneSources session (List.replicate n (session.size, .tab)) = .ok (some (session.withFocus goal)) := by
  have hrun : (match runTui loneSources [utf8 "--scenario", [97], utf8 "--policy", utf8 "edf"]
      ⟨true, true, ⟨80, 24⟩, [(⟨80, 24⟩, .tab)], plain⟩ with
    | .ok (.waiting session) => decide (session.app.view = .explorer ∧ session.app.focus = .tasks)
    | _ => false) = true := by decide +kernel
  split at hrun
  next session h => exact ⟨session, h, focus_keys h (of_decide_eq_true hrun).1⟩
  · cases hrun

end Exasphere.Tui

import Mathlib.Data.List.Nodup
import Mathlib.Tactic

/-!
# Layout contracts and pane focus (`tui/render.zig`)

The layout of a view depends on the view, the size of the terminal and whether a report to compare with is loaded
(`viewContract`). A contract lists the panes that can have the focus; `Lawful` says that the list has each visible pane
once, and starts with the default. From this alone the focus keys behave: `tab` and `shift-tab` go to a visible pane and
undo each other (`nextFocus_inverse`), and repeated `tab` comes to every visible pane (`cycle_reaches`).
-/

namespace Exasphere.Tui

inductive View
  | home
  | scenario
  | explorer
  | drawer
  | diff
  | observabilitySummary
  | observabilityComparison
  | performance
  | reports
  | help
  deriving DecidableEq, Repr

/-- The screens of the dashboard contract (`dashboard/root.zig`). -/
inductive Screen
  | home
  | scenario
  | timeline
  | tasksCores
  | policyCompare
  | observability
  | performance
  | reports
  | help
  deriving DecidableEq, Repr

def dashboardScreenForView : View → Screen
  | .home => .home
  | .scenario => .scenario
  | .explorer => .timeline
  | .drawer => .tasksCores
  | .diff => .policyCompare
  | .observabilitySummary | .observabilityComparison => .observability
  | .performance => .performance
  | .reports => .reports
  | .help => .help

inductive DomainMode
  | simulator
  | observabilitySummary
  | observabilityComparison
  deriving DecidableEq, Repr

inductive PaneFocus
  | gantt
  | tasks
  | events
  | tick
  deriving DecidableEq, Repr

inductive ThemeKind
  | dark
  | light
  deriving DecidableEq, Repr

inductive LayoutTier
  | tooSmall
  | compact
  | medium
  | large
  deriving DecidableEq, Repr

inductive HelpMode
  | disabled
  | fullscreen
  | overlay
  deriving DecidableEq, Repr

structure FocusVisibility where
  gantt : Bool := false
  tasks : Bool := false
  events : Bool := false
  tick : Bool := false
  deriving DecidableEq, Repr

structure ViewLayoutContract where
  tier : LayoutTier
  visible : FocusVisibility := {}
  focusOrder : List PaneFocus := [.gantt, .tasks, .events, .tick]
  focusLen : Nat := 0
  defaultFocus : Option PaneFocus := none
  canEnterDrawer : Bool := false
  canOpenDiff : Bool := false
  helpMode : HelpMode := .fullscreen
  showAggregatePane : Bool := true
  denseTaskTable : Bool := false
  deriving DecidableEq, Repr

/-! ## The contract of a view -/

def axisTier (value largeMin mediumMin compactMin : Nat) : LayoutTier :=
  if value ≥ largeMin then .large
  else if value ≥ mediumMin then .medium
  else if value ≥ compactMin then .compact
  else .tooSmall

/-- The number of a tier in its enumeration. -/
def LayoutTier.toNat : LayoutTier → Nat
  | .tooSmall => 0
  | .compact => 1
  | .medium => 2
  | .large => 3

def lowerTier (a b : LayoutTier) : LayoutTier := if a.toNat < b.toNat then a else b

def classifyLayout (width height : Nat) : LayoutTier :=
  lowerTier (axisTier width 100 90 80) (axisTier height 30 26 24)

def explorerContract (tier : LayoutTier) (hasCompare : Bool) : ViewLayoutContract :=
  match tier with
  | .large =>
    { tier := .large
      visible := { gantt := true, tasks := true, events := true, tick := true }
      focusLen := 4
      defaultFocus := some .gantt
      canEnterDrawer := true
      canOpenDiff := hasCompare
      helpMode := .overlay
      showAggregatePane := true }
  | .medium =>
    { tier := .medium
      visible := { gantt := true, tasks := true, events := true, tick := true }
      focusLen := 4
      defaultFocus := some .gantt
      canEnterDrawer := true
      canOpenDiff := hasCompare
      helpMode := .overlay
      showAggregatePane := true
      denseTaskTable := true }
  | .compact =>
    { tier := .compact
      visible := { gantt := true, tasks := true, events := false, tick := true }
      focusOrder := [.gantt, .tasks, .tick, .events]
      focusLen := 3
      defaultFocus := some .gantt
      canEnterDrawer := true
      canOpenDiff := true
      helpMode := .fullscreen
      showAggregatePane := false
      denseTaskTable := true }
  | .tooSmall => { tier := .tooSmall, helpMode := .disabled }

/-- The contract of the views without panes. -/
def plainContract (tier : LayoutTier) (canOpenDiff : Bool) : ViewLayoutContract :=
  match tier with
  | .compact => { tier := .compact, helpMode := .fullscreen, canOpenDiff }
  | .tooSmall => { tier := .tooSmall, helpMode := .disabled }
  | tier => { tier, helpMode := .overlay, canOpenDiff }

def viewContract (view : View) (width height : Nat) (hasCompare : Bool) : ViewLayoutContract :=
  match view with
  | .explorer => explorerContract (classifyLayout width height) hasCompare
  | .drawer => plainContract (classifyLayout width height) hasCompare
  | _ => plainContract (classifyLayout width height) false

/-! ## Focus -/

def focusVisible (contract : ViewLayoutContract) : PaneFocus → Bool
  | .gantt => contract.visible.gantt
  | .tasks => contract.visible.tasks
  | .events => contract.visible.events
  | .tick => contract.visible.tick

def normalizedFocus (current : PaneFocus) (contract : ViewLayoutContract) : Option PaneFocus :=
  if focusVisible contract current then some current else contract.defaultFocus

/-- The panes of a contract in the order of the focus keys. -/
def ViewLayoutContract.panes (contract : ViewLayoutContract) : List PaneFocus :=
  contract.focusOrder.take contract.focusLen

def nextFocus (current : PaneFocus) (contract : ViewLayoutContract) (reverse : Bool) : Option PaneFocus :=
  if contract.focusLen = 0 then none
  else match contract.panes.idxOf? current with
    | none => contract.defaultFocus
    | some index =>
      if reverse then contract.focusOrder[(index + contract.focusLen - 1) % contract.focusLen]?
      else contract.focusOrder[(index + 1) % contract.focusLen]?

/-- The focus list of a contract has each visible pane once, and starts with the default. -/
structure ViewLayoutContract.Lawful (contract : ViewLayoutContract) : Prop where
  length : contract.panes.length = contract.focusLen
  nodup : contract.panes.Nodup
  visible : ∀ pane, focusVisible contract pane = true ↔ pane ∈ contract.panes
  default : contract.defaultFocus = contract.panes.head?

theorem explorerContract_lawful (tier : LayoutTier) (hasCompare : Bool) :
    (explorerContract tier hasCompare).Lawful := by
  cases tier <;> cases hasCompare <;>
    exact ⟨rfl, by decide, fun pane => by cases pane <;> decide, rfl⟩

theorem plainContract_lawful (tier : LayoutTier) (canOpenDiff : Bool) : (plainContract tier canOpenDiff).Lawful := by
  cases tier <;> cases canOpenDiff <;>
    exact ⟨rfl, by decide, fun pane => by cases pane <;> decide, rfl⟩

theorem viewContract_lawful (view : View) (width height : Nat) (hasCompare : Bool) :
    (viewContract view width height hasCompare).Lawful := by
  cases view
  case explorer => exact explorerContract_lawful _ _
  all_goals exact plainContract_lawful _ _

section Focus

variable {contract : ViewLayoutContract} {pane : PaneFocus}

theorem ViewLayoutContract.panes_getElem? {i : Nat} (h : i < contract.focusLen) :
    contract.focusOrder[i]? = contract.panes[i]? := by
  rw [panes, List.getElem?_take_of_lt h]

/-- The focus keys, on the position of the pane. -/
theorem nextFocus_eq (h : contract.Lawful) {index : Nat} (hi : contract.panes[index]? = some pane) (reverse : Bool) :
    nextFocus pane contract reverse =
      contract.panes[(index + if reverse then contract.focusLen - 1 else 1) % contract.focusLen]? := by
  obtain ⟨hlt, hget⟩ := List.getElem?_eq_some_iff.mp hi
  have hlen := h.length
  have hidx : contract.panes.idxOf? pane = some index := by
    refine List.idxOf?_eq_some_iff.mpr ⟨hlt, hget, fun j hj hje => ?_⟩
    have hsame : j = index := h.nodup.getElem_inj_iff.mp (hje.trans hget.symm)
    omega
  have hpos : 0 < contract.focusLen := by omega
  rw [nextFocus, if_neg (by omega), hidx]
  cases reverse
  · exact ViewLayoutContract.panes_getElem? (Nat.mod_lt _ hpos)
  · simp only [if_true, Nat.add_sub_assoc hpos]
    exact ViewLayoutContract.panes_getElem? (Nat.mod_lt _ hpos)

/-- A visible pane has a position. -/
theorem ViewLayoutContract.Lawful.position (h : contract.Lawful) (hv : focusVisible contract pane = true) :
    ∃ index < contract.focusLen, contract.panes[index]? = some pane := by
  obtain ⟨index, hi, hget⟩ := List.mem_iff_getElem.mp ((h.visible pane).mp hv)
  exact ⟨index, by have := h.length; omega, by rw [List.getElem?_eq_getElem hi, hget]⟩

theorem ViewLayoutContract.Lawful.visible_of_getElem? (h : contract.Lawful) {index : Nat}
    (hi : contract.panes[index]? = some pane) : focusVisible contract pane = true :=
  (h.visible pane).mpr (List.mem_of_getElem? hi)

/-- The panes are read around the cycle. -/
theorem ViewLayoutContract.Lawful.get_mod (h : contract.Lawful) (hpos : 0 < contract.focusLen) (n : Nat) :
    ∃ next, contract.panes[n % contract.focusLen]? = some next := by
  have hlt := Nat.mod_lt n hpos
  rw [← h.length] at hlt ⊢
  exact ⟨_, List.getElem?_eq_getElem hlt⟩

/-- A focus key takes a visible pane to a visible pane. -/
theorem nextFocus_visible (h : contract.Lawful) (hv : focusVisible contract pane = true) (reverse : Bool) :
    ∃ next, nextFocus pane contract reverse = some next ∧ focusVisible contract next = true := by
  obtain ⟨index, hlt, hi⟩ := h.position hv
  rw [nextFocus_eq h hi]
  obtain ⟨next, hnext⟩ := h.get_mod (by omega) (index + if reverse then contract.focusLen - 1 else 1)
  exact ⟨next, hnext, h.visible_of_getElem? hnext⟩

/-- The two focus keys undo each other. -/
theorem nextFocus_inverse (h : contract.Lawful) (hv : focusVisible contract pane = true) (reverse : Bool) :
    (nextFocus pane contract reverse).bind (fun next => nextFocus next contract (!reverse)) = some pane := by
  obtain ⟨index, hlt, hi⟩ := h.position hv
  obtain ⟨next, hnext⟩ := h.get_mod (by omega) (index + if reverse then contract.focusLen - 1 else 1)
  rw [nextFocus_eq h hi, hnext, Option.bind_some, nextFocus_eq h hnext, Nat.mod_add_mod, ← hi]
  congr 1
  -- the two steps together go once around
  have hround : index + (if reverse then contract.focusLen - 1 else 1) +
      (if !reverse then contract.focusLen - 1 else 1) = index + contract.focusLen := by
    cases reverse <;> simp <;> omega
  rw [hround, Nat.add_mod_right, Nat.mod_eq_of_lt hlt]

/-- `tab`, pressed a number of times. -/
def cycle (contract : ViewLayoutContract) : Nat → PaneFocus → Option PaneFocus
  | 0, pane => some pane
  | n + 1, pane => (nextFocus pane contract false).bind (cycle contract n)

theorem cycle_eq (h : contract.Lawful) (n : Nat) {index : Nat} (hlt : index < contract.focusLen)
    (hi : contract.panes[index]? = some pane) :
    cycle contract n pane = contract.panes[(index + n) % contract.focusLen]? := by
  induction n generalizing index pane with
  | zero => rw [Nat.add_zero, Nat.mod_eq_of_lt hlt, hi]; rfl
  | succ n ih =>
    have hpos : 0 < contract.focusLen := by omega
    obtain ⟨next, hnext⟩ := h.get_mod hpos (index + 1)
    have hstep : nextFocus pane contract false = some next := by
      rw [nextFocus_eq h hi]
      exact hnext
    rw [cycle, hstep, Option.bind_some, ih (Nat.mod_lt _ hpos) hnext, Nat.mod_add_mod]
    congr 2
    omega

/-- From a visible pane, `tab` comes to every visible pane. -/
theorem cycle_reaches (h : contract.Lawful) {goal : PaneFocus} (hv : focusVisible contract pane = true)
    (hg : focusVisible contract goal = true) : ∃ n < contract.focusLen, cycle contract n pane = some goal := by
  obtain ⟨i, hlt, hi⟩ := h.position hv
  obtain ⟨j, hjlt, hj⟩ := h.position hg
  refine ⟨(j + (contract.focusLen - i)) % contract.focusLen, Nat.mod_lt _ (by omega), ?_⟩
  rw [cycle_eq h _ hlt hi, Nat.add_mod_mod, ← hj]
  congr 1
  have hround : i + (j + (contract.focusLen - i)) = j + contract.focusLen := by omega
  rw [hround, Nat.add_mod_right, Nat.mod_eq_of_lt hjlt]

/-- The normal form of the focus is visible, wherever there are panes. -/
theorem normalizedFocus_visible (h : contract.Lawful) {next : PaneFocus}
    (hn : normalizedFocus pane contract = some next) : focusVisible contract next = true := by
  unfold normalizedFocus at hn
  split_ifs at hn with hv
  · exact Option.some.inj hn ▸ hv
  · rw [h.default] at hn
    exact (h.visible next).mpr (List.mem_of_mem_head? hn)

theorem normalizedFocus_eq_none (h : contract.Lawful) (hn : normalizedFocus pane contract = none) :
    contract.panes = [] := by
  unfold normalizedFocus at hn
  split_ifs at hn
  rw [h.default] at hn
  exact List.head?_eq_none_iff.mp hn

end Focus

end Exasphere.Tui

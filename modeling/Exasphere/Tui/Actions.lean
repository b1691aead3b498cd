import Exasphere.Tui.Layout

/-!
# Keys and actions (`tui/actions.zig`, `tui/terminal.zig`)

A terminal event names a key, and the registry of actions (`actions`) maps the key to an action on the current screen.
An entry without a screen holds on all of them.
-/

namespace Exasphere.Tui

/-- What the terminal delivers; `none` is a timeout. -/
inductive Event
  | none
  | escape
  | enter
  | tab
  | backtab
  | space
  | left
  | right
  | up
  | down
  | home
  | last
  | backspace
  | char (ch : UInt8)
  deriving DecidableEq, Repr

/-- The key names of the registry. -/
inductive Key
  | esc
  | enter
  | tab
  | shiftTab
  | space
  | left
  | right
  | up
  | down
  | home
  | last
  | ctrlC
  | q
  | questionMark
  | h
  | w
  | j
  | k
  | s
  | t
  | o
  | c
  | p
  | r
  | d
  | leftBracket
  | rightBracket
  deriving DecidableEq, Repr

inductive ActionId
  | quit
  | help
  | back
  | home
  | moveUp
  | moveDown
  | nextFocus
  | previousFocus
  | activate
  | scenarioDetails
  | timeline
  | observability
  | observabilityComparison
  | performance
  | reports
  | playPause
  | scrubLeft
  | scrubRight
  | taskDetails
  | policyCompare
  | previousPolicy
  | nextPolicy
  | theme
  deriving DecidableEq, Repr

structure Action where
  id : ActionId
  screen : Option Screen
  keys : List Key
  deriving DecidableEq, Repr

/-- The registry, in the order it is searched. -/
def actions : List Action :=
  [ ⟨.quit, none, [.q, .ctrlC]⟩,
    ⟨.help, none, [.questionMark]⟩,
    ⟨.back, none, [.esc]⟩,
    ⟨.home, none, [.h]⟩,
    ⟨.theme, none, [.w]⟩,
    ⟨.moveUp, some .home, [.up, .k]⟩,
    ⟨.moveDown, some .home, [.down, .j]⟩,
    ⟨.activate, some .home, [.enter]⟩,
    ⟨.scenarioDetails, some .home, [.s]⟩,
    ⟨.timeline, some .home, [.t]⟩,
    ⟨.observability, some .home, [.o]⟩,
    ⟨.performance, some .home, [.p]⟩,
    ⟨.reports, some .home, [.r]⟩,
    ⟨.previousPolicy, some .home, [.leftBracket]⟩,
    ⟨.nextPolicy, some .home, [.rightBracket]⟩,
    ⟨.timeline, some .scenario, [.t, .enter]⟩,
    ⟨.previousPolicy, some .scenario, [.leftBracket]⟩,
    ⟨.nextPolicy, some .scenario, [.rightBracket]⟩,
    ⟨.scrubLeft, some .timeline, [.left, .home]⟩,
    ⟨.scrubRight, some .timeline, [.right, .last]⟩,
    ⟨.moveUp, some .timeline, [.up, .k]⟩,
    ⟨.moveDown, some .timeline, [.down, .j]⟩,
    ⟨.nextFocus, some .timeline, [.tab]⟩,
    ⟨.previousFocus, some .timeline, [.shiftTab]⟩,
    ⟨.playPause, some .timeline, [.space]⟩,
    ⟨.taskDetails, some .timeline, [.enter]⟩,
    ⟨.policyCompare, some .timeline, [.d]⟩,
    ⟨.timeline, some .tasksCores, [.t]⟩,
    ⟨.timeline, some .policyCompare, [.d, .t]⟩,
    ⟨.observability, some .observability, [.o]⟩,
    ⟨.observabilityComparison, some .observability, [.c]⟩ ]

def actionForKey (screen : Screen) (key : Key) : Option ActionId :=
  ((actions.find? fun action => action.screen.all (· = screen) && decide (key ∈ action.keys)).or
    (actions.find? fun action => action.screen.isNone && decide (key ∈ action.keys))).map Action.id

def keyNameForChar (ch : UInt8) : Option Key :=
  match ch.toNat with
  | 3 => some .ctrlC
  | 113 => some .q
  | 63 => some .questionMark
  | 104 => some .h
  | 119 => some .w
  | 106 => some .j
  | 107 => some .k
  | 115 => some .s
  | 116 => some .t
  | 111 => some .o
  | 99 => some .c
  | 112 => some .p
  | 114 => some .r
  | 100 => some .d
  | 91 => some .leftBracket
  | 93 => some .rightBracket
  | _ => none

def keyNameForEvent : Event → Option Key
  | .escape => some .esc
  | .enter => some .enter
  | .tab => some .tab
  | .backtab => some .shiftTab
  | .space => some .space
  | .left => some .left
  | .right => some .right
  | .up => some .up
  | .down => some .down
  | .home => some .home
  | .last => some .last
  | .char ch => keyNameForChar ch
  | .none | .backspace => none

/-- The action is bound on the screen. -/
def Bound (screen : Screen) (id : ActionId) : Prop :=
  ∃ action ∈ actions, action.id = id ∧ action.screen.all (· = screen) = true

instance (screen : Screen) (id : ActionId) : Decidable (Bound screen id) := by
  unfold Bound
  infer_instance

theorem actionForKey_bound {screen : Screen} {key : Key} {id : ActionId} (h : actionForKey screen key = some id) :
    Bound screen id := by
  unfold actionForKey at h
  obtain ⟨action, ha, rfl⟩ := Option.map_eq_some_iff.mp h
  rcases Option.or_eq_some_iff.mp ha with ha | ⟨-, ha⟩
  · have hp := List.find?_some ha
    simp only [Bool.and_eq_true] at hp
    exact ⟨action, List.mem_of_find?_eq_some ha, rfl, hp.1⟩
  · have hp := List.find?_some ha
    simp only [Bool.and_eq_true, Option.isNone_iff_eq_none] at hp
    exact ⟨action, List.mem_of_find?_eq_some ha, rfl, by rw [hp.1]; rfl⟩

/-- The actions that leave the shell's home for another screen are bound there only. -/
theorem bound_home {screen : Screen} {id : ActionId} (h : Bound screen id)
    (hid : id = .scenarioDetails ∨ id = .performance ∨ id = .reports) : screen = .home := by
  rcases hid with rfl | rfl | rfl <;> revert h <;> cases screen <;> decide

/-- Fixtures are opened from the home screen and from the observability screen. -/
theorem bound_observability {screen : Screen} {id : ActionId} (h : Bound screen id)
    (hid : id = .observability ∨ id = .observabilityComparison) : screen = .home ∨ screen = .observability := by
  rcases hid with rfl | rfl <;> revert h <;> cases screen <;> decide

end Exasphere.Tui

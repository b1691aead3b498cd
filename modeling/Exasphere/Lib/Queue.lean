import Mathlib.Data.List.Induction

/-!
# A bounded queue and its histories

`Queue.Step capacity q e q'` is one atomic operation on a queue of at most `capacity` values, with the event a client
sees. Along every history the values pushed are the values popped followed by the content of the queue
(`Queue.Run.pushes_eq`). A machine that emits the same events is checked against it one step at a time
(`Queue.Run.of_sim`). A party whose own steps count down to an event, and who is not set back by the others, reaches the
event after so many own steps (`returns_of_countdown`); if there is room before it starts, the event is not that the
queue is full (`pushes_ne_nil_of_full`).
-/

namespace Exasphere.Lib.Queue

variable {α : Type*}

/-- What a client of a queue sees of a step. -/
inductive Event (α : Type*)
  | push (v : α)
  | full (v : α)
  | pop (v : α)
  | empty
  | silent
  deriving DecidableEq, Repr

/-- The event with which a call of `push` returns. -/
def Event.EndsPush (e : Event α) : Prop := (∃ v, e = .push v) ∨ ∃ v, e = .full v

def Event.EndsPop (e : Event α) : Prop := (∃ v, e = .pop v) ∨ e = .empty

/-- The values of the successful pushes of a history. -/
def pushes (history : List (Event α)) : List α :=
  history.filterMap (fun | .push v => some v | _ => none)

/-- The values of the successful pops of a history. -/
def pops (history : List (Event α)) : List α :=
  history.filterMap (fun | .pop v => some v | _ => none)

inductive Step (capacity : Nat) : List α → Event α → List α → Prop
  | push (q : List α) (v : α) (h : q.length < capacity) : Step capacity q (.push v) (q ++ [v])
  | full (q : List α) (v : α) (h : q.length = capacity) : Step capacity q (.full v) q
  | pop (v : α) (q : List α) : Step capacity (v :: q) (.pop v) q
  | empty : Step capacity [] .empty []
  | silent (q : List α) : Step capacity q .silent q

/-- The histories of a queue that starts empty, and the content they leave. -/
inductive Run (capacity : Nat) : List (Event α) → List α → Prop
  | nil : Run capacity [] []
  | snoc {history : List (Event α)} {q q' : List α} {e : Event α} (h : Run capacity history q)
      (hs : Step capacity q e q') : Run capacity (history ++ [e]) q'

variable {capacity : Nat} {history : List (Event α)} {q q' : List α} {e : Event α}

@[simp] theorem pushes_append (h₁ h₂ : List (Event α)) : pushes (h₁ ++ h₂) = pushes h₁ ++ pushes h₂ :=
  List.filterMap_append

@[simp] theorem pops_append (h₁ h₂ : List (Event α)) : pops (h₁ ++ h₂) = pops h₁ ++ pops h₂ :=
  List.filterMap_append

theorem pushes_ne_nil {v : α} (h : .push v ∈ history) : pushes history ≠ [] :=
  List.ne_nil_of_mem (List.mem_filterMap.mpr ⟨_, h, rfl⟩)

theorem pops_ne_nil {v : α} (h : .pop v ∈ history) : pops history ≠ [] :=
  List.ne_nil_of_mem (List.mem_filterMap.mpr ⟨_, h, rfl⟩)

/-- What a step adds to the pushes and pops of a history. -/
theorem Step.conserves (h : Step capacity q e q') : q ++ pushes [e] = pops [e] ++ q' := by
  cases h <;> simp [pushes, pops]

/-- Nothing is lost, duplicated or reordered. -/
theorem Run.pushes_eq (h : Run capacity history q) : pushes history = pops history ++ q := by
  induction h with
  | nil => rfl
  | snoc _ hs ih =>
    rw [pushes_append, pops_append, ih, List.append_assoc, List.append_assoc, hs.conserves]

theorem Run.length_le (h : Run capacity history q) : q.length ≤ capacity := by
  induction h with
  | nil => exact Nat.zero_le _
  | snoc _ hs ih =>
    cases hs with
    | push q v hlt =>
      rw [List.length_append]
      exact hlt
    | full q v _ => exact ih
    | pop v q =>
      rw [List.length_cons] at ih
      omega
    | empty => exact ih
    | silent q => exact ih

/-- The number of values outstanding. -/
theorem Run.length_eq (h : Run capacity history q) : (pushes history).length = (pops history).length + q.length := by
  rw [h.pushes_eq, List.length_append]

section Simulation

variable {S M : Type*} (step : S → M → S × Event α) (R : S → List α → Prop)

/-- A machine under a schedule: the state it reaches and the events it emits. -/
def runFrom (s : S) (schedule : List M) : S × List (Event α) :=
  schedule.foldl (fun acc m => ((step acc.1 m).1, acc.2 ++ [(step acc.1 m).2])) (s, [])

theorem runFrom_snoc (s : S) (schedule : List M) (m : M) : runFrom step s (schedule ++ [m]) =
    ((step (runFrom step s schedule).1 m).1,
      (runFrom step s schedule).2 ++ [(step (runFrom step s schedule).1 m).2]) := by
  simp [runFrom]

/-- What a machine adds to the queue and takes from it, whatever the queue held before. -/
theorem conserves_of_sim {s : S} (h : R s q)
    (hstep : ∀ s q m, R s q → ∃ q', Step capacity q (step s m).2 q' ∧ R (step s m).1 q') (schedule : List M) :
    ∃ q', q ++ pushes (runFrom step s schedule).2 = pops (runFrom step s schedule).2 ++ q' ∧
      R (runFrom step s schedule).1 q' := by
  induction schedule using List.reverseRecOn with
  | nil => exact ⟨q, by simp [runFrom, pushes, pops], h⟩
  | append_singleton schedule m ih =>
    obtain ⟨q', hq, hR⟩ := ih
    obtain ⟨q'', hs, hR'⟩ := hstep _ q' m hR
    rw [runFrom_snoc]
    refine ⟨q'', ?_, hR'⟩
    rw [pushes_append, pops_append, ← List.append_assoc, hq, List.append_assoc, List.append_assoc, hs.conserves]

/-- Every event of a machine is a step of the queue that the events before it leave. -/
theorem exists_step_of_mem {s : S} (h : R s q)
    (hstep : ∀ s q m, R s q → ∃ q', Step capacity q (step s m).2 q' ∧ R (step s m).1 q') {schedule : List M}
    (he : e ∈ (runFrom step s schedule).2) : ∃ before rest q₁ q₂, (runFrom step s schedule).2 = before ++ e :: rest ∧
      q ++ pushes before = pops before ++ q₁ ∧ Step capacity q₁ e q₂ := by
  induction schedule using List.reverseRecOn with
  | nil => cases he
  | append_singleton schedule m ih =>
    rw [runFrom_snoc] at he ⊢
    dsimp only at he ⊢
    rcases List.mem_append.mp he with he | he
    · obtain ⟨before, rest, q₁, q₂, hsplit, hq, hs⟩ := ih he
      refine ⟨before, rest ++ [(step (runFrom step s schedule).1 m).2], q₁, q₂, ?_, hq, hs⟩
      rw [hsplit, List.append_assoc, List.cons_append]
    · obtain rfl := List.mem_singleton.mp he
      obtain ⟨q₁, hq, hR⟩ := conserves_of_sim step R h hstep schedule
      obtain ⟨q₂, hs, -⟩ := hstep _ q₁ m hR
      exact ⟨_, [], q₁, q₂, rfl, hq, hs⟩

/-- A queue with room is reported full only after a push. -/
theorem pushes_ne_nil_of_full {s : S} (h : R s q)
    (hstep : ∀ s q m, R s q → ∃ q', Step capacity q (step s m).2 q' ∧ R (step s m).1 q') (hroom : q.length < capacity)
    (schedule : List M) {v : α} (hfull : .full v ∈ (runFrom step s schedule).2) :
    pushes (runFrom step s schedule).2 ≠ [] := by
  obtain ⟨before, rest, q₁, q₂, hsplit, hq, hs⟩ := exists_step_of_mem step R h hstep hfull
  rw [hsplit, pushes_append]
  intro hnil
  have hlen := congrArg List.length hq
  rw [(List.append_eq_nil_iff.mp hnil).1, List.append_nil, List.length_append] at hlen
  cases hs with
  | full _ _ hcap => omega

/-- A queue with a value is reported empty only after a pop. -/
theorem pops_ne_nil_of_empty {s : S} (h : R s q)
    (hstep : ∀ s q m, R s q → ∃ q', Step capacity q (step s m).2 q' ∧ R (step s m).1 q') (hne : q ≠ [])
    (schedule : List M) (hempty : .empty ∈ (runFrom step s schedule).2) : pops (runFrom step s schedule).2 ≠ [] := by
  obtain ⟨before, rest, q₁, q₂, hsplit, hq, hs⟩ := exists_step_of_mem step R h hstep hempty
  rw [hsplit, pops_append]
  intro hnil
  rw [(List.append_eq_nil_iff.mp hnil).1] at hq
  cases hs with
  | empty => exact hne (List.append_eq_nil_iff.mp hq).1

/-- A party that needs `left` more of its own steps for an event has it after so many. -/
theorem returns_of_countdown {returns : Event α → Prop} {own : M → Bool} (left : S → Nat) (hpos : ∀ s, 0 < left s)
    (hstep : ∀ s m, returns (step s m).2 ∨ left (step s m).1 + (if own m then 1 else 0) ≤ left s) {s : S}
    {schedule : List M} (hown : left s ≤ schedule.countP own) : ∃ e ∈ (runFrom step s schedule).2, returns e := by
  have hcount : (∃ e ∈ (runFrom step s schedule).2, returns e) ∨
      left (runFrom step s schedule).1 + schedule.countP own ≤ left s := by
    clear hown
    induction schedule using List.reverseRecOn with
    | nil => exact Or.inr (Nat.le_refl _)
    | append_singleton schedule m ih =>
      rw [runFrom_snoc, List.countP_append, List.countP_singleton]
      rcases ih with ⟨e, he, hreturns⟩ | hleft
      · exact Or.inl ⟨e, List.mem_append_left _ he, hreturns⟩
      · rcases hstep (runFrom step s schedule).1 m with hreturns | hless
        · exact Or.inl ⟨_, List.mem_append_right _ (List.mem_singleton.mpr rfl), hreturns⟩
        · dsimp only
          exact Or.inr (by omega)
  rcases hcount with hreturned | hleft
  · exact hreturned
  · have := hpos (runFrom step s schedule).1
    omega

end Simulation

end Exasphere.Lib.Queue

import Exasphere.Lib.Checked

/-!
# Greedy descent

A search that goes from a state to a better one as long as it finds one. One pass tries the candidates of the state in
order and takes the first that is accepted (`firstM`); the search repeats passes until one takes nothing (`descend`).
Where each accepted candidate has a smaller measure the search ends, in a state of which every candidate was tried and
none was accepted (`descend_end`).
-/

namespace Exasphere.Lib

universe u

section First

variable {ε : Type*} {α : Type*} {β : Type u} {f : α → Except ε (Option β)} {l : List α}

/-- The first result of `f` along the list; a fault ends the pass. -/
def firstM (f : α → Except ε (Option β)) : List α → Except ε (Option β)
  | [] => .ok none
  | a :: l => f a >>= fun r => r.elim (firstM f l) fun b => .ok (some b)

/-- A pass that takes nothing has tried every candidate. -/
theorem firstM_eq_none : firstM f l = .ok none ↔ ∀ a ∈ l, f a = .ok none := by
  induction l with
  | nil => simp [firstM]
  | cons a l ih =>
    rw [firstM, List.forall_mem_cons, bind_eq_ok]
    constructor
    · rintro ⟨r, hr, h⟩
      cases r with
      | none => exact ⟨hr, ih.mp h⟩
      | some b => simp at h
    · rintro ⟨hr, h⟩
      exact ⟨none, hr, ih.mpr h⟩

/-- What a pass takes comes from a candidate. -/
theorem firstM_some {b : β} (h : firstM f l = .ok (some b)) : ∃ a ∈ l, f a = .ok (some b) := by
  induction l with
  | nil => simp [firstM] at h
  | cons a l ih =>
    rw [firstM, bind_eq_ok] at h
    obtain ⟨r, hr, h⟩ := h
    cases r with
    | none =>
      obtain ⟨a', ha', h'⟩ := ih h
      exact ⟨a', List.mem_cons_of_mem a ha', h'⟩
    | some c =>
      obtain rfl : c = b := by simpa using h
      exact ⟨a, List.mem_cons_self, hr⟩

/-- A pass faults where a candidate does. -/
theorem firstM_error {e : ε} (h : firstM f l = .error e) : ∃ a ∈ l, f a = .error e := by
  induction l with
  | nil => simp [firstM] at h
  | cons a l ih =>
    rw [firstM, bind_eq_error] at h
    rcases h with h | ⟨r, -, h⟩
    · exact ⟨a, List.mem_cons_self, h⟩
    · cases r with
      | none =>
        obtain ⟨a', ha', h'⟩ := ih h
        exact ⟨a', List.mem_cons_of_mem a ha', h'⟩
      | some c => simp at h

end First

section Descend

variable {ε : Type*} {σ : Type u} {step : σ → Except ε (Option σ)}

/-- Repeats `step` until it takes nothing; `none` if the fuel runs out first. -/
def descend (step : σ → Except ε (Option σ)) : Nat → σ → Except ε (Option σ)
  | 0, _ => .ok none
  | fuel + 1, s => step s >>= fun r => r.elim (.ok (some s)) (descend step fuel)

/-- The search ends, within as many passes as the measure has values below its start, in a state whose pass takes
nothing; or a pass faults. `P` is what every accepted step keeps. -/
theorem descend_end {P : σ → Prop} {μ : σ → Nat} (hstep : ∀ s t, P s → step s = .ok (some t) → P t ∧ μ t < μ s)
    {fuel : Nat} {s : σ} (hs : P s) (hfuel : μ s < fuel) :
    (∃ r, descend step fuel s = .ok (some r) ∧ P r ∧ μ r ≤ μ s ∧ step r = .ok none) ∨
      ∃ r e, P r ∧ step r = .error e ∧ descend step fuel s = .error e := by
  induction fuel generalizing s with
  | zero => omega
  | succ fuel ih =>
    cases hpass : step s with
    | error e => exact Or.inr ⟨s, e, hs, hpass, by rw [descend, hpass, error_bind]⟩
    | ok r =>
      have hrun : descend step (fuel + 1) s = r.elim (.ok (some s)) (descend step fuel) := by
        rw [descend, hpass, ok_bind]
      rw [hrun]
      cases r with
      | none => exact Or.inl ⟨s, rfl, hs, Nat.le_refl _, hpass⟩
      | some t =>
        obtain ⟨ht, hlt⟩ := hstep s t hs hpass
        rcases ih ht (by omega) with ⟨r, hr, hP, hle, hend⟩ | h
        · exact Or.inl ⟨r, hr, hP, by omega, hend⟩
        · exact Or.inr h

end Descend

end Exasphere.Lib

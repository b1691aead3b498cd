import Exasphere.Lib.Checked

/-!
# What a fallible computation ends with

`Settles Q E x` says that the value of `x` satisfies `Q` if it has one, and that its fault satisfies `E` otherwise.
Unlike a statement about the value alone it composes without losing the faults: a bind settles when its parts do
(`bind`), and so does a map over a list (`mapM`).
-/

namespace Exasphere.Lib

universe u

variable {ε : Type*} {α β : Type u} {Q Q' : α → Prop} {E E' : ε → Prop} {x : Except ε α} {P : β → Prop}

def Settles (Q : α → Prop) (E : ε → Prop) : Except ε α → Prop
  | .ok a => Q a
  | .error e => E e

theorem Settles.ok (h : Settles Q E x) {a : α} (ha : x = .ok a) : Q a := by
  rw [ha] at h
  exact h

theorem Settles.error (h : Settles Q E x) {e : ε} (he : x = .error e) : E e := by
  rw [he] at h
  exact h

theorem Settles.of (hQ : ∀ a, x = .ok a → Q a) (hE : ∀ e, x = .error e → E e) : Settles Q E x := by
  cases x with
  | ok a => exact hQ a rfl
  | error e => exact hE e rfl

theorem Settles.mono (h : Settles Q E x) (hQ : ∀ a, Q a → Q' a) (hE : ∀ e, E e → E' e) : Settles Q' E' x := by
  cases x with
  | ok a => exact hQ a h
  | error e => exact hE e h

/-- The second part may use how the first one ended. -/
theorem Settles.bind (h : Settles Q E x) {f : α → Except ε β} (hf : ∀ a, x = .ok a → Q a → Settles P E (f a)) :
    Settles P E (x >>= f) := by
  cases x with
  | ok a => exact hf a rfl h
  | error e => exact h

theorem Settles.map {f : α → β} (h : Settles (fun a => P (f a)) E x) : Settles P E (f <$> x) := by
  cases x with
  | ok a => exact h
  | error e => exact h

theorem Settles.mapM {γ : Type*} {f : γ → Except ε β} {l : List γ} (h : ∀ c ∈ l, Settles P E (f c)) :
    Settles (fun bs => ∀ b ∈ bs, P b) E (l.mapM f) := by
  induction l with
  | nil => exact nofun
  | cons c l ih =>
    rw [List.mapM_cons]
    refine (h c (by simp)).bind fun b _ hb => ?_
    refine (ih fun c hc => h c (by simp [hc])).bind fun bs _ hbs => ?_
    exact List.forall_mem_cons.mpr ⟨hb, hbs⟩

end Exasphere.Lib

import Exasphere.Lib.Checked

/-!
# Drawing from a source of random numbers

A computation that draws from a source `σ` and may fail is a state transformer over `Except`. `Gives P x` says that `x`
returns from every state of the source, with a value of `P`: whatever the source draws, and whatever was drawn before.
The rules follow the ways to build such a computation, so that a generator is proved correct along its own text.
-/

namespace Exasphere.Lib

section Draw

variable {ε σ α β : Type} {P : α → Prop} {Q : β → Prop}

/-- One draw; the source goes on to its next state. -/
def draw (f : σ → α × σ) : StateT σ (Except ε) α := fun s => .ok (f s)

/-- A computation that does not draw. -/
def checked (x : Except ε α) : StateT σ (Except ε) α := fun s => x.map (fun a => (a, s))

/-- `x` returns from every state, with a value of `P`. -/
def Gives (P : α → Prop) (x : StateT σ (Except ε) α) : Prop := ∀ s, ∃ a s', x s = .ok (a, s') ∧ P a

theorem Gives.pure {a : α} (h : P a) : Gives P (Pure.pure a : StateT σ (Except ε) α) := fun s => ⟨a, s, rfl, h⟩

theorem Gives.draw {f : σ → α × σ} (h : ∀ s, P (f s).1) : Gives P (Lib.draw f : StateT σ (Except ε) α) :=
  fun s => ⟨(f s).1, (f s).2, rfl, h s⟩

theorem Gives.checked {x : Except ε α} {a : α} (hx : x = .ok a) :
    Gives (fun b => b = a) (Lib.checked x : StateT σ (Except ε) α) :=
  fun s => ⟨a, s, by rw [Lib.checked, hx]; rfl, rfl⟩

theorem Gives.imp {P' : α → Prop} {x : StateT σ (Except ε) α} (hx : Gives P x) (h : ∀ a, P a → P' a) : Gives P' x := by
  intro s
  obtain ⟨a, s', ha, hP⟩ := hx s
  exact ⟨a, s', ha, h a hP⟩

theorem Gives.bind {x : StateT σ (Except ε) α} {f : α → StateT σ (Except ε) β} (hx : Gives P x)
    (hf : ∀ a, P a → Gives Q (f a)) : Gives Q (x >>= f) := by
  intro s
  obtain ⟨a, s', ha, hP⟩ := hx s
  obtain ⟨b, s'', hb, hQ⟩ := hf a hP s'
  refine ⟨b, s'', ?_, hQ⟩
  change x s >>= (fun p => f p.1 p.2) = _
  rw [ha, ok_bind]
  exact hb

theorem Gives.map {x : StateT σ (Except ε) α} {f : α → β} (hx : Gives P x) (hf : ∀ a, P a → Q (f a)) :
    Gives Q (x >>= fun a => Pure.pure (f a)) :=
  hx.bind fun a ha => .pure (hf a ha)

theorem Gives.ite {p : Prop} [Decidable p] {x y : StateT σ (Except ε) α} (hx : p → Gives P x) (hy : ¬p → Gives P y) :
    Gives P (if p then x else y) := by
  by_cases hp : p
  · rw [if_pos hp]
    exact hx hp
  · rw [if_neg hp]
    exact hy hp

/-- A loop that builds one value per element of a list. -/
theorem Gives.mapM {ι : Type} {f : ι → StateT σ (Except ε) α} (hf : ∀ i, Gives P (f i)) (l : List ι) :
    Gives (fun as => as.length = l.length ∧ ∀ a ∈ as, P a) (l.mapM f) := by
  induction l with
  | nil =>
    rw [List.mapM_nil]
    exact .pure ⟨rfl, by simp⟩
  | cons i l ih =>
    rw [List.mapM_cons]
    refine (hf i).bind fun a ha => ih.map fun as has => ⟨?_, ?_⟩
    · rw [List.length_cons, List.length_cons, has.1]
    · exact List.forall_mem_cons.mpr ⟨ha, has.2⟩

end Draw

end Exasphere.Lib

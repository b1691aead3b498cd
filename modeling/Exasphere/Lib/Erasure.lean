import Exasphere.Lib.Checked

/-!
# Computations that do not see a part of their state

A computation is `Blind` to what `g` erases when it makes no difference to erase before it or after it. Sequences and
loops of blind computations are blind, and on arguments that are equal once erased a blind computation has results that
are equal once erased (`Blind.eq`): what `g` erases does not flow into what `g'` keeps.
-/

namespace Exasphere.Lib

universe u

variable {ε ι : Type*} {α β γ : Type u} {g : α → α} {g' : β → β} {g'' : γ → γ}

theorem except_map_bind (x : Except ε α) (f : α → Except ε β) (h : β → γ) :
    (x >>= f).map h = x >>= fun a => (f a).map h := by
  cases x <;> rfl

theorem except_bind_map (x : Except ε α) (h : α → β) (f : β → Except ε γ) : x.map h >>= f = x >>= fun a => f (h a) := by
  cases x <;> rfl

theorem except_map_ite {p : Prop} [Decidable p] (x y : Except ε α) (h : α → β) :
    (if p then x else y).map h = if p then x.map h else y.map h := by
  split <;> rfl

/-- Computations that go on alike with results of which `h` keeps the same. -/
theorem except_bind_congr {δ : Type u} {x y : Except ε α} {h : α → β} {f k : α → Except ε δ} (hxy : x.map h = y.map h)
    (hfk : ∀ a b, h a = h b → f a = k b) : x >>= f = y >>= k := by
  cases x with
  | error e =>
    cases y with
    | error e' => exact congrArg Except.error (Except.error.inj hxy)
    | ok b => cases hxy
  | ok a =>
    cases y with
    | error e' => cases hxy
    | ok b => exact hfk a b (Except.ok.inj hxy)

/-- Erasing with `g` before `f` is erasing with `g'` after it. -/
def Blind (g : α → α) (g' : β → β) (f : α → Except ε β) : Prop := ∀ a, f (g a) = (f a).map g'

/-- **No flow.** -/
theorem Blind.eq {f : α → Except ε β} (h : Blind g g' f) {a b : α} (hab : g a = g b) :
    (f a).map g' = (f b).map g' := by
  rw [← h a, ← h b, hab]

theorem Blind.bind {f : α → Except ε β} {k : β → Except ε γ} (hf : Blind g g' f) (hk : Blind g' g'' k) :
    Blind g g'' (fun a => f a >>= k) := by
  intro a
  show f (g a) >>= k = (f a >>= k).map g''
  rw [hf a]
  cases f a with
  | error e => rfl
  | ok b => exact hk b

theorem Blind.foldlM {f : α → ι → Except ε α} (h : ∀ i, Blind g g (fun a => f a i)) (l : List ι) :
    Blind g g (fun a => l.foldlM f a) := by
  induction l with
  | nil => exact fun _ => rfl
  | cons i l ih => exact (h i).bind ih

/-- Loops that cannot fault. -/
theorem foldl_blind {f : α → ι → α} (h : ∀ a i, f (g a) i = g (f a i)) (l : List ι) (a : α) :
    l.foldl f (g a) = g (l.foldl f a) := by
  induction l generalizing a with
  | nil => rfl
  | cons i l ih =>
    rw [List.foldl_cons, List.foldl_cons, h, ih]

/-- Mapping over what a loop collects is mapping in every iteration. -/
theorem except_map_mapM (f : ι → Except ε α) (h : α → β) (l : List ι) :
    (l.mapM f).map (List.map h) = l.mapM (fun i => (f i).map h) := by
  induction l with
  | nil => rfl
  | cons i l ih =>
    rw [List.mapM_cons, List.mapM_cons, except_map_bind, except_bind_map]
    refine bind_congr (fun a => ?_)
    rw [← ih, except_map_bind, except_bind_map]
    rfl

end Exasphere.Lib

import Mathlib.Data.List.FinRange
import Mathlib.Data.List.Nodup
import Mathlib.Tactic

/-!
# Fallible computations: checked arithmetic and loops

Programs whose faults are values of `Except ε`: a bind is taken apart by `bind_eq_ok`, unsigned arithmetic that leaves
its range is a fault (`addChecked`, `mulChecked`, `subChecked`), and a `for` loop over a list is a `foldlM` with one
rule per kind of argument about it:

- an invariant indexed by the prefix already visited (`foldlM_inv`);
- a reflexive and transitive relation between the states before and after (`foldl_rel`);
- a loop whose body at `i` changes only the `i`-th view of the state (`foldlM_pointwise`);
- a loop whose body never faults (`foldlM_ok`), or only where it reads an element (`foldlM_read`).

`Agree R` relates two computations that succeed together, with values related by `R`.
-/

namespace Exasphere.Lib

universe u

section Bind

variable {ε : Type*} {α β : Type u}

/-- A bind succeeds exactly when both parts do. -/
@[simp] theorem bind_eq_ok {x : Except ε α} {f : α → Except ε β} {b : β} :
    (x >>= f) = .ok b ↔ ∃ a, x = .ok a ∧ f a = .ok b := by
  cases x with
  | error e => simp [bind, Except.bind]
  | ok a => simp [bind, Except.bind]

/-- A bind faults with the fault of its first part, or of the second. -/
theorem bind_eq_error {x : Except ε α} {f : α → Except ε β} {e : ε} :
    (x >>= f) = .error e ↔ x = .error e ∨ ∃ a, x = .ok a ∧ f a = .error e := by
  cases x with
  | error e' => simp [bind, Except.bind]
  | ok a => simp [bind, Except.bind]

@[simp] theorem pure_eq_ok {a b : α} : (pure a : Except ε α) = .ok b ↔ a = b := by
  simp [pure, Except.pure]

@[simp] theorem ok_bind (a : α) (f : α → Except ε β) : ((.ok a : Except ε α) >>= f) = f a := rfl

@[simp] theorem error_bind (e : ε) (f : α → Except ε β) : ((.error e : Except ε α) >>= f) = .error e := rfl

/-- A computation that only goes on with what another returns succeeds with it. -/
theorem exists_map_ok_iff {x : Except ε α} {f : α → β} :
    (∃ b, (x >>= fun a => .ok (f a)) = .ok b) ↔ ∃ a, x = .ok a := by
  cases x with
  | error e => simp
  | ok a => simp

/-- A computation whose second part succeeds independently of the first one's value. -/
theorem exists_bind_ok_iff {x : Except ε α} {f : α → Except ε β} {Q : Prop} (hf : ∀ a, (∃ b, f a = .ok b) ↔ Q) :
    (∃ b, (x >>= f) = .ok b) ↔ (∃ a, x = .ok a) ∧ Q := by
  cases x with
  | error e => simp
  | ok a => simp [hf a]

theorem ok_ne_error {a : α} {e : ε} : (.ok a : Except ε α) ≠ .error e := by
  intro h
  cases h

/-- A bind raises what one of its parts raises. -/
theorem bind_ne_error {x : Except ε α} {f : α → Except ε β} {e : ε} (hx : x ≠ .error e)
    (hf : ∀ a, x = .ok a → f a ≠ .error e) : (x >>= f) ≠ .error e := by
  cases x with
  | ok a => exact hf a rfl
  | error e' => exact fun h => hx (congrArg Except.error (Except.error.inj h))

@[simp] theorem ite_error_eq_ok {p : Prop} [Decidable p] {e : ε} {x : Except ε α} {a : α} :
    (if p then .error e else x) = .ok a ↔ ¬p ∧ x = .ok a := by
  by_cases hp : p <;> simp [hp]

theorem ite_error_eq_error {p : Prop} [Decidable p] {e e' : ε} {x : Except ε α} :
    (if p then .error e else x) = .error e' ↔ (p ∧ e = e') ∨ (¬p ∧ x = .error e') := by
  by_cases hp : p <;> simp [hp]

/-- Whether a computation succeeds with a value that satisfies `p`. -/
def okAnd (p : α → Bool) : Except ε α → Bool
  | .ok a => p a
  | .error _ => false

theorem okAnd_eq_true {p : α → Bool} {x : Except ε α} : okAnd p x = true ↔ ∃ a, x = .ok a ∧ p a = true := by
  cases x <;> simp [okAnd]

theorem eq_ok_of_okAnd {x : Except ε Unit} (h : okAnd (fun _ => true) x = true) : x = .ok () := by
  obtain ⟨u, hx, -⟩ := okAnd_eq_true.mp h
  exact hx

end Bind

/-! ## Mapping over a list -/

section Map

variable {ε α : Type*} {β : Type u} {f : α → Except ε β}

/-- A map succeeds with the results of its elements. -/
theorem mapM_eq_ok {l : List α} {bs : List β} : l.mapM f = .ok bs ↔ List.Forall₂ (fun a b => f a = .ok b) l bs := by
  induction l generalizing bs with
  | nil =>
    rw [List.mapM_nil, pure_eq_ok, List.forall₂_nil_left_iff]
    exact eq_comm
  | cons a l ih =>
    simp only [List.mapM_cons, bind_eq_ok, pure_eq_ok, ih, List.forall₂_cons_left_iff]
    constructor
    · rintro ⟨b, hb, bs', h, rfl⟩
      exact ⟨b, bs', hb, h, rfl⟩
    · rintro ⟨b, bs', hb, h, rfl⟩
      exact ⟨b, hb, bs', h, rfl⟩

/-- A map faults with the fault of the first element that has one. -/
theorem mapM_eq_error {l : List α} {e : ε} : l.mapM f = .error e ↔
    ∃ pre a post, l = pre ++ a :: post ∧ (∀ b ∈ pre, ∃ c, f b = .ok c) ∧ f a = .error e := by
  induction l with
  | nil => simp [pure, Except.pure]
  | cons x l ih =>
    rw [List.mapM_cons, bind_eq_error]
    constructor
    · rintro (hx | ⟨y, hy, h⟩)
      · exact ⟨[], x, l, rfl, by simp, hx⟩
      · rcases bind_eq_error.mp h with h | ⟨ys, -, h⟩
        · obtain ⟨pre, a, post, rfl, hpre, ha⟩ := ih.mp h
          exact ⟨x :: pre, a, post, rfl, by simpa using ⟨⟨y, hy⟩, hpre⟩, ha⟩
        · cases h
    · rintro ⟨pre, a, post, hl, hpre, ha⟩
      cases pre with
      | nil =>
        obtain ⟨rfl, rfl⟩ := List.cons.inj hl
        exact Or.inl ha
      | cons b pre =>
        obtain ⟨rfl, rfl⟩ := List.cons.inj hl
        obtain ⟨y, hy⟩ := hpre x (by simp)
        refine Or.inr ⟨y, hy, bind_eq_error.mpr (Or.inl (ih.mpr ⟨pre, a, post, rfl, ?_, ha⟩))⟩
        exact fun b hb => hpre b (by simp [hb])

theorem mapM_total {l : List α} (h : ∀ a ∈ l, ∃ b, f a = .ok b) : ∃ bs, l.mapM f = .ok bs := by
  induction l with
  | nil => exact ⟨[], rfl⟩
  | cons a l ih =>
    obtain ⟨b, hb⟩ := h a (by simp)
    obtain ⟨bs, hbs⟩ := ih (fun a ha => h a (by simp [ha]))
    exact ⟨b :: bs, by simp [hb, hbs]⟩

end Map

/-! ## Checked unsigned arithmetic -/

section Checked

variable {ε : Type*}

/-- `a + b` in an unsigned type of `w` bits; leaving the range is the fault `e`. -/
def addChecked (e : ε) (w a b : Nat) : Except ε Nat :=
  if a + b < 2 ^ w then .ok (a + b) else .error e

/-- `a * b` in an unsigned type of `w` bits. -/
def mulChecked (e : ε) (w a b : Nat) : Except ε Nat :=
  if a * b < 2 ^ w then .ok (a * b) else .error e

/-- `a - b` in an unsigned type; going below zero is the fault `e`. -/
def subChecked (e : ε) (a b : Nat) : Except ε Nat :=
  if b ≤ a then .ok (a - b) else .error e

@[simp] theorem addChecked_eq_ok {e : ε} {w a b c : Nat} :
    addChecked e w a b = .ok c ↔ a + b < 2 ^ w ∧ a + b = c := by
  unfold addChecked
  split <;> simp [*]

@[simp] theorem addChecked_eq_error {e e' : ε} {w a b : Nat} :
    addChecked e w a b = .error e' ↔ 2 ^ w ≤ a + b ∧ e = e' := by
  unfold addChecked
  split <;> simp <;> omega

@[simp] theorem mulChecked_eq_ok {e : ε} {w a b c : Nat} :
    mulChecked e w a b = .ok c ↔ a * b < 2 ^ w ∧ a * b = c := by
  unfold mulChecked
  split <;> simp [*]

@[simp] theorem subChecked_eq_ok {e : ε} {a b c : Nat} : subChecked e a b = .ok c ↔ b ≤ a ∧ a - b = c := by
  unfold subChecked
  split <;> simp [*]

@[simp] theorem subChecked_eq_error {e e' : ε} {a b : Nat} : subChecked e a b = .error e' ↔ a < b ∧ e = e' := by
  unfold subChecked
  split <;> simp <;> omega

end Checked

/-! ## Loops -/

section Loops

variable {ε σ ι : Type*} {g : σ → ι → Except ε σ}

/-- An invariant of the loop, indexed by the part of the list that is done. -/
theorem foldlM_inv {P : List ι → σ → Prop} {l : List ι} {s s' : σ} (h0 : P [] s)
    (hstep : ∀ done i rest s s', l = done ++ i :: rest → P done s → g s i = .ok s' → P (done ++ [i]) s')
    (h : l.foldlM g s = .ok s') : P l s' := by
  suffices H : ∀ (rest done : List ι) (s : σ), l = done ++ rest → P done s → rest.foldlM g s = .ok s' → P l s' from
    H l [] s rfl h0 h
  intro rest
  induction rest with
  | nil =>
    intro done s hl hP hr
    obtain rfl : s = s' := by simpa using hr
    simpa [hl] using hP
  | cons i rest ih =>
    intro done s hl hP hr
    obtain ⟨s₁, h₁, h₂⟩ := bind_eq_ok.mp (by simpa only [List.foldlM_cons] using hr)
    exact ih (done ++ [i]) s₁ (by simp [hl]) (hstep done i rest s s₁ hl hP h₁) h₂

/-- A loop of checks passes exactly when each check does. -/
theorem forM_eq_ok {f : ι → Except ε PUnit} {l : List ι} {u : PUnit} : l.forM f = .ok u ↔ ∀ i ∈ l, f i = .ok ⟨⟩ := by
  induction l with
  | nil => simp [pure, Except.pure]
  | cons i l ih =>
    rw [List.forM_eq_forM, List.forM_cons, ← List.forM_eq_forM, List.forall_mem_cons, ← ih]
    cases f i with
    | error e => simp
    | ok u => simp

/-- A property every iteration keeps. -/
theorem foldlM_keeps {P : σ → Prop} {l : List ι} {s s' : σ} (h0 : P s)
    (hstep : ∀ i ∈ l, ∀ s s', P s → g s i = .ok s' → P s') (h : l.foldlM g s = .ok s') : P s' :=
  foldlM_inv (P := fun _ => P) h0 (fun _ i _ _ _ hl hP hb => hstep i (by simp [hl]) _ _ hP hb) h

/-- A loop whose body at `i` changes the `i`-th view of the state by `R i` and leaves the others. -/
theorem foldlM_pointwise {V : Type*} {v : ι → σ → V} {R : ι → V → V → Prop} {P : σ → Prop} {l : List ι}
    {s s' : σ} (hl : l.Nodup) (h0 : P s)
    (hself : ∀ i ∈ l, ∀ s s', P s → g s i = .ok s' → P s' ∧ R i (v i s) (v i s'))
    (hother : ∀ i ∈ l, ∀ s s' j, P s → g s i = .ok s' → j ≠ i → v j s' = v j s)
    (h : l.foldlM g s = .ok s') :
    P s' ∧ (∀ j ∈ l, R j (v j s) (v j s')) ∧ ∀ j ∉ l, v j s' = v j s := by
  refine foldlM_inv (P := fun done x => P x ∧ (∀ j ∈ done, R j (v j s) (v j x)) ∧
    ∀ j ∉ done, v j x = v j s) ⟨h0, by simp, by simp⟩ ?_ h
  rintro done i rest a b hsplit ⟨hP, hdone, hrest⟩ hb
  have hi : i ∈ l := by simp [hsplit]
  have hnew : i ∉ done := fun hd => by
    rw [hsplit, List.nodup_append] at hl
    exact hl.2.2 i hd i (by simp) rfl
  refine ⟨(hself i hi a b hP hb).1, fun j hj => ?_, fun j hj => ?_⟩
  · rcases List.mem_append.mp hj with hj | hj
    · rw [hother i hi a b j hP hb (fun e => hnew (e ▸ hj))]
      exact hdone j hj
    · obtain rfl := List.mem_singleton.mp hj
      rw [← hrest j hnew]
      exact (hself j hi a b hP hb).2
  · simp only [List.mem_append, List.mem_singleton, not_or] at hj
    rw [hother i hi a b j hP hb hj.2, hrest j hj.1]

/-- A loop whose body does not fault under its invariant. -/
theorem foldlM_ok {P : List ι → σ → Prop} {l : List ι} {s : σ} (h0 : P [] s)
    (hstep : ∀ done i rest s, l = done ++ i :: rest → P done s → ∃ s', g s i = .ok s' ∧ P (done ++ [i]) s') :
    ∃ s', l.foldlM g s = .ok s' ∧ P l s' := by
  suffices H : ∀ (rest done : List ι) (s : σ), l = done ++ rest → P done s →
      ∃ s', rest.foldlM g s = .ok s' ∧ P l s' from H l [] s rfl h0
  intro rest
  induction rest with
  | nil => exact fun done s hl hP => ⟨s, rfl, by simpa [hl] using hP⟩
  | cons i rest ih =>
    intro done s hl hP
    obtain ⟨s₁, h₁, hP₁⟩ := hstep done i rest s hl hP
    obtain ⟨s', h₂, hP'⟩ := ih (done ++ [i]) s₁ (by simp [hl]) hP₁
    exact ⟨s', by simp [List.foldlM_cons, h₁, h₂], hP'⟩

/-- `foldlM_inv` for a loop that cannot fault. -/
theorem foldl_inv {f : σ → ι → σ} {P : List ι → σ → Prop} {l : List ι} {s : σ} (h0 : P [] s)
    (hstep : ∀ done i rest s, l = done ++ i :: rest → P done s → P (done ++ [i]) (f s i)) : P l (l.foldl f s) := by
  have hpure : l.foldlM (fun s i => (.ok (f s i) : Except Unit σ)) s = .ok (l.foldl f s) := List.foldlM_pure
  refine foldlM_inv h0 (fun done i rest s s' hl hP hs => ?_) hpure
  obtain rfl : f s i = s' := by simpa using hs
  exact hstep done i rest s hl hP

/-- A preorder every iteration of a loop that cannot fault respects, under an invariant `P`. -/
theorem foldl_rel {f : σ → ι → σ} {P : σ → Prop} {R : σ → σ → Prop} {l : List ι} {s : σ} (hrefl : ∀ s, R s s)
    (htrans : ∀ a b c, R a b → R b c → R a c) (h0 : P s) (hstep : ∀ s, ∀ i ∈ l, P s → P (f s i) ∧ R s (f s i)) :
    P (l.foldl f s) ∧ R s (l.foldl f s) := by
  refine foldl_inv (P := fun _ x => P x ∧ R s x) ⟨h0, hrefl s⟩ ?_
  rintro done i rest a hl ⟨hP, hR⟩
  obtain ⟨hP', hR'⟩ := hstep a i (by simp [hl]) hP
  exact ⟨hP', htrans _ _ _ hR hR'⟩

end Loops

/-! ## Loops that read -/

section Read

variable {ε ι : Type*} {σ τ : Type u} {f : ι → Except ε τ} {next : σ → τ → σ}

/-- What an element of a list was read as. -/
theorem exists_of_forall₂ {α β : Type*} {R : α → β → Prop} {l : List α} {l' : List β} (h : List.Forall₂ R l l')
    {a : α} (ha : a ∈ l) : ∃ b ∈ l', R a b := by
  induction h with
  | nil => cases ha
  | @cons _ b _ _ hb _ ih =>
    rcases List.mem_cons.mp ha with rfl | ha
    · exact ⟨b, by simp, hb⟩
    · obtain ⟨b', hmem, hb'⟩ := ih ha
      exact ⟨b', by simp [hmem], hb'⟩

/-- A loop that faults only where it reads an element runs on what it read. -/
theorem foldlM_read {l : List ι} {as : List τ} {s : σ} (h : List.Forall₂ (fun i a => f i = .ok a) l as) :
    l.foldlM (fun s i => f i >>= fun a => .ok (next s a)) s = .ok (as.foldl next s) := by
  induction h generalizing s with
  | nil => rfl
  | cons ha _ ih => rw [List.foldlM_cons, ha, ok_bind, ok_bind, ih, List.foldl_cons]

/-- A loop whose body succeeds at `i` in every state, or in none, ends exactly if it succeeds at every element. -/
theorem foldlM_total_iff {g : σ → ι → Except ε σ} {P : ι → Prop} (hg : ∀ s i, (∃ s', g s i = .ok s') ↔ P i)
    {l : List ι} {s : σ} : (∃ s', l.foldlM g s = .ok s') ↔ ∀ i ∈ l, P i := by
  induction l generalizing s with
  | nil => simp [pure, Except.pure]
  | cons i l ih =>
    rw [List.foldlM_cons, exists_bind_ok_iff (fun s' => ih), hg, List.forall_mem_cons]

/-- It ends exactly if it can read every element. -/
theorem foldlM_read_ok_iff {l : List ι} {s : σ} :
    (∃ s', l.foldlM (fun s i => f i >>= fun a => .ok (next s a)) s = .ok s') ↔ ∀ i ∈ l, ∃ a, f i = .ok a :=
  foldlM_total_iff (fun _ _ => exists_map_ok_iff)

end Read

/-! ## Computations that succeed together -/

section Agree

variable {ε ε' ι : Type*} {α β : Type u} {γ δ : Type u}

/-- Both computations succeed, with related values, or both fault. -/
inductive Agree (R : α → β → Prop) : Except ε α → Except ε' β → Prop
  | ok {a : α} {b : β} (h : R a b) : Agree R (.ok a) (.ok b)
  | error (e : ε) (e' : ε') : Agree R (.error e) (.error e')

theorem Agree.bind {R : α → β → Prop} {S : γ → δ → Prop} {x : Except ε α} {y : Except ε' β} {f : α → Except ε γ}
    {g : β → Except ε' δ} (h : Agree R x y) (hf : ∀ a b, R a b → Agree S (f a) (g b)) :
    Agree S (x >>= f) (y >>= g) := by
  cases h with
  | ok h => exact hf _ _ h
  | error e e' => exact .error e e'

/-- Two loops over one list whose bodies agree. -/
theorem Agree.foldlM {R : α → β → Prop} {f : α → ι → Except ε α} {g : β → ι → Except ε' β} {l : List ι} {a : α} {b : β}
    (h : R a b) (hstep : ∀ i ∈ l, ∀ a b, R a b → Agree R (f a i) (g b i)) : Agree R (l.foldlM f a) (l.foldlM g b) := by
  induction l generalizing a b with
  | nil => exact .ok h
  | cons i l ih =>
    rw [List.foldlM_cons, List.foldlM_cons]
    exact (hstep i (by simp) a b h).bind (fun a b h => ih h (fun j hj => hstep j (by simp [hj])))

theorem Agree.refl (x : Except ε α) : Agree Eq x x := by
  cases x with
  | ok a => exact .ok rfl
  | error e => exact .error e e

/-- Related values may be strengthened by what each computation guarantees. -/
theorem Agree.imp {R S : α → β → Prop} {x : Except ε α} {y : Except ε' β} (h : Agree R x y)
    (hS : ∀ a b, x = .ok a → y = .ok b → R a b → S a b) : Agree S x y := by
  cases h with
  | ok h => exact .ok (hS _ _ rfl rfl h)
  | error e e' => exact .error e e'

/-- Computations that never succeed agree. -/
theorem Agree.of_error {R : α → β → Prop} {x : Except ε α} {y : Except ε' β} (hx : ∀ a, x ≠ .ok a)
    (hy : ∀ b, y ≠ .ok b) : Agree R x y := by
  cases x with
  | ok a => exact absurd rfl (hx a)
  | error e =>
    cases y with
    | ok b => exact absurd rfl (hy b)
    | error e' => exact .error e e'

theorem Agree.eq_ok {x : Except ε α} {y : Except ε' α} (h : Agree Eq x y) (a : α) : x = .ok a ↔ y = .ok a := by
  cases h with
  | ok h => simp [h]
  | error e e' => simp

end Agree

/-! ## Computations that succeed where another does -/

section Refines

variable {ε : Type*} {α β : Type u}

/-- What the first computation returns, the second returns too. -/
def Refines (x y : Except ε α) : Prop := ∀ a, x = .ok a → y = .ok a

theorem Refines.refl (x : Except ε α) : Refines x x := fun _ h => h

theorem Refines.bind {x y : Except ε α} {f g : α → Except ε β} (h : Refines x y) (hf : ∀ a, Refines (f a) (g a)) :
    Refines (x >>= f) (y >>= g) := by
  intro b hb
  obtain ⟨a, ha, hfa⟩ := bind_eq_ok.mp hb
  exact bind_eq_ok.mpr ⟨a, h a ha, hf a b hfa⟩

theorem Refines.ite {p : Prop} [Decidable p] {x y x' y' : Except ε α} (h : p → Refines x x') (h' : ¬p → Refines y y') :
    Refines (if p then x else y) (if p then x' else y') := by
  by_cases hp : p
  · simpa [hp] using h hp
  · simpa [hp] using h' hp

end Refines

/-! ## What a computation returns -/

section Yields

variable {ε : Type*} {α β : Type u} {P : α → Prop} {Q : β → Prop}

/-- If the computation returns, it returns a value of the property. -/
def Yields (P : α → Prop) (x : Except ε α) : Prop := ∀ a, x = .ok a → P a

theorem Yields.ok {a : α} (h : P a) : Yields P (.ok a : Except ε α) := fun _ ha => Except.ok.inj ha ▸ h

theorem Yields.error (e : ε) : Yields P (.error e : Except ε α) := by
  intro a ha
  cases ha

theorem Yields.bind {x : Except ε α} {f : α → Except ε β} (h : Yields P x) (hf : ∀ a, P a → Yields Q (f a)) :
    Yields Q (x >>= f) := by
  intro b hb
  obtain ⟨a, ha, hfa⟩ := bind_eq_ok.mp hb
  exact hf a (h a ha) b hfa

theorem Yields.ite {p : Prop} [Decidable p] {x y : Except ε α} (h : Yields P x) (h' : Yields P y) :
    Yields P (if p then x else y) := by
  by_cases hp : p
  · simpa [hp] using h
  · simpa [hp] using h'

end Yields

end Exasphere.Lib

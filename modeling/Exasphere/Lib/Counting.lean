import Mathlib.Algebra.BigOperators.Group.Finset.Piecewise
import Mathlib.Data.Fintype.Basic

/-!
# Counting the entries of a log

A log is counted by a key of its entries: the entries with a property are the sum, over the keys they can have, of the
entries with the property and that key (`countP_eq_sum_key`, `countP_eq_sum_index`). Two counts that agree key by key
therefore agree as totals, and counts of the parts of a log add up to its length (`length_eq_sum_countP`).
-/

namespace Exasphere.Lib

section Counting

variable {α κ ι : Type*} [DecidableEq κ] {p q : α → Bool}

/-- A count, key by key. -/
theorem countP_eq_sum_key (l : List α) (key : α → κ) (keys : Finset κ) (h : ∀ a ∈ l, p a = true → key a ∈ keys) :
    l.countP p = ∑ k ∈ keys, l.countP (fun a => p a && decide (key a = k)) := by
  induction l with
  | nil => simp
  | cons a l ih =>
    have hl := ih (fun b hb => h b (List.mem_cons_of_mem a hb))
    simp only [List.countP_cons, Finset.sum_add_distrib, ← hl, Nat.add_left_cancel_iff]
    cases hp : p a with
    | false => simp
    | true =>
      have hk : key a ∈ keys := h a List.mem_cons_self hp
      simp [hk]

/-- A count, key by key, where the keys are numbered. -/
theorem countP_eq_sum_index [Fintype ι] (l : List α) (key : α → κ) (f : ι → κ) (hf : Function.Injective f)
    (h : ∀ a ∈ l, p a = true → ∃ i, key a = f i) :
    l.countP p = ∑ i, l.countP (fun a => p a && decide (key a = f i)) := by
  rw [countP_eq_sum_key l key (Finset.univ.image f) (fun a ha hp => ?_), Finset.sum_image (fun i _ j _ hij => hf hij)]
  obtain ⟨i, hi⟩ := h a ha hp
  exact Finset.mem_image.mpr ⟨i, Finset.mem_univ i, hi.symm⟩

/-- The length of a log, key by key. -/
theorem length_eq_sum_countP (l : List α) (key : α → κ) (keys : Finset κ) (h : ∀ a ∈ l, key a ∈ keys) :
    l.length = ∑ k ∈ keys, l.countP (fun a => decide (key a = k)) := by
  have hsum := countP_eq_sum_key (p := fun _ => true) l key keys (fun a ha _ => h a ha)
  simpa using hsum

/-- The entries of either of two kinds. -/
theorem countP_or (l : List α) (h : ∀ a ∈ l, ¬(p a = true ∧ q a = true)) :
    l.countP (fun a => p a || q a) = l.countP p + l.countP q := by
  induction l with
  | nil => rfl
  | cons a l ih =>
    have hl := ih (fun b hb => h b (List.mem_cons_of_mem a hb))
    have ha := h a List.mem_cons_self
    simp only [List.countP_cons, hl]
    cases hp : p a <;> cases hq : q a <;> simp_all <;> omega

end Counting

end Exasphere.Lib

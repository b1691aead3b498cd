import Mathlib.Data.List.Perm.Basic
import Mathlib.Tactic

/-!
# Selecting the first best element of a list

`firstBest better l` scans `l` from the left and replaces its candidate only when a later element is strictly better:
the loop behind every "choose the best index" function. It returns an element of the list (`firstBest_mem`), nothing
only for the empty list (`firstBest_eq_none`), and no element of the list is better than the returned one when `better`
is a strict weak order (`firstBest_best`). When no two elements of the list are equivalent the choice does not depend
on the order of the list (`firstBest_unique`).
-/

namespace Exasphere.Lib

variable {α : Type*}

/-- One iteration of the scan. -/
def keepBest (better : α → α → Bool) : Option α → α → Option α
  | none, a => some a
  | some b, a => if better a b then some a else some b

/-- The first element of `l` that no earlier candidate kept out. -/
def firstBest (better : α → α → Bool) (l : List α) : Option α :=
  l.foldl (keepBest better) none

/-- `better` compares keys: irreflexive, transitive, and incomparability is transitive. -/
structure StrictWeak (better : α → α → Bool) : Prop where
  irrefl : ∀ a, better a a = false
  trans : ∀ a b c, better a b = true → better b c = true → better a c = true
  weak : ∀ a b c, better a b = false → better b c = false → better a c = false

variable {better : α → α → Bool}

theorem foldl_keepBest_some (better : α → α → Bool) (b : α) (l : List α) :
    ∃ c, l.foldl (keepBest better) (some b) = some c ∧ (c = b ∨ c ∈ l) := by
  induction l generalizing b with
  | nil => exact ⟨b, rfl, Or.inl rfl⟩
  | cons a l ih =>
    simp only [List.foldl_cons, keepBest]
    split
    · obtain ⟨c, hc, h⟩ := ih a
      exact ⟨c, hc, Or.inr (by rcases h with rfl | h <;> simp [*])⟩
    · obtain ⟨c, hc, h⟩ := ih b
      exact ⟨c, hc, by rcases h with rfl | h <;> simp [*]⟩

theorem firstBest_mem {l : List α} {c : α} (h : firstBest better l = some c) : c ∈ l := by
  cases l with
  | nil => simp [firstBest] at h
  | cons a l =>
    obtain ⟨d, hd, hm⟩ := foldl_keepBest_some better a l
    rw [firstBest, List.foldl_cons, keepBest, hd] at h
    cases h
    rcases hm with rfl | hm <;> simp [*]

@[simp] theorem firstBest_eq_none {l : List α} : firstBest better l = none ↔ l = [] := by
  cases l with
  | nil => simp [firstBest]
  | cons a l =>
    obtain ⟨d, hd, -⟩ := foldl_keepBest_some better a l
    simp [firstBest, keepBest, hd]

/-- The scan keeps a candidate that nothing seen so far beats. -/
theorem foldl_keepBest_best (hw : StrictWeak better) {b c : α} {l : List α}
    (h : l.foldl (keepBest better) (some b) = some c) : better b c = false ∧ ∀ a ∈ l, better a c = false := by
  induction l generalizing b with
  | nil =>
    cases h
    exact ⟨hw.irrefl _, by simp⟩
  | cons a l ih =>
    simp only [List.foldl_cons, keepBest] at h
    split at h
    next hab =>
      obtain ⟨hac, hl⟩ := ih h
      refine ⟨?_, by simpa using ⟨hac, hl⟩⟩
      -- the old candidate lost to `a`, so it cannot beat what `a` does not beat
      cases hbc : better b c with
      | false => rfl
      | true => rw [hw.trans a b c hab hbc] at hac; exact hac
    next hab =>
      obtain ⟨hbc, hl⟩ := ih h
      exact ⟨hbc, by simpa using ⟨hw.weak a b c (by simpa using hab) hbc, hl⟩⟩

/-- Nothing in the list is better than the chosen element. -/
theorem firstBest_best (hw : StrictWeak better) {l : List α} {c : α} (h : firstBest better l = some c) :
    ∀ a ∈ l, better a c = false := by
  cases l with
  | nil => simp [firstBest] at h
  | cons a l =>
    obtain ⟨h1, h2⟩ := foldl_keepBest_best hw (by simpa [firstBest, keepBest] using h)
    simpa using ⟨h1, h2⟩

theorem StrictWeak.comp {β : Type*} (h : StrictWeak better) (f : β → α) :
    StrictWeak (fun a b => better (f a) (f b)) :=
  ⟨fun _ => h.irrefl _, fun _ _ _ => h.trans _ _ _, fun _ _ _ => h.weak _ _ _⟩

/-- Comparing images is the same as choosing among the images. -/
theorem firstBest_map {β : Type*} (better : α → α → Bool) (f : β → α) (l : List β) :
    (firstBest (fun a b => better (f a) (f b)) l).map f = firstBest better (l.map f) := by
  suffices H : ∀ b : Option β, (l.foldl (keepBest (fun a b => better (f a) (f b))) b).map f =
      (l.map f).foldl (keepBest better) (b.map f) from H none
  induction l with
  | nil => exact fun _ => rfl
  | cons a l ih =>
    intro b
    rw [List.foldl_cons, ih, List.map_cons, List.foldl_cons]
    congr 1
    cases b with
    | none => rfl
    | some b =>
      simp only [keepBest, Option.map_some]
      split <;> rfl

/-- Two elements of which neither is better are equal: the choice depends on the members of the list only. -/
theorem firstBest_unique (hw : StrictWeak better) {l l' : List α} (hmem : ∀ a, a ∈ l ↔ a ∈ l')
    (htotal : ∀ a ∈ l, ∀ b ∈ l, better a b = false → better b a = false → a = b) :
    firstBest better l = firstBest better l' := by
  cases h : firstBest better l with
  | none =>
    rw [firstBest_eq_none] at h
    have hl' : l' = [] := List.eq_nil_iff_forall_not_mem.mpr (fun a ha => by simpa [h] using (hmem a).mpr ha)
    exact (firstBest_eq_none.mpr hl').symm
  | some c =>
    cases h' : firstBest better l' with
    | none =>
      rw [firstBest_eq_none] at h'
      exact absurd ((hmem c).mp (firstBest_mem h)) (by simp [h'])
    | some d =>
      have hc := firstBest_mem h
      have hd := (hmem d).mpr (firstBest_mem h')
      rw [htotal c hc d hd (firstBest_best hw h' c ((hmem c).mp hc)) (firstBest_best hw h d hd)]

end Exasphere.Lib

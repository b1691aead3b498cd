import Mathlib.Data.List.Basic
import Mathlib.Tactic

/-!
# Removing and updating in a sequence

`removeIf` removes the elements a predicate asks for, where the predicate keeps a state along the way, and
`updateFirst` changes the first element a predicate accepts. Both commute with maps that respect their parameters
(`removeIf_map`, `updateFirst_map`), which relates a program to the same program on decorated elements; and seen through
a filter an update that leaves the filter is the removal of an element (`updateFirst_filter`).

`Cut` divides a list into parts of one length, from the left. The pieces of a split hold no separator
(`not_separator_of_mem_splitOnP`), all pieces together are the rest of the text
(`flatten_splitOnP`), and pieces that are joined are split again (`splitOnP_intercalate`).
-/

namespace Exasphere.Lib

variable {α β σ τ : Type*}

/-- Removes the elements for which `pred` returns `true`; every element is asked once, in order. -/
def removeIf (pred : σ → α → σ × Bool) : σ → List α → σ × List α
  | s, [] => (s, [])
  | s, a :: l =>
    let rest := removeIf pred (pred s a).1 l
    (rest.1, if (pred s a).2 then rest.2 else a :: rest.2)

/-- Changes the first element that `p` accepts, and returns it with the new list. -/
def updateFirst (p : α → Bool) (u : α → α) : List α → Option (α × List α)
  | [] => none
  | a :: l => if p a then some (a, u a :: l) else (updateFirst p u l).map fun r => (r.1, a :: r.2)

theorem removeIf_map {pred : σ → α → σ × Bool} {pred' : τ → β → τ × Bool} {g : τ → σ} {f : β → α}
    (h : ∀ t b, pred (g t) (f b) = (g (pred' t b).1, (pred' t b).2)) (t : τ) (l : List β) :
    removeIf pred (g t) (l.map f) = (g (removeIf pred' t l).1, (removeIf pred' t l).2.map f) := by
  induction l generalizing t with
  | nil => rfl
  | cons b l ih =>
    simp only [List.map_cons, removeIf, h, ih]
    split <;> rfl

/-- What is left, if the answers do not depend on the state. -/
theorem removeIf_snd {pred : σ → α → σ × Bool} {r : α → Bool} (h : ∀ s a, (pred s a).2 = r a) (s : σ) (l : List α) :
    (removeIf pred s l).2 = l.filter fun a => !r a := by
  induction l generalizing s with
  | nil => rfl
  | cons a l ih =>
    simp only [removeIf, h, ih, List.filter_cons]
    cases r a <;> rfl

/-- The elements a predicate collects in its state. -/
theorem removeIf_fst {pred : List α → α → List α × Bool} {c : α → Bool}
    (h : ∀ s a, (pred s a).1 = if c a then s ++ [a] else s) (s l : List α) :
    (removeIf pred s l).1 = s ++ l.filter c := by
  induction l generalizing s with
  | nil => simp [removeIf]
  | cons a l ih =>
    simp only [removeIf, ih, h, List.filter_cons]
    split <;> simp

theorem updateFirst_map {p : α → Bool} {p' : β → Bool} {u : α → α} {u' : β → β} {f : β → α} (hp : ∀ b, p (f b) = p' b)
    (hu : ∀ b, u (f b) = f (u' b)) (l : List β) :
    updateFirst p u (l.map f) = (updateFirst p' u' l).map fun r => (f r.1, r.2.map f) := by
  induction l with
  | nil => rfl
  | cons b l ih =>
    simp only [List.map_cons, updateFirst, hp, hu, ih]
    split
    · rfl
    · rw [Option.map_map, Option.map_map]
      rfl

/-- Through a filter that the first accepted element passes before its update and not after it. -/
theorem updateFirst_filter {p q : α → Bool} {u : α → α} (hq : ∀ a, p a = true → q a = true)
    (hu : ∀ a, p a = true → q (u a) = false) (l : List α) :
    (updateFirst p u l).map (fun r => (r.1, r.2.filter q)) =
      ((l.filter q).find? p).map fun a => (a, (l.filter q).eraseP p) := by
  induction l with
  | nil => rfl
  | cons a l ih =>
    rw [updateFirst]
    by_cases hp : p a = true
    · rw [if_pos hp, List.filter_cons_of_pos (hq a hp), List.find?_cons_of_pos hp, List.eraseP_cons_of_pos hp,
        Option.map_some, Option.map_some, List.filter_cons_of_neg (by simp [hu a hp])]
    · rw [if_neg hp, Option.map_map]
      by_cases hqa : q a = true
      · rw [List.filter_cons_of_pos hqa, List.find?_cons_of_neg hp, List.eraseP_cons_of_neg hp]
        have hmap := congrArg (Option.map fun r : α × List α => (r.1, a :: r.2)) ih
        rw [Option.map_map, Option.map_map] at hmap
        simpa [Function.comp_def, hqa] using hmap
      · rw [List.filter_cons_of_neg hqa, ← ih]
        simp [Function.comp_def, hqa]

/-- Lists that look alike through the filter are updated alike. -/
theorem updateFirst_filter_congr {p q : α → Bool} {u : α → α} (hq : ∀ a, p a = true → q a = true)
    (hu : ∀ a, p a = true → q (u a) = false) {l l' : List α} (h : l.filter q = l'.filter q) :
    (updateFirst p u l).map (fun r => (r.1, r.2.filter q)) = (updateFirst p u l').map fun r => (r.1, r.2.filter q) := by
  rw [updateFirst_filter hq hu, updateFirst_filter hq hu, h]

/-- An update that leaves a filter takes its element out of what passes the filter. -/
theorem updateFirst_perm {p q : α → Bool} {u : α → α} (hq : ∀ a, p a = true → q a = true)
    (hu : ∀ a, p a = true → q (u a) = false) {l l' : List α} {a : α} (h : updateFirst p u l = some (a, l')) :
    (l.filter q).Perm (a :: l'.filter q) := by
  induction l generalizing l' with
  | nil => cases h
  | cons b l ih =>
    rw [updateFirst] at h
    by_cases hp : p b = true
    · rw [if_pos hp] at h
      obtain ⟨rfl, rfl⟩ := Prod.mk.inj (Option.some.inj h)
      rw [List.filter_cons_of_pos (hq b hp), List.filter_cons_of_neg (by simp [hu b hp])]
    · rw [if_neg hp, Option.map_eq_some_iff] at h
      obtain ⟨r, hr, heq⟩ := h
      obtain ⟨rfl, rfl⟩ := Prod.mk.inj heq
      have hperm := ih hr
      by_cases hqb : q b = true
      · rw [List.filter_cons_of_pos hqb, List.filter_cons_of_pos hqb]
        exact (hperm.cons b).trans (List.Perm.swap ..)
      · rwa [List.filter_cons_of_neg hqb, List.filter_cons_of_neg hqb]

/-! ## Parts of one length -/

/-- `parts` divide a list, that is not empty, into parts of length `c`, of which the last may be shorter. -/
inductive Cut (c : Nat) : List α → List (List α) → Prop
  | last {l : List α} (hne : l ≠ []) (hle : l.length ≤ c) : Cut c l [l]
  | more {part rest : List α} {parts : List (List α)} (hlen : part.length = c) (hrest : Cut c rest parts) :
      Cut c (part ++ rest) (part :: parts)

variable {c : Nat} {l : List α} {parts : List (List α)}

theorem Cut.flatten (h : Cut c l parts) : parts.flatten = l := by
  induction h with
  | last hne hle => simp
  | more hlen hrest ih => rw [List.flatten_cons, ih]

theorem Cut.ne_nil (h : Cut c l parts) : parts ≠ [] := by
  cases h <;> simp

theorem Cut.length_le (h : Cut c l parts) : ∀ part ∈ parts, part.length ≤ c := by
  induction h with
  | last hne hle => simpa using hle
  | more hlen hrest ih =>
    rw [List.forall_mem_cons]
    exact ⟨hlen.le, ih⟩

theorem Cut.length_eq (h : Cut c l parts) : ∀ part ∈ parts.dropLast, part.length = c := by
  induction h with
  | last hne hle => simp
  | more hlen hrest ih =>
    rw [List.dropLast_cons_of_ne_nil hrest.ne_nil, List.forall_mem_cons]
    exact ⟨hlen, ih⟩

theorem Cut.count (h : Cut c l parts) (hc : 0 < c) : parts.length = (l.length + (c - 1)) / c := by
  induction h with
  | @last l hne hle =>
    have hpos := List.length_pos_iff.mpr hne
    have hlt : l.length + (c - 1) - c < c := by omega
    rw [List.length_singleton, Nat.div_eq_sub_div hc (by omega), Nat.div_eq_of_lt hlt]
  | more hlen hrest ih =>
    rw [List.length_cons, ih, List.length_append, hlen, Nat.add_assoc, Nat.add_div_left _ hc]

/-! ## Splits -/

theorem not_separator_of_mem_splitOnP {p : α → Bool} {text piece : List α} (h : piece ∈ text.splitOnP p) :
    ∀ x ∈ piece, p x = false := by
  induction text generalizing piece with
  | nil =>
    rw [List.splitOnP_nil, List.mem_singleton] at h
    simp [h]
  | cons x text ih =>
    rw [List.splitOnP_cons_eq_if_modifyHead] at h
    obtain ⟨first, more, hsplit⟩ := List.exists_cons_of_ne_nil (List.splitOnP_ne_nil p text)
    rw [hsplit] at h ih
    split at h
    · rcases List.mem_cons.mp h with rfl | h
      · simp
      · exact ih h
    next hx =>
      rw [List.modifyHead_cons] at h
      rcases List.mem_cons.mp h with rfl | h
      · rw [List.forall_mem_cons]
        exact ⟨by simpa using hx, ih List.mem_cons_self⟩
      · exact ih (List.mem_cons_of_mem first h)

theorem flatten_splitOnP (p : α → Bool) (text : List α) : (text.splitOnP p).flatten = text.filter (fun x => !p x) := by
  induction text with
  | nil => rfl
  | cons x text ih =>
    obtain ⟨first, more, hsplit⟩ := List.exists_cons_of_ne_nil (List.splitOnP_ne_nil p text)
    rw [List.splitOnP_cons_eq_if_modifyHead]
    by_cases hx : p x = true
    · simp [hx, ih]
    · rw [hsplit] at ih ⊢
      simp [hx, ← ih]

theorem splitOnP_intercalate {p : α → Bool} {sep : α} {pieces : List (List α)} (hsep : p sep = true)
    (hpieces : ∀ piece ∈ pieces, ∀ x ∈ piece, p x = false) (hne : pieces ≠ []) :
    ([sep].intercalate pieces).splitOnP p = pieces := by
  induction pieces with
  | nil => exact absurd rfl hne
  | cons piece pieces ih =>
    have hpiece := hpieces piece List.mem_cons_self
    cases pieces with
    | nil => rw [List.intercalate_singleton, List.splitOnP_eq_singleton hpiece]
    | cons piece' pieces =>
      rw [List.intercalate_cons_cons, List.append_assoc, List.singleton_append,
        List.splitOnP_append_cons_of_forall_mem hpiece sep hsep,
        ih (fun q hq => hpieces q (List.mem_cons_of_mem piece hq)) (List.cons_ne_nil piece' pieces)]

end Exasphere.Lib

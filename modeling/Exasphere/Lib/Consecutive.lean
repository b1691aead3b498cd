import Mathlib.Data.List.Basic
import Mathlib.Data.List.Chain
import Mathlib.Data.List.GetD

/-!
# Consecutive elements of a list

`Consecutive R l`: somewhere in `l` an element and the next one are related by `R`. A list that grows at its end has
one more pair (`consecutive_concat`).

`Tracked R l last`: every element of `l` is related to the next one, and `last` is the last. A loop that compares each
value with the last one it has seen keeps it (`Tracked.concat`).
-/

namespace Exasphere.Lib

variable {α : Type*} {R : α → α → Prop} {l : List α}

/-- Two elements next to each other are related. -/
def Consecutive (R : α → α → Prop) (l : List α) : Prop := ∃ i x y, l[i]? = some x ∧ l[i + 1]? = some y ∧ R x y

@[simp] theorem not_consecutive_nil : ¬Consecutive R [] := by
  rintro ⟨i, x, y, hx, -⟩
  simp at hx

theorem Consecutive.imp {S : α → α → Prop} (h : Consecutive R l) (hRS : ∀ x y, R x y → S x y) : Consecutive S l := by
  obtain ⟨i, x, y, hx, hy, hR⟩ := h
  exact ⟨i, x, y, hx, hy, hRS x y hR⟩

/-- Elements of an image. -/
theorem consecutive_map {β : Type*} {R : β → β → Prop} {f : α → β} :
    Consecutive R (l.map f) ↔ Consecutive (fun x y => R (f x) (f y)) l := by
  constructor
  · rintro ⟨i, x, y, hx, hy, hR⟩
    rw [List.getElem?_map, Option.map_eq_some_iff] at hx hy
    obtain ⟨a, ha, rfl⟩ := hx
    obtain ⟨b, hb, rfl⟩ := hy
    exact ⟨i, a, b, ha, hb, hR⟩
  · rintro ⟨i, a, b, ha, hb, hR⟩
    exact ⟨i, f a, f b, by rw [List.getElem?_map, ha]; rfl, by rw [List.getElem?_map, hb]; rfl, hR⟩

theorem consecutive_or {S : α → α → Prop} :
    Consecutive (fun x y => R x y ∨ S x y) l ↔ Consecutive R l ∨ Consecutive S l := by
  constructor
  · rintro ⟨i, x, y, hx, hy, hR | hS⟩
    · exact Or.inl ⟨i, x, y, hx, hy, hR⟩
    · exact Or.inr ⟨i, x, y, hx, hy, hS⟩
  · rintro (h | h)
    · exact h.imp (fun _ _ => Or.inl)
    · exact h.imp (fun _ _ => Or.inr)

/-- The pairs of a list with one more element. -/
theorem consecutive_concat {y : α} :
    Consecutive R (l ++ [y]) ↔ Consecutive R l ∨ ∃ x, l.getLast? = some x ∧ R x y := by
  constructor
  · rintro ⟨i, a, b, ha, hb, hR⟩
    have hi : i + 1 < (l ++ [y]).length := (List.getElem?_eq_some_iff.mp hb).1
    rw [List.length_append, List.length_singleton] at hi
    by_cases hlast : i + 1 = l.length
    · right
      rw [List.getElem?_append_left (by omega)] at ha
      rw [hlast, List.getElem?_concat_length] at hb
      obtain rfl := Option.some.inj hb
      refine ⟨a, ?_, hR⟩
      rw [List.getLast?_eq_getElem?, ← hlast]
      exact ha
    · left
      rw [List.getElem?_append_left (by omega)] at ha hb
      exact ⟨i, a, b, ha, hb, hR⟩
  · rintro (⟨i, a, b, ha, hb, hR⟩ | ⟨x, hx, hR⟩)
    · have hlt := (List.getElem?_eq_some_iff.mp hb).1
      exact ⟨i, a, b, by rw [List.getElem?_append_left (by omega)]; exact ha,
        by rw [List.getElem?_append_left hlt]; exact hb, hR⟩
    · rw [List.getLast?_eq_getElem?] at hx
      have hpos := (List.getElem?_eq_some_iff.mp hx).1
      refine ⟨l.length - 1, x, y, ?_, ?_, hR⟩
      · rw [List.getElem?_append_left hpos]
        exact hx
      · rw [Nat.sub_add_cancel (by omega), List.getElem?_concat_length]

/-! ## Lists that are compared with their last element -/

structure Tracked (R : α → α → Prop) (l : List α) (last : Option α) : Prop where
  chain : l.IsChain R
  last_eq : l.getLast? = last

theorem tracked_nil : Tracked R [] none := ⟨.nil, rfl⟩

theorem Tracked.concat {last : Option α} {y : α} (h : Tracked R l last) (hy : ∀ x ∈ last, R x y) :
    Tracked R (l ++ [y]) (some y) := by
  refine ⟨h.chain.append (.singleton y) ?_, List.getLast?_concat⟩
  intro x hx z hz
  obtain rfl := Option.some.inj hz
  exact hy x (h.last_eq ▸ hx)

theorem Tracked.pairwise [Trans R R R] {last : Option α} (h : Tracked R l last) : l.Pairwise R :=
  List.isChain_iff_pairwise.mp h.chain

theorem filterMap_concat {ι : Type*} {f : ι → Option α} {is : List ι} {i : ι} :
    (is ++ [i]).filterMap f = is.filterMap f ++ (f i).toList := by
  rw [List.filterMap_append]
  cases h : f i <;> simp [h]

end Exasphere.Lib

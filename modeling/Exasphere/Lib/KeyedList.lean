import Mathlib.Order.Defs.Unbundled
import Mathlib.Data.List.Basic

/-!
# Ordered association lists

A map that keeps its entries by increasing key, as an association list: `insertKey` is insertion or assignment, and
compares keys with `<` only. `findKey` reads the entry of a key back (`findKey_insertKey`).
-/

namespace Exasphere.Lib

variable {κ α : Type*} [LT κ] [DecidableLT κ]

/-- Insert a key, or give it a new value. -/
def insertKey (k : κ) (a : α) : List (κ × α) → List (κ × α)
  | [] => [(k, a)]
  | (k', a') :: rest =>
    if k < k' then (k, a) :: (k', a') :: rest
    else if k' < k then (k', a') :: insertKey k a rest
    else (k', a) :: rest

/-- The entries stand by increasing key. -/
def Increasing (l : List (κ × α)) : Prop := (l.map Prod.fst).Pairwise (· < ·)

instance (l : List (κ × α)) : Decidable (Increasing l) := inferInstanceAs (Decidable (List.Pairwise _ _))

omit [DecidableLT κ] in
/-- The keys before an entry are below its key. -/
theorem Increasing.lt_of_append {l l' : List (κ × α)} {e : κ × α} (h : Increasing (l ++ e :: l')) :
    ∀ d ∈ l, d.1 < e.1 := by
  intro d hd
  rw [Increasing, List.map_append, List.pairwise_append] at h
  exact h.2.2 d.1 (List.mem_map_of_mem hd) e.1 (by simp)

/-- A key above all others goes to the end. -/
theorem insertKey_append [Std.Asymm (α := κ) (· < ·)] {k : κ} {a : α} {l : List (κ × α)} (h : ∀ e ∈ l, e.1 < k) :
    insertKey k a l = l ++ [(k, a)] := by
  induction l with
  | nil => rfl
  | cons e l ih =>
    have he : e.1 < k := h e (by simp)
    have hn : ¬k < e.1 := Std.Asymm.asymm _ _ he
    simp only [insertKey, hn, if_false, he, if_true, List.cons_append]
    rw [ih (fun e he => h e (by simp [he]))]

/-- The keys after an insertion. -/
theorem mem_insertKey {k : κ} {a : α} {l : List (κ × α)} {x : κ} (h : x ∈ (insertKey k a l).map Prod.fst) :
    x = k ∨ x ∈ l.map Prod.fst := by
  induction l with
  | nil => simpa [insertKey] using h
  | cons e l ih =>
    unfold insertKey at h
    split at h
    · simpa using h
    · split at h
      · simp only [List.map_cons, List.mem_cons] at h ⊢
        rcases h with h | h
        · exact Or.inr (Or.inl h)
        · exact (ih h).imp id Or.inr
      · exact Or.inr (by simpa using h)

/-- Insertion keeps the order. -/
theorem insertKey_increasing [IsTrans κ (· < ·)] {k : κ} {a : α} {l : List (κ × α)} (h : Increasing l) :
    Increasing (insertKey k a l) := by
  induction l with
  | nil => simp [insertKey, Increasing]
  | cons e l ih =>
    obtain ⟨hlt, hl⟩ := List.pairwise_cons.mp h
    unfold insertKey
    split
    next hk =>
      refine List.pairwise_cons.mpr ⟨fun x hx => ?_, h⟩
      simp only [List.map_cons, List.mem_cons] at hx
      rcases hx with rfl | hx
      · exact hk
      · exact IsTrans.trans _ _ _ hk (hlt x hx)
    next =>
      split
      next hk =>
        refine List.pairwise_cons.mpr ⟨fun x hx => ?_, ih hl⟩
        rcases mem_insertKey hx with rfl | hx
        · exact hk
        · exact hlt x hx
      next => exact h

/-! ## Lookup -/

section Lookup

variable [DecidableEq κ] {k k' : κ} {a : α} {l : List (κ × α)}

/-- The value of a key. -/
def findKey (k : κ) (l : List (κ × α)) : Option α := (l.find? (fun e => e.1 = k)).map Prod.snd

omit [LT κ] [DecidableLT κ] in
@[simp] theorem findKey_nil : findKey k ([] : List (κ × α)) = none := rfl

omit [LT κ] [DecidableLT κ] in
theorem findKey_cons {e : κ × α} : findKey k (e :: l) = if e.1 = k then some e.2 else findKey k l := by
  unfold findKey
  rw [List.find?_cons]
  by_cases h : e.1 = k <;> simp [h]

omit [LT κ] [DecidableLT κ] in
theorem mem_of_findKey (h : findKey k l = some a) : (k, a) ∈ l := by
  obtain ⟨e, he, rfl⟩ := Option.map_eq_some_iff.mp h
  have hkey : e.1 = k := by simpa using List.find?_some he
  exact hkey ▸ List.mem_of_find?_eq_some he

/-- The entries of a map after an assignment. -/
theorem findKey_insertKey [Std.Irrefl (α := κ) (· < ·)] [Std.Trichotomous (α := κ) (· < ·)] :
    findKey k' (insertKey k a l) = if k = k' then some a else findKey k' l := by
  induction l with
  | nil => rw [insertKey, findKey_cons]
  | cons e l ih =>
    unfold insertKey
    split
    · rw [findKey_cons]
    next hge =>
      split
      next hlt =>
        rw [findKey_cons, findKey_cons, ih]
        by_cases he : e.1 = k'
        · have hk : k ≠ k' := by
            rintro rfl
            exact Std.Irrefl.irrefl _ (he ▸ hlt)
          rw [if_pos he, if_neg hk, if_pos he]
        · rw [if_neg he, if_neg he]
      next hle =>
        have he : k = e.1 := Std.Trichotomous.trichotomous _ _ hge hle
        rw [findKey_cons, findKey_cons, he]
        by_cases hk : e.1 = k'
        · rw [if_pos hk, if_pos hk]
        · rw [if_neg hk, if_neg hk, if_neg hk]

omit [LT κ] [DecidableLT κ] in
theorem findKey_append {l' : List (κ × α)} : findKey k (l ++ l') = (findKey k l).or (findKey k l') := by
  rw [findKey, List.find?_append]
  cases hfind : l.find? (fun e => e.1 = k) <;> simp [findKey, hfind]

/-- The entries of a map after assignments one by one: the last one to a key counts. -/
theorem findKey_foldl_insertKey [Std.Irrefl (α := κ) (· < ·)] [Std.Trichotomous (α := κ) (· < ·)]
    (es : List (κ × α)) : findKey k (es.foldl (fun m e => insertKey e.1 e.2 m) l) =
      (findKey k es.reverse).or (findKey k l) := by
  induction es generalizing l with
  | nil => rfl
  | cons e es ih =>
    rw [List.foldl_cons, ih, findKey_insertKey, List.reverse_cons, findKey_append, findKey_cons, Option.or_assoc]
    by_cases he : e.1 = k
    · rw [if_pos he, if_pos he, Option.some_or]
    · rw [if_neg he, if_neg he, findKey_nil, Option.none_or]

omit [LT κ] [DecidableLT κ] in
/-- The entry of a key, where no two have the same. -/
theorem findKey_of_mem (h : (l.map Prod.fst).Nodup) (hmem : (k, a) ∈ l) : findKey k l = some a := by
  induction l with
  | nil => cases hmem
  | cons e l ih =>
    rw [List.map_cons, List.nodup_cons] at h
    rw [findKey_cons]
    rcases List.mem_cons.mp hmem with rfl | hmem
    · rw [if_pos rfl]
    · have hne : e.1 ≠ k := fun he => h.1 (List.mem_map.mpr ⟨(k, a), hmem, he.symm⟩)
      rw [if_neg hne, ih h.2 hmem]

end Lookup

end Exasphere.Lib

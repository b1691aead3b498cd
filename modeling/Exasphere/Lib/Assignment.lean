import Mathlib.Data.List.Nodup
import Mathlib.Data.List.Perm.Subperm
import Exasphere.Lib.KeyedList

/-!
# Association lists in the order of assignment

A map that keeps its keys in the order in which they were first assigned: `assign` gives a key a value, `assignAll` does
so for a list of entries, the last of a key counting. Entries of distinct keys are the map that they assign
(`assignAll_of_nodup`), and its lookups are its entries (`findKey_eq_some_iff`). Two maps are equal as maps when every
lookup is the same (`sameEntries_iff`).
-/

namespace Exasphere.Lib

variable {ι β : Type*} [DecidableEq ι]

/-- Give a key a value; a new key goes to the end. -/
def assign (k : ι) (a : β) : List (ι × β) → List (ι × β)
  | [] => [(k, a)]
  | (k', a') :: l => if k' = k then (k', a) :: l else (k', a') :: assign k a l

def assignAll (entries : List (ι × β)) : List (ι × β) := entries.foldl (fun l e => assign e.1 e.2 l) []

/-- Equality of maps, whatever the order of their entries. -/
def sameEntries [DecidableEq β] (l m : List (ι × β)) : Bool :=
  l.length == m.length && l.all (fun e => decide (findKey e.1 m = some e.2))

section Assign

variable {k : ι} {a : β} {l m : List (ι × β)}

theorem assign_of_not_mem (h : k ∉ l.map Prod.fst) : assign k a l = l ++ [(k, a)] := by
  induction l with
  | nil => rfl
  | cons e l ih =>
    rw [List.map_cons, List.mem_cons, not_or] at h
    rw [assign, if_neg (Ne.symm h.1), ih h.2, List.cons_append]

theorem mem_assign {e : ι × β} (h : e ∈ assign k a l) : e = (k, a) ∨ e ∈ l := by
  induction l with
  | nil => exact Or.inl (List.mem_singleton.mp h)
  | cons d l ih =>
    rw [assign] at h
    split at h
    next hd => exact (List.mem_cons.mp (hd ▸ h)).imp_right (List.mem_cons_of_mem d)
    · rcases List.mem_cons.mp h with rfl | h
      · exact Or.inr List.mem_cons_self
      · exact (ih h).imp_right (List.mem_cons_of_mem d)

theorem nodup_assign (h : (l.map Prod.fst).Nodup) : ((assign k a l).map Prod.fst).Nodup := by
  induction l with
  | nil => simp [assign]
  | cons e l ih =>
    rw [List.map_cons, List.nodup_cons] at h
    rw [assign]
    split
    · rw [List.map_cons, List.nodup_cons]
      exact h
    next he =>
      rw [List.map_cons, List.nodup_cons]
      refine ⟨?_, ih h.2⟩
      intro hmem
      obtain ⟨d, hd, hkey⟩ := List.mem_map.mp hmem
      rcases mem_assign hd with rfl | hd
      · exact he hkey.symm
      · exact h.1 (hkey ▸ List.mem_map_of_mem hd)

/-- Entries of new keys are put behind the others. -/
theorem foldl_assign (h : ((l ++ m).map Prod.fst).Nodup) : m.foldl (fun l e => assign e.1 e.2 l) l = l ++ m := by
  induction m generalizing l with
  | nil => simp
  | cons e m ih =>
    have hmoved : l ++ [e] ++ m = l ++ e :: m := by simp
    have hnew : e.1 ∉ l.map Prod.fst := by
      rw [List.map_append, List.map_cons, List.nodup_append] at h
      exact fun hmem => h.2.2 _ hmem _ List.mem_cons_self rfl
    rw [List.foldl_cons, assign_of_not_mem hnew, ih (by rw [hmoved]; exact h), hmoved]

theorem assignAll_of_nodup (h : (m.map Prod.fst).Nodup) : assignAll m = m := foldl_assign (l := []) h

end Assign

section Lookup

variable {k : ι} {a : β} {l m : List (ι × β)}

theorem findKey_eq_some_iff (h : (l.map Prod.fst).Nodup) : findKey k l = some a ↔ (k, a) ∈ l :=
  ⟨mem_of_findKey, findKey_of_mem h⟩

theorem findKey_isSome_iff : (findKey k l).isSome = true ↔ k ∈ l.map Prod.fst := by
  induction l with
  | nil => simp
  | cons e l ih =>
    rw [findKey_cons, List.map_cons, List.mem_cons, ← ih]
    split
    next he => simp [he]
    next he => simp [Ne.symm he]

theorem sameEntries_iff [DecidableEq β] (hl : (l.map Prod.fst).Nodup) (hm : (m.map Prod.fst).Nodup) :
    sameEntries l m = true ↔ ∀ k, findKey k l = findKey k m := by
  rw [sameEntries, Bool.and_eq_true, beq_iff_eq, List.all_eq_true]
  constructor
  · rintro ⟨hlength, hsub⟩ k
    have hsubset : l ⊆ m := by
      intro e he
      exact mem_of_findKey (of_decide_eq_true (hsub e he))
    -- as many entries of distinct keys, so that none of `m` is missing
    have hperm : l.Perm m := (hl.of_map.subperm hsubset).perm_of_length_le (Nat.le_of_eq hlength.symm)
    ext a
    rw [findKey_eq_some_iff hl, findKey_eq_some_iff hm, hperm.mem_iff]
  · intro h
    have hperm : l.Perm m := by
      rw [List.perm_ext_iff_of_nodup hl.of_map hm.of_map]
      rintro ⟨k, a⟩
      rw [← findKey_eq_some_iff hl, ← findKey_eq_some_iff hm, h k]
    refine ⟨hperm.length_eq, ?_⟩
    intro e he
    rw [decide_eq_true_eq, ← h e.1]
    exact findKey_of_mem hl he

end Lookup

end Exasphere.Lib

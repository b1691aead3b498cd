import Mathlib.Data.List.DropRight
import Exasphere.Lib.Bytes

/-!
# Texts of lines

`lines` cuts a text as a loop over `std::getline` does: a line ends before each newline, and what follows the last
newline is a line unless it is empty. `strip` removes a run at both ends. Lines without a newline that are written out
one by one are read back as they were (`lines_unlines`).
-/

namespace Exasphere.Lib

/-- The lines of a text. -/
def lines (text : Bytes) : List Bytes :=
  let pieces := text.splitOn 10
  if pieces.getLast? = some [] then pieces.dropLast else pieces

/-- Every line followed by a newline. -/
def unlines (ls : List Bytes) : Bytes := ls.flatMap (· ++ [10])

@[simp] theorem unlines_nil : unlines [] = [] := rfl

@[simp] theorem unlines_cons (l : Bytes) (ls : List Bytes) : unlines (l :: ls) = l ++ 10 :: unlines ls := by
  simp [unlines]

/-- Written lines come apart at their newlines, with an empty piece at the end. -/
theorem splitOn_unlines {ls : List Bytes} (h : ∀ l ∈ ls, 10 ∉ l) : (unlines ls).splitOn 10 = ls ++ [[]] := by
  induction ls with
  | nil => rfl
  | cons l ls ih =>
    have hl : 10 ∉ l := h l (by simp)
    rw [unlines_cons, List.splitOn_append_cons_self_of_not_mem hl, ih (fun m hm => h m (by simp [hm]))]
    rfl

theorem lines_unlines {ls : List Bytes} (h : ∀ l ∈ ls, 10 ∉ l) : lines (unlines ls) = ls := by
  unfold lines
  simp [splitOn_unlines h]

section Strip

variable {α : Type*} {p : α → Bool} {l : List α}

/-- The text between the runs of `p` at its two ends. -/
def strip (p : α → Bool) (l : List α) : List α := (l.dropWhile p).rdropWhile p

theorem strip_eq_self (hhead : ∀ c ∈ l.head?, p c = false) (hlast : ∀ c ∈ l.getLast?, p c = false) :
    strip p l = l := by
  have hdrop : l.dropWhile p = l := by
    cases l with
    | nil => rfl
    | cons c l => rw [List.dropWhile_cons_of_neg (by simp [hhead c (by simp)])]
  rw [strip, hdrop, List.rdropWhile_eq_self_iff]
  intro hne hp
  have hp' := hlast (l.getLast hne) (List.getLast?_eq_some_getLast hne)
  rw [hp'] at hp
  cases hp

end Strip

end Exasphere.Lib

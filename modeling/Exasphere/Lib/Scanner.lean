import Mathlib.Data.List.Basic

/-!
# Scans of a text by its tokens

`next` gives the token at the start of a text: its length, and whether it is kept. `scan` goes through a text token by
token from left to right and returns what is kept, so that a substitution of nothing for a pattern and a lexer that
drops comments are both scans; `scan_token` is one turn. The elements of the text may carry more than `next` looks at,
such as their places: `next` sees their images under `f`, and so does not depend on the rest (`map_scan`).

`atEvery next p`: where a token starts, `p` holds of the text from there on.
-/

namespace Exasphere.Lib

variable {α β : Type*}

structure Token where
  keep : Bool
  length : Nat

/-- The scan inside a token, of which so many elements are left. -/
def scanFrom (f : α → β) (next : List β → Token) : Token → List α → List α
  | _, [] => []
  | ⟨keep, n + 1⟩, x :: l => if keep then x :: scanFrom f next ⟨keep, n⟩ l else scanFrom f next ⟨keep, n⟩ l
  | ⟨_, 0⟩, x :: l =>
    let token := next ((x :: l).map f)
    if token.keep then x :: scanFrom f next ⟨true, token.length - 1⟩ l
    else scanFrom f next ⟨false, token.length - 1⟩ l

/-- What is kept of a text. -/
def scan (f : α → β) (next : List β → Token) (l : List α) : List α := scanFrom f next ⟨true, 0⟩ l

def atEveryFrom (next : List β → Token) (p : List β → Bool) : Nat → List β → Bool
  | _, [] => true
  | n + 1, _ :: l => atEveryFrom next p n l
  | 0, x :: l => p (x :: l) && atEveryFrom next p ((next (x :: l)).length - 1) l

/-- The property holds at the start of every token. -/
def atEvery (next : List β → Token) (p : List β → Bool) (l : List β) : Bool := atEveryFrom next p 0 l

section Scan

variable {f : α → β} {next : List β → Token} {keep : Bool} {l w : List α}

@[simp] theorem scan_nil : scan f next [] = [] := by
  simp [scan, scanFrom]

theorem scanFrom_zero : scanFrom f next ⟨keep, 0⟩ l = scan f next l := by
  cases l <;> simp [scan, scanFrom]

theorem scanFrom_run : scanFrom f next ⟨keep, w.length⟩ (w ++ l) = (if keep then w else []) ++ scan f next l := by
  induction w with
  | nil =>
    rw [List.nil_append, List.length_nil, scanFrom_zero]
    cases keep <;> rfl
  | cons x w ih =>
    rw [List.cons_append, List.length_cons, scanFrom, ih]
    cases keep <;> rfl

/-- One token. -/
theorem scan_token (hw : w ≠ []) (h : next ((w ++ l).map f) = ⟨keep, w.length⟩) :
    scan f next (w ++ l) = (if keep then w else []) ++ scan f next l := by
  obtain ⟨x, w', rfl⟩ := List.exists_cons_of_ne_nil hw
  rw [List.cons_append] at h ⊢
  rw [scan, scanFrom, h]
  cases keep <;> simp [scanFrom_run]

theorem scan_drop (hw : w ≠ []) (h : next ((w ++ l).map f) = ⟨false, w.length⟩) :
    scan f next (w ++ l) = scan f next l := by
  rw [scan_token hw h]
  rfl

theorem scan_keep (hw : w ≠ []) (h : next ((w ++ l).map f) = ⟨true, w.length⟩) :
    scan f next (w ++ l) = w ++ scan f next l := by
  rw [scan_token hw h]
  rfl

/-- A token of one element. -/
theorem scan_cons {x : α} (h : next ((x :: l).map f) = ⟨true, 1⟩) : scan f next (x :: l) = x :: scan f next l := by
  rw [← List.singleton_append, scan_keep (List.cons_ne_nil x []) h, List.singleton_append]

theorem scanFrom_sublist (token : Token) : (scanFrom f next token l).Sublist l := by
  induction l generalizing token with
  | nil => simp [scanFrom]
  | cons x l ih =>
    obtain ⟨keep, n⟩ := token
    cases n with
    | zero =>
      rw [scanFrom]
      split
      · exact (ih _).cons_cons x
      · exact (ih _).cons x
    | succ n =>
      rw [scanFrom]
      split
      · exact (ih _).cons_cons x
      · exact (ih _).cons x

theorem scan_sublist : (scan f next l).Sublist l := scanFrom_sublist _

theorem map_scanFrom (token : Token) : (scanFrom f next token l).map f = scanFrom id next token (l.map f) := by
  induction l generalizing token with
  | nil => simp [scanFrom]
  | cons x l ih =>
    obtain ⟨keep, n⟩ := token
    cases n with
    | zero =>
      rw [List.map_cons, scanFrom, scanFrom]
      rw [List.map_id, List.map_cons]
      split
      · rw [List.map_cons, ih]
      · rw [ih]
    | succ n =>
      rw [List.map_cons, scanFrom, scanFrom]
      split
      · rw [List.map_cons, ih]
      · rw [ih]

/-- What the elements carry besides is not looked at. -/
theorem map_scan : (scan f next l).map f = scan id next (l.map f) := map_scanFrom _

end Scan

section AtEvery

variable {next : List β → Token} {p : List β → Bool} {l w : List β}

theorem atEveryFrom_run : atEveryFrom next p w.length (w ++ l) = atEvery next p l := by
  induction w with
  | nil => rfl
  | cons x w ih => rw [List.cons_append, List.length_cons, atEveryFrom, ih]

theorem atEvery_token (hw : w ≠ []) (h : (next (w ++ l)).length = w.length) :
    atEvery next p (w ++ l) = (p (w ++ l) && atEvery next p l) := by
  obtain ⟨x, w', rfl⟩ := List.exists_cons_of_ne_nil hw
  rw [List.cons_append] at h ⊢
  rw [atEvery, atEveryFrom, h, List.length_cons, Nat.add_sub_cancel, atEveryFrom_run]

theorem head_of_atEvery (hl : l ≠ []) (h : atEvery next p l = true) : p l = true := by
  obtain ⟨x, l', rfl⟩ := List.exists_cons_of_ne_nil hl
  rw [atEvery, atEveryFrom, Bool.and_eq_true] at h
  exact h.1

end AtEvery

end Exasphere.Lib

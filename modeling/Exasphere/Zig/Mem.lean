import Exasphere.Lib.Lines

/-!
# Slices (`std.mem` of Zig)

Searching, splitting and trimming of byte slices as the Zig standard library does them (`std.mem.indexOf` is
`Lib.indexOf`). Each function comes with the lemma that takes a written text apart again: tokens that are joined by a
delimiter are its tokens, and padding is trimmed off.
-/

namespace Exasphere.Zig

open Exasphere.Lib

variable {a b : Bytes} {c : UInt8}

/-- `std.mem.indexOfScalar`. -/
def indexOfScalar (c : UInt8) (text : Bytes) : Option Nat := text.idxOf? c

/-- `std.mem.tokenizeAny`: the longest runs without a delimiter. -/
def tokenizeAny (delimiters : List UInt8) (text : Bytes) : List Bytes :=
  (text.splitOnP (fun c => decide (c ∈ delimiters))).filter (· ≠ [])

/-- `std.mem.tokenizeScalar`. -/
def tokenizeScalar (delimiter : UInt8) (text : Bytes) : List Bytes := tokenizeAny [delimiter] text

/-- `std.mem.trim`. -/
def trim (chars : List UInt8) (text : Bytes) : Bytes := strip (fun c => decide (c ∈ chars)) text

/-- `std.mem.trimStart`. -/
def trimStart (chars : List UInt8) (text : Bytes) : Bytes := text.dropWhile (fun c => decide (c ∈ chars))

/-! ## Searching -/

theorem indexOfScalar_append (h : c ∉ a) : indexOfScalar c (a ++ c :: b) = some a.length := by
  refine List.idxOf?_eq_some_iff.mpr ⟨by simp, by simp, fun j hj hje => h ?_⟩
  rw [List.getElem_append_left hj] at hje
  exact hje ▸ List.getElem_mem hj

/-! ## Tokens -/

section Tokens

variable {delimiters : List UInt8} {w text : Bytes}

/-- A delimiter between two texts. -/
theorem tokenizeAny_append (a b : Bytes) (hc : c ∈ delimiters) :
    tokenizeAny delimiters (a ++ c :: b) = tokenizeAny delimiters a ++ tokenizeAny delimiters b := by
  rw [tokenizeAny, List.splitOnP_append_cons _ _ (by simpa using hc), List.filter_append]
  rfl

theorem tokenizeAny_word (hne : w ≠ []) (hw : ∀ c ∈ w, c ∉ delimiters) : tokenizeAny delimiters w = [w] := by
  rw [tokenizeAny, List.splitOnP_eq_singleton (by simpa using hw)]
  simp [hne]

/-- The last token, behind a delimiter. -/
theorem getLast?_tokenizeAny (a : Bytes) (hc : c ∈ delimiters) (hne : w ≠ []) (hw : ∀ c ∈ w, c ∉ delimiters) :
    (tokenizeAny delimiters (a ++ c :: w)).getLast? = some w := by
  rw [tokenizeAny_append a w hc, tokenizeAny_word hne hw, List.getLast?_concat]

/-- Words that are joined by a delimiter. -/
theorem tokenizeScalar_intercalate {ws : List Bytes} (h : ∀ w ∈ ws, w ≠ [] ∧ c ∉ w) :
    tokenizeScalar c ([c].intercalate ws) = ws := by
  have hword : ∀ w ∈ ws, tokenizeScalar c w = [w] := by
    intro w hw
    refine tokenizeAny_word (h w hw).1 fun d hd hdc => (h w hw).2 ?_
    rwa [← List.mem_singleton.mp hdc]
  induction ws with
  | nil => rfl
  | cons w ws ih =>
    cases ws with
    | nil => simpa using hword w (by simp)
    | cons v ws =>
      have hrest := ih (fun x hx => h x (by simp [hx])) (fun x hx => hword x (by simp [hx]))
      have hjoin : [c].intercalate (w :: v :: ws) = w ++ c :: [c].intercalate (v :: ws) := by
        simp [List.intercalate]
      rw [hjoin, tokenizeScalar, tokenizeAny_append _ _ (by simp)]
      exact congrArg₂ (· ++ ·) (hword w (by simp)) hrest

theorem not_of_mem_splitOnP {α : Type*} {p : α → Bool} {text w : List α} (h : w ∈ text.splitOnP p) :
    ∀ c ∈ w, p c = false := by
  induction text generalizing w with
  | nil =>
    obtain rfl : w = [] := by simpa using h
    simp
  | cons c text ih =>
    rw [List.splitOnP_cons_eq_if_modifyHead] at h
    split_ifs at h with hc
    · rcases List.mem_cons.mp h with rfl | h
      · simp
      · exact ih h
    · obtain ⟨first, rest, hsplit⟩ := List.exists_cons_of_ne_nil (List.splitOnP_ne_nil p text)
      rw [hsplit] at h ih
      rcases List.mem_cons.mp h with rfl | h
      · exact List.forall_mem_cons.mpr ⟨by simpa using hc, ih (by simp)⟩
      · exact ih (by simp [h])

/-- A token is not empty and has no delimiter. -/
theorem not_mem_of_mem_tokenizeAny (h : w ∈ tokenizeAny delimiters text) : w ≠ [] ∧ ∀ c ∈ w, c ∉ delimiters := by
  obtain ⟨hw, hne⟩ := List.mem_filter.mp h
  exact ⟨by simpa using hne, fun c hc => by simpa using not_of_mem_splitOnP hw c hc⟩

end Tokens

/-! ## Trimming -/

section Trim

variable {chars : List UInt8} {indent trail text : Bytes}

/-- Padding is trimmed off. -/
theorem trim_pad (hindent : ∀ c ∈ indent, c ∈ chars) (htrail : ∀ c ∈ trail, c ∈ chars)
    (hhead : ∀ c ∈ text.head?, c ∉ chars) (hlast : ∀ c ∈ text.getLast?, c ∉ chars) (hne : text ≠ []) :
    trim chars (indent ++ text ++ trail) = text := by
  have hdrop : (indent ++ text ++ trail).dropWhile (fun c => decide (c ∈ chars)) = text ++ trail := by
    rw [List.append_assoc]
    refine dropWhile_run (by simpa using hindent) fun c hc => ?_
    rw [List.head?_append_of_ne_nil _ hne] at hc
    simpa using hhead c hc
  rw [trim, strip, hdrop, List.rdropWhile, List.reverse_append]
  rw [dropWhile_run (by simpa using htrail), List.reverse_reverse]
  intro c hc
  rw [List.head?_reverse] at hc
  simpa using hlast c hc

theorem trim_blank (h : ∀ c ∈ text, c ∈ chars) : trim chars text = [] := by
  rw [trim, strip, List.dropWhile_eq_nil_iff.mpr (by simpa using h)]
  rfl

/-- What is trimmed starts where the padding in front ends. -/
theorem head?_trim (hindent : ∀ c ∈ indent, c ∈ chars) (hc : c ∉ chars) :
    (trim chars (indent ++ c :: text)).head? = some c := by
  have hdrop : (indent ++ c :: text).dropWhile (fun c => decide (c ∈ chars)) = c :: text :=
    dropWhile_run (by simpa using hindent) (by simpa [Halts] using hc)
  rw [trim, strip, hdrop]
  have hprefix := List.rdropWhile_prefix (fun c => decide (c ∈ chars)) (l := c :: text)
  cases hr : (c :: text).rdropWhile (fun c => decide (c ∈ chars)) with
  | nil =>
    have hall := List.rdropWhile_eq_nil_iff.mp hr c (by simp)
    exact absurd (by simpa using hall) hc
  | cons d rest =>
    rw [hr] at hprefix
    rw [(List.cons_prefix_cons.mp hprefix).1]
    rfl

end Trim

end Exasphere.Zig

import Exasphere.Lib.Extraction
import Exasphere.Viz.ChromeTrace

/-!
# The text of a window (`src/viz/chrome_trace.cpp`)

`parse_window` reads `start:end` with `std::stoull`, which skips white space, takes a sign and stops at the first byte
that is no digit. What it accepts beyond two numbers and a colon is `Loose` (`parseWindow_exact_iff`).
-/

namespace Exasphere.Viz

open Exasphere.Lib

def stoull (s : Bytes) : Except IStream.ConversionError Nat := IStream.convert (unsignedReading 64) s

/-- The part of a window behind the colon. -/
def endOf (endStr : Bytes) : Except IStream.ConversionError Nat := if endStr = [] then .ok 0 else stoull endStr

def windowParts (start endStr : Bytes) : Except IStream.ConversionError TimeWindow := do
  let startUs ← stoull start
  let endUs ← endOf endStr
  .ok ⟨UInt64.ofNat startUs, UInt64.ofNat endUs⟩

/-- `parse_window(s)`; an exception is no window. -/
def parseWindow (s : Bytes) : Option TimeWindow :=
  if 58 ∈ s then
    (windowParts (s.takeWhile (fun c => decide (c ≠ 58))) (s.dropWhile (fun c => decide (c ≠ 58))).tail).toOption
  else none

/-! ## Two numbers and a colon -/

section Grammar

def Digits (s : Bytes) : Prop := ∀ c ∈ s, isDigit c = true

/-- The grammar `digits+ ':' digits*` with numbers below `2 ^ 64`, and the window it denotes. -/
inductive Denotes : Bytes → TimeWindow → Prop
  | window {start endStr : Bytes} (hne : start ≠ []) (hstart : Digits start) (hend : Digits endStr)
      (hstartLt : readDecimal start < 2 ^ 64) (hendLt : readDecimal endStr < 2 ^ 64) :
      Denotes (start ++ 58 :: endStr) ⟨UInt64.ofNat (readDecimal start), UInt64.ofNat (readDecimal endStr)⟩

/-- `std::stoull` returns on the text. -/
def Converts (s : Bytes) : Prop := IStream.Converts (unsignedReading 64) s

/-- Both parts are converted, and one of them is not digits alone. -/
def Loose (s : Bytes) : Prop :=
  ∃ start endStr, s = start ++ 58 :: endStr ∧ 58 ∉ start ∧ Converts start ∧ (endStr = [] ∨ Converts endStr) ∧
    ¬(Digits start ∧ Digits endStr)

theorem Digits.not_colon {s : Bytes} (h : Digits s) : 58 ∉ s := by
  intro hmem
  exact absurd (h 58 hmem) (by decide)

/-- A text is cut at its first colon. -/
theorem cut_runs {start : Bytes} (h : 58 ∉ start) (endStr : Bytes) :
    (start ++ 58 :: endStr).takeWhile (fun c => decide (c ≠ 58)) = start ∧
      (start ++ 58 :: endStr).dropWhile (fun c => decide (c ≠ 58)) = 58 :: endStr := by
  have hrun : ∀ c ∈ start, decide (c ≠ 58) = true := by
    intro c hc
    rw [decide_eq_true_eq]
    rintro rfl
    exact h hc
  have hhalts : Halts (fun c => decide (c ≠ 58)) (58 :: endStr) := by
    intro c hc
    obtain rfl := Option.some.inj hc
    rfl
  exact ⟨takeWhile_run hrun hhalts, dropWhile_run hrun hhalts⟩

theorem parseWindow_cut {start endStr : Bytes} (h : 58 ∉ start) :
    parseWindow (start ++ 58 :: endStr) = (windowParts start endStr).toOption := by
  have hmem : 58 ∈ start ++ 58 :: endStr := by simp
  obtain ⟨hstart, hend⟩ := cut_runs h endStr
  rw [parseWindow, if_pos hmem, hstart, hend, List.tail_cons]

theorem Denotes.digits {start endStr : Bytes} {w : TimeWindow} (h : Denotes (start ++ 58 :: endStr) w)
    (hnot : 58 ∉ start) : Digits start ∧ Digits endStr := by
  generalize htext : start ++ 58 :: endStr = text at h
  cases h with
  | @window start' endStr' hne hstart' hend' hstartLt hendLt =>
    have hruns := cut_runs hnot endStr
    rw [htext] at hruns
    have hruns' := cut_runs hstart'.not_colon endStr'
    obtain rfl : start = start' := hruns.1.symm.trans hruns'.1
    obtain ⟨-, rfl⟩ := List.cons.inj (hruns.2.symm.trans hruns'.2)
    exact ⟨hstart', hend'⟩

/-- The numbers that are read where both parts are converted. -/
theorem windowParts_eq_ok {start endStr : Bytes} {w : TimeWindow} (h : windowParts start endStr = .ok w) :
    Converts start ∧ (endStr = [] ∨ Converts endStr) := by
  obtain ⟨startUs, hstart, h⟩ := bind_eq_ok.mp h
  obtain ⟨endUs, hend, -⟩ := bind_eq_ok.mp h
  refine ⟨IStream.exists_convert_iff.mp ⟨startUs, hstart⟩, ?_⟩
  unfold endOf at hend
  split at hend
  next hnil => exact Or.inl hnil
  next hne => exact Or.inr (IStream.exists_convert_iff.mp ⟨endUs, hend⟩)

theorem exists_windowParts {start endStr : Bytes} (hstart : Converts start) (hend : endStr = [] ∨ Converts endStr) :
    ∃ w, windowParts start endStr = .ok w := by
  obtain ⟨startUs, hstartUs⟩ := IStream.exists_convert_iff.mpr hstart
  have hendUs : ∃ endUs, endOf endStr = .ok endUs := by
    unfold endOf
    split
    · exact ⟨0, rfl⟩
    next hne => exact IStream.exists_convert_iff.mpr (hend.resolve_left hne)
  obtain ⟨endUs, hendUs⟩ := hendUs
  exact ⟨⟨UInt64.ofNat startUs, UInt64.ofNat endUs⟩, by rw [windowParts, stoull, hstartUs, ok_bind, hendUs, ok_bind]⟩

/-- A number below `2 ^ 64` is read as itself. -/
theorem stoull_digits {s : Bytes} (hne : s ≠ []) (h : Digits s) (hlt : readDecimal s < 2 ^ 64) :
    stoull s = .ok (readDecimal s) := by
  rw [stoull, IStream.convert_ok_iff, IStream.Converts, IStream.numeral_digits hne h, unsignedReading_fits_iff]
  exact ⟨⟨hne, hlt⟩, by simp only [unsignedReading, if_pos hlt, Bool.false_eq_true, if_false]⟩

theorem Converts.ne_nil {s : Bytes} (h : Converts s) : s ≠ [] := by
  rintro rfl
  exact h.1 rfl

theorem Converts.lt {s : Bytes} (h : Converts s) (hdigits : Digits s) : readDecimal s < 2 ^ 64 := by
  have hfits := h.2
  rw [IStream.numeral_digits h.ne_nil hdigits] at hfits
  exact unsignedReading_fits_iff.mp hfits

/-- The grammar is accepted. -/
theorem parseWindow_of_denotes {s : Bytes} {w : TimeWindow} (h : Denotes s w) : parseWindow s = some w := by
  cases h with
  | @window start endStr hne hstart hend hstartLt hendLt =>
    have hendUs : endOf endStr = .ok (readDecimal endStr) := by
      unfold endOf
      split
      next hnil =>
        subst hnil
        rfl
      next hne => exact stoull_digits hne hend hendLt
    rw [parseWindow_cut hstart.not_colon, windowParts, stoull_digits hne hstart hstartLt, ok_bind, hendUs, ok_bind]
    rfl

/-- **A text is read as the grammar says** exactly when it is not a loose spelling of a window. -/
theorem parseWindow_exact_iff (s : Bytes) : (∀ w, parseWindow s = some w ↔ Denotes s w) ↔ ¬Loose s := by
  constructor
  · rintro h ⟨start, endStr, rfl, hcolon, hstart, hend, hdigits⟩
    obtain ⟨w, hw⟩ := exists_windowParts hstart hend
    have hparse : parseWindow (start ++ 58 :: endStr) = some w := by
      rw [parseWindow_cut hcolon, hw]
      rfl
    exact hdigits (((h w).mp hparse).digits hcolon)
  · intro h w
    refine ⟨?_, parseWindow_of_denotes⟩
    intro hparse
    have hcolon : 58 ∈ s := by
      by_contra hnot
      rw [parseWindow, if_neg hnot] at hparse
      cases hparse
    obtain ⟨start, endStr, rfl, hnot⟩ := List.eq_append_cons_of_mem hcolon
    rw [parseWindow_cut hnot] at hparse
    cases hw : windowParts start endStr with
    | error e =>
      rw [hw] at hparse
      cases hparse
    | ok w' =>
      obtain ⟨hstart, hend⟩ := windowParts_eq_ok hw
      have hdigits : Digits start ∧ Digits endStr := by
        by_contra hloose
        exact h ⟨start, endStr, rfl, hnot, hstart, hend, hloose⟩
      have hendLt : readDecimal endStr < 2 ^ 64 := by
        rcases hend with rfl | hend
        · decide
        · exact hend.lt hdigits.2
      have hdenotes := Denotes.window hstart.ne_nil hdigits.1 hdigits.2 (hstart.lt hdigits.1) hendLt
      -- the grammar gives one window, and it is the one that was read
      have hsame := parseWindow_of_denotes hdenotes
      rw [parseWindow_cut hnot, hparse] at hsame
      rw [Option.some.inj hsame]
      exact hdenotes

/-- A sign, and a byte behind the digits. -/
theorem parseWindow_accepts_loose :
    parseWindow (utf8 "-1:5x") = some ⟨18446744073709551615, 5⟩ ∧ ¬∃ w, Denotes (utf8 "-1:5x") w := by
  refine ⟨rfl, ?_⟩
  rintro ⟨w, h⟩
  have hcut : Denotes (utf8 "-1" ++ 58 :: utf8 "5x") w := h
  have hdigits := (hcut.digits (by decide)).1
  exact absurd (hdigits 45 (by decide)) (by decide)

end Grammar

end Exasphere.Viz

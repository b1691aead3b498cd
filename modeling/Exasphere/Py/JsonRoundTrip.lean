import Exasphere.Py.Json
import Exasphere.Py.Path
import Exasphere.Py.Regex

/-!
# What `loads` reads of what `dumps` wrote

`dumps` writes the UTF-16 units of a text and `loads` joins the pairs among them, so that a text comes back as `reread`:
itself, unless it holds two halves of a pair side by side. An object of texts comes back with each of them reread
(`loads_dumps_texts`), and a search for letters finds in a text what it finds in the reread one (`search_reread`).
-/

namespace Exasphere.Py

open Exasphere.Lib

/-! ## Units -/

/-- The UTF-16 units of a code point. -/
def units (c : Nat) : Str :=
  if c < 0x10000 then [c] else [0xD800 + (c - 0x10000) / 0x400 % 0x400, 0xDC00 + (c - 0x10000) % 0x400]

/-- The pairs of surrogates joined, from the left. -/
def joinPairs : Str → Str
  | [] => []
  | [u] => [u]
  | u :: v :: us =>
    if isHighSurrogate u && isLowSurrogate v then combine u v :: joinPairs us else u :: joinPairs (v :: us)

/-- A text written and read again. -/
def reread (s : Str) : Str := joinPairs (s.flatMap units)

theorem units_lt {c u : Nat} (h : u ∈ units c) : u < 0x10000 := by
  unfold units at h
  split at h
  next hc =>
    rw [List.mem_singleton.mp h]
    exact hc
  next =>
    simp only [List.mem_cons, List.not_mem_nil, or_false] at h
    omega

/-- The escape of a code point is that of its units. -/
theorem escapeAscii_units (c : Nat) : (units c).flatMap escapeAscii = escapeAscii c := by
  unfold units
  split
  · simp
  next hc =>
    have hunit : ∀ u, 0xD800 ≤ u → u < 0x10000 → escapeAscii u = [92, 117] ++ hexText 4 u := by
      intro u hlow hhigh
      unfold escapeAscii
      rw [if_neg (by omega), if_neg (by omega), if_neg (by omega), if_neg (by omega), if_neg (by omega),
        if_neg (by omega), if_neg (by omega), if_neg (by omega), if_pos hhigh]
    rw [List.flatMap_cons, List.flatMap_cons, List.flatMap_nil, hunit _ (by omega) (by omega),
      hunit _ (by omega) (by omega), escapeAscii, if_neg (by omega), if_neg (by omega), if_neg (by omega),
      if_neg (by omega), if_neg (by omega), if_neg (by omega), if_neg (by omega), if_neg (by omega), if_neg hc]
    simp

theorem flatMap_escapeAscii (s : Str) : s.flatMap escapeAscii = (s.flatMap units).flatMap escapeAscii := by
  rw [List.flatMap_assoc]
  simp only [escapeAscii_units]

/-! ## Escapes -/

theorem hexValue_digit {d : Nat} (h : d < 16) : hexValue (if d < 10 then 48 + d else 87 + d) = some d := by
  unfold hexValue
  split
  next hd =>
    rw [if_pos (by omega)]
    simp
  next hd =>
    rw [if_neg (by omega), if_pos (by omega)]
    simp

theorem scanHex4_hexText {u : Nat} (hu : u < 0x10000) (rest : Str) :
    scanHex4 (hexText 4 u ++ rest) = .ok (u, rest) := by
  have hmod : ∀ n : Nat, n % 16 < 16 := fun n => Nat.mod_lt n (by decide)
  simp only [hexText, List.nil_append, List.cons_append, scanHex4, hexValue_digit (hmod _),
    Except.ok.injEq, Prod.mk.injEq, and_true]
  omega

/-- How a unit is written: by its number, as it is, or by a letter. -/
theorem escapeAscii_cases {u : Nat} (hu : u < 0x10000) : escapeAscii u = [92, 117] ++ hexText 4 u ∨
    (isSurrogate u = false ∧ ((escapeAscii u = [u] ∧ 32 ≤ u ∧ u ≠ 34 ∧ u ≠ 92) ∨
      ∃ e, escapeAscii u = [92, e] ∧ e ≠ 117 ∧ ∀ rest, scanEscape (e :: rest) = .ok (u, rest))) := by
  by_cases hplain : 32 ≤ u ∧ u ≤ 126 ∧ u ≠ 34 ∧ u ≠ 92
  · obtain ⟨hlow, hhigh, hquote, hslash⟩ := hplain
    right
    refine ⟨?_, Or.inl ⟨?_, hlow, hquote, hslash⟩⟩
    · simp only [isSurrogate, decide_eq_false_iff_not]
      omega
    · unfold escapeAscii
      rw [if_neg hquote, if_neg hslash, if_neg (by omega), if_neg (by omega), if_neg (by omega), if_neg (by omega),
        if_neg (by omega), if_pos ⟨hlow, hhigh⟩]
  · by_cases hletter : u = 34 ∨ u = 92 ∨ u = 10 ∨ u = 13 ∨ u = 9 ∨ u = 12 ∨ u = 8
    · right
      rcases hletter with rfl | rfl | rfl | rfl | rfl | rfl | rfl
      · exact ⟨by decide, Or.inr ⟨34, by decide, by decide, fun rest => by simp [scanEscape]⟩⟩
      · exact ⟨by decide, Or.inr ⟨92, by decide, by decide, fun rest => by simp [scanEscape]⟩⟩
      · exact ⟨by decide, Or.inr ⟨110, by decide, by decide, fun rest => by simp [scanEscape]⟩⟩
      · exact ⟨by decide, Or.inr ⟨114, by decide, by decide, fun rest => by simp [scanEscape]⟩⟩
      · exact ⟨by decide, Or.inr ⟨116, by decide, by decide, fun rest => by simp [scanEscape]⟩⟩
      · exact ⟨by decide, Or.inr ⟨102, by decide, by decide, fun rest => by simp [scanEscape]⟩⟩
      · exact ⟨by decide, Or.inr ⟨98, by decide, by decide, fun rest => by simp [scanEscape]⟩⟩
    · left
      unfold escapeAscii
      rw [if_neg (by omega), if_neg (by omega), if_neg (by omega), if_neg (by omega), if_neg (by omega),
        if_neg (by omega), if_neg (by omega), if_neg (by omega), if_pos hu]

theorem escapeAscii_ne_nil {u : Nat} (hu : u < 0x10000) : escapeAscii u ≠ [] := by
  rcases escapeAscii_cases hu with h | ⟨-, ⟨h, -⟩ | ⟨e, h, -⟩⟩
  · simp [h]
  · simp [h]
  · simp [h]

theorem not_high_of_not_surrogate {u : Nat} (h : isSurrogate u = false) : isHighSurrogate u = false := by
  simp only [isSurrogate, isHighSurrogate, decide_eq_false_iff_not] at h ⊢
  omega

theorem not_low_of_not_surrogate {u : Nat} (h : isSurrogate u = false) : isLowSurrogate u = false := by
  simp only [isSurrogate, isLowSurrogate, decide_eq_false_iff_not] at h ⊢
  omega

/-- Behind a high half, the next unit is taken exactly if it is a low half. -/
theorem scanLow_unit {u v : Nat} (hv : v < 0x10000) (rest : Str) : scanLow u (escapeAscii v ++ rest) =
    if isLowSurrogate v then .ok (combine u v, rest) else .ok (u, escapeAscii v ++ rest) := by
  unfold scanLow
  rcases escapeAscii_cases hv with h | ⟨hsurrogate, ⟨h, -, -, hslash⟩ | ⟨e, h, he, -⟩⟩
  · rw [h]
    simp only [List.cons_append, List.nil_append, List.isPrefixOf, BEq.rfl, Bool.and_self, ↓reduceIte,
      List.drop_succ_cons, List.drop_zero, scanHex4_hexText hv, ok_bind]
  · rw [h, not_low_of_not_surrogate hsurrogate]
    have hne : 92 ≠ v := Ne.symm hslash
    simp [hne]
  · rw [h, not_low_of_not_surrogate hsurrogate]
    have hne : 117 ≠ e := Ne.symm he
    simp [hne]

/-- One unit of a string. -/
theorem scanString_unit {u : Nat} (hu : u < 0x10000) (fuel : Nat) (rest : Str) :
    scanString (fuel + 1) (escapeAscii u ++ rest) = (if isHighSurrogate u then scanLow u rest else .ok (u, rest)) >>=
      fun d => scanString fuel d.2 >>= fun s => .ok (d.1 :: s.1, s.2) := by
  rcases escapeAscii_cases hu with h | ⟨hsurrogate, ⟨h, hlow, hquote, hslash⟩ | ⟨e, h, he, hscan⟩⟩
  · rw [h]
    simp only [List.cons_append, List.nil_append, scanString, scanEscape, scanHex4_hexText hu, ok_bind]
    simp
  · rw [h, not_high_of_not_surrogate hsurrogate]
    simp only [List.cons_append, List.nil_append, scanString, if_neg hquote, if_neg hslash,
      if_neg (show ¬ u ≤ 0x1F by omega), Bool.false_eq_true, ↓reduceIte, ok_bind]
  · rw [h, not_high_of_not_surrogate hsurrogate]
    simp only [List.cons_append, List.nil_append, scanString, hscan, Bool.false_eq_true, ↓reduceIte, ok_bind]
    simp

/-- A written string is read as its units, with the pairs joined. -/
theorem scanString_units {us rest : Str} {fuel : Nat} (hus : ∀ u ∈ us, u < 0x10000)
    (hfuel : (us.flatMap escapeAscii).length < fuel) :
    scanString fuel (us.flatMap escapeAscii ++ 34 :: rest) = .ok (joinPairs us, rest) := by
  fun_induction joinPairs us generalizing fuel with
  | case1 =>
    obtain ⟨n, rfl⟩ := Nat.exists_eq_add_one_of_ne_zero (Nat.ne_of_gt hfuel)
    simp [scanString]
  | case2 u =>
    have hu : u < 0x10000 := hus u (by simp)
    have hlength : 0 < (escapeAscii u).length := List.length_pos_of_ne_nil (escapeAscii_ne_nil hu)
    rw [List.flatMap_cons, List.flatMap_nil, List.append_nil] at hfuel ⊢
    obtain ⟨n, rfl⟩ : ∃ n, fuel = n + 2 := ⟨fuel - 2, by omega⟩
    rw [scanString_unit hu]
    have hlow : scanLow u (34 :: rest) = .ok (u, 34 :: rest) := by simp [scanLow]
    rw [hlow, ite_self]
    simp [scanString]
  | case3 u v us hpair ih =>
    have hu : u < 0x10000 := hus u (by simp)
    have hv : v < 0x10000 := hus v (by simp)
    have hlength : 0 < (escapeAscii u).length := List.length_pos_of_ne_nil (escapeAscii_ne_nil hu)
    have hlength' : 0 < (escapeAscii v).length := List.length_pos_of_ne_nil (escapeAscii_ne_nil hv)
    simp only [Bool.and_eq_true] at hpair
    simp only [List.flatMap_cons, List.append_assoc, List.length_append] at hfuel ⊢
    obtain ⟨n, rfl⟩ : ∃ n, fuel = n + 1 := ⟨fuel - 1, by omega⟩
    rw [scanString_unit hu, if_pos hpair.1, scanLow_unit hv, if_pos hpair.2, ok_bind,
      ih (fun w hw => hus w (by simp [hw])) (by omega), ok_bind]
  | case4 u v us hpair ih =>
    have hu : u < 0x10000 := hus u (by simp)
    have hv : v < 0x10000 := hus v (by simp)
    have hlength : 0 < (escapeAscii u).length := List.length_pos_of_ne_nil (escapeAscii_ne_nil hu)
    have htail : ∀ w ∈ v :: us, w < 0x10000 := fun w hw => hus w (List.mem_cons_of_mem u hw)
    rw [List.flatMap_cons, List.length_append] at hfuel
    obtain ⟨n, rfl⟩ : ∃ n, fuel = n + 1 := ⟨fuel - 1, by omega⟩
    have hnext : (if isHighSurrogate u then scanLow u ((v :: us).flatMap escapeAscii ++ 34 :: rest)
        else .ok (u, (v :: us).flatMap escapeAscii ++ 34 :: rest)) =
        .ok (u, (v :: us).flatMap escapeAscii ++ 34 :: rest) := by
      split
      next hhigh =>
        have hlow : ¬ isLowSurrogate v = true := fun hlow => hpair (by simp [hhigh, hlow])
        rw [List.flatMap_cons, List.append_assoc, scanLow_unit hv, if_neg hlow]
      next => rfl
    rw [List.flatMap_cons, List.append_assoc, scanString_unit hu, hnext, ok_bind, ih htail (by omega), ok_bind]

/-- **A written string is reread.** -/
theorem scanString_dumpStr {s rest : Str} {fuel : Nat} (hfuel : (s.flatMap escapeAscii).length < fuel) :
    scanString fuel (s.flatMap escapeAscii ++ 34 :: rest) = .ok (reread s, rest) := by
  rw [flatMap_escapeAscii] at hfuel ⊢
  refine scanString_units ?_ hfuel
  intro u hu
  obtain ⟨c, -, hc⟩ := List.mem_flatMap.mp hu
  exact units_lt hc

/-! ## Reread texts -/

section Reread

theorem joinPairs_cons {u : Nat} {us : Str} (hu : isHighSurrogate u = false) :
    joinPairs (u :: us) = u :: joinPairs us := by
  cases us with
  | nil => rfl
  | cons v us => simp [joinPairs, hu]

theorem joinPairs_eq_nil {us : Str} : joinPairs us = [] ↔ us = [] := by
  fun_cases joinPairs us <;> simp

theorem units_ne_nil (c : Nat) : units c ≠ [] := by
  unfold units
  split <;> simp

theorem reread_eq_nil {s : Str} : reread s = [] ↔ s = [] := by
  cases s with
  | nil => simp [reread, joinPairs]
  | cons c s => simp [reread, joinPairs_eq_nil, units_ne_nil]

theorem units_of_lt {c : Nat} (h : c < 0x10000) : units c = [c] := if_pos h

/-- Beyond the basic plane the units are a pair. -/
theorem units_of_ge {c : Nat} (h : ¬ c < 0x10000) : ∃ hi lo, units c = [hi, lo] ∧ isHighSurrogate hi = true ∧
    isLowSurrogate lo = true ∧ combine hi lo = 0x10000 + (c - 0x10000) % 0x100000 := by
  refine ⟨_, _, if_neg h, ?_, ?_, ?_⟩
  · simp only [isHighSurrogate, decide_eq_true_eq]
    omega
  · simp only [isLowSurrogate, decide_eq_true_eq]
    omega
  · unfold combine
    omega

/-- A code point that is not the first half of a pair stands for itself, up to the range of code points. -/
theorem reread_cons {c : Nat} (hc : isHighSurrogate c = false) (s : Str) :
    reread (c :: s) = (if c < 0x10000 then c else 0x10000 + (c - 0x10000) % 0x100000) :: reread s := by
  unfold reread
  rw [List.flatMap_cons]
  by_cases hsmall : c < 0x10000
  · rw [units_of_lt hsmall, List.singleton_append, joinPairs_cons hc, if_pos hsmall]
  · obtain ⟨hi, lo, hunits, hhigh, hlow, hcombine⟩ := units_of_ge hsmall
    rw [hunits, List.cons_append, List.cons_append, List.nil_append, joinPairs,
      if_pos (by simp [hhigh, hlow]), hcombine,
      if_neg hsmall]

/-- Behind a first half, only a second half is joined to it. -/
theorem reread_high {c : Nat} (hc : isHighSurrogate c = true) (s : Str) : reread (c :: s) = c :: reread s ∨
    ∃ d t, s = d :: t ∧ isLowSurrogate d = true ∧ reread (c :: s) = combine c d :: reread t := by
  have hsmall : c < 0x10000 := by
    simp only [isHighSurrogate, decide_eq_true_eq] at hc
    omega
  have hunits : units c = [c] := units_of_lt hsmall
  cases s with
  | nil => exact Or.inl (by simp [reread, hunits, joinPairs])
  | cons d t =>
    by_cases hd : isLowSurrogate d = true
    · have hdunits : units d = [d] := by
        refine units_of_lt ?_
        simp only [isLowSurrogate, decide_eq_true_eq] at hd
        omega
      exact Or.inr ⟨d, t, rfl, hd, by simp [reread, hunits, hdunits, joinPairs, hc, hd]⟩
    · left
      -- the first unit of `d` is no second half either
      obtain ⟨v, vs, hv, hlow⟩ : ∃ v vs, units d = v :: vs ∧ isLowSurrogate v = false := by
        by_cases hsmall' : d < 0x10000
        · exact ⟨d, [], units_of_lt hsmall', by simpa using hd⟩
        · obtain ⟨hi, lo, hpair, hhigh, -⟩ := units_of_ge hsmall'
          refine ⟨hi, [lo], hpair, ?_⟩
          simp only [isHighSurrogate, isLowSurrogate, decide_eq_true_eq, decide_eq_false_iff_not] at hhigh ⊢
          omega
      simp [reread, hunits, hv, joinPairs, hlow]

/-- A text of code points without first halves is reread as it is. -/
theorem reread_self {s : Str} (h : ∀ c ∈ s, c < 0x110000 ∧ isHighSurrogate c = false) : reread s = s := by
  induction s with
  | nil => rfl
  | cons c s ih =>
    obtain ⟨hrange, hhigh⟩ := h c (by simp)
    rw [reread_cons hhigh, ih (fun d hd => h d (by simp [hd]))]
    split
    · rfl
    next hlarge =>
      have hsame : 0x10000 + (c - 0x10000) % 0x100000 = c := by omega
      rw [hsame]

/-- A search that reads no surrogate finds in a text what it finds in the reread one. -/
theorem search_reread {r : Re} (hr : r.Within (fun c => decide (c < 0xD800))) (hnil : r.search [] = false) (s : Str) :
    r.search (reread s) = r.search s := by
  -- the text up to the first code point the pattern cannot read, and what follows it
  suffices H : ∀ n (t : Str), t.length ≤ n → ∀ a : Str, r.search (a ++ reread t) = r.search (a ++ t) from
    H s.length s le_rfl []
  intro n
  induction n with
  | zero =>
    intro t ht a
    rw [List.length_eq_zero_iff.mp (Nat.le_zero.mp ht)]
    rfl
  | succ n ih =>
    intro t ht a
    have hcut : ∀ (a u : Str) (c : Nat), 0xD800 ≤ c → r.search (a ++ c :: u) = (r.search a || r.search u) :=
      fun a u c hc => Re.search_append hr (by simpa using hc)
    have hnone : ∀ t : Str, t.length ≤ n → r.search (reread t) = r.search t := fun t ht => ih t ht []
    cases t with
    | nil => rfl
    | cons c t =>
      simp only [List.length_cons, Nat.add_le_add_iff_right] at ht
      by_cases hhigh : isHighSurrogate c = true
      · have hc : 0xD800 ≤ c := by
          simp only [isHighSurrogate, decide_eq_true_eq] at hhigh
          exact hhigh.1
        rcases reread_high hhigh t with h | ⟨d, u, rfl, hd, h⟩
        · rw [h, hcut a _ c hc, hcut a _ c hc, hnone t ht]
        · have hd' : 0xD800 ≤ d := by
            simp only [isLowSurrogate, decide_eq_true_eq] at hd
            omega
          have hlow : r.search (d :: u) = r.search u := by
            have hcons := hcut [] u d hd'
            rwa [List.nil_append, hnil, Bool.false_or] at hcons
          have hu : u.length ≤ n := Nat.le_of_succ_le ht
          rw [h, hcut a _ c hc, hcut a _ (combine c d) (by unfold combine; omega), hlow, hnone u hu]
      · simp only [Bool.not_eq_true] at hhigh
        rw [reread_cons hhigh]
        by_cases hsmall : c < 0xD800
        · have hstep := ih t ht (a ++ [c])
          rw [if_pos (by omega)]
          simpa using hstep
        · rw [hcut a _ c (by omega), hcut a _ _ (by split <;> omega), hnone t ht]

end Reread

/-! ## Objects of texts -/

section Texts

/-- An object whose members are texts. -/
def texts (members : List (String × Str)) : Dict := members.map (fun e => (str e.1, .str e.2))

theorem lt_of_mem_str {s : String} {c : Nat} (h : c ∈ str s) : c < 256 := by
  obtain ⟨d, -, rfl⟩ := List.mem_map.mp h
  exact d.toNat_lt

theorem reread_str (s : String) : reread (str s) = str s := by
  refine reread_self ?_
  intro c hc
  have hlt := lt_of_mem_str hc
  refine ⟨by omega, ?_⟩
  simp only [isHighSurrogate, decide_eq_false_iff_not]
  omega

/-- A member whose value is a text. -/
def dumpText (e : Str × Str) : Str := dumpMember (e.1, dumpStr e.2)

theorem dumpText_eq (e : Str × Str) : dumpText e =
    34 :: (e.1.flatMap escapeAscii ++ 34 :: 58 :: 32 :: 34 :: (e.2.flatMap escapeAscii ++ [34])) := by
  simp [dumpText, dumpMember, dumpStr]

variable {parseConstant : Value → Except Exn Value}

theorem skipSpace_cons {c : Nat} (hc : isJsonSpace c = false) (s : Str) : skipSpace (c :: s) = c :: s := by
  simp [skipSpace, hc]

theorem skipSpace_blank (s : Str) : skipSpace (32 :: s) = skipSpace s := by
  simp [skipSpace, isJsonSpace]

theorem scanOnce_text {s rest : Str} {fuel : Nat} (hfuel : (s.flatMap escapeAscii).length < fuel) :
    scanOnce parseConstant (fuel + 1) (34 :: (s.flatMap escapeAscii ++ 34 :: rest)) = .ok (.str (reread s), rest) := by
  rw [scanOnce, List.head?_cons, if_pos rfl, List.tail_cons, scanString_dumpStr hfuel]
  rfl

/-- The first member of a written object of texts, whatever stands behind it. -/
theorem scanMembers_first {e : Str × Str} {d : Dict} {tail : Str} {n : Nat} (hn : (dumpText e).length < n + 2) :
    scanMembers parseConstant (n + 2) d (dumpText e ++ tail) =
      if (skipSpace tail).head? = some 125 then .ok (Dict.set (reread e.1) (.str (reread e.2)) d, (skipSpace tail).tail)
      else if (skipSpace tail).head? = some 44 then
        scanMembers parseConstant (n + 1) (Dict.set (reread e.1) (.str (reread e.2)) d)
          (skipSpace (skipSpace tail).tail)
      else .error .jsonDecodeError := by
  rw [dumpText_eq] at hn ⊢
  simp only [List.length_cons, List.length_append, List.length_nil] at hn
  simp only [List.cons_append, List.append_assoc, List.nil_append]
  rw [scanMembers, List.head?_cons, if_pos rfl, List.tail_cons, scanString_dumpStr (by omega), ok_bind]
  simp only [skipSpace_cons (show isJsonSpace 58 = false by decide), List.head?_cons, ↓reduceIte, List.tail_cons,
    skipSpace_blank, skipSpace_cons (show isJsonSpace 34 = false by decide)]
  rw [scanOnce_text (by omega), ok_bind]

theorem head_join_dumpText {l : List (Str × Str)} (hl : l ≠ []) : ∃ u, join [44, 32] (l.map dumpText) = 34 :: u := by
  cases l with
  | nil => exact absurd rfl hl
  | cons e l =>
    rw [List.map_cons, dumpText_eq]
    cases l with
    | nil => exact ⟨_, by simp [join, List.intercalate]; rfl⟩
    | cons e' l => exact ⟨_, by simp [join, List.intercalate]; rfl⟩

/-- The members of a written object of texts. -/
theorem scanMembers_texts {l : List (Str × Str)} (hl : l ≠ []) {d : Dict} {rest : Str} {fuel : Nat}
    (hfuel : (join [44, 32] (l.map dumpText)).length + 1 < fuel) :
    scanMembers parseConstant fuel d (join [44, 32] (l.map dumpText) ++ 125 :: rest) =
      .ok (l.foldl (fun d e => Dict.set (reread e.1) (.str (reread e.2)) d) d, rest) := by
  induction l generalizing d fuel with
  | nil => exact absurd rfl hl
  | cons e l ih =>
    cases l with
    | nil =>
      simp only [List.map_cons, List.map_nil, join, List.intercalate, List.intersperse_singleton, List.flatten_cons,
        List.flatten_nil, List.append_nil] at hfuel ⊢
      obtain ⟨n, rfl⟩ : ∃ n, fuel = n + 2 := ⟨fuel - 2, by omega⟩
      rw [scanMembers_first (by omega), skipSpace_cons (by decide)]
      simp
    | cons e' l =>
      have hjoin : join [44, 32] ((e :: e' :: l).map dumpText) =
          dumpText e ++ 44 :: 32 :: join [44, 32] ((e' :: l).map dumpText) := by
        simp [join, List.intercalate]
      rw [hjoin] at hfuel ⊢
      simp only [List.length_append, List.length_cons] at hfuel
      obtain ⟨n, rfl⟩ : ∃ n, fuel = n + 2 := ⟨fuel - 2, by omega⟩
      obtain ⟨u, hu⟩ := head_join_dumpText (List.cons_ne_nil e' l)
      have hquote : skipSpace (join [44, 32] ((e' :: l).map dumpText) ++ 125 :: rest) =
          join [44, 32] ((e' :: l).map dumpText) ++ 125 :: rest := by
        rw [hu]
        exact skipSpace_cons (by decide) _
      rw [List.append_assoc, List.cons_append, List.cons_append, scanMembers_first (by omega),
        skipSpace_cons (show isJsonSpace 44 = false by decide)]
      simp only [List.head?_cons, List.tail_cons, skipSpace_blank, hquote]
      rw [if_neg (by simp), if_pos trivial, ih (by simp) (by omega)]
      rfl

/-- An object of texts is read as its members, one after the other; blanks may follow it. -/
theorem loads_object {l : List (Str × Str)} (hl : l ≠ []) {tail : Str} (htail : skipSpace tail = []) :
    loads (123 :: (join [44, 32] (l.map dumpText) ++ 125 :: tail)) =
      .ok (.dict (l.foldl (fun d e => Dict.set (reread e.1) (.str (reread e.2)) d) [])) := by
  obtain ⟨u, hu⟩ := head_join_dumpText hl
  have hquote : skipSpace (join [44, 32] (l.map dumpText) ++ 125 :: tail) =
      join [44, 32] (l.map dumpText) ++ 125 :: tail := by
    rw [hu]
    exact skipSpace_cons (by decide) _
  have hscan : scanOnce .ok ((123 :: (join [44, 32] (l.map dumpText) ++ 125 :: tail)).length + 1)
      (123 :: (join [44, 32] (l.map dumpText) ++ 125 :: tail)) =
        .ok (.dict (l.foldl (fun d e => Dict.set (reread e.1) (.str (reread e.2)) d) []), tail) := by
    rw [scanOnce, List.head?_cons, if_neg (by simp), if_pos rfl, List.tail_cons, hquote]
    have hhead : ¬ (join [44, 32] (l.map dumpText) ++ 125 :: tail).head? = some 125 := by simp [hu]
    have hfuel : (join [44, 32] (l.map dumpText)).length + 1 <
        (123 :: (join [44, 32] (l.map dumpText) ++ 125 :: tail)).length := by
      simp only [List.length_cons, List.length_append]
      omega
    simp only [hhead, ↓reduceIte]
    rw [scanMembers_texts hl hfuel]
    rfl
  rw [loads, loadsWith, List.head?_cons, if_neg (by simp), skipSpace_cons (by decide)]
  simp only [hscan, ok_bind, htail, ↓reduceIte]

variable {b : Builtins}

theorem dumpMembers_texts (members : List (String × Str)) :
    dumpMembers b (texts members) = (members.map (fun e => (str e.1, e.2))).map (fun e => (e.1, dumpStr e.2)) := by
  induction members with
  | nil => rfl
  | cons e members ih => simpa [texts, dumpMembers, dumps] using ih

/-- Writing the values does not change the order of the names. -/
theorem sortKeys_map {α β : Type*} (f : α → β) (l : List (Str × α)) :
    sortKeys (l.map (fun e => (e.1, f e.2))) = (sortKeys l).map (fun e => (e.1, f e.2)) := by
  symm
  apply List.map_insertionSort
  intro e _ e' _
  rfl

/-- A written object of texts, with its members in the order of their names. -/
theorem dumps_texts (members : List (String × Str)) : dumps b (.dict (texts members)) =
    123 :: (join [44, 32] ((sortKeys (members.map (fun e => (str e.1, e.2)))).map dumpText) ++ [125]) := by
  rw [dumps, dumpMembers_texts, sortKeys_map, List.map_map]
  rfl

/-- **An object of texts is read back with each text reread.** -/
theorem loads_dumps_texts (members : List (String × Str)) (hne : members ≠ [])
    (hkeys : (members.map (fun e => str e.1)).Nodup) {tail : Str} (htail : skipSpace tail = []) :
    ∃ d : Dict, loads (dumps b (.dict (texts members)) ++ tail) = .ok (.dict d) ∧
      ∀ e ∈ members, Dict.get d e.1 = .str (reread e.2) := by
  let keyed := members.map (fun e => (str e.1, e.2))
  have hperm : (sortKeys keyed).Perm keyed := List.perm_insertionSort _ _
  have hsorted : sortKeys keyed ≠ [] := by
    intro h
    rw [h] at hperm
    exact hne (List.map_eq_nil_iff.mp hperm.nil_eq.symm)
  -- the names are literals, which are reread as they are
  have hreread : ∀ e ∈ sortKeys keyed, reread e.1 = e.1 := by
    intro e he
    obtain ⟨e', -, rfl⟩ := List.mem_map.mp (hperm.mem_iff.mp he)
    exact reread_str e'.1
  let loaded : Dict := (sortKeys keyed).map (fun e => (e.1, .str (reread e.2)))
  have hnodup : (loaded.map Prod.fst).Nodup := by
    have hfst : loaded.map Prod.fst = (sortKeys keyed).map Prod.fst := by
      rw [List.map_map]
      rfl
    have hkeyed : keyed.map Prod.fst = members.map (fun e => str e.1) := by
      rw [List.map_map]
      rfl
    rw [hfst, (hperm.map Prod.fst).nodup_iff, hkeyed]
    exact hkeys
  have hfold : (sortKeys keyed).foldl (fun d e => Dict.set (reread e.1) (.str (reread e.2)) d) [] = loaded := by
    have hcongr : (sortKeys keyed).foldl (fun d e => Dict.set (reread e.1) (.str (reread e.2)) d) [] =
        assignAll loaded := by
      rw [assignAll, List.foldl_map]
      exact List.foldl_ext _ _ _ (fun d e he => by rw [hreread e he, Dict.set_eq_assign])
    rw [hcongr, assignAll_of_nodup hnodup]
  refine ⟨loaded, ?_, ?_⟩
  · rw [dumps_texts, List.cons_append, List.append_assoc, List.singleton_append, loads_object hsorted htail, hfold]
  · intro e he
    have hmem : (str e.1, Value.str (reread e.2)) ∈ loaded :=
      List.mem_map.mpr ⟨(str e.1, e.2), hperm.mem_iff.mpr (List.mem_map_of_mem he), rfl⟩
    rw [Dict.get, findKey_of_mem hnodup hmem]
    rfl

end Texts

/-! ## Printable output -/

section Printable

/-- A text of printable ASCII characters. -/
def Printable (s : Str) : Prop := ∀ c ∈ s, 32 ≤ c ∧ c ≤ 126

theorem Printable.append {s t : Str} (hs : Printable s) (ht : Printable t) : Printable (s ++ t) := by
  intro c hc
  exact (List.mem_append.mp hc).elim (hs c) (ht c)

theorem Printable.cons {s : Str} {c : Nat} (hc : 32 ≤ c ∧ c ≤ 126) (hs : Printable s) : Printable (c :: s) := by
  intro d hd
  rcases List.mem_cons.mp hd with rfl | hd
  · exact hc
  · exact hs d hd

theorem Printable.nil : Printable [] := fun _ h => absurd h List.not_mem_nil

theorem printable_join {sep : Str} (hsep : Printable sep) {items : List Str} (h : ∀ s ∈ items, Printable s) :
    Printable (join sep items) := by
  induction items with
  | nil => exact .nil
  | cons s items ih =>
    have hs : Printable s := h s (by simp)
    have hitems : Printable (join sep items) := ih (fun t ht => h t (by simp [ht]))
    cases items with
    | nil => simpa [join, List.intercalate] using hs
    | cons t items =>
      have hjoin : join sep (s :: t :: items) = s ++ sep ++ join sep (t :: items) := by simp [join, List.intercalate]
      rw [hjoin]
      exact (hs.append hsep).append hitems

theorem printable_hexText (n c : Nat) : Printable (hexText n c) := by
  induction n generalizing c with
  | zero => exact .nil
  | succ n ih =>
    refine (ih (c / 16)).append (.cons ?_ .nil)
    split <;> omega

theorem printable_escapeAscii (c : Nat) : Printable (escapeAscii c) := by
  have hu : Printable [92, 117] := .cons (by decide) (.cons (by decide) .nil)
  unfold escapeAscii
  iterate 7
    split
    · exact .cons (by decide) (.cons (by decide) .nil)
  split
  next hc => exact .cons hc .nil
  split
  · exact hu.append (printable_hexText 4 _)
  · exact ((hu.append (printable_hexText 4 _)).append hu).append (printable_hexText 4 _)

theorem printable_dumpStr (s : Str) : Printable (dumpStr s) := by
  refine .append (.cons (by decide) ?_) (.cons (by decide) .nil)
  intro d hd
  obtain ⟨c, -, hc⟩ := List.mem_flatMap.mp hd
  exact printable_escapeAscii c d hc

theorem printable_strInt (i : Int) : Printable (strInt i) := by
  have hnat : Printable (strNat i.natAbs) := by
    intro c hc
    have hdigit := isDigit_strNat hc
    simp only [isDigit, decide_eq_true_eq] at hdigit
    omega
  unfold strInt
  split
  · exact .cons (by decide) hnat
  · exact hnat

/-- A value that is not made of other values, and no float. -/
inductive Flat : Value → Prop
  | str (s : Str) : Flat (.str s)
  | bool (x : Bool) : Flat (.bool x)
  | int (i : Int) : Flat (.int i)

variable {b : Builtins}

theorem Flat.printable {v : Value} (h : Flat v) : Printable (dumps b v) := by
  cases h with
  | str s => exact printable_dumpStr s
  | bool x =>
    rw [dumps]
    cases x <;> (unfold Printable; decide)
  | int i => exact printable_strInt i

/-- An object of flat values is written on one printable line. -/
theorem printable_dumps {members : Dict} (h : ∀ e ∈ members, Flat e.2) : Printable (dumps b (.dict members)) := by
  rw [dumps]
  refine .append (.cons (by decide) (printable_join (.cons (by decide) (.cons (by decide) .nil)) ?_))
    (.cons (by decide) .nil)
  intro s hs
  obtain ⟨e, he, rfl⟩ := List.mem_map.mp hs
  have hmem : e ∈ dumpMembers b members := (List.perm_insertionSort _ _).mem_iff.mp he
  have hvalue : Printable e.2 := by
    clear he hs
    induction members with
    | nil => cases hmem
    | cons m members ih =>
      rw [dumpMembers] at hmem
      rcases List.mem_cons.mp hmem with rfl | hmem
      · exact (h m (by simp)).printable
      · exact ih (fun e he => h e (by simp [he])) hmem
  exact (printable_dumpStr e.1).append (.cons (by decide) (.cons (by decide) hvalue))

theorem flat_texts {members : List (String × Str)} : ∀ e ∈ texts members, Flat e.2 := by
  intro e he
  obtain ⟨m, -, rfl⟩ := List.mem_map.mp he
  exact .str m.2

end Printable

/-! ## Files of printable lines -/

section Lines

variable {fs : Files} {p : Path}

theorem Printable.isLineBreak {s : Str} (h : Printable s) : ∀ c ∈ s, isLineBreak c = false := by
  intro c hc
  obtain ⟨hlow, hhigh⟩ := h c hc
  have h1 : ¬ c ≤ 0x0D := by omega
  have h2 : ¬ c ≤ 0x1E := by omega
  have h3 : c ≠ 0x85 ∧ c ≠ 0x2028 ∧ c ≠ 0x2029 := by omega
  simp [Py.isLineBreak, h1, h2, h3]

/-- The bytes of a line. -/
def lineBytes (s : Str) : Bytes := (s ++ [10]).map UInt8.ofNat

theorem Printable.ascii {s : Str} (h : Printable s) : ∀ c ∈ s ++ [10], c < 0x80 := by
  intro c hc
  rcases List.mem_append.mp hc with hc | hc
  · have hc' := h c hc
    omega
  · rw [List.mem_singleton.mp hc]
    decide

theorem writeText_ascii {s : Str} (h : ∀ c ∈ s, c < 0x80) :
    fs.writeText p s = .ok (Function.update fs p (some (s.map UInt8.ofNat))) := by
  rw [Files.writeText, encode_ascii h]
  rfl

theorem writeText_line {s : Str} (h : Printable s) :
    fs.writeText p (s ++ [10]) = .ok (Function.update fs p (some (lineBytes s))) := writeText_ascii h.ascii

/-- A line is read back. -/
theorem readText_line {s : Str} (h : Printable s) (hfile : fs p = some (lineBytes s)) :
    fs.readText p = .ok (s ++ [10]) := by
  have hreturn : 0x0D ∉ s ++ [10] := by
    intro hmem
    rcases List.mem_append.mp hmem with hmem | hmem
    · have hc := h _ hmem
      omega
    · simp at hmem
  rw [Files.readText, Files.readBytes, hfile]
  simp only [ok_bind, lineBytes, decode_ascii h.ascii, universalNewlines_eq_self hreturn]

end Lines

end Exasphere.Py

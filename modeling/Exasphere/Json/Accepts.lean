import Exasphere.Json.Grammar

/-!
# The grammar describes the parser

`Grammar` derives what the parser reads; here the parser reads what the grammar derives, with enough fuel
(`Derives.follows`). Together they say from which texts a value other than `null` comes out (`parse_found_iff`), and so
for which texts `parse` meets the contract of `json.hpp`.
-/

namespace Exasphere.Json

open Exasphere.Lib Lenient
open Rfc8259 (Ws)

/-! ## First bytes -/

section Complete

variable {c : UInt8} {s t u w k r x : Bytes} {v : Value} {d : Delim} {fuel f : Nat} {obj : List (Bytes × Value)}

/-- The first byte of a value. -/
theorem Lenient.Derives.value_head (h : Derives .value t) : ∃ c u, t = c :: u ∧ isWhite c = false ∧ c ≠ 93 := by
  cases h with
  | litNull | litTrue | litFalse => exact ⟨_, _, rfl, by decide⟩
  | number n hn =>
    obtain ⟨c, u, rfl, hc⟩ := hn.exists_cons
    refine ⟨c, u, rfl, ?_⟩
    rcases hc with rfl | hc
    · decide
    · exact ⟨isDigit_not_white hc, isDigit_ne hc (by decide)⟩
  | string s hs =>
    obtain ⟨pieces, -⟩ := hs
    exact ⟨34, _, rfl, by decide⟩
  | emptyObject w hw | object ms hm | array es he => exact ⟨_, _, rfl, by decide⟩

/-- A slot does not start with a closing bracket. -/
theorem Lenient.Derives.slot_head (h : Derives (.slot d) s) : Ws s ∨ ∀ x, (skipWs (s ++ x)).head? ≠ some 93 := by
  cases h with
  | whole _ w₁ v w₂ h₁ hv h₂ =>
    obtain ⟨c, u, rfl, hc, hne⟩ := hv.value_head
    apply Or.inr
    intro x
    rw [List.append_assoc, List.append_assoc, h₁.skip, List.cons_append, skipWs_cons hc]
    simpa using hne
  | missing _ w hw => exact Or.inl hw
  | brokenObject _ w ms hw hm hne =>
    apply Or.inr
    intro x
    rw [List.append_assoc, hw.skip, List.cons_append, skipWs_cons (by decide)]
    simp
  | brokenArray w es hw he =>
    apply Or.inr
    intro x
    rw [List.append_assoc, hw.skip, List.cons_append, skipWs_cons (by decide)]
    simp

theorem Lenient.Derives.elements_head (h : Derives (.elements d) s) :
    Ws s ∨ ∀ x, (skipWs (s ++ x)).head? ≠ some 93 := by
  cases h with
  | element _ e he => exact he.slot_head
  | moreElements _ e es he hes =>
    apply Or.inr
    intro x
    rw [List.append_assoc]
    rcases he.slot_head with hw | hne
    · rw [hw.skip, List.cons_append, skipWs_cons (by decide)]
      simp
    · exact hne _

/-- A key, and the byte behind it. -/
theorem Lenient.Str.key {w₁ w₂ : Bytes} (h₁ : Ws w₁) (hk : Str k) (h₂ : Ws w₂) (hc : isWhite c = false) :
    ∃ t, skipWs (w₁ ++ k ++ w₂ ++ c :: u) = 34 :: t ∧ skipWs (parseString t).2 = c :: u := by
  obtain ⟨pieces, hall⟩ := hk
  refine ⟨pieces.flatten ++ 34 :: (w₂ ++ c :: u), ?_, ?_⟩
  · rw [List.append_assoc, List.append_assoc, h₁.skip, List.cons_append, List.cons_append, skipWs_cons (by decide)]
    simp
  · rw [parseString_pieces hall, parseString_quote, h₂.skip, skipWs_cons hc]

/-- The members start with a key. -/
theorem Lenient.Derives.members_head (h : Derives (.members d) s) : ∃ t, skipWs (s ++ x) = 34 :: t := by
  cases h with
  | member _ w₁ k w₂ v h₁ hk h₂ hv =>
    obtain ⟨t, ht, -⟩ := hk.key (u := v ++ x) h₁ h₂ (show isWhite 58 = false by decide)
    exact ⟨t, by simpa using ht⟩
  | moreMembers _ w₁ k w₂ v ms h₁ hk h₂ hv hm =>
    obtain ⟨t, ht, -⟩ := hk.key (u := v ++ 44 :: (ms ++ x)) h₁ h₂ (show isWhite 58 = false by decide)
    exact ⟨t, by simpa using ht⟩

theorem Lenient.Derives.broken_head (h : Derives (.brokenMembers d) s) :
    Ws s ∨ ∀ y : Delim, ∀ x, ∃ t, skipWs (s ++ y.byte :: x) = 34 :: t := by
  cases h with
  | noKey _ w hw => exact Or.inl hw
  | noColon _ w₁ k w₂ h₁ hk h₂ =>
    apply Or.inr
    intro y x
    obtain ⟨t, ht, -⟩ := hk.key (c := y.byte) (u := x) h₁ h₂ (by cases y <;> rfl)
    exact ⟨t, ht⟩
  | noBrace ms hm => exact Or.inr (fun y x => hm.members_head)
  | brokenLater _ w₁ k w₂ v ms h₁ hk h₂ hv hm =>
    apply Or.inr
    intro y x
    obtain ⟨t, ht, -⟩ := hk.key (u := v ++ 44 :: (ms ++ y.byte :: x)) h₁ h₂ (show isWhite 58 = false by decide)
    exact ⟨t, by simpa using ht⟩

/-! ## Derivations -/

/-- The parser reads what a derivation describes, with enough fuel. -/
def Follows : Symbol → Bytes → Prop
  | .value, t => ∀ rest fuel, Delimited rest → (t ++ rest).length < fuel →
      ∃ v, parseValue fuel (t ++ rest) = .ok (v, rest) ∧ (v.isNull = true ↔ t = nullText)
  | .slot d, t => ∀ rest fuel, (t ++ d.byte :: rest).length < fuel →
      ∃ v r, parseValue fuel (t ++ d.byte :: rest) = .ok (v, r) ∧ skipWs r = d.byte :: rest
  | .members d, t => ∀ rest k fuel obj, (t ++ d.byte :: rest).length < k → (t ++ d.byte :: rest).length < fuel →
      (d = .brace → ∃ obj', membersLoop (parseValue k) fuel obj (t ++ d.byte :: rest) = .ok (.object obj', rest)) ∧
      (d = .bracket → membersLoop (parseValue k) fuel obj (t ++ d.byte :: rest) = .ok (.null, d.byte :: rest))
  | .brokenMembers d, t => ∀ rest k fuel obj, (t ++ d.byte :: rest).length < k →
      (t ++ d.byte :: rest).length < fuel →
      membersLoop (parseValue k) fuel obj (t ++ d.byte :: rest) = .ok (.null, d.byte :: rest)
  | .elements d, t => ∀ rest k fuel arr, (t ++ d.byte :: rest).length < k → (t ++ d.byte :: rest).length < fuel →
      (d = .bracket → ∃ arr', itemsLoop (parseValue k) fuel arr (t ++ d.byte :: rest) = .ok (.array arr', rest)) ∧
      (d = .brace → itemsLoop (parseValue k) fuel arr (t ++ d.byte :: rest) = .ok (.null, d.byte :: rest))

theorem parseObject_eq (h : skipWs s = 123 :: t) :
    parseValue (fuel + 1) s = parseObject (parseValue fuel) fuel t := by
  rw [parseValue, h]
  rfl

theorem parseArray_eq (h : skipWs s = 91 :: t) : parseValue (fuel + 1) s = parseArray (parseValue fuel) fuel t := by
  rw [parseValue, h]
  rfl

theorem parseNumber_converts {n rest : Bytes} (hn : Number n) (hr : Delimited rest) :
    ∃ v, parseNumber (n ++ rest) = .ok (v, rest) ∧ v.isNull = false := by
  obtain ⟨frac, exp, hnum, hconv⟩ := hn
  unfold Converts at hconv
  unfold parseNumber
  simp only [hnum.scan (hr.stops frac exp)]
  split at hconv
  next hd =>
    obtain ⟨d, hd'⟩ := hconv
    exact ⟨.double d, by simp [hd, hd'], rfl⟩
  next hd =>
    obtain ⟨i, hi⟩ := hconv
    exact ⟨.int i, by simp [hd, hi], rfl⟩

/-- One round of the loop of an object, up to the byte behind the value. -/
theorem membersLoop_comma {k : Nat} (hs : skipWs s = 34 :: t) (hc : skipWs (parseString t).2 = 58 :: u)
    (hv : parseValue k u = .ok (v, r)) (hd : skipWs r = 44 :: x) : membersLoop (parseValue k) (fuel + 1) obj s =
      membersLoop (parseValue k) fuel (insertKey (parseString t).1 v obj) x := by
  rw [membersLoop, hs, accept_self]
  simp only [hc, accept_self, hv, ok_bind, hd]

theorem membersLoop_brace {k : Nat} (hs : skipWs s = 34 :: t) (hc : skipWs (parseString t).2 = 58 :: u)
    (hv : parseValue k u = .ok (v, r)) (hd : skipWs r = 125 :: x) : membersLoop (parseValue k) (fuel + 1) obj s =
      .ok (.object (insertKey (parseString t).1 v obj), x) := by
  rw [membersLoop, hs, accept_self]
  simp only [hc, accept_self, hv, ok_bind, hd, accept_ne (show (125 : UInt8) ≠ 44 by decide)]

theorem membersLoop_bracket {k : Nat} (hs : skipWs s = 34 :: t) (hc : skipWs (parseString t).2 = 58 :: u)
    (hv : parseValue k u = .ok (v, r)) (hd : skipWs r = 93 :: x) :
    membersLoop (parseValue k) (fuel + 1) obj s = .ok (.null, 93 :: x) := by
  rw [membersLoop, hs, accept_self]
  simp only [hc, accept_self, hv, ok_bind, hd, accept_ne (show (93 : UInt8) ≠ 44 by decide),
    accept_ne (show (93 : UInt8) ≠ 125 by decide)]

theorem membersLoop_stuck {k : Nat} (hs : skipWs s = c :: t) (hc : c ≠ 34) :
    membersLoop (parseValue k) (fuel + 1) obj s = .ok (.null, c :: t) := by
  rw [membersLoop, hs, accept_ne hc]

theorem membersLoop_noColon {k : Nat} (hs : skipWs s = 34 :: t) (hc : skipWs (parseString t).2 = c :: u)
    (hne : c ≠ 58) :
    membersLoop (parseValue k) (fuel + 1) obj s = .ok (.null, c :: u) := by
  rw [membersLoop, hs, accept_self]
  simp only [hc, accept_ne hne]

/-- A slot behind white space, or the delimiter itself. -/
theorem parseValue_delim (d : Delim) (hw : Ws w) :
    parseValue (fuel + 1) (w ++ d.byte :: x) = .ok (.null, d.byte :: x) := by
  rw [parseValue, hw.skip, skipWs_delim]
  cases d <;> rfl

theorem Follows.whole {w₁ w₂ : Bytes} (h₁ : Ws w₁) (hv : Follows .value t) (h₂ : Ws w₂) :
    Follows (.slot d) (w₁ ++ t ++ w₂) := by
  intro rest fuel hf
  simp only [List.append_assoc] at hf ⊢
  obtain ⟨v, hp, -⟩ := hv (w₂ ++ d.byte :: rest) fuel (d.delimited h₂) (by rw [List.length_append] at hf; omega)
  refine ⟨v, w₂ ++ d.byte :: rest, ?_, ?_⟩
  · rw [parseValue_white (ws_iff.mp h₁), hp]
  · rw [h₂.skip, skipWs_delim]

theorem Follows.object (hm : Derives (.members .brace) t) (h : Follows (.members .brace) t) :
    Follows .value (123 :: t ++ [125]) := by
  intro rest fuel _ hf
  obtain ⟨f, rfl⟩ : ∃ f, fuel = f + 1 := ⟨fuel - 1, by omega⟩
  have htext : 123 :: t ++ [125] ++ rest = 123 :: (t ++ Delim.brace.byte :: rest) := by simp [Delim.byte]
  rw [htext] at hf ⊢
  rw [List.length_cons] at hf
  obtain ⟨u, hu⟩ := hm.members_head (x := Delim.brace.byte :: rest)
  obtain ⟨obj, hobj⟩ := (h rest f f [] (by omega) (by omega)).1 rfl
  refine ⟨.object obj, ?_, by simp [Value.isNull, nullText]⟩
  rw [parseObject_eq (skipWs_cons (by decide)), parseObject, hu, accept_ne (by decide), ← hu]
  simp only [membersLoop_skipWs, hobj]

theorem Follows.brokenObject (hw : Ws w) (hm : Derives (.brokenMembers d) t) (hne : ¬(d = .brace ∧ Ws t))
    (h : Follows (.brokenMembers d) t) : Follows (.slot d) (w ++ 123 :: t) := by
  intro rest fuel hf
  obtain ⟨f, rfl⟩ : ∃ f, fuel = f + 1 := ⟨fuel - 1, by omega⟩
  rw [List.append_assoc, List.cons_append] at hf ⊢
  have hlen : (t ++ d.byte :: rest).length < f := by
    simp only [List.length_append, List.length_cons] at hf ⊢
    omega
  have hopen : accept 125 (skipWs (t ++ d.byte :: rest)) = none := by
    rcases hm.broken_head with hws | hkey
    · rw [hws.skip, skipWs_delim]
      apply accept_ne
      intro hd
      exact hne ⟨Delim.byte_inj (e := .brace) hd, hws⟩
    · obtain ⟨u, hu⟩ := hkey d rest
      rw [hu, accept_ne (by decide)]
  refine ⟨.null, d.byte :: rest, ?_, skipWs_delim d rest⟩
  rw [parseValue_white (ws_iff.mp hw), parseObject_eq (skipWs_cons (by decide)), parseObject, hopen]
  simp only [membersLoop_skipWs]
  exact h rest f f [] hlen hlen

theorem Follows.array (he : Derives (.elements .bracket) t) (h : Follows (.elements .bracket) t) :
    Follows .value (91 :: t ++ [93]) := by
  intro rest fuel _ hf
  obtain ⟨f, rfl⟩ : ∃ f, fuel = f + 1 := ⟨fuel - 1, by omega⟩
  have htext : 91 :: t ++ [93] ++ rest = 91 :: (t ++ Delim.bracket.byte :: rest) := by simp [Delim.byte]
  rw [htext] at hf ⊢
  rw [List.length_cons] at hf
  rw [parseArray_eq (skipWs_cons (by decide)), parseArray]
  rcases he.elements_head with hw | hne
  · -- one missing element
    rw [hw.skip, skipWs_delim]
    exact ⟨.array [], by rw [Delim.byte, accept_self], by simp [Value.isNull, nullText]⟩
  · rw [accept_eq_none.mpr (hne _)]
    simp only [itemsLoop_skipWs]
    obtain ⟨arr, harr⟩ := (h rest f f [] (by omega) (by omega)).1 rfl
    exact ⟨.array arr, harr, by simp [Value.isNull, nullText]⟩

theorem Follows.brokenArray (hw : Ws w) (he : Derives (.elements .brace) t) (h : Follows (.elements .brace) t) :
    Follows (.slot .brace) (w ++ 91 :: t) := by
  intro rest fuel hf
  obtain ⟨f, rfl⟩ : ∃ f, fuel = f + 1 := ⟨fuel - 1, by omega⟩
  rw [List.append_assoc, List.cons_append] at hf ⊢
  have hlen : (t ++ Delim.brace.byte :: rest).length < f := by
    simp only [List.length_append, List.length_cons] at hf ⊢
    omega
  have hopen : accept 93 (skipWs (t ++ Delim.brace.byte :: rest)) = none := by
    rcases he.elements_head with hws | hne
    · rw [hws.skip, skipWs_delim]
      exact accept_ne (by decide)
    · exact accept_eq_none.mpr (hne _)
  refine ⟨.null, Delim.brace.byte :: rest, ?_, skipWs_delim .brace rest⟩
  rw [parseValue_white (ws_iff.mp hw), parseArray_eq (skipWs_cons (by decide)), parseArray, hopen]
  simp only [itemsLoop_skipWs]
  exact (h rest f f [] hlen hlen).2 rfl

theorem Follows.member {w₁ w₂ : Bytes} (h₁ : Ws w₁) (hk : Str k) (h₂ : Ws w₂) (hv : Follows (.slot d) t) :
    Follows (.members d) (w₁ ++ k ++ w₂ ++ 58 :: t) := by
  intro rest n fuel obj hn hf
  obtain ⟨f, rfl⟩ : ∃ f, fuel = f + 1 := ⟨fuel - 1, by omega⟩
  have htext : w₁ ++ k ++ w₂ ++ 58 :: t ++ d.byte :: rest = w₁ ++ k ++ w₂ ++ 58 :: (t ++ d.byte :: rest) := by simp
  rw [htext] at hn ⊢
  have hlen : (t ++ d.byte :: rest).length < n := by
    simp only [List.length_append, List.length_cons] at hn ⊢
    omega
  obtain ⟨u, hs, hc⟩ := hk.key (u := t ++ d.byte :: rest) h₁ h₂ (show isWhite 58 = false by decide)
  obtain ⟨v, r, hp, hr⟩ := hv rest n hlen
  constructor
  · rintro rfl
    exact ⟨_, membersLoop_brace hs hc hp hr⟩
  · rintro rfl
    exact membersLoop_bracket hs hc hp hr

/-- A member and a comma: the loop goes on behind the comma, and its fuel still covers what is left. -/
theorem Follows.comma {w₁ w₂ : Bytes} {n fuel : Nat} (obj : List (Bytes × Value)) (h₁ : Ws w₁) (hk : Str k)
    (h₂ : Ws w₂) (hv : Follows (.slot .comma) t) (hn : (w₁ ++ k ++ w₂ ++ 58 :: t ++ 44 :: x).length < n)
    (hf : (w₁ ++ k ++ w₂ ++ 58 :: t ++ 44 :: x).length < fuel) :
    ∃ f obj', x.length < n ∧ x.length < f ∧
      membersLoop (parseValue n) fuel obj (w₁ ++ k ++ w₂ ++ 58 :: t ++ 44 :: x) =
        membersLoop (parseValue n) f obj' x := by
  obtain ⟨f, rfl⟩ : ∃ f, fuel = f + 1 := ⟨fuel - 1, by omega⟩
  have htext : w₁ ++ k ++ w₂ ++ 58 :: t ++ 44 :: x = w₁ ++ k ++ w₂ ++ 58 :: (t ++ Delim.comma.byte :: x) := by
    simp [Delim.byte]
  rw [htext] at hn hf ⊢
  simp only [List.length_append, List.length_cons] at hn hf
  have hlen : (t ++ Delim.comma.byte :: x).length < n := by
    simp only [List.length_append, List.length_cons]
    omega
  obtain ⟨u, hs, hc⟩ := hk.key (u := t ++ Delim.comma.byte :: x) h₁ h₂ (show isWhite 58 = false by decide)
  obtain ⟨v, r, hp, hr⟩ := hv x n hlen
  exact ⟨f, _, by omega, by omega, membersLoop_comma hs hc hp hr⟩

theorem Follows.element (hv : Follows (.slot d) t) : Follows (.elements d) t := by
  intro rest n fuel arr hn hf
  obtain ⟨f, rfl⟩ : ∃ f, fuel = f + 1 := ⟨fuel - 1, by omega⟩
  obtain ⟨v, r, hp, hr⟩ := hv rest n hn
  rw [itemsLoop, hp, ok_bind]
  constructor
  · rintro rfl
    simp only [hr, Delim.byte, accept_ne (show (93 : UInt8) ≠ 44 by decide), accept_self]
    exact ⟨_, rfl⟩
  · rintro rfl
    simp only [hr, Delim.byte, accept_ne (show (125 : UInt8) ≠ 44 by decide),
      accept_ne (show (125 : UInt8) ≠ 93 by decide)]

theorem Follows.moreElements (hv : Follows (.slot .comma) t) (h : Follows (.elements d) u) :
    Follows (.elements d) (t ++ 44 :: u) := by
  intro rest n fuel arr hn hf
  obtain ⟨f, rfl⟩ : ∃ f, fuel = f + 1 := ⟨fuel - 1, by omega⟩
  have htext : t ++ 44 :: u ++ d.byte :: rest = t ++ Delim.comma.byte :: (u ++ d.byte :: rest) := by simp [Delim.byte]
  rw [htext] at hn hf ⊢
  obtain ⟨v, r, hp, hr⟩ := hv (u ++ d.byte :: rest) n hn
  simp only [List.length_append, List.length_cons] at hn hf
  have hlen := h rest n f (arr ++ [v]) (by simp only [List.length_append, List.length_cons]; omega)
    (by simp only [List.length_append, List.length_cons]; omega)
  rw [itemsLoop, hp, ok_bind]
  simp only [hr, Delim.byte, accept_self]
  exact hlen

/-- What the grammar derives, the parser reads. -/
theorem Lenient.Derives.follows {symbol : Symbol} (h : Derives symbol s) : Follows symbol s := by
  induction h with
  | litNull | litTrue | litFalse =>
    intro rest fuel _ hf
    obtain ⟨f, rfl⟩ : ∃ f, fuel = f + 1 := ⟨fuel - 1, by omega⟩
    exact ⟨_, rfl, by simp [Value.isNull, nullText]⟩
  | number n hn =>
    intro rest fuel hr hf
    obtain ⟨f, rfl⟩ : ∃ f, fuel = f + 1 := ⟨fuel - 1, by omega⟩
    obtain ⟨v, hv, hnull⟩ := parseNumber_converts hn hr
    obtain ⟨c, u, rfl, hc⟩ := hn.exists_cons
    refine ⟨v, ?_, ?_⟩
    · rw [List.cons_append] at hv ⊢
      rw [parseValue_number hc, hv]
    · simp only [hnull, Bool.false_eq_true, false_iff]
      exact hn.ne_null
  | string s hs =>
    intro rest fuel _ hf
    obtain ⟨f, rfl⟩ : ∃ f, fuel = f + 1 := ⟨fuel - 1, by omega⟩
    obtain ⟨pieces, hall⟩ := hs
    refine ⟨.string (parseString (pieces.flatten ++ 34 :: rest)).1, ?_, by simp [Value.isNull, nullText]⟩
    have hrest : (parseString (pieces.flatten ++ 34 :: rest)).2 = rest := by
      rw [parseString_pieces hall, parseString_quote]
    have htext : 34 :: pieces.flatten ++ [34] ++ rest = 34 :: (pieces.flatten ++ 34 :: rest) := by simp
    rw [htext, parseValue, skipWs_cons (by decide)]
    simp [hrest]
  | emptyObject w hw =>
    intro rest fuel _ hf
    obtain ⟨f, rfl⟩ : ∃ f, fuel = f + 1 := ⟨fuel - 1, by omega⟩
    refine ⟨.object [], ?_, by simp [Value.isNull, nullText]⟩
    have htext : 123 :: w ++ [125] ++ rest = 123 :: (w ++ 125 :: rest) := by simp
    rw [htext, parseObject_eq (skipWs_cons (by decide)), parseObject, hw.skip, skipWs_cons (by decide), accept_self]
  | object ms hm ih => exact .object hm ih
  | array es he ih => exact .array he ih
  | whole d w₁ v w₂ h₁ _ h₂ ih => exact .whole h₁ ih h₂
  | missing d w hw =>
    intro rest fuel hf
    obtain ⟨f, rfl⟩ : ∃ f, fuel = f + 1 := ⟨fuel - 1, by omega⟩
    exact ⟨.null, d.byte :: rest, parseValue_delim d hw, skipWs_delim d rest⟩
  | brokenObject d w ms hw hm hne ih => exact .brokenObject hw hm hne ih
  | brokenArray w es hw he ih => exact .brokenArray hw he ih
  | member d w₁ k w₂ v h₁ hk h₂ _ ih => exact .member h₁ hk h₂ ih
  | moreMembers d w₁ k w₂ v ms h₁ hk h₂ _ _ ihv ihm =>
    intro rest n fuel obj hn hf
    rw [List.append_assoc, List.cons_append] at hn hf ⊢
    obtain ⟨f, obj', hn', hf', heq⟩ := Follows.comma obj h₁ hk h₂ ihv hn hf
    rw [heq]
    exact ihm rest n f obj' hn' hf'
  | noKey d w hw =>
    intro rest n fuel obj hn hf
    obtain ⟨f, rfl⟩ : ∃ f, fuel = f + 1 := ⟨fuel - 1, by omega⟩
    exact membersLoop_stuck (by rw [hw.skip, skipWs_delim]) (by cases d <;> decide)
  | noColon d w₁ k w₂ h₁ hk h₂ =>
    intro rest n fuel obj hn hf
    obtain ⟨f, rfl⟩ : ∃ f, fuel = f + 1 := ⟨fuel - 1, by omega⟩
    obtain ⟨t, hs, hc⟩ := hk.key (c := d.byte) (u := rest) h₁ h₂ (by cases d <;> rfl)
    exact membersLoop_noColon hs hc (by cases d <;> decide)
  | noBrace ms _ ih =>
    intro rest n fuel obj hn hf
    exact (ih rest n fuel obj hn hf).2 rfl
  | brokenLater d w₁ k w₂ v ms h₁ hk h₂ _ _ ihv ihm =>
    intro rest n fuel obj hn hf
    rw [List.append_assoc, List.cons_append] at hn hf ⊢
    obtain ⟨f, obj', hn', hf', heq⟩ := Follows.comma obj h₁ hk h₂ ihv hn hf
    rw [heq]
    exact ihm rest n f obj' hn' hf'
  | element d v _ ih => exact .element ih
  | moreElements d v es _ _ ihv ihe => exact .moreElements ihv ihe

end Complete

/-! ## Documents -/

section Documents

/-- A value other than `null` comes out of the lenient texts only. -/
theorem parse_found_iff (s : Bytes) : (∃ v, parse s = .ok v ∧ v.isNull = false) ↔ Lenient.Text s := by
  unfold parse
  constructor
  · rintro ⟨v, h, hv⟩
    obtain ⟨⟨u, rest⟩, hp, h⟩ := bind_eq_ok.mp h
    simp only at h
    split at h
    next =>
      obtain rfl := Except.ok.inj h
      cases hv
    next hr =>
      obtain rfl := Except.ok.inj h
      rcases parseValue_read hp with ⟨w, t, rest, v, hw, ht, hnull⟩ | ⟨w, t, v, hw, ht, -⟩ | _
      · refine Or.inl ⟨w, t, rest, hw, ht, fun h => ?_, ws_of_skipWs (not_not.mp hr), rfl⟩
        rw [hnull.mpr h] at hv
        cases hv
      · exact Or.inr ⟨w, t, hw, ht, rfl⟩
      · cases hv
  · rintro (⟨w₁, t, w₂, h₁, ht, hne, h₂, rfl⟩ | ⟨w, t, hw, ht, rfl⟩)
    · obtain ⟨v, hp, hnull⟩ := ht.follows w₂ ((w₁ ++ t ++ w₂).length + 1) (ws_delimited h₂)
        (by simp only [List.length_append]; omega)
      refine ⟨v, ?_, by simpa [hne] using hnull⟩
      rw [List.append_assoc] at hp ⊢
      rw [parseValue_white (ws_iff.mp h₁), hp, ok_bind]
      have hskip : skipWs w₂ = [] := by simpa [skipWs] using h₂.skip []
      simp [hskip]
    · obtain ⟨pieces, tail, hall, htail⟩ := ht
      have hrest : (parseString (pieces.flatten ++ tail)).2 = [] := by
        rw [parseString_pieces hall, parseString_cutOff htail]
      refine ⟨.string (parseString (pieces.flatten ++ tail)).1, ?_, rfl⟩
      rw [parseValue_white (ws_iff.mp hw), parseValue, List.cons_append, skipWs_cons (by decide)]
      simp [hrest, skipWs]

/-- **The contract of `parse`.** Malformed input gives no value other than `null`, for the texts that are well formed
or not lenient, and for no other text. -/
theorem parse_contract_iff (s : Bytes) :
    (¬Rfc8259.Text s → ¬∃ v, parse s = .ok v ∧ v.isNull = false) ↔ (Rfc8259.Text s ∨ ¬Lenient.Text s) := by
  rw [parse_found_iff]
  tauto

/-- A value of RFC 8259 is not empty, and not a lone quotation mark. -/
theorem Rfc8259.Derives.ne_quote {char : Bytes → Prop} {v : Bytes} (h : Rfc8259.Derives char .value v) :
    v ≠ [] ∧ v ≠ [0x22] := by
  cases h with
  | litNull | litTrue | litFalse => simp
  | number n h =>
    obtain ⟨minus, int, frac, exp, hm, hi, hf, he⟩ := h
    rcases hm with rfl | rfl
    · cases hi with
      | zero => simp
      | nonzero c ds hc hd =>
        refine ⟨by simp, fun h => ?_⟩
        obtain ⟨rfl, -⟩ := List.cons.inj h
        simp at hc
    · simp
  | string s h =>
    obtain ⟨chars, h⟩ := h
    simp
  | emptyObject w hw | object ms h | emptyArray w hw | array es h => simp

/-- An unterminated string. -/
theorem parse_accepts_quote : ¬Rfc8259.Text [0x22] ∧ ∃ v, parse [0x22] = .ok v ∧ v.isNull = false := by
  refine ⟨?_, .string [], rfl, rfl⟩
  rintro ⟨w₁, v, w₂, h₁, hv, -, heq⟩
  obtain ⟨hne, hq⟩ := hv.ne_quote
  cases w₁ with
  | nil =>
    obtain ⟨c, t, rfl⟩ := List.exists_cons_of_ne_nil hne
    simp only [List.nil_append, List.cons_append, List.cons.injEq, List.nil_eq, List.append_eq_nil_iff] at heq
    obtain ⟨rfl, rfl, -⟩ := heq
    exact hq rfl
  | cons c w =>
    obtain ⟨rfl, -⟩ := List.cons.inj heq
    simpa using h₁ 0x22 (by simp)

end Documents

end Exasphere.Json

import Exasphere.Json.Accepts

/-!
# The texts on which `parse` throws

`std::stoll` and `std::stod` are called on every token that `parse_number` cuts off, and nobody catches what they throw.
`Raises` is the grammar of the texts with such a token at a place the parser reaches: behind the keys, slots and opening
brackets that it reads first. `parse` throws on these texts and on no other (`parse_raises_iff`).
-/

namespace Exasphere.Json

open Exasphere.Lib Lenient
open Rfc8259 (Ws)

/-- A token before `rest` that the standard library does not convert. -/
inductive BadNumber : Bytes → Bytes → Prop
  | intro (n rest frac exp : Bytes) (hn : Numeral n frac exp) (hr : Stops frac exp rest)
      (hc : ¬Converts n (!frac.isEmpty || !exp.isEmpty)) : BadNumber n rest

/-- The texts in which the parser meets a token that does not convert. -/
inductive Raises : Rfc8259.Symbol → Bytes → Prop
  | number (w n rest : Bytes) (hw : Ws w) (hn : BadNumber n rest) : Raises .value (w ++ n ++ rest)
  | object (w s : Bytes) (hw : Ws w) (h : Raises .members s) : Raises .value (w ++ 0x7B :: s)
  | array (w s : Bytes) (hw : Ws w) (h : Raises .elements s) : Raises .value (w ++ 0x5B :: s)
  | member (w₁ k w₂ s : Bytes) (h₁ : Ws w₁) (hk : Str k) (h₂ : Ws w₂) (h : Raises .value s) :
      Raises .members (w₁ ++ k ++ w₂ ++ 0x3A :: s)
  | laterMember (w₁ k w₂ v s : Bytes) (h₁ : Ws w₁) (hk : Str k) (h₂ : Ws w₂) (hv : Derives (.slot .comma) v)
      (h : Raises .members s) : Raises .members (w₁ ++ k ++ w₂ ++ 0x3A :: v ++ 0x2C :: s)
  | element (s : Bytes) (h : Raises .value s) : Raises .elements s
  | laterElement (v s : Bytes) (hv : Derives (.slot .comma) v) (h : Raises .elements s) :
      Raises .elements (v ++ 0x2C :: s)

/-! ## What throws is in the grammar -/

section Sound

variable {c : UInt8} {s t u : Bytes} {e : Raise} {fuel k : Nat}

theorem parseNumber_error (h : parseNumber s = .error e) :
    ¬Converts (scanNumber s).text (scanNumber s).isDouble := by
  unfold parseNumber at h
  unfold Converts
  simp only at h
  split at h
  next hd =>
    rw [if_pos hd]
    rintro ⟨d, hok⟩
    rw [hok, ok_bind] at h
    cases h
  next hd =>
    rw [if_neg hd]
    rintro ⟨i, hok⟩
    rw [hok, ok_bind] at h
    cases h

theorem raises_number (hs : skipWs s = c :: t) (hc : c = 45 ∨ isDigit c = true) (h : parseNumber (c :: t) = .error e) :
    Raises .value s := by
  obtain ⟨w, hw, hsplit⟩ := exists_ws s
  obtain ⟨frac, exp, hnum, hstop, hdouble⟩ := scanNumber_numeral t hc
  have hconv := parseNumber_error h
  rw [hdouble] at hconv
  rw [hsplit, hs, ← scanNumber_append (c :: t), ← List.append_assoc]
  exact .number w _ _ hw (.intro _ _ frac exp hnum hstop hconv)

theorem raises_members (hpv : ∀ s, parseValue k s = .error e → Raises .value s) (he : e ≠ .exhausted)
    {obj : List (Bytes × Value)} (h : membersLoop (parseValue k) fuel obj s = .error e) : Raises .members s := by
  induction fuel generalizing obj s with
  | zero =>
    obtain rfl := Except.error.inj h
    exact absurd rfl he
  | succ fuel ih =>
    rw [membersLoop] at h
    split at h
    · cases h
    next t ht =>
      have hs := accept_eq_some.mp ht
      simp only at h
      split at h
      · cases h
      next u hu =>
        obtain ⟨w₁, key, w₂, h₁, hkey, h₂, rfl⟩ := exists_key hs (accept_eq_some.mp hu)
        cases hval : parseValue k u with
        | error e' =>
          rw [hval, error_bind] at h
          obtain rfl := Except.error.inj h
          exact .member w₁ key w₂ u h₁ hkey h₂ (hpv u hval)
        | ok p =>
          obtain ⟨val, r⟩ := p
          rw [hval, ok_bind] at h
          simp only at h
          split at h
          next ms hms =>
            obtain ⟨v, hv, rfl⟩ := (parseValue_read hval).slot (d := .comma) (accept_eq_some.mp hms)
            have hrec := Raises.laterMember w₁ key w₂ v ms h₁ hkey h₂ hv (ih h)
            simpa [Delim.byte] using hrec
          next =>
            split at h
            · cases h
            · cases h

theorem raises_elements (hpv : ∀ s, parseValue k s = .error e → Raises .value s) (he : e ≠ .exhausted)
    {arr : List Value} (h : itemsLoop (parseValue k) fuel arr s = .error e) : Raises .elements s := by
  induction fuel generalizing arr s with
  | zero =>
    obtain rfl := Except.error.inj h
    exact absurd rfl he
  | succ fuel ih =>
    rw [itemsLoop] at h
    cases hval : parseValue k s with
    | error e' =>
      rw [hval, error_bind] at h
      obtain rfl := Except.error.inj h
      exact .element s (hpv s hval)
    | ok p =>
      obtain ⟨val, r⟩ := p
      rw [hval, ok_bind] at h
      simp only at h
      split at h
      next es hes =>
        have hrec := ih h
        obtain ⟨v, hv, rfl⟩ := (parseValue_read hval).slot (d := .comma) (accept_eq_some.mp hes)
        exact .laterElement v es hv hrec
      next =>
        split at h
        · cases h
        · cases h

theorem raises_value (he : e ≠ .exhausted) (h : parseValue fuel s = .error e) : Raises .value s := by
  induction fuel generalizing s with
  | zero =>
    obtain rfl := Except.error.inj h
    exact absurd rfl he
  | succ fuel ih =>
    have ih' : ∀ s, parseValue fuel s = .error e → Raises .value s := fun _ => ih
    rw [parseValue] at h
    split at h
    · cases h
    next c t hs =>
      obtain ⟨w, hw, hsplit⟩ := exists_ws s
      split_ifs at h with h₁ h₂ h₃ h₄ h₅ h₆
      · subst h₁
        unfold parseObject at h
        split at h
        · cases h
        · rw [membersLoop_skipWs] at h
          rw [hsplit, hs]
          exact .object w t hw (raises_members ih' he h)
      · subst h₂
        unfold parseArray at h
        split at h
        · cases h
        · rw [itemsLoop_skipWs] at h
          rw [hsplit, hs]
          exact .array w t hw (raises_elements ih' he h)
      · exact raises_number hs h₆ h

end Sound

/-! ## What is in the grammar throws -/

section Complete

variable {c : UInt8} {s t w : Bytes} {fuel k : Nat}

/-- The first byte behind the white space of a text that throws. -/
theorem Raises.value_head (h : Raises .value s) : ∃ c u, skipWs s = c :: u ∧ c ≠ 93 := by
  cases h with
  | number w n rest hw hn =>
    obtain ⟨frac, exp, hnum, -, -⟩ := hn
    obtain ⟨c, t, rfl, hc⟩ := hnum.exists_cons
    have hwhite : isWhite c = false ∧ c ≠ 93 := by
      rcases hc with rfl | hc
      · decide
      · exact ⟨isDigit_not_white hc, isDigit_ne hc (by decide)⟩
    refine ⟨c, t ++ rest, ?_, hwhite.2⟩
    rw [List.append_assoc, hw.skip, List.cons_append, skipWs_cons hwhite.1]
  | object w s hw h => exact ⟨123, s, by rw [hw.skip, skipWs_cons (by decide)], by decide⟩
  | array w s hw h => exact ⟨91, s, by rw [hw.skip, skipWs_cons (by decide)], by decide⟩

theorem Raises.elements_head (h : Raises .elements s) : (skipWs s).head? ≠ some 93 := by
  cases h with
  | element s h =>
    obtain ⟨c, u, hs, hne⟩ := h.value_head
    rw [hs]
    simpa using hne
  | laterElement v s hv h =>
    rcases hv.slot_head with hw | hne
    · rw [hw.skip, skipWs_cons (by decide)]
      simp
    · exact hne _

theorem Raises.members_head (h : Raises .members s) : ∃ t, skipWs s = 34 :: t := by
  cases h with
  | member w₁ k w₂ s h₁ hk h₂ h =>
    obtain ⟨t, ht, -⟩ := hk.key (u := s) h₁ h₂ (show isWhite 58 = false by decide)
    exact ⟨t, ht⟩
  | laterMember w₁ k w₂ v s h₁ hk h₂ hv h =>
    obtain ⟨t, ht, -⟩ := hk.key (u := v ++ 44 :: s) h₁ h₂ (show isWhite 58 = false by decide)
    exact ⟨t, by simpa using ht⟩

theorem parseNumber_throws {n rest : Bytes} (h : BadNumber n rest) : ∃ e, parseNumber (n ++ rest) = .error e := by
  obtain ⟨frac, exp, hnum, hstop, hconv⟩ := h
  unfold parseNumber
  simp only [hnum.scan hstop]
  unfold Converts at hconv
  split at hconv
  next hd =>
    cases hs : stod n with
    | error e => exact ⟨e, by simp [hd]⟩
    | ok d => exact absurd ⟨d, hs⟩ hconv
  next hd =>
    cases hs : stoll n with
    | error e => exact ⟨e, by simp [hd]⟩
    | ok i => exact absurd ⟨i, hs⟩ hconv

/-- The parser throws on what the grammar derives. -/
def Throws : Rfc8259.Symbol → Bytes → Prop
  | .value, s => ∀ fuel, s.length < fuel → ∃ e, parseValue fuel s = .error e
  | .members, s => ∀ k fuel obj, s.length < k → s.length < fuel →
      ∃ e, membersLoop (parseValue k) fuel obj s = .error e
  | .elements, s => ∀ k fuel arr, s.length < k → s.length < fuel →
      ∃ e, itemsLoop (parseValue k) fuel arr s = .error e

theorem Raises.throws {symbol : Rfc8259.Symbol} (h : Raises symbol s) : Throws symbol s := by
  induction h with
  | number w n rest hw hn =>
    intro fuel hf
    obtain ⟨f, rfl⟩ : ∃ f, fuel = f + 1 := ⟨fuel - 1, by omega⟩
    obtain ⟨e, he⟩ := parseNumber_throws hn
    obtain ⟨frac, exp, hnum, -, -⟩ := hn
    obtain ⟨c, t, rfl, hc⟩ := hnum.exists_cons
    refine ⟨e, ?_⟩
    rw [List.append_assoc, parseValue_white (ws_iff.mp hw), List.cons_append, parseValue_number hc]
    exact he
  | object w s hw h ih =>
    intro fuel hf
    obtain ⟨f, rfl⟩ : ∃ f, fuel = f + 1 := ⟨fuel - 1, by omega⟩
    simp only [List.length_append, List.length_cons] at hf
    obtain ⟨u, hu⟩ := h.members_head
    rw [parseValue_white (ws_iff.mp hw), parseObject_eq (skipWs_cons (by decide)), parseObject, hu,
      accept_ne (by decide), ← hu]
    simp only [membersLoop_skipWs]
    exact ih f f [] (by omega) (by omega)
  | array w s hw h ih =>
    intro fuel hf
    obtain ⟨f, rfl⟩ : ∃ f, fuel = f + 1 := ⟨fuel - 1, by omega⟩
    simp only [List.length_append, List.length_cons] at hf
    rw [parseValue_white (ws_iff.mp hw), parseArray_eq (skipWs_cons (by decide)), parseArray,
      accept_eq_none.mpr h.elements_head]
    simp only [itemsLoop_skipWs]
    exact ih f f [] (by omega) (by omega)
  | member w₁ key w₂ s h₁ hk h₂ h ih =>
    intro k fuel obj hn hf
    obtain ⟨f, rfl⟩ : ∃ f, fuel = f + 1 := ⟨fuel - 1, by omega⟩
    simp only [List.length_append, List.length_cons] at hn
    obtain ⟨t, hs, hc⟩ := hk.key (u := s) h₁ h₂ (show isWhite 58 = false by decide)
    obtain ⟨e, he⟩ := ih k (by omega)
    refine ⟨e, ?_⟩
    rw [membersLoop, hs, accept_self]
    simp only [hc, accept_self, he, error_bind]
  | laterMember w₁ key w₂ v s h₁ hk h₂ hv h ih =>
    intro k fuel obj hn hf
    obtain ⟨f, obj', hn', hf', heq⟩ := Follows.comma obj h₁ hk h₂ hv.follows hn hf
    rw [heq]
    exact ih k f obj' hn' hf'
  | element s h ih =>
    intro k fuel arr hn hf
    obtain ⟨f, rfl⟩ : ∃ f, fuel = f + 1 := ⟨fuel - 1, by omega⟩
    obtain ⟨e, he⟩ := ih k hn
    exact ⟨e, by rw [itemsLoop, he, error_bind]⟩
  | laterElement v s hv h ih =>
    intro k fuel arr hn hf
    obtain ⟨f, rfl⟩ : ∃ f, fuel = f + 1 := ⟨fuel - 1, by omega⟩
    obtain ⟨val, r, hp, hr⟩ := hv.follows s k hn
    simp only [List.length_append, List.length_cons] at hn hf
    rw [itemsLoop, show v ++ 44 :: s = v ++ Delim.comma.byte :: s from rfl, hp, ok_bind]
    simp only [hr, Delim.byte, accept_self]
    exact ih k f _ (by omega) (by omega)

end Complete

/-- `parse` throws on the texts of `Raises` and on no other. -/
theorem parse_raises_iff (s : Bytes) : (∃ e, parse s = .error e) ↔ Raises .value s := by
  unfold parse
  constructor
  · rintro ⟨e, h⟩
    cases hp : parseValue (s.length + 1) s with
    | error e' =>
      refine raises_value (e := e') ?_ hp
      rintro rfl
      exact parseValue_ne_exhausted (Nat.lt_succ_self _) hp
    | ok p =>
      rw [hp, ok_bind] at h
      simp only at h
      split at h
      · cases h
      · cases h
  · intro h
    obtain ⟨e, he⟩ := h.throws (s.length + 1) (Nat.lt_succ_self _)
    exact ⟨e, by rw [he, error_bind]⟩

end Exasphere.Json

import Exasphere.Json.RoundTrip

/-!
# The fuel of the parser

No function of the parser gives back more input than it was given (`parseValue_length`), and every round of a loop and
every nested value starts behind at least one byte more. So the length of the input is enough fuel, and what `parse`
raises comes from the conversion of a number (`parse_ne_exhausted`).
-/

namespace Exasphere.Json

open Exasphere.Lib

theorem accept_eq_some {c : UInt8} {s t : Bytes} : accept c s = some t ↔ s = c :: t := by
  unfold accept
  cases s with
  | nil => simp
  | cons d s => by_cases hd : d = c <;> simp [hd]

theorem accept_eq_none {c : UInt8} {s : Bytes} : accept c s = none ↔ s.head? ≠ some c := by
  unfold accept
  split <;> simp_all

/-! ## Reading never goes back -/

section Lengths

variable {c : UInt8} {s t rest : Bytes} {v : Value} {fuel : Nat}

theorem length_skipWs_le (s : Bytes) : (skipWs s).length ≤ s.length := List.length_dropWhile_le _ _

theorem length_of_skipWs (h : skipWs s = c :: t) : t.length < s.length := by
  have := length_skipWs_le s
  rw [h, List.length_cons] at this
  omega

theorem length_parseString_le (s : Bytes) : (parseString s).2.length ≤ s.length := by
  fun_induction parseString s with
  | case1 => simp
  | case2 => simp
  | case3 c s _ _ ih => simp only [List.length_cons]; omega
  | case4 => simp
  | case5 c hc hq esc s he ih => simp only [List.length_cons]; omega
  | case6 => simp only [List.length_cons]; omega
  | case7 => simp

theorem splitSign_append (s : Bytes) : (if (splitSign s).1 then [45] else []) ++ (splitSign s).2 = s := by
  unfold splitSign
  split
  next h =>
    obtain ⟨t, rfl⟩ := List.head?_eq_some_iff.mp h
    rfl
  next => rfl

theorem scanFraction_append (s : Bytes) : (scanFraction s).1 ++ (scanFraction s).2 = s := by
  unfold scanFraction
  split
  next t ht => rw [accept_eq_some.mp ht, List.cons_append, List.takeWhile_append_dropWhile]
  next => rfl

theorem scanExponentSign_append (s : Bytes) : (scanExponentSign s).1 ++ (scanExponentSign s).2 = s := by
  unfold scanExponentSign
  split
  · split <;> rfl
  · rfl

theorem scanExponent_append (s : Bytes) : (scanExponent s).1 ++ (scanExponent s).2 = s := by
  unfold scanExponent
  split
  next c t =>
    split
    · simp only [List.cons_append, List.append_assoc, List.takeWhile_append_dropWhile, scanExponentSign_append]
    · rfl
  next => rfl

/-- The token of a number is cut off the input. -/
theorem scanNumber_append (s : Bytes) : (scanNumber s).text ++ (scanNumber s).rest = s := by
  simp only [scanNumber, List.append_assoc, scanExponent_append, scanFraction_append, List.takeWhile_append_dropWhile,
    splitSign_append]

theorem length_scanNumber_le (s : Bytes) : (scanNumber s).rest.length ≤ s.length := by
  have := congrArg List.length (scanNumber_append s)
  rw [List.length_append] at this
  omega

/-- What a number that was read says about its token. -/
theorem parseNumber_ok (h : parseNumber s = .ok (v, rest)) : rest = (scanNumber s).rest ∧ v.isNull = false ∧
    if (scanNumber s).isDouble then ∃ d, stod (scanNumber s).text = .ok d
    else ∃ i, stoll (scanNumber s).text = .ok i := by
  unfold parseNumber at h
  simp only at h
  split at h
  next hd =>
    simp only [bind_eq_ok, Except.ok.injEq, Prod.mk.injEq] at h
    obtain ⟨d, hd', rfl, rfl⟩ := h
    exact ⟨rfl, rfl, by rw [if_pos hd]; exact ⟨d, hd'⟩⟩
  next hd =>
    simp only [bind_eq_ok, Except.ok.injEq, Prod.mk.injEq] at h
    obtain ⟨i, hi, rfl, rfl⟩ := h
    exact ⟨rfl, rfl, by rw [if_neg hd]; exact ⟨i, hi⟩⟩

theorem length_parseBool_le (s : Bytes) : (parseBool s).2.length ≤ s.length := by
  unfold parseBool
  split_ifs <;> simp

theorem length_parseNull_le (s : Bytes) : (parseNull s).2.length ≤ s.length := by
  unfold parseNull
  split_ifs <;> simp

variable {pv : Bytes → Except Raise Parsed}

theorem membersLoop_length (hpv : ∀ s v rest, pv s = .ok (v, rest) → rest.length ≤ s.length)
    {obj : List (Bytes × Value)} (h : membersLoop pv fuel obj s = .ok (v, rest)) : rest.length ≤ s.length := by
  induction fuel generalizing obj s with
  | zero => simp [membersLoop] at h
  | succ fuel ih =>
    have hskip := length_skipWs_le s
    rw [membersLoop] at h
    split at h
    · obtain ⟨-, rfl⟩ := Prod.mk.inj (Except.ok.inj h)
      exact hskip
    next t ht =>
      have h₁ := length_of_skipWs (accept_eq_some.mp ht)
      have h₂ := length_parseString_le t
      simp only at h
      split at h
      · obtain ⟨-, rfl⟩ := Prod.mk.inj (Except.ok.inj h)
        have := length_skipWs_le (parseString t).2
        omega
      next u hu =>
        have h₃ := length_of_skipWs (accept_eq_some.mp hu)
        obtain ⟨⟨val, r⟩, hval, h⟩ := bind_eq_ok.mp h
        have h₄ := hpv u val r hval
        simp only at h
        split at h
        next ms hms =>
          have h₅ := length_of_skipWs (accept_eq_some.mp hms)
          have h₆ := ih h
          omega
        · split at h
          next r' hr' =>
            obtain ⟨-, rfl⟩ := Prod.mk.inj (Except.ok.inj h)
            have h₅ := length_of_skipWs (accept_eq_some.mp hr')
            omega
          · obtain ⟨-, rfl⟩ := Prod.mk.inj (Except.ok.inj h)
            have h₅ := length_skipWs_le r
            omega

theorem itemsLoop_length (hpv : ∀ s v rest, pv s = .ok (v, rest) → rest.length ≤ s.length) {arr : List Value}
    (h : itemsLoop pv fuel arr s = .ok (v, rest)) : rest.length ≤ s.length := by
  induction fuel generalizing arr s with
  | zero => simp [itemsLoop] at h
  | succ fuel ih =>
    rw [itemsLoop] at h
    obtain ⟨⟨val, r⟩, hval, h⟩ := bind_eq_ok.mp h
    have h₁ := hpv s val r hval
    simp only at h
    split at h
    next es hes =>
      have h₂ := length_of_skipWs (accept_eq_some.mp hes)
      have h₃ := ih h
      omega
    · split at h
      next r' hr' =>
        obtain ⟨-, rfl⟩ := Prod.mk.inj (Except.ok.inj h)
        have h₂ := length_of_skipWs (accept_eq_some.mp hr')
        omega
      · obtain ⟨-, rfl⟩ := Prod.mk.inj (Except.ok.inj h)
        have h₂ := length_skipWs_le r
        omega

theorem parseValue_length (h : parseValue fuel s = .ok (v, rest)) : rest.length ≤ s.length := by
  induction fuel generalizing s v rest with
  | zero => simp [parseValue] at h
  | succ fuel ih =>
    have ih' : ∀ s v rest, parseValue fuel s = .ok (v, rest) → rest.length ≤ s.length := fun _ _ _ => ih
    rw [parseValue] at h
    split at h
    · obtain ⟨-, rfl⟩ := Prod.mk.inj (Except.ok.inj h)
      simp
    next c t hs =>
      have hlt := length_of_skipWs hs
      have hle : (c :: t).length ≤ s.length := by rw [← hs]; exact length_skipWs_le s
      split_ifs at h with h₁ h₂ h₃ h₄ h₅ h₆
      · unfold parseObject at h
        split at h
        next r hr =>
          obtain ⟨-, rfl⟩ := Prod.mk.inj (Except.ok.inj h)
          have := length_of_skipWs (accept_eq_some.mp hr)
          omega
        · rw [membersLoop_skipWs] at h
          have := membersLoop_length ih' h
          omega
      · unfold parseArray at h
        split at h
        next r hr =>
          obtain ⟨-, rfl⟩ := Prod.mk.inj (Except.ok.inj h)
          have := length_of_skipWs (accept_eq_some.mp hr)
          omega
        · rw [itemsLoop_skipWs] at h
          have := itemsLoop_length ih' h
          omega
      · obtain ⟨-, rfl⟩ := Prod.mk.inj (Except.ok.inj h)
        have := length_parseString_le t
        omega
      · have := length_parseBool_le (c :: t)
        rw [Except.ok.inj h] at this
        exact this.trans hle
      · have := length_parseNull_le (c :: t)
        rw [Except.ok.inj h] at this
        exact this.trans hle
      · rw [(parseNumber_ok h).1]
        exact (length_scanNumber_le _).trans hle
      · obtain ⟨-, rfl⟩ := Prod.mk.inj (Except.ok.inj h)
        exact hle

end Lengths

/-! ## Enough fuel -/

section Fuel

variable {s : Bytes} {k fuel : Nat}

theorem stoll_ne_exhausted (s : Bytes) : stoll s ≠ .error .exhausted := by
  unfold stoll
  simp only
  split_ifs <;> nofun

theorem stod_ne_exhausted (s : Bytes) : stod s ≠ .error .exhausted := by
  have hround : ∀ negative num den, Double.ofRatio negative num den ≠ .error .exhausted := by
    intro negative num den
    unfold Double.ofRatio
    simp only
    split_ifs <;> nofun
  unfold stod
  simp only
  split
  · nofun
  · exact hround _ _ _

theorem parseNumber_ne_exhausted (s : Bytes) : parseNumber s ≠ .error .exhausted := by
  unfold parseNumber
  simp only
  split
  · exact bind_ne_error (stod_ne_exhausted _) (fun _ _ => ok_ne_error)
  · exact bind_ne_error (stoll_ne_exhausted _) (fun _ _ => ok_ne_error)

theorem membersLoop_ne_exhausted (hpv : ∀ s, s.length < k → parseValue k s ≠ .error .exhausted) (hk : s.length < k)
    (hf : s.length < fuel) (obj : List (Bytes × Value)) : membersLoop (parseValue k) fuel obj s ≠
    .error .exhausted := by
  induction fuel generalizing s obj with
  | zero => omega
  | succ fuel ih =>
    rw [membersLoop]
    split
    · exact ok_ne_error
    next t ht =>
      simp only
      split
      · exact ok_ne_error
      next u hu =>
        have h₁ := length_of_skipWs (accept_eq_some.mp ht)
        have h₂ := length_parseString_le t
        have h₃ := length_of_skipWs (accept_eq_some.mp hu)
        apply bind_ne_error (hpv u (by omega))
        intro p hp
        obtain ⟨v, r⟩ := p
        have h₄ := parseValue_length hp
        simp only
        split
        next ms hms =>
          have h₅ := length_of_skipWs (accept_eq_some.mp hms)
          exact ih (by omega) (by omega) _
        · split <;> exact ok_ne_error

theorem itemsLoop_ne_exhausted (hpv : ∀ s, s.length < k → parseValue k s ≠ .error .exhausted) (hk : s.length < k)
    (hf : s.length < fuel) (arr : List Value) : itemsLoop (parseValue k) fuel arr s ≠ .error .exhausted := by
  induction fuel generalizing s arr with
  | zero => omega
  | succ fuel ih =>
    rw [itemsLoop]
    apply bind_ne_error (hpv s hk)
    intro p hp
    obtain ⟨v, r⟩ := p
    have h₁ := parseValue_length hp
    simp only
    split
    next es hes =>
      have h₂ := length_of_skipWs (accept_eq_some.mp hes)
      exact ih (by omega) (by omega) _
    · split <;> exact ok_ne_error

theorem parseValue_ne_exhausted (h : s.length < fuel) : parseValue fuel s ≠ .error .exhausted := by
  induction fuel generalizing s with
  | zero => omega
  | succ fuel ih =>
    have ih' : ∀ s, s.length < fuel → parseValue fuel s ≠ .error .exhausted := fun _ => ih
    rw [parseValue]
    split
    · exact ok_ne_error
    next c t hs =>
      have hlt := length_of_skipWs hs
      split_ifs
      · unfold parseObject
        split
        · exact ok_ne_error
        · rw [membersLoop_skipWs]
          exact membersLoop_ne_exhausted ih' (by omega) (by omega) []
      · unfold parseArray
        split
        · exact ok_ne_error
        · rw [itemsLoop_skipWs]
          exact itemsLoop_ne_exhausted ih' (by omega) (by omega) []
      · exact ok_ne_error
      · exact ok_ne_error
      · exact ok_ne_error
      · exact parseNumber_ne_exhausted _
      · exact ok_ne_error

/-- The length of the input is fuel enough. -/
theorem parse_ne_exhausted (s : Bytes) : parse s ≠ .error .exhausted := by
  apply bind_ne_error (parseValue_ne_exhausted (Nat.lt_succ_self _))
  intro p _
  obtain ⟨v, rest⟩ := p
  simp only
  split <;> exact ok_ne_error

end Fuel

end Exasphere.Json

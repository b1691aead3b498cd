import Mathlib.Data.List.DropRight
import Exasphere.Json.Parser

/-!
# Parsing what `dump` wrote

`parse` reads back every value without a `double`, printed with or without indentation. The induction is over the
tree: at any depth, `parseValue` on the text of a value followed by a delimiter returns the value and stops at the
delimiter. Indentation is white space in front of a value or of a delimiter, which the parser skips.
-/

namespace Exasphere.Json

open Exasphere.Lib

/-! ## White space and delimiters -/

section Delimiters

variable {pretty : Bool} {indent fuel : Nat} {c d : UInt8} {s t : Bytes}

theorem skipWs_white (h : ∀ c ∈ s, isWhite c = true) : skipWs (s ++ t) = skipWs t :=
  List.dropWhile_append_of_pos h

theorem skipWs_cons (h : isWhite c = false) : skipWs (c :: t) = c :: t := by
  simp [skipWs, h]

@[simp] theorem skipWs_skipWs (s : Bytes) : skipWs (skipWs s) = skipWs s :=
  List.dropWhile_idempotent isWhite s

theorem lineBreak_white : ∀ c ∈ lineBreak pretty indent, isWhite c = true := by
  intro c hc
  unfold lineBreak at hc
  split at hc
  · simp only [List.mem_cons, List.mem_replicate] at hc
    rcases hc with rfl | ⟨-, rfl⟩ <;> rfl
  · simp at hc

@[simp] theorem skipWs_lineBreak : skipWs (lineBreak pretty indent ++ t) = skipWs t :=
  skipWs_white lineBreak_white

theorem accept_self : accept c (c :: t) = some t := by simp [accept]

theorem accept_ne (h : d ≠ c) : accept c (d :: t) = none := by simp [accept, h]

theorem isDigit_ne {c d : UInt8} (hc : isDigit c = true) (hd : isDigit d = false) : c ≠ d := by
  rintro rfl
  rw [hc] at hd
  cases hd

theorem isDigit_not_white {c : UInt8} (hc : isDigit c = true) : isWhite c = false := by
  by_contra hw
  simp only [Bool.not_eq_false, isWhite, decide_eq_true_eq] at hw
  rcases hw with rfl | rfl | rfl | rfl <;> simp [isDigit] at hc

/-- What follows a value: nothing, white space or a delimiter. -/
def Delimited (t : Bytes) : Prop := ∀ c ∈ t.head?, isWhite c = true ∨ c = 44 ∨ c = 93 ∨ c = 125

theorem delimited_cons (h : isWhite c = true ∨ c = 44 ∨ c = 93 ∨ c = 125) : Delimited (c :: t) := by
  simpa [Delimited] using h

/-- A closing bracket on a line of its own. -/
theorem delimited_lineBreak (h : c = 93 ∨ c = 125) : Delimited (lineBreak pretty indent ++ c :: t) := by
  unfold lineBreak
  split
  · exact delimited_cons (Or.inl rfl)
  · exact delimited_cons (Or.inr (Or.inr h))

/-- White space in front of a value. -/
theorem parseValue_white (h : ∀ c ∈ s, isWhite c = true) : parseValue fuel (s ++ t) = parseValue fuel t := by
  cases fuel with
  | zero => rfl
  | succ fuel => rw [parseValue, parseValue, skipWs_white h]

theorem parseValue_skipWs : parseValue fuel (skipWs s) = parseValue fuel s := by
  cases fuel with
  | zero => rfl
  | succ fuel => rw [parseValue, parseValue, skipWs_skipWs]

end Delimiters

/-! ## Strings -/

section Strings

variable {c : UInt8} {s t : Bytes}

theorem encode_unicodeEscape (h : c < 32) :
    encodeCodePoint (strtoul16 [48, 48, hexDigit (c.toNat / 16), hexDigit (c.toNat % 16)]) = [c] := by
  have hall : ∀ n < 32, encodeCodePoint (strtoul16 [48, 48, hexDigit (n / 16), hexDigit (n % 16)]) =
      [UInt8.ofNat n] := by decide
  simpa using hall c.toNat (UInt8.lt_iff_toNat_lt.mp h)

/-- The text of one byte is read as that byte. -/
theorem parseString_escapeByte (c : UInt8) (t : Bytes) :
    parseString (escapeByte c ++ t) = (c :: (parseString t).1, (parseString t).2) := by
  unfold escapeByte
  split_ifs with h₁ h₂ h₃ h₄ h₅ h₆ h₇ h₈
  · subst h₁; exact parseString_backslash (by decide)
  · subst h₂; exact parseString_backslash (by decide)
  · subst h₃; exact parseString_backslash (by decide)
  · subst h₄; exact parseString_backslash (by decide)
  · subst h₅; exact parseString_backslash (by decide)
  · subst h₆; exact parseString_backslash (by decide)
  · subst h₇; exact parseString_backslash (by decide)
  · rw [unicodeEscape, List.cons_append, List.cons_append, List.cons_append, List.cons_append, List.cons_append,
      List.cons_append, parseString_unicode, encode_unicodeEscape h₈]
    rfl
  · exact parseString_plain h₁ h₂

/-- A quoted string reads back, whatever its bytes are. -/
theorem parseString_escape (s t : Bytes) : parseString (escape s ++ 34 :: t) = (s, t) := by
  induction s with
  | nil => exact parseString_quote
  | cons c s ih =>
    have hcons : escape (c :: s) = escapeByte c ++ escape s := List.flatMap_cons
    rw [hcons, List.append_assoc, parseString_escapeByte, ih]

end Strings

/-! ## Integers -/

section Integers

variable {i : Int64} {t : Bytes}

theorem Delimited.ne (h : Delimited t) {c : UInt8} (hc : t.head? = some c) :
    isDigit c = false ∧ c ≠ 46 ∧ c ≠ 101 ∧ c ≠ 69 ∧ c ≠ 43 ∧ c ≠ 45 := by
  have hd := h c hc
  simp only [isWhite, decide_eq_true_eq] at hd
  rcases hd with (rfl | rfl | rfl | rfl) | rfl | rfl | rfl <;> decide

theorem Delimited.halts (h : Delimited t) : Halts isDigit t := fun _ hc => (h.ne hc).1

/-- No fraction and no exponent. -/
theorem Delimited.scan (h : Delimited t) : scanFraction t = ([], t) ∧ scanExponent t = ([], t) := by
  cases t with
  | nil => exact ⟨rfl, rfl⟩
  | cons c t =>
    obtain ⟨-, hdot, he, hE, -⟩ := h.ne (c := c) rfl
    exact ⟨by simp [scanFraction, accept_ne hdot], by simp [scanExponent, he, hE]⟩

/-- The digits of a number behind its sign. -/
theorem splitSign_toText (i : Int64) (t : Bytes) :
    splitSign (toText i ++ t) = (decide (i.toInt < 0), decimal i.toInt.natAbs ++ t) := by
  unfold toText
  split
  next h => simp [splitSign, h]
  next h =>
    obtain ⟨c, u, hu⟩ := List.exists_cons_of_ne_nil (decimal_ne_nil i.toInt.natAbs)
    have hc : isDigit c = true := isDigit_decimal (by rw [hu]; simp)
    have hne : c ≠ 45 := by rintro rfl; simp [isDigit] at hc
    simp [splitSign, hu, hne, h]

theorem scanNumber_toText (h : Delimited t) : scanNumber (toText i ++ t) = ⟨toText i, false, t⟩ := by
  have hrun : ∀ c ∈ decimal i.toInt.natAbs, isDigit c = true := fun c hc => isDigit_decimal hc
  obtain ⟨hf, he⟩ := h.scan
  unfold scanNumber
  simp only [splitSign_toText, takeWhile_run hrun h.halts, dropWhile_run hrun h.halts, hf, he]
  unfold toText
  by_cases hneg : i.toInt < 0 <;> simp [hneg]

theorem stoll_toText (i : Int64) : stoll (toText i) = .ok i := by
  have hrun : ∀ c ∈ decimal i.toInt.natAbs, isDigit c = true := fun c hc => isDigit_decimal hc
  have hsplit := splitSign_toText i []
  rw [List.append_nil, List.append_nil] at hsplit
  have htake := takeWhile_run (t := []) hrun (by simp [Halts])
  rw [List.append_nil] at htake
  have hle := i.le_toInt
  have hlt := i.toInt_lt
  have hval : (if decide (i.toInt < 0) = true then -((i.toInt.natAbs : Nat) : Int) else i.toInt.natAbs) = i.toInt := by
    split
    next h => simp only [decide_eq_true_eq] at h; omega
    next h => simp only [decide_eq_true_eq] at h; omega
  unfold stoll
  simp only [hsplit, htake, decimal_ne_nil, if_false, readDecimal_decimal]
  rw [hval, if_pos ⟨hle, hlt⟩, Int64.ofInt_toInt]

theorem parseNumber_toText (h : Delimited t) : parseNumber (toText i ++ t) = .ok (.int i, t) := by
  unfold parseNumber
  simp only [scanNumber_toText h, stoll_toText]
  rfl

/-- A number starts with its sign or a digit. -/
theorem toText_head (i : Int64) : ∃ c t, toText i = c :: t ∧ (c = 45 ∨ isDigit c = true) := by
  unfold toText
  split
  · exact ⟨45, _, rfl, Or.inl rfl⟩
  · obtain ⟨c, u, hu⟩ := List.exists_cons_of_ne_nil (decimal_ne_nil i.toInt.natAbs)
    exact ⟨c, u, hu, Or.inr (isDigit_decimal (by rw [hu]; simp))⟩

end Integers

/-! ## Trees -/

section Trees

variable {pretty : Bool} {indent fuel k : Nat} {rest : Bytes}

/-- A node that `parse` reads back. -/
def plain (v : Value) : Bool := v.increasing && !v.isDouble

/-- The text of a value starts with a byte that is neither white space nor a closing bracket. -/
theorem dumpTo_head (pretty : Bool) (indent : Nat) {v : Value} (h : v.isDouble = false) :
    ∃ c t, v.dumpTo pretty indent = c :: t ∧ isWhite c = false ∧ c ≠ 93 ∧ c ≠ 125 := by
  cases v with
  | null => exact ⟨_, _, rfl, by decide⟩
  | bool b => cases b <;> exact ⟨_, _, rfl, by decide⟩
  | int i =>
    obtain ⟨c, t, ht, hc⟩ := toText_head i
    refine ⟨c, t, by rw [Value.dumpTo, ht], ?_⟩
    rcases hc with rfl | hc
    · decide
    · exact ⟨isDigit_not_white hc, isDigit_ne hc rfl, isDigit_ne hc rfl⟩
  | double d => simp [Value.isDouble] at h
  | string s => exact ⟨34, escape s ++ [34], by simp [Value.dumpTo, quoted], by decide⟩
  | array items => exact ⟨_, _, by rw [Value.dumpTo, List.cons_append, List.cons_append], by decide⟩
  | object members => exact ⟨_, _, by rw [Value.dumpTo, List.cons_append, List.cons_append], by decide⟩

/-- A comma before every item but the first. -/
theorem dumpItems_false (v : Value) (vs : List Value) :
    dumpItems pretty indent false (v :: vs) = 44 :: dumpItems pretty indent true (v :: vs) := by
  simp [dumpItems]

theorem dumpMembers_false (m : Bytes × Value) (ms : List (Bytes × Value)) :
    dumpMembers pretty indent false (m :: ms) = 44 :: dumpMembers pretty indent true (m :: ms) := by
  simp [dumpMembers]

/-- The text behind the items `vs`. -/
def itemsTail (pretty : Bool) (indent : Nat) (vs : List Value) (rest : Bytes) : Bytes :=
  dumpItems pretty indent false vs ++ (lineBreak pretty indent ++ 93 :: rest)

def membersTail (pretty : Bool) (indent : Nat) (ms : List (Bytes × Value)) (rest : Bytes) : Bytes :=
  dumpMembers pretty indent false ms ++ (lineBreak pretty indent ++ 125 :: rest)

theorem itemsTail_delimited (vs : List Value) : Delimited (itemsTail pretty indent vs rest) := by
  cases vs with
  | nil => exact delimited_lineBreak (Or.inl rfl)
  | cons v vs =>
    rw [itemsTail, dumpItems_false]
    exact delimited_cons (by simp)

theorem membersTail_delimited (ms : List (Bytes × Value)) : Delimited (membersTail pretty indent ms rest) := by
  cases ms with
  | nil => exact delimited_lineBreak (Or.inr rfl)
  | cons m ms =>
    rw [membersTail, dumpMembers_false]
    exact delimited_cons (by simp)

/-- The text of `v`, followed by a delimiter, is read as `v`. -/
def Reads (v : Value) : Prop :=
  ∀ (pretty : Bool) (indent fuel : Nat) (rest : Bytes), Delimited rest →
    (v.dumpTo pretty indent ++ rest).length < fuel → parseValue fuel (v.dumpTo pretty indent ++ rest) = .ok (v, rest)

theorem itemsLoop_skipWs {arr : List Value} {s : Bytes} :
    itemsLoop (parseValue k) fuel arr (skipWs s) = itemsLoop (parseValue k) fuel arr s := by
  cases fuel with
  | zero => rfl
  | succ fuel => rw [itemsLoop, itemsLoop, parseValue_skipWs]

theorem membersLoop_skipWs {obj : List (Bytes × Value)} {s : Bytes} :
    membersLoop (parseValue k) fuel obj (skipWs s) = membersLoop (parseValue k) fuel obj s := by
  cases fuel with
  | zero => rfl
  | succ fuel => rw [membersLoop, membersLoop, skipWs_skipWs]

/-- The text of the items, cut behind the first one. -/
theorem dumpItems_text (v : Value) (vs : List Value) :
    dumpItems pretty indent true (v :: vs) ++ (lineBreak pretty indent ++ 93 :: rest) =
      lineBreak pretty (indent + 1) ++ (v.dumpTo pretty (indent + 1) ++ itemsTail pretty indent vs rest) := by
  simp [dumpItems, itemsTail]

theorem dumpMembers_text (key : Bytes) (v : Value) (ms : List (Bytes × Value)) :
    dumpMembers pretty indent true ((key, v) :: ms) ++ (lineBreak pretty indent ++ 125 :: rest) =
      lineBreak pretty (indent + 1) ++ 34 :: (escape key ++ 34 :: 58 :: ((if pretty then [32] else []) ++
        (v.dumpTo pretty (indent + 1) ++ membersTail pretty indent ms rest))) := by
  simp [dumpMembers, membersTail, quoted]

theorem itemsTail_cons (v : Value) (vs : List Value) : itemsTail pretty indent (v :: vs) rest =
    44 :: (dumpItems pretty indent true (v :: vs) ++ (lineBreak pretty indent ++ 93 :: rest)) := by
  rw [itemsTail, dumpItems_false, List.cons_append]

theorem membersTail_cons (m : Bytes × Value) (ms : List (Bytes × Value)) : membersTail pretty indent (m :: ms) rest =
    44 :: (dumpMembers pretty indent true (m :: ms) ++ (lineBreak pretty indent ++ 125 :: rest)) := by
  rw [membersTail, dumpMembers_false, List.cons_append]

/-- The loop over the items of an array. -/
theorem itemsLoop_dump {v : Value} {vs : List Value} (h : ∀ u ∈ v :: vs, Reads u) (arr : List Value)
    (hk : (dumpItems pretty indent true (v :: vs) ++ (lineBreak pretty indent ++ 93 :: rest)).length < k)
    (hf : (dumpItems pretty indent true (v :: vs) ++ (lineBreak pretty indent ++ 93 :: rest)).length < fuel) :
    itemsLoop (parseValue k) fuel arr
      (dumpItems pretty indent true (v :: vs) ++ (lineBreak pretty indent ++ 93 :: rest)) =
      .ok (.array (arr ++ v :: vs), rest) := by
  induction vs generalizing v arr fuel with
  | nil =>
    obtain ⟨f, rfl⟩ : ∃ f, fuel = f + 1 := ⟨fuel - 1, by omega⟩
    rw [dumpItems_text] at hk ⊢
    simp only [List.length_append] at hk
    rw [itemsLoop, parseValue_white lineBreak_white,
      h v (by simp) _ _ _ _ (itemsTail_delimited []) (by rw [List.length_append]; omega), ok_bind]
    have htail : skipWs (itemsTail pretty indent [] rest) = 93 :: rest := by
      rw [itemsTail, dumpItems, List.nil_append, skipWs_lineBreak, skipWs_cons (by decide)]
    simp only [htail]
    rw [accept_ne (by decide), accept_self]
  | cons u vs ih =>
    obtain ⟨f, rfl⟩ : ∃ f, fuel = f + 1 := ⟨fuel - 1, by omega⟩
    rw [dumpItems_text, itemsTail_cons] at hk hf ⊢
    simp only [List.length_append, List.length_cons] at hk hf ih
    rw [itemsLoop, parseValue_white lineBreak_white,
      h v (by simp) _ _ _ _ (delimited_cons (by simp)) (by simp only [List.length_append, List.length_cons]; omega),
      ok_bind]
    simp only [skipWs_cons (show isWhite 44 = false by decide), accept_self]
    rw [ih (fun w hw => h w (List.mem_cons_of_mem v hw)) (arr ++ [v]) (by omega) (by omega), List.append_assoc]
    rfl

/-- The loop over the members of an object; the keys come in increasing order. -/
theorem membersLoop_dump {m : Bytes × Value} {ms : List (Bytes × Value)} (h : ∀ e ∈ m :: ms, Reads e.2)
    (obj : List (Bytes × Value)) (hinc : Increasing (obj ++ m :: ms))
    (hk : (dumpMembers pretty indent true (m :: ms) ++ (lineBreak pretty indent ++ 125 :: rest)).length < k)
    (hf : (dumpMembers pretty indent true (m :: ms) ++ (lineBreak pretty indent ++ 125 :: rest)).length < fuel) :
    membersLoop (parseValue k) fuel obj
        (dumpMembers pretty indent true (m :: ms) ++ (lineBreak pretty indent ++ 125 :: rest)) =
      .ok (.object (obj ++ m :: ms), rest) := by
  have hspace : ∀ c ∈ (if pretty then [32] else [] : Bytes), isWhite c = true := by
    intro c hc
    cases pretty <;> simp_all [isWhite]
  induction ms generalizing m obj fuel with
  | nil =>
    obtain ⟨f, rfl⟩ : ∃ f, fuel = f + 1 := ⟨fuel - 1, by omega⟩
    obtain ⟨key, v⟩ := m
    have hv : Reads v := h (key, v) (by simp)
    have hlast : insertKey key v obj = obj ++ [(key, v)] := insertKey_append hinc.lt_of_append
    rw [dumpMembers_text] at hk ⊢
    simp only [List.length_append, List.length_cons] at hk
    rw [membersLoop, skipWs_lineBreak, skipWs_cons (by decide), accept_self]
    simp only [parseString_escape, skipWs_cons (show isWhite 58 = false by decide), accept_self]
    rw [parseValue_white hspace, hv _ _ _ _ (membersTail_delimited []) (by rw [List.length_append]; omega), ok_bind]
    have htail : skipWs (membersTail pretty indent [] rest) = 125 :: rest := by
      rw [membersTail, dumpMembers, List.nil_append, skipWs_lineBreak, skipWs_cons (by decide)]
    simp only [htail, hlast]
    rw [accept_ne (by decide), accept_self]
  | cons u ms ih =>
    obtain ⟨f, rfl⟩ : ∃ f, fuel = f + 1 := ⟨fuel - 1, by omega⟩
    obtain ⟨key, v⟩ := m
    have hv : Reads v := h (key, v) (by simp)
    have hlast : insertKey key v obj = obj ++ [(key, v)] := insertKey_append hinc.lt_of_append
    rw [dumpMembers_text, membersTail_cons] at hk hf ⊢
    simp only [List.length_append, List.length_cons] at hk hf ih
    rw [membersLoop, skipWs_lineBreak, skipWs_cons (by decide), accept_self]
    simp only [parseString_escape, skipWs_cons (show isWhite 58 = false by decide), accept_self]
    rw [parseValue_white hspace,
      hv _ _ _ _ (delimited_cons (by simp)) (by simp only [List.length_append, List.length_cons]; omega), ok_bind]
    simp only [skipWs_cons (show isWhite 44 = false by decide), accept_self, hlast]
    rw [ih (fun w hw => h w (List.mem_cons_of_mem _ hw)) (obj ++ [(key, v)]) (by simpa using hinc)
      (by omega) (by omega),
      List.append_assoc]
    rfl

/-! ### One value -/

/-- A number goes to `parseNumber`. -/
theorem parseValue_number {c : UInt8} {t : Bytes} (hc : c = 45 ∨ isDigit c = true) :
    parseValue (fuel + 1) (c :: t) = parseNumber (c :: t) := by
  rcases hc with rfl | hc
  · rfl
  · have hw := isDigit_not_white hc
    have h₁ : c ≠ 123 := isDigit_ne hc rfl
    have h₂ : c ≠ 91 := isDigit_ne hc rfl
    have h₃ : c ≠ 34 := isDigit_ne hc rfl
    have h₄ : ¬(c = 116 ∨ c = 102) := not_or.mpr ⟨isDigit_ne hc rfl, isDigit_ne hc rfl⟩
    have h₅ : c ≠ 110 := isDigit_ne hc rfl
    rw [parseValue, skipWs_cons hw]
    simp only [h₁, h₂, h₃, h₄, h₅, if_false, hc, or_true, if_true]

theorem reads_null : Reads .null := by
  intro pretty indent fuel rest _ hf
  obtain ⟨f, rfl⟩ : ∃ f, fuel = f + 1 := ⟨fuel - 1, by omega⟩
  rfl

theorem reads_bool (b : Bool) : Reads (.bool b) := by
  intro pretty indent fuel rest _ hf
  obtain ⟨f, rfl⟩ : ∃ f, fuel = f + 1 := ⟨fuel - 1, by omega⟩
  cases b <;> rfl

theorem reads_int (i : Int64) : Reads (.int i) := by
  intro pretty indent fuel rest hd hf
  obtain ⟨f, rfl⟩ : ∃ f, fuel = f + 1 := ⟨fuel - 1, by omega⟩
  obtain ⟨c, t, ht, hc⟩ := toText_head i
  have hnum : parseNumber (toText i ++ rest) = .ok (.int i, rest) := parseNumber_toText hd
  rw [Value.dumpTo]
  rw [ht, List.cons_append] at hnum ⊢
  rw [parseValue_number hc, hnum]

theorem reads_string (s : Bytes) : Reads (.string s) := by
  intro pretty indent fuel rest _ hf
  obtain ⟨f, rfl⟩ : ∃ f, fuel = f + 1 := ⟨fuel - 1, by omega⟩
  have htext : (Value.string s).dumpTo pretty indent ++ rest = 34 :: (escape s ++ 34 :: rest) := by
    simp [Value.dumpTo, quoted]
  rw [htext, parseValue, skipWs_cons (by decide)]
  simp [parseString_escape]

theorem reads_array {items : List Value} (h : ∀ v ∈ items, Reads v ∧ v.isDouble = false) : Reads (.array items) := by
  intro pretty indent fuel rest hd hf
  obtain ⟨f, rfl⟩ : ∃ f, fuel = f + 1 := ⟨fuel - 1, by omega⟩
  cases items with
  | nil =>
    have htext : (Value.array []).dumpTo pretty indent ++ rest = 91 :: 93 :: rest := by simp [Value.dumpTo, dumpItems]
    rw [htext, parseValue, skipWs_cons (by decide)]
    simp [parseArray, skipWs_cons (show isWhite 93 = false by decide), accept_self]
  | cons v vs =>
    have htext : (Value.array (v :: vs)).dumpTo pretty indent ++ rest =
        91 :: (dumpItems pretty indent true (v :: vs) ++ (lineBreak pretty indent ++ 93 :: rest)) := by
      simp [Value.dumpTo]
    rw [htext] at hf ⊢
    rw [List.length_cons] at hf
    obtain ⟨c, t, ht, hw, hc, -⟩ := dumpTo_head pretty (indent + 1) (h v (by simp)).2
    have hskip : accept 93
      (skipWs (dumpItems pretty indent true (v :: vs) ++ (lineBreak pretty indent ++ 93 :: rest))) =
        none := by
      rw [dumpItems_text, skipWs_lineBreak, ht, List.cons_append, skipWs_cons hw, accept_ne hc]
    rw [parseValue, skipWs_cons (by decide)]
    simp only [parseArray, hskip, itemsLoop_skipWs]
    rw [itemsLoop_dump (fun u hu => (h u hu).1) [] (by omega) (by omega)]
    rfl

theorem reads_object {members : List (Bytes × Value)} (h : ∀ m ∈ members, Reads m.2) (hinc : Increasing members) :
    Reads (.object members) := by
  intro pretty indent fuel rest hd hf
  obtain ⟨f, rfl⟩ : ∃ f, fuel = f + 1 := ⟨fuel - 1, by omega⟩
  cases members with
  | nil =>
    have htext : (Value.object []).dumpTo pretty indent ++ rest = 123 :: 125 :: rest := by
      simp [Value.dumpTo, dumpMembers]
    rw [htext, parseValue, skipWs_cons (by decide)]
    simp [parseObject, skipWs_cons (show isWhite 125 = false by decide), accept_self]
  | cons m ms =>
    have htext : (Value.object (m :: ms)).dumpTo pretty indent ++ rest =
        123 :: (dumpMembers pretty indent true (m :: ms) ++ (lineBreak pretty indent ++ 125 :: rest)) := by
      simp [Value.dumpTo]
    rw [htext] at hf ⊢
    rw [List.length_cons] at hf
    have hskip : accept 125
      (skipWs (dumpMembers pretty indent true (m :: ms) ++ (lineBreak pretty indent ++ 125 :: rest))) =
        none := by
      obtain ⟨key, v⟩ := m
      rw [dumpMembers_text, skipWs_lineBreak, skipWs_cons (by decide), accept_ne (by decide)]
    rw [parseValue, skipWs_cons (by decide)]
    simp only [parseObject, hskip, membersLoop_skipWs]
    rw [membersLoop_dump h [] hinc (by omega) (by omega)]
    rfl

/-! ### Every tree -/

mutual

theorem reads_value : (v : Value) → v.all plain = true → Reads v
  | .null, _ => reads_null
  | .bool b, _ => reads_bool b
  | .int i, _ => reads_int i
  | .double d, h => by simp [Value.all, plain, Value.isDouble] at h
  | .string s, _ => reads_string s
  | .array items, h => by
    have hitems := reads_items items (by simp only [Value.all, Bool.and_eq_true] at h; exact h.2)
    exact reads_array hitems
  | .object members, h => by
    simp only [Value.all, Bool.and_eq_true, plain] at h
    exact reads_object (reads_members members h.2) (by simpa [Value.increasing] using h.1.1)

theorem reads_items : (items : List Value) → allItems plain items = true → ∀ v ∈ items, Reads v ∧ v.isDouble = false
  | [], _ => by simp
  | v :: vs, h => by
    simp only [allItems, Bool.and_eq_true] at h
    have hv := reads_value v h.1
    have hvs := reads_items vs h.2
    have hd : v.isDouble = false := by
      have := Value.all_self h.1
      simp only [plain, Bool.and_eq_true, Bool.not_eq_true'] at this
      exact this.2
    simpa using ⟨⟨hv, hd⟩, hvs⟩

theorem reads_members : (members : List (Bytes × Value)) → allMembers plain members = true → ∀ m ∈ members, Reads m.2
  | [], _ => by simp
  | (k, v) :: ms, h => by
    simp only [allMembers, Bool.and_eq_true] at h
    have hv := reads_value v h.1
    have hms := reads_members ms h.2
    simpa using ⟨hv, fun a b hab => hms (a, b) hab⟩

end

end Trees

/-! ## Documents -/

theorem parse_dump_plain {v : Value} (h : v.all plain = true) (pretty : Bool) : parse (v.dump pretty) = .ok v := by
  have hreads := reads_value v h pretty 0 ((v.dump pretty).length + 1) [] (by simp [Delimited])
  rw [List.append_nil] at hreads
  have hparse : parseValue ((v.dump pretty).length + 1) (v.dump pretty) = .ok (v, []) :=
    hreads (Nat.lt_succ_self _)
  unfold parse
  rw [hparse, ok_bind]
  simp [skipWs]

/-- **Round trip.** `parse` reads back the text of every value without a `double`. -/
theorem parse_dump (v : Canonical) (hd : v.1.NoDouble) (pretty : Bool) : parse (v.1.dump pretty) = .ok v.1 :=
  parse_dump_plain (v.1.all_and v.2 hd) pretty

/-- A quote, a NUL byte and a backslash in a key, a control character and a byte that is not ASCII in a string. -/
def awkward : Canonical :=
  ⟨.object [([0, 34, 92], .array [.int (-9223372036854775808), .null, .array []]), ([97], .string [31, 10, 255])],
    by decide⟩

theorem parse_dump_awkward : awkward.1.NoDouble ∧ parse (awkward.1.dump true) = .ok awkward.1 :=
  have h : awkward.1.NoDouble := by decide
  ⟨h, parse_dump awkward h true⟩

end Exasphere.Json

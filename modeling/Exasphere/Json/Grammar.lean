import Exasphere.Json.Fuel

/-!
# What the parser accepts

`Rfc8259.Text` is the grammar of RFC 8259 over bytes. `Lenient.Text` is the grammar of the texts from which `parse`
reads a value other than `null` (`parse_found_iff`). It is looser in four places:

* a string holds any byte and any escape, and a string that is the whole document may end with the input;
* the digits of a number may be missing or start with zeros, as long as the standard library converts it;
* the value of a member or an element may be missing before the delimiter;
* a container nested in another one may break off, when the byte that it cannot read is the delimiter that the
  container around it waits for.

So `parse` meets the contract of `json.hpp` on the texts of RFC 8259 and on the texts that are not lenient.
-/

namespace Exasphere.Json

open Exasphere.Lib

/-! ## RFC 8259 -/

namespace Rfc8259

def Ws (w : Bytes) : Prop := ∀ c ∈ w, c = 0x20 ∨ c = 0x09 ∨ c = 0x0A ∨ c = 0x0D

def Digit (c : UInt8) : Prop := 0x30 ≤ c ∧ c ≤ 0x39

/-- `1*DIGIT` -/
def Digits (ds : Bytes) : Prop := ds ≠ [] ∧ ∀ c ∈ ds, Digit c

/-- `int = zero / ( digit1-9 *DIGIT )` -/
inductive IntPart : Bytes → Prop
  | zero : IntPart [0x30]
  | nonzero (c : UInt8) (ds : Bytes) (hc : 0x31 ≤ c ∧ c ≤ 0x39) (hd : ∀ d ∈ ds, Digit d) : IntPart (c :: ds)

/-- `[ frac ]` with `frac = decimal-point 1*DIGIT` -/
inductive Frac : Bytes → Prop
  | none : Frac []
  | some (ds : Bytes) (hd : Digits ds) : Frac (0x2E :: ds)

/-- `[ exp ]` with `exp = e [ minus / plus ] 1*DIGIT` -/
inductive Exp : Bytes → Prop
  | none : Exp []
  | some (e : UInt8) (sign ds : Bytes) (he : e = 0x65 ∨ e = 0x45) (hs : sign = [] ∨ sign = [0x2D] ∨ sign = [0x2B])
      (hd : Digits ds) : Exp (e :: sign ++ ds)

/-- `number = [ minus ] int [ frac ] [ exp ]` -/
inductive Number : Bytes → Prop
  | intro (minus int frac exp : Bytes) (hm : minus = [] ∨ minus = [0x2D]) (hi : IntPart int) (hf : Frac frac)
      (he : Exp exp) : Number (minus ++ int ++ frac ++ exp)

def HexDigit (c : UInt8) : Prop := Digit c ∨ (0x41 ≤ c ∧ c ≤ 0x46) ∨ (0x61 ≤ c ∧ c ≤ 0x66)

/-- A continuation byte of UTF-8. -/
def Tail (c : UInt8) : Prop := 0x80 ≤ c ∧ c ≤ 0xBF

/-- `char`: an unescaped code point in UTF-8, or an escape. -/
inductive Char : Bytes → Prop
  | ascii (c : UInt8) (h : 0x20 ≤ c ∧ c ≤ 0x7F) (hq : c ≠ 0x22) (hb : c ≠ 0x5C) : Char [c]
  | two (a b : UInt8) (ha : 0xC2 ≤ a ∧ a ≤ 0xDF) (hb : Tail b) : Char [a, b]
  | three (a b c : UInt8) (ha : 0xE0 ≤ a ∧ a ≤ 0xEF) (hb : Tail b) (hc : Tail c) (hlong : a = 0xE0 → 0xA0 ≤ b)
      (hsurrogate : a = 0xED → b ≤ 0x9F) : Char [a, b, c]
  | four (a b c d : UInt8) (ha : 0xF0 ≤ a ∧ a ≤ 0xF4) (hb : Tail b) (hc : Tail c) (hd : Tail d)
      (hlong : a = 0xF0 → 0x90 ≤ b) (hmax : a = 0xF4 → b ≤ 0x8F) : Char [a, b, c, d]
  | escape (c : UInt8) (h : c ∈ ([0x22, 0x5C, 0x2F, 0x62, 0x66, 0x6E, 0x72, 0x74] : Bytes)) : Char [0x5C, c]
  | unicode (a b c d : UInt8) (ha : HexDigit a) (hb : HexDigit b) (hc : HexDigit c) (hd : HexDigit d) :
      Char [0x5C, 0x75, a, b, c, d]

/-- `char` of a text in some encoding that extends ASCII: a byte from 0x80 on stands for itself. -/
inductive ByteChar : Bytes → Prop
  | byte (c : UInt8) (h : 0x20 ≤ c) (hq : c ≠ 0x22) (hb : c ≠ 0x5C) : ByteChar [c]
  | escape (c : UInt8) (h : c ∈ ([0x22, 0x5C, 0x2F, 0x62, 0x66, 0x6E, 0x72, 0x74] : Bytes)) : ByteChar [0x5C, c]
  | unicode (a b c d : UInt8) (ha : HexDigit a) (hb : HexDigit b) (hc : HexDigit c) (hd : HexDigit d) :
      ByteChar [0x5C, 0x75, a, b, c, d]

section Derivations

variable (char : Bytes → Prop)

/-- `string = quotation-mark *char quotation-mark` -/
inductive Str : Bytes → Prop
  | intro (chars : List Bytes) (h : ∀ c ∈ chars, char c) : Str (0x22 :: chars.flatten ++ [0x22])

inductive Symbol
  | value
  | members
  | elements

/-- The values, and the lists between the brackets of a container that is not empty. -/
inductive Derives : Symbol → Bytes → Prop
  | litNull : Derives .value [0x6E, 0x75, 0x6C, 0x6C]
  | litTrue : Derives .value [0x74, 0x72, 0x75, 0x65]
  | litFalse : Derives .value [0x66, 0x61, 0x6C, 0x73, 0x65]
  | number (n : Bytes) (h : Number n) : Derives .value n
  | string (s : Bytes) (h : Str char s) : Derives .value s
  | emptyObject (w : Bytes) (hw : Ws w) : Derives .value (0x7B :: w ++ [0x7D])
  | object (ms : Bytes) (h : Derives .members ms) : Derives .value (0x7B :: ms ++ [0x7D])
  | emptyArray (w : Bytes) (hw : Ws w) : Derives .value (0x5B :: w ++ [0x5D])
  | array (es : Bytes) (h : Derives .elements es) : Derives .value (0x5B :: es ++ [0x5D])
  | member (w₁ k w₂ w₃ v w₄ : Bytes) (h₁ : Ws w₁) (hk : Str char k) (h₂ : Ws w₂) (h₃ : Ws w₃)
      (hv : Derives .value v) (h₄ : Ws w₄) : Derives .members (w₁ ++ k ++ w₂ ++ [0x3A] ++ w₃ ++ v ++ w₄)
  | moreMembers (w₁ k w₂ w₃ v w₄ ms : Bytes) (h₁ : Ws w₁) (hk : Str char k) (h₂ : Ws w₂) (h₃ : Ws w₃)
      (hv : Derives .value v) (h₄ : Ws w₄) (hm : Derives .members ms) :
      Derives .members (w₁ ++ k ++ w₂ ++ [0x3A] ++ w₃ ++ v ++ w₄ ++ 0x2C :: ms)
  | element (w₁ v w₂ : Bytes) (h₁ : Ws w₁) (hv : Derives .value v) (h₂ : Ws w₂) : Derives .elements (w₁ ++ v ++ w₂)
  | moreElements (w₁ v w₂ es : Bytes) (h₁ : Ws w₁) (hv : Derives .value v) (h₂ : Ws w₂) (he : Derives .elements es) :
      Derives .elements (w₁ ++ v ++ w₂ ++ 0x2C :: es)

/-- `JSON-text = ws value ws` -/
def TextOver (s : Bytes) : Prop := ∃ w₁ v w₂, Ws w₁ ∧ Derives char .value v ∧ Ws w₂ ∧ s = w₁ ++ v ++ w₂

end Derivations

/-- A text of RFC 8259, in UTF-8. -/
def Text (s : Bytes) : Prop := TextOver Char s

end Rfc8259

/-! ## The lenient grammar -/

namespace Lenient

open Rfc8259 (Ws)

/-- A piece of a string: any byte but the quote and the backslash, or an escape. -/
inductive Piece : Bytes → Prop
  | plain (c : UInt8) (hq : c ≠ 0x22) (hb : c ≠ 0x5C) : Piece [c]
  | escape (c : UInt8) (hu : c ≠ 0x75) : Piece [0x5C, c]
  | unicode (a b c d : UInt8) : Piece [0x5C, 0x75, a, b, c, d]

/-- What a string that ends with the input may end in: an escape that is cut off. -/
inductive CutOff : Bytes → Prop
  | none : CutOff []
  | escape : CutOff [0x5C]
  | unicode (hex : Bytes) (h : hex.length < 4) : CutOff (0x5C :: 0x75 :: hex)

inductive Str : Bytes → Prop
  | intro (pieces : List Bytes) (h : ∀ p ∈ pieces, Piece p) : Str (0x22 :: pieces.flatten ++ [0x22])

/-- A string without its closing quote. -/
inductive OpenStr : Bytes → Prop
  | intro (pieces : List Bytes) (tail : Bytes) (h : ∀ p ∈ pieces, Piece p) (ht : CutOff tail) :
      OpenStr (0x22 :: pieces.flatten ++ tail)

def Digits (ds : Bytes) : Prop := ∀ c ∈ ds, isDigit c = true

inductive Frac : Bytes → Prop
  | none : Frac []
  | some (ds : Bytes) (hd : Digits ds) : Frac (0x2E :: ds)

inductive Exp : Bytes → Prop
  | none : Exp []
  | some (e : UInt8) (sign ds : Bytes) (he : e = 0x65 ∨ e = 0x45) (hs : sign = [] ∨ sign = [0x2B] ∨ sign = [0x2D])
      (hd : Digits ds) : Exp (e :: sign ++ ds)

/-- The standard library converts the token, as a `double` when it has a fraction or an exponent. -/
def Converts (text : Bytes) (isDouble : Bool) : Prop :=
  if isDouble then ∃ d, stod text = .ok d else ∃ i, stoll text = .ok i

/-- A token that `parse_number` cuts off, with its fraction and its exponent. -/
inductive Numeral : Bytes → Bytes → Bytes → Prop
  | intro (minus int frac exp : Bytes) (hm : minus = [] ∨ minus = [0x2D]) (hi : Digits int) (hs : minus ++ int ≠ [])
      (hf : Frac frac) (he : Exp exp) : Numeral (minus ++ int ++ frac ++ exp) frac exp

inductive Number : Bytes → Prop
  | intro (n frac exp : Bytes) (h : Numeral n frac exp) (hc : Converts n (!frac.isEmpty || !exp.isEmpty)) : Number n

/-- The bytes that end an element or a member. -/
inductive Delim
  | comma
  | brace
  | bracket

def Delim.byte : Delim → UInt8
  | comma => 0x2C
  | brace => 0x7D
  | bracket => 0x5D

/-- A `slot` is the place of a value before a delimiter; the lists go up to the delimiter that ends or breaks them. -/
inductive Symbol
  | value
  | slot (d : Delim)
  | members (d : Delim)
  | brokenMembers (d : Delim)
  | elements (d : Delim)

def nullText : Bytes := [0x6E, 0x75, 0x6C, 0x6C]

inductive Derives : Symbol → Bytes → Prop
  | litNull : Derives .value nullText
  | litTrue : Derives .value [0x74, 0x72, 0x75, 0x65]
  | litFalse : Derives .value [0x66, 0x61, 0x6C, 0x73, 0x65]
  | number (n : Bytes) (h : Number n) : Derives .value n
  | string (s : Bytes) (h : Str s) : Derives .value s
  | emptyObject (w : Bytes) (hw : Ws w) : Derives .value (0x7B :: w ++ [0x7D])
  | object (ms : Bytes) (h : Derives (.members .brace) ms) : Derives .value (0x7B :: ms ++ [0x7D])
  -- an array with one missing element is empty
  | array (es : Bytes) (h : Derives (.elements .bracket) es) : Derives .value (0x5B :: es ++ [0x5D])
  | whole (d : Delim) (w₁ v w₂ : Bytes) (h₁ : Ws w₁) (hv : Derives .value v) (h₂ : Ws w₂) :
      Derives (.slot d) (w₁ ++ v ++ w₂)
  | missing (d : Delim) (w : Bytes) (hw : Ws w) : Derives (.slot d) w
  | brokenObject (d : Delim) (w ms : Bytes) (hw : Ws w) (hm : Derives (.brokenMembers d) ms)
      (hne : ¬(d = .brace ∧ Ws ms)) : Derives (.slot d) (w ++ 0x7B :: ms)
  | brokenArray (w es : Bytes) (hw : Ws w) (he : Derives (.elements .brace) es) :
      Derives (.slot .brace) (w ++ 0x5B :: es)
  | member (d : Delim) (w₁ k w₂ v : Bytes) (h₁ : Ws w₁) (hk : Str k) (h₂ : Ws w₂) (hv : Derives (.slot d) v) :
      Derives (.members d) (w₁ ++ k ++ w₂ ++ 0x3A :: v)
  | moreMembers (d : Delim) (w₁ k w₂ v ms : Bytes) (h₁ : Ws w₁) (hk : Str k) (h₂ : Ws w₂)
      (hv : Derives (.slot .comma) v) (hm : Derives (.members d) ms) :
      Derives (.members d) (w₁ ++ k ++ w₂ ++ 0x3A :: v ++ 0x2C :: ms)
  | noKey (d : Delim) (w : Bytes) (hw : Ws w) : Derives (.brokenMembers d) w
  | noColon (d : Delim) (w₁ k w₂ : Bytes) (h₁ : Ws w₁) (hk : Str k) (h₂ : Ws w₂) :
      Derives (.brokenMembers d) (w₁ ++ k ++ w₂)
  | noBrace (ms : Bytes) (hm : Derives (.members .bracket) ms) : Derives (.brokenMembers .bracket) ms
  | brokenLater (d : Delim) (w₁ k w₂ v ms : Bytes) (h₁ : Ws w₁) (hk : Str k) (h₂ : Ws w₂)
      (hv : Derives (.slot .comma) v) (hm : Derives (.brokenMembers d) ms) :
      Derives (.brokenMembers d) (w₁ ++ k ++ w₂ ++ 0x3A :: v ++ 0x2C :: ms)
  | element (d : Delim) (v : Bytes) (hv : Derives (.slot d) v) : Derives (.elements d) v
  | moreElements (d : Delim) (v es : Bytes) (hv : Derives (.slot .comma) v) (he : Derives (.elements d) es) :
      Derives (.elements d) (v ++ 0x2C :: es)

/-- One value other than `null`, or a string that ends with the input. -/
def Text (s : Bytes) : Prop :=
  (∃ w₁ v w₂, Ws w₁ ∧ Derives .value v ∧ v ≠ nullText ∧ Ws w₂ ∧ s = w₁ ++ v ++ w₂) ∨
    ∃ w v, Ws w ∧ OpenStr v ∧ s = w ++ v

end Lenient

open Lenient
open Rfc8259 (Ws)

/-! ## White space -/

section Space

variable {c : UInt8} {s t w : Bytes}

theorem ws_iff : Ws w ↔ ∀ c ∈ w, isWhite c = true := by
  simp [Ws, isWhite]

theorem Rfc8259.Ws.skip (h : Ws w) (t : Bytes) : skipWs (w ++ t) = skipWs t := skipWs_white (ws_iff.mp h)

/-- The white space that `skipWs` drops. -/
theorem exists_ws (s : Bytes) : ∃ w, Ws w ∧ s = w ++ skipWs s :=
  ⟨s.takeWhile isWhite, ws_iff.mpr (fun _ hc => List.mem_takeWhile_imp hc), (List.takeWhile_append_dropWhile).symm⟩

theorem ws_of_skipWs (h : skipWs s = []) : Ws s := by
  obtain ⟨w, hw, hs⟩ := exists_ws s
  rw [h, List.append_nil] at hs
  rwa [hs]

theorem ws_delimited (h : Ws w) : Delimited w := by
  intro c hc
  exact Or.inl (ws_iff.mp h c (List.mem_of_mem_head? hc))

theorem skipWs_delim (d : Delim) (t : Bytes) : skipWs (d.byte :: t) = d.byte :: t := by
  cases d <;> rfl

theorem Lenient.Delim.byte_inj {d e : Delim} (h : d.byte = e.byte) : d = e := by
  cases d <;> cases e <;> first | rfl | simp [Delim.byte] at h

theorem Lenient.Delim.delimited (d : Delim) {w t : Bytes} (hw : Ws w) : Delimited (w ++ d.byte :: t) := by
  cases w with
  | nil => exact delimited_cons (by cases d <;> simp [Delim.byte])
  | cons c w => exact delimited_cons (Or.inl (ws_iff.mp hw c (by simp)))

end Space

/-! ## Strings -/

section Strings

variable {p t rest : Bytes}

theorem parseString_piece (h : Piece p) (t : Bytes) : (parseString (p ++ t)).2 = (parseString t).2 := by
  cases h with
  | plain c hq hb => simp [parseString_plain hq hb]
  | escape c hu => simp [parseString_backslash hu]
  | unicode a b c d => simp [parseString_unicode]

theorem parseString_pieces {pieces : List Bytes} (h : ∀ p ∈ pieces, Piece p) (t : Bytes) :
    (parseString (pieces.flatten ++ t)).2 = (parseString t).2 := by
  induction pieces with
  | nil => rfl
  | cons p pieces ih =>
    rw [List.flatten_cons, List.append_assoc, parseString_piece (h p (by simp)),
      ih (fun q hq => h q (List.mem_cons_of_mem p hq))]

theorem parseString_cutOff (h : CutOff t) : (parseString t).2 = [] := by
  cases h with
  | none => rfl
  | escape => rfl
  | unicode hex h =>
    match hex, h with
    | [], _ | [_], _ | [_, _], _ | [_, _, _], _ => rfl
    | _ :: _ :: _ :: _ :: l, h => simp only [List.length_cons] at h; omega

/-- The text behind an opening quote: a string and `rest`, or a string that takes all of it. -/
def StringEnd (t rest : Bytes) : Prop :=
  (∃ pieces : List Bytes, (∀ p ∈ pieces, Piece p) ∧ t = pieces.flatten ++ 34 :: rest) ∨
    (rest = [] ∧ ∃ (pieces : List Bytes) (tail : Bytes),
      (∀ p ∈ pieces, Piece p) ∧ CutOff tail ∧ t = pieces.flatten ++ tail)

theorem StringEnd.cons (hp : Piece p) (h : StringEnd t rest) : StringEnd (p ++ t) rest := by
  have hmem : ∀ {pieces : List Bytes}, (∀ q ∈ pieces, Piece q) → ∀ q ∈ p :: pieces, Piece q := by
    intro pieces hall q hq
    rcases List.mem_cons.mp hq with rfl | hq
    · exact hp
    · exact hall q hq
  rcases h with ⟨pieces, hall, rfl⟩ | ⟨hr, pieces, tail, hall, ht, rfl⟩
  · exact Or.inl ⟨p :: pieces, hmem hall, by simp⟩
  · exact Or.inr ⟨hr, p :: pieces, tail, hmem hall, ht, by simp⟩

theorem StringEnd.of_cutOff (h : CutOff t) : StringEnd t [] := Or.inr ⟨rfl, [], t, by simp, h, rfl⟩

theorem parseString_end (t : Bytes) : StringEnd t (parseString t).2 := by
  fun_induction parseString t with
  | case1 => exact .of_cutOff .none
  | case2 s => exact Or.inl ⟨[], by simp, rfl⟩
  | case3 c s hq hb ih => exact ih.cons (.plain c hq hb)
  | case4 c hq hb =>
    obtain rfl : c = 92 := not_not.mp hb
    exact .of_cutOff .escape
  | case5 c hq hb esc s hu ih =>
    obtain rfl : c = 92 := not_not.mp hb
    exact ih.cons (.escape esc hu)
  | case6 c hq hb esc hu a b e d s ih =>
    obtain rfl : c = 92 := not_not.mp hb
    obtain rfl : esc = 117 := not_not.mp hu
    exact ih.cons (.unicode a b e d)
  | case7 c hq hb esc hu hex h =>
    obtain rfl : c = 92 := not_not.mp hb
    obtain rfl : esc = 117 := not_not.mp hu
    refine .of_cutOff (.unicode hex ?_)
    rcases hex with _ | ⟨a, _ | ⟨b, _ | ⟨e, _ | ⟨d, s⟩⟩⟩⟩
    · simp
    · simp
    · simp
    · simp
    · exact absurd rfl (h a b e d s)

end Strings

/-! ## Numbers -/

section Numbers

variable {s n frac exp rest : Bytes}

/-- The text behind a token does not continue it. -/
structure Stops (frac exp rest : Bytes) : Prop where
  digit : ∀ c ∈ rest.head?, isDigit c = false
  point : frac = [] → exp = [] → ∀ c ∈ rest.head?, c ≠ 46
  letter : exp = [] → ∀ c ∈ rest.head?, c ≠ 101 ∧ c ≠ 69
  sign : exp.length = 1 → ∀ c ∈ rest.head?, c ≠ 43 ∧ c ≠ 45

theorem Delimited.stops (h : Delimited rest) (frac exp : Bytes) : Stops frac exp rest where
  digit _ hc := (h.ne hc).1
  point _ _ _ hc := (h.ne hc).2.1
  letter _ _ hc := ⟨(h.ne hc).2.2.1, (h.ne hc).2.2.2.1⟩
  sign _ _ hc := (h.ne hc).2.2.2.2

theorem takeWhile_digits (s : Bytes) : Digits (s.takeWhile isDigit) := fun _ hc => List.mem_takeWhile_imp hc

theorem head_dropWhile {c : UInt8} (h : c ∈ (s.dropWhile isDigit).head?) : isDigit c = false := by
  have := List.head?_dropWhile_not isDigit s
  rw [Option.mem_def.mp h] at this
  simpa using this

theorem scanFraction_frac (s : Bytes) : Frac (scanFraction s).1 := by
  unfold scanFraction
  split
  · exact .some _ (takeWhile_digits _)
  · exact .none

/-- Behind the fraction comes no digit, and without a fraction no point. -/
theorem scanFraction_stops (s : Bytes) (hs : ∀ c ∈ s.head?, isDigit c = false) :
    (∀ c ∈ (scanFraction s).2.head?, isDigit c = false) ∧
      ((scanFraction s).1 = [] → ∀ c ∈ (scanFraction s).2.head?, c ≠ 46) := by
  unfold scanFraction
  split
  next t ht => exact ⟨fun c hc => head_dropWhile hc, by simp⟩
  next hn =>
    refine ⟨hs, ?_⟩
    rintro - c hc rfl
    exact accept_eq_none.mp hn hc

theorem scanExponentSign_cases (s : Bytes) :
    ((scanExponentSign s).1 = [] ∧ ∀ c ∈ s.head?, c ≠ 43 ∧ c ≠ 45) ∨ (scanExponentSign s).1 = [43] ∨
      (scanExponentSign s).1 = [45] := by
  unfold scanExponentSign
  split
  next c t =>
    split
    next hc => rcases hc with rfl | rfl <;> simp
    next hc =>
      refine Or.inl ⟨rfl, fun d hd => ?_⟩
      obtain rfl : c = d := by simpa using hd
      exact not_or.mp hc
  next => exact Or.inl ⟨rfl, by simp⟩

theorem scanExponent_exp (s : Bytes) : Exp (scanExponent s).1 := by
  unfold scanExponent
  split
  next c t =>
    split
    next hc =>
      refine .some c (scanExponentSign t).1 _ hc ?_ (takeWhile_digits _)
      rcases scanExponentSign_cases t with ⟨h, -⟩ | h | h <;> simp [h]
    · exact .none
  · exact .none

theorem scanExponent_stops (frac s : Bytes) (hs : ∀ c ∈ s.head?, isDigit c = false)
    (hp : frac = [] → ∀ c ∈ s.head?, c ≠ 46) : Stops frac (scanExponent s).1 (scanExponent s).2 := by
  unfold scanExponent
  split
  next c t =>
    split
    next hc =>
      refine ⟨fun d hd => head_dropWhile hd, by simp, by simp, fun hlen d hd => ?_⟩
      -- neither sign nor digit behind the letter
      simp only [List.length_cons, List.length_append] at hlen
      have hsign : (scanExponentSign t).1 = [] := List.length_eq_zero_iff.mp (by omega)
      have hdigits : (scanExponentSign t).2.takeWhile isDigit = [] := List.length_eq_zero_iff.mp (by omega)
      have hsplit : (scanExponentSign t).2.dropWhile isDigit = t := by
        have h₁ := List.takeWhile_append_dropWhile (p := isDigit) (l := (scanExponentSign t).2)
        have h₂ := scanExponentSign_append t
        rw [hdigits, List.nil_append] at h₁
        rw [h₁]
        simpa [hsign] using h₂
      simp only [hsplit] at hd
      rcases scanExponentSign_cases t with ⟨-, h⟩ | h | h
      · exact h d hd
      · rw [h] at hsign; cases hsign
      · rw [h] at hsign; cases hsign
    next hc =>
      refine ⟨hs, fun hf _ => hp hf, fun _ d hd => ?_, by simp⟩
      obtain rfl : c = d := by simpa using hd
      exact not_or.mp hc
  next => exact ⟨by simp, by simp, by simp, by simp⟩

theorem splitSign_minus (t : Bytes) : splitSign (45 :: t) = (true, t) := rfl

theorem splitSign_of_ne (h : ∀ c ∈ s.head?, c ≠ 45) : splitSign s = (false, s) :=
  if_neg (fun hs => h 45 hs rfl)

/-- The token is a numeral, and the text behind it does not continue it. -/
theorem scanNumber_numeral {c : UInt8} (t : Bytes) (hc : c = 45 ∨ isDigit c = true) :
    ∃ frac exp, Numeral (scanNumber (c :: t)).text frac exp ∧ Stops frac exp (scanNumber (c :: t)).rest ∧
      (scanNumber (c :: t)).isDouble = (!frac.isEmpty || !exp.isEmpty) := by
  obtain ⟨h₁, h₂⟩ := scanFraction_stops ((splitSign (c :: t)).2.dropWhile isDigit) (fun d hd => head_dropWhile hd)
  refine ⟨_, _, ?_, scanExponent_stops _ _ h₁ h₂, rfl⟩
  refine .intro (if (splitSign (c :: t)).1 then [45] else []) ((splitSign (c :: t)).2.takeWhile isDigit) _ _ ?_
    (takeWhile_digits _) ?_ (scanFraction_frac _) (scanExponent_exp _)
  · split <;> simp
  · rcases hc with rfl | hd
    · simp [splitSign_minus]
    · have hne : c ≠ 45 := isDigit_ne hd (by decide)
      simp [splitSign_of_ne (s := c :: t) (by simp [hne]), hd]

theorem Lenient.Exp.head (he : Exp exp) (hr : Stops frac exp rest) {c : UInt8} (hc : c ∈ (exp ++ rest).head?) :
    isDigit c = false ∧ (frac = [] → c ≠ 46) := by
  cases he with
  | none => exact ⟨hr.digit c hc, fun hf => hr.point hf rfl c hc⟩
  | some e sign ds he hs hd =>
    obtain rfl : e = c := by simpa using hc
    rcases he with rfl | rfl <;> exact ⟨rfl, fun _ => by decide⟩

theorem Lenient.Frac.head (hf : Frac frac) (he : Exp exp) (hr : Stops frac exp rest) :
    Halts isDigit (frac ++ (exp ++ rest)) := by
  intro c hc
  cases hf with
  | none => exact (he.head hr hc).1
  | some ds hd =>
    obtain rfl : 46 = c := by simpa using hc
    decide

theorem scanExponentSign_of_ne (h : ∀ c ∈ s.head?, c ≠ 43 ∧ c ≠ 45) : scanExponentSign s = ([], s) := by
  cases s with
  | nil => rfl
  | cons c s =>
    obtain ⟨h₁, h₂⟩ := h c rfl
    simp [scanExponentSign, h₁, h₂]

theorem Lenient.Exp.scan (he : Exp exp) (hr : Stops frac exp rest) : scanExponent (exp ++ rest) = (exp, rest) := by
  cases he with
  | none =>
    cases rest with
    | nil => rfl
    | cons c rest =>
      obtain ⟨h₁, h₂⟩ := hr.letter rfl c rfl
      simp [scanExponent, h₁, h₂]
  | some e sign ds he hs hd =>
    have hh : Halts isDigit rest := fun c hc => hr.digit c hc
    have hsign : scanExponentSign (sign ++ (ds ++ rest)) = (sign, ds ++ rest) := by
      rcases hs with rfl | rfl | rfl
      · apply scanExponentSign_of_ne
        intro c hc
        cases ds with
        | nil => exact hr.sign rfl c hc
        | cons d ds =>
          obtain rfl : d = c := by simpa using hc
          have hdigit := hd d (by simp)
          exact ⟨isDigit_ne hdigit (by decide), isDigit_ne hdigit (by decide)⟩
      · rfl
      · rfl
    simp only [List.cons_append, List.append_assoc, scanExponent, he, if_true, hsign, takeWhile_run hd hh,
      dropWhile_run hd hh]

theorem Lenient.Frac.scan (hf : Frac frac) (he : Exp exp) (hr : Stops frac exp rest) :
    scanFraction (frac ++ (exp ++ rest)) = (frac, exp ++ rest) := by
  cases hf with
  | none =>
    have hnone : accept 46 (exp ++ rest) = Option.none := if_neg (fun h => (he.head hr h).2 rfl rfl)
    simp [scanFraction, hnone]
  | some ds hd =>
    have hh : Halts isDigit (exp ++ rest) := fun c hc => (he.head hr hc).1
    simp [scanFraction, accept_self, takeWhile_run hd hh, dropWhile_run hd hh]

/-- A numeral is scanned as one token. -/
theorem Lenient.Numeral.scan (hn : Numeral n frac exp) (hr : Stops frac exp rest) :
    scanNumber (n ++ rest) = ⟨n, !frac.isEmpty || !exp.isEmpty, rest⟩ := by
  obtain ⟨minus, int, frac, exp, hm, hi, hs, hf, he⟩ := hn
  have hh := hf.head he hr
  have hsplit : splitSign (minus ++ (int ++ (frac ++ (exp ++ rest)))) =
      (!minus.isEmpty, int ++ (frac ++ (exp ++ rest))) := by
    rcases hm with rfl | rfl
    · apply splitSign_of_ne
      intro c hc
      obtain ⟨d, ds, rfl⟩ := List.exists_cons_of_ne_nil hs
      obtain rfl : d = c := by simpa using hc
      exact isDigit_ne (hi d (by simp)) (by decide)
    · rfl
  simp only [scanNumber, List.append_assoc, hsplit, takeWhile_run hi hh, dropWhile_run hi hh, hf.scan he hr, he.scan hr]
  rcases hm with rfl | rfl <;> simp

/-- A numeral starts with its sign or a digit. -/
theorem Lenient.Numeral.exists_cons (hn : Numeral n frac exp) : ∃ c t, n = c :: t ∧ (c = 45 ∨ isDigit c = true) := by
  obtain ⟨minus, int, frac, exp, hm, hi, hs, -, -⟩ := hn
  rcases hm with rfl | rfl
  · obtain ⟨c, ds, rfl⟩ := List.exists_cons_of_ne_nil hs
    exact ⟨c, _, rfl, Or.inr (hi c (by simp))⟩
  · exact ⟨45, _, rfl, Or.inl rfl⟩

theorem Lenient.Number.exists_cons (hn : Number n) : ∃ c t, n = c :: t ∧ (c = 45 ∨ isDigit c = true) := by
  obtain ⟨frac, exp, h, -⟩ := hn
  exact h.exists_cons

theorem Lenient.Number.ne_null (hn : Number n) : n ≠ nullText := by
  obtain ⟨c, t, rfl, hc⟩ := hn.exists_cons
  intro h
  obtain ⟨rfl, -⟩ := List.cons.inj h
  simp [isDigit] at hc

end Numbers

/-! ## The parser follows the grammar -/

section Sound

variable {c : UInt8} {s t u rest : Bytes} {v : Value} {d : Delim} {fuel : Nat}

/-- What `parse_value` reads: a value, a string cut off by the end of the input, or an error, which a delimiter behind
it turns into a slot. -/
inductive Read : Bytes → Value → Bytes → Prop
  | whole (w t rest : Bytes) (v : Value) (hw : Ws w) (ht : Derives .value t) (hv : v.isNull = true ↔ t = nullText) :
      Read (w ++ t ++ rest) v rest
  | cutOff (w t : Bytes) (v : Value) (hw : Ws w) (ht : OpenStr t) (hv : v.isNull = false) : Read (w ++ t) v []
  | error (s rest : Bytes) (h : ∀ d r, skipWs rest = d.byte :: r → ∃ e, Derives (.slot d) e ∧ s = e ++ d.byte :: r) :
      Read s .null rest

/-- A value before a delimiter is a slot. -/
theorem Read.slot {r : Bytes} (h : Read s v rest) (hd : skipWs rest = d.byte :: r) :
    ∃ e, Derives (.slot d) e ∧ s = e ++ d.byte :: r := by
  cases h with
  | whole w t rest v hw ht hv =>
    obtain ⟨w₂, hw₂, hrest⟩ := exists_ws rest
    refine ⟨w ++ t ++ w₂, .whole d w t w₂ hw ht hw₂, ?_⟩
    rw [hrest, hd]
    simp
  | cutOff w t v hw ht hv => cases hd
  | error s rest h => exact h d r hd

/-- An error at a byte that is no delimiter. -/
theorem Read.stuck (hc : ∀ d : Delim, c ≠ d.byte) (hw : isWhite c = false) : Read s .null (c :: t) := by
  refine .error s _ (fun d r hd => ?_)
  rw [skipWs_cons hw] at hd
  exact absurd (List.cons.inj hd).1 (hc d)

theorem Read.of_skipWs (hs : skipWs s = t ++ rest) (ht : Derives .value t) (hv : v.isNull = true ↔ t = nullText) :
    Read s v rest := by
  obtain ⟨w, hw, hsplit⟩ := exists_ws s
  rw [hsplit, hs, ← List.append_assoc]
  exact .whole w t rest v hw ht hv

/-- A literal at the start of a text. -/
theorem eq_append_drop {l : Bytes} {k : Nat} (h : s.take k = l) : s = l ++ s.drop k := by
  rw [← h, List.take_append_drop]

theorem parseBool_read (hs : skipWs s = c :: t) (hc : c = 116 ∨ c = 102) :
    Read s (parseBool (c :: t)).1 (parseBool (c :: t)).2 := by
  unfold parseBool
  split
  next h => exact .of_skipWs (hs.trans (eq_append_drop h)) .litTrue (by simp [Value.isNull, nullText])
  next =>
    split
    next h => exact .of_skipWs (hs.trans (eq_append_drop h)) .litFalse (by simp [Value.isNull, nullText])
    next => rcases hc with rfl | rfl <;> exact .stuck (fun d => by cases d <;> decide) rfl

theorem parseNull_read (hs : skipWs s = 110 :: t) : Read s (parseNull (110 :: t)).1 (parseNull (110 :: t)).2 := by
  unfold parseNull
  split
  next h => exact .of_skipWs (hs.trans (eq_append_drop h)) .litNull (by simp [Value.isNull, nullText])
  next => exact .stuck (fun d => by cases d <;> decide) rfl

theorem parseNumber_read (hs : skipWs s = c :: t) (hc : c = 45 ∨ isDigit c = true)
    (h : parseNumber (c :: t) = .ok (v, rest)) : Read s v rest := by
  obtain ⟨rfl, hv, hconv⟩ := parseNumber_ok h
  obtain ⟨frac, exp, hnum, -, hdouble⟩ := scanNumber_numeral t hc
  rw [hdouble] at hconv
  have hn : Number (scanNumber (c :: t)).text := .intro _ frac exp hnum hconv
  refine .of_skipWs (hs.trans (scanNumber_append _).symm) (.number _ hn) ?_
  simp only [hv, Bool.false_eq_true, false_iff]
  exact hn.ne_null

/-- A string behind white space: closed before `rest`, or cut off by the end of the input. -/
theorem exists_str (hs : skipWs s = 34 :: t) (hr : (parseString t).2 = rest) :
    ∃ w k, Ws w ∧ s = w ++ k ++ rest ∧ (Str k ∨ (OpenStr k ∧ rest = [])) := by
  obtain ⟨w, hw, hsplit⟩ := exists_ws s
  have hend := parseString_end t
  rw [hr] at hend
  rcases hend with ⟨pieces, hall, ht⟩ | ⟨hnil, pieces, tail, hall, htail, ht⟩
  · exact ⟨w, _, hw, by rw [hsplit, hs, ht]; simp, Or.inl (.intro pieces hall)⟩
  · exact ⟨w, _, hw, by rw [hsplit, hs, ht, hnil]; simp, Or.inr ⟨.intro pieces tail hall htail, hnil⟩⟩

theorem parseString_read (hs : skipWs s = 34 :: t) : Read s (.string (parseString t).1) (parseString t).2 := by
  obtain ⟨w, k, hw, hsplit, hk | ⟨hk, hnil⟩⟩ := exists_str hs rfl
  · rw [hsplit]
    refine .whole w k _ _ hw (.string k hk) ?_
    obtain ⟨pieces, -⟩ := hk
    simp [Value.isNull, nullText]
  · rw [hsplit, hnil, List.append_nil]
    exact .cutOff w k _ hw hk rfl

/-- The start of a member: a key, and the next byte behind it. -/
theorem exists_key (hs : skipWs s = 34 :: t) (hc : skipWs (parseString t).2 = c :: u) :
    ∃ w₁ k w₂, Ws w₁ ∧ Str k ∧ Ws w₂ ∧ s = w₁ ++ k ++ w₂ ++ c :: u := by
  obtain ⟨w₁, k, h₁, hsplit, hk | ⟨-, hnil⟩⟩ := exists_str hs rfl
  · obtain ⟨w₂, h₂, hrest⟩ := exists_ws (parseString t).2
    exact ⟨w₁, k, w₂, h₁, hk, h₂, by rw [hsplit, hrest, hc]; simp⟩
  · rw [hnil] at hc
    cases hc

/-- What the loop of `parse_object` reads: all members, or an error before a delimiter. -/
structure ReadMembers (s : Bytes) (v : Value) (rest : Bytes) : Prop where
  closed : v.isNull = false → ∃ ms, Derives (.members .brace) ms ∧ s = ms ++ 125 :: rest
  error : v.isNull = true → ∀ d r, skipWs rest = d.byte :: r →
    ∃ ms, Derives (.brokenMembers d) ms ∧ s = ms ++ d.byte :: r

/-- What the loop of `parse_array` reads. -/
structure ReadElements (s : Bytes) (v : Value) (rest : Bytes) : Prop where
  closed : v.isNull = false → ∃ es, Derives (.elements .bracket) es ∧ s = es ++ 93 :: rest
  error : v.isNull = true → ∀ (d : Delim) r, skipWs rest = d.byte :: r →
    d = .brace ∧ ∃ es, Derives (.elements .brace) es ∧ s = es ++ 125 :: r

theorem ReadMembers.of_error
    (h : ∀ d r, skipWs rest = d.byte :: r → ∃ ms, Derives (.brokenMembers d) ms ∧ s = ms ++ d.byte :: r) :
    ReadMembers s .null rest := by
  refine ⟨fun hv => ?_, fun _ => h⟩
  cases hv

/-- A member and a comma in front of more members. -/
theorem ReadMembers.more {r ms : Bytes} {val : Value} (hs : skipWs s = 34 :: t)
    (hc : skipWs (parseString t).2 = 58 :: u) (hval : Read u val r) (hd : skipWs r = 44 :: ms)
    (h : ReadMembers ms v rest) : ReadMembers s v rest := by
  obtain ⟨w₁, k, w₂, h₁, hk, h₂, rfl⟩ := exists_key hs hc
  obtain ⟨e, he, rfl⟩ := hval.slot (d := .comma) hd
  constructor
  · intro hv
    obtain ⟨ms', hm, rfl⟩ := h.closed hv
    exact ⟨_, .moreMembers .brace w₁ k w₂ e ms' h₁ hk h₂ he hm, by simp [Delim.byte]⟩
  · intro hv d r' hr'
    obtain ⟨ms', hm, rfl⟩ := h.error hv d r' hr'
    exact ⟨_, .brokenLater d w₁ k w₂ e ms' h₁ hk h₂ he hm, by simp [Delim.byte]⟩

variable {pv : Bytes → Except Raise Parsed}

theorem membersLoop_read (hpv : ∀ s v rest, pv s = .ok (v, rest) → Read s v rest) {obj : List (Bytes × Value)}
    (h : membersLoop pv fuel obj s = .ok (v, rest)) : ReadMembers s v rest := by
  induction fuel generalizing obj s with
  | zero => simp [membersLoop] at h
  | succ fuel ih =>
    rw [membersLoop] at h
    split at h
    next hk =>
      obtain ⟨rfl, rfl⟩ := Prod.mk.inj (Except.ok.inj h)
      refine .of_error (fun d r hd => ?_)
      rw [skipWs_skipWs] at hd
      obtain ⟨w, hw, hsplit⟩ := exists_ws s
      exact ⟨w, .noKey d w hw, by rw [← hd]; exact hsplit⟩
    next t ht =>
      have hs := accept_eq_some.mp ht
      simp only at h
      split at h
      next hc =>
        obtain ⟨rfl, rfl⟩ := Prod.mk.inj (Except.ok.inj h)
        refine .of_error (fun d r hd => ?_)
        rw [skipWs_skipWs] at hd
        obtain ⟨w₁, k, w₂, h₁, hk, h₂, hsplit⟩ := exists_key hs hd
        exact ⟨_, .noColon d w₁ k w₂ h₁ hk h₂, hsplit⟩
      next u hu =>
        have hc := accept_eq_some.mp hu
        obtain ⟨⟨val, r⟩, hval, h⟩ := bind_eq_ok.mp h
        have hread := hpv u val r hval
        simp only at h
        split at h
        next ms hms => exact .more hs hc hread (accept_eq_some.mp hms) (ih h)
        next hcomma =>
          obtain ⟨w₁, k, w₂, h₁, hk, h₂, hsplit⟩ := exists_key hs hc
          split at h
          next r' hr' =>
            obtain ⟨rfl, rfl⟩ := Prod.mk.inj (Except.ok.inj h)
            obtain ⟨e, he, rfl⟩ := hread.slot (d := .brace) (accept_eq_some.mp hr')
            refine ⟨fun _ => ⟨_, .member .brace w₁ k w₂ e h₁ hk h₂ he, by simp [hsplit, Delim.byte]⟩, fun hv => ?_⟩
            cases hv
          next hbrace =>
            obtain ⟨rfl, rfl⟩ := Prod.mk.inj (Except.ok.inj h)
            refine .of_error (fun d r' hd => ?_)
            rw [skipWs_skipWs] at hd
            rw [accept_eq_none, hd] at hcomma hbrace
            obtain ⟨e, he, rfl⟩ := hread.slot hd
            cases d with
            | comma => simp [Delim.byte] at hcomma
            | brace => simp [Delim.byte] at hbrace
            | bracket => exact ⟨_, .noBrace _ (.member .bracket w₁ k w₂ e h₁ hk h₂ he), by simp [hsplit]⟩

theorem itemsLoop_read (hpv : ∀ s v rest, pv s = .ok (v, rest) → Read s v rest) {arr : List Value}
    (h : itemsLoop pv fuel arr s = .ok (v, rest)) : ReadElements s v rest := by
  induction fuel generalizing arr s with
  | zero => simp [itemsLoop] at h
  | succ fuel ih =>
    rw [itemsLoop] at h
    obtain ⟨⟨val, r⟩, hval, h⟩ := bind_eq_ok.mp h
    have hread := hpv s val r hval
    simp only at h
    split at h
    next es hes =>
      have hrec := ih h
      obtain ⟨e, he, rfl⟩ := hread.slot (d := .comma) (accept_eq_some.mp hes)
      constructor
      · intro hv
        obtain ⟨es', hes', rfl⟩ := hrec.closed hv
        exact ⟨_, .moreElements .bracket e es' he hes', by simp [Delim.byte]⟩
      · intro hv d r' hr'
        obtain ⟨hd, es', hes', rfl⟩ := hrec.error hv d r' hr'
        exact ⟨hd, _, .moreElements .brace e es' he hes', by simp [Delim.byte]⟩
    next hcomma =>
      split at h
      next r' hr' =>
        obtain ⟨rfl, rfl⟩ := Prod.mk.inj (Except.ok.inj h)
        obtain ⟨e, he, rfl⟩ := hread.slot (d := .bracket) (accept_eq_some.mp hr')
        refine ⟨fun _ => ⟨_, .element .bracket e he, rfl⟩, fun hv => ?_⟩
        cases hv
      next hbracket =>
        obtain ⟨rfl, rfl⟩ := Prod.mk.inj (Except.ok.inj h)
        refine ⟨fun hv => ?_, fun _ d r' hd => ?_⟩
        · cases hv
        rw [skipWs_skipWs] at hd
        rw [accept_eq_none, hd] at hcomma hbracket
        obtain ⟨e, he, rfl⟩ := hread.slot hd
        cases d with
        | comma => simp [Delim.byte] at hcomma
        | brace => exact ⟨rfl, _, .element .brace e he, rfl⟩
        | bracket => simp [Delim.byte] at hbracket

theorem parseObject_read {k : Nat} (hpv : ∀ s v rest, parseValue k s = .ok (v, rest) → Read s v rest)
    (hs : skipWs s = 123 :: t) (h : parseObject (parseValue k) fuel t = .ok (v, rest)) : Read s v rest := by
  obtain ⟨w, hw, hsplit⟩ := exists_ws s
  unfold parseObject at h
  split at h
  next r hr =>
    obtain ⟨rfl, rfl⟩ := Prod.mk.inj (Except.ok.inj h)
    obtain ⟨w₂, hw₂, ht⟩ := exists_ws t
    refine .of_skipWs (t := 123 :: w₂ ++ [125]) ?_ (.emptyObject w₂ hw₂) (by simp [Value.isNull, nullText])
    rw [hs, ht, accept_eq_some.mp hr]
    simp
  next hr =>
    rw [membersLoop_skipWs] at h
    have hread := membersLoop_read hpv h
    cases hv : v.isNull with
    | false =>
      obtain ⟨ms, hm, rfl⟩ := hread.closed hv
      refine .of_skipWs (t := 123 :: ms ++ [125]) ?_ (.object ms hm) (by simp [hv, nullText])
      rw [hs]
      simp
    | true =>
      obtain rfl := Value.isNull_eq hv
      refine .error s rest (fun d r hd => ?_)
      obtain ⟨ms, hm, rfl⟩ := hread.error rfl d r hd
      refine ⟨w ++ 123 :: ms, .brokenObject d w ms hw hm ?_, by rw [hsplit, hs]; simp⟩
      rintro ⟨rfl, hms⟩
      rw [accept_eq_none, hms.skip, skipWs_delim] at hr
      exact hr rfl

theorem parseArray_read {k : Nat} (hpv : ∀ s v rest, parseValue k s = .ok (v, rest) → Read s v rest)
    (hs : skipWs s = 91 :: t) (h : parseArray (parseValue k) fuel t = .ok (v, rest)) : Read s v rest := by
  obtain ⟨w, hw, hsplit⟩ := exists_ws s
  unfold parseArray at h
  split at h
  next r hr =>
    obtain ⟨rfl, rfl⟩ := Prod.mk.inj (Except.ok.inj h)
    obtain ⟨w₂, hw₂, ht⟩ := exists_ws t
    refine .of_skipWs (t := 91 :: w₂ ++ [93]) ?_ (.array w₂ (.element .bracket w₂ (.missing .bracket w₂ hw₂)))
      (by simp [Value.isNull, nullText])
    rw [hs, ht, accept_eq_some.mp hr]
    simp
  next hr =>
    rw [itemsLoop_skipWs] at h
    have hread := itemsLoop_read hpv h
    cases hv : v.isNull with
    | false =>
      obtain ⟨es, he, rfl⟩ := hread.closed hv
      refine .of_skipWs (t := 91 :: es ++ [93]) ?_ (.array es he) (by simp [hv, nullText])
      rw [hs]
      simp
    | true =>
      obtain rfl := Value.isNull_eq hv
      refine .error s rest (fun d r hd => ?_)
      obtain ⟨rfl, es, he, rfl⟩ := hread.error rfl d r hd
      exact ⟨w ++ 91 :: es, .brokenArray w es hw he, by rw [hsplit, hs]; simp [Delim.byte]⟩

/-- What the parser reads, the grammar derives. -/
theorem parseValue_read (h : parseValue fuel s = .ok (v, rest)) : Read s v rest := by
  induction fuel generalizing s v rest with
  | zero => simp [parseValue] at h
  | succ fuel ih =>
    have ih' : ∀ s v rest, parseValue fuel s = .ok (v, rest) → Read s v rest := fun _ _ _ => ih
    rw [parseValue] at h
    split at h
    next hs =>
      obtain ⟨rfl, rfl⟩ := Prod.mk.inj (Except.ok.inj h)
      exact .error s [] (fun d r hd => by cases hd)
    next c t hs =>
      split_ifs at h with h₁ h₂ h₃ h₄ h₅ h₆
      · subst h₁
        exact parseObject_read ih' hs h
      · subst h₂
        exact parseArray_read ih' hs h
      · subst h₃
        obtain ⟨rfl, rfl⟩ := Prod.mk.inj (Except.ok.inj h)
        exact parseString_read hs
      · have := parseBool_read hs h₄
        rw [Except.ok.inj h] at this
        exact this
      · subst h₅
        have := parseNull_read hs
        rw [Except.ok.inj h] at this
        exact this
      · exact parseNumber_read hs h₆ h
      · -- an unknown byte: when it is the delimiter, the value is missing
        obtain ⟨rfl, rfl⟩ := Prod.mk.inj (Except.ok.inj h)
        refine .error s _ (fun d r hd => ?_)
        obtain ⟨w, hw, hsplit⟩ := exists_ws s
        rw [← hs, skipWs_skipWs] at hd
        exact ⟨w, .missing d w hw, by rw [← hd]; exact hsplit⟩

end Sound

end Exasphere.Json

import Mathlib.Data.Finset.Sort
import Mathlib.Data.List.Sort
import Exasphere.Lib.Bytes
import Exasphere.Lib.Checked

/-!
# Python strings

A `str` is the list of its code points, surrogates included. What a call raises is an `Exn`: the exception class of the
calling module with its message, or one of the built-in classes the code meets. `splitlines`, `strip`, `in` and the
codec of UTF-8 are as the language defines them; what depends on the Unicode database, and the `float` type, are the
parameters `Builtins`.
-/

namespace Exasphere.Py

open Exasphere.Lib

abbrev Str := List Nat

/-- The code points of an ASCII literal. -/
def str (s : String) : Str := (utf8 s).map UInt8.toNat

inductive Exn
  /-- The exception class of the module that raises. -/
  | error (message : Str)
  | fileNotFound
  | unicodeError
  | jsonDecodeError
  | valueError
  | recursionError
  deriving DecidableEq, Repr

/-- The Unicode database and the `float` type of the interpreter, and the errors of its `json` module. A float is given
by a literal that denotes it. -/
structure Builtins where
  isPrintable : Nat → Bool
  isAlnum : Nat → Bool
  /-- The value of a decimal digit, of which `str.isdecimal` is true. -/
  decimalValue : Nat → Option Nat
  lower : Str → Str
  casefold : Str → Str
  reprFloat : Str → Str
  reprFloat_ne_nil : ∀ literal, reprFloat literal ≠ []
  floatEqInt : Str → Int → Bool
  floatEq : Str → Str → Bool
  /-- Where `json.loads` gives up on a text, and why. -/
  jsonErrorPos : Str → Nat
  jsonErrorMsg : Str → Str

/-- The interpreter on ASCII texts without floats. -/
def Builtins.ascii : Builtins where
  isPrintable c := decide (32 ≤ c ∧ c < 127)
  isAlnum c := decide ((48 ≤ c ∧ c ≤ 57) ∨ (65 ≤ c ∧ c ≤ 90) ∨ (97 ≤ c ∧ c ≤ 122))
  decimalValue c := if 48 ≤ c ∧ c ≤ 57 then some (c - 48) else none
  lower s := s.map (fun c => if 65 ≤ c ∧ c ≤ 90 then c + 32 else c)
  casefold s := s.map (fun c => if 65 ≤ c ∧ c ≤ 90 then c + 32 else c)
  reprFloat literal := if literal = [] then [48] else literal
  reprFloat_ne_nil := by
    intro literal
    split
    · simp
    · assumption
  floatEqInt _ _ := false
  jsonErrorPos _ := 0
  jsonErrorMsg _ := str "Expecting value"
  floatEq literal literal' := decide (literal = literal')

/-! ## Lines and blanks -/

/-- The boundaries of `str.splitlines`. -/
def isLineBreak (c : Nat) : Bool :=
  (0x0A ≤ c && c ≤ 0x0D) || (0x1C ≤ c && c ≤ 0x1E) || c == 0x85 || c == 0x2028 || c == 0x2029

/-- `splitlines` with the line read so far, last character first. -/
def splitlinesFrom (line : Str) : Str → List Str
  | [] => if line = [] then [] else [line.reverse]
  | 0x0D :: 0x0A :: rest => line.reverse :: splitlinesFrom [] rest
  | c :: rest => if isLineBreak c then line.reverse :: splitlinesFrom [] rest else splitlinesFrom (c :: line) rest

def splitlines (s : Str) : List Str := splitlinesFrom [] s

/-- `str.isspace` of one character. -/
def isSpace (c : Nat) : Bool :=
  (0x09 ≤ c && c ≤ 0x0D) || (0x1C ≤ c && c ≤ 0x20) || c == 0x85 || c == 0xA0 || c == 0x1680 ||
    (0x2000 ≤ c && c ≤ 0x200A) || c == 0x2028 || c == 0x2029 || c == 0x202F || c == 0x205F || c == 0x3000

/-- `s.strip() == ""`. -/
def isBlank (s : Str) : Bool := s.all isSpace

theorem splitlinesFrom_run {line s rest : Str} (hs : ∀ c ∈ s, isLineBreak c = false) :
    splitlinesFrom line (s ++ 0x0A :: rest) = (s.reverse ++ line).reverse :: splitlinesFrom [] rest := by
  induction s generalizing line with
  | nil => simp [splitlinesFrom, isLineBreak]
  | cons c s ih =>
    have hc : isLineBreak c = false := hs c (by simp)
    have hne : c ≠ 0x0D := by
      rintro rfl
      cases hc
    rw [List.cons_append, splitlinesFrom]
    · rw [hc]
      simp only [Bool.false_eq_true, ↓reduceIte]
      rw [ih (fun d hd => hs d (by simp [hd]))]
      simp
    · intro rest' h
      exact absurd h hne

/-- A line without a boundary, ended by a newline, is read back as the only one. -/
theorem splitlines_line {s : Str} (hs : ∀ c ∈ s, isLineBreak c = false) : splitlines (s ++ [0x0A]) = [s] := by
  rw [splitlines, splitlinesFrom_run hs]
  simp [splitlinesFrom]

/-! ## Substrings -/

/-- `needle in s`. -/
def contains (s needle : Str) : Bool := s.tails.any (needle.isPrefixOf ·)

theorem contains_iff {s needle : Str} : contains s needle = true ↔ needle <:+: s := by
  simp only [contains, List.any_eq_true, List.mem_tails, List.isPrefixOf_iff_prefix, List.infix_iff_prefix_suffix,
    and_comm]

/-- What follows the first occurrence of `needle`. -/
def after (needle : Str) : Str → Option Str
  | [] => if needle = [] then some [] else none
  | c :: rest => if needle.isPrefixOf (c :: rest) then some ((c :: rest).drop needle.length) else after needle rest

/-- `sep.join(items)`. -/
def join (sep : Str) (items : List Str) : Str := sep.intercalate items

/-- The order of `str`. -/
def strLe : Str → Str → Bool
  | [], _ => true
  | _ :: _, [] => false
  | c :: s, d :: t => if c = d then strLe s t else decide (c < d)

/-- `sorted(items)`. -/
def sorted (items : List Str) : List Str := items.insertionSort (fun s t => strLe s t = true)

theorem strLe_total (s t : Str) : strLe s t = true ∨ strLe t s = true := by
  induction s generalizing t with
  | nil => exact Or.inl rfl
  | cons c s ih =>
    cases t with
    | nil => exact Or.inr rfl
    | cons d t =>
      rw [strLe, strLe]
      by_cases h : c = d
      · rw [if_pos h, if_pos h.symm]
        exact ih t
      · rw [if_neg h, if_neg (Ne.symm h), decide_eq_true_eq, decide_eq_true_eq]
        omega

theorem strLe_antisymm {s t : Str} (h : strLe s t = true) (h' : strLe t s = true) : s = t := by
  induction s generalizing t with
  | nil =>
    cases t with
    | nil => rfl
    | cons d t => cases h'
  | cons c s ih =>
    cases t with
    | nil => cases h
    | cons d t =>
      rw [strLe] at h h'
      by_cases heq : c = d
      · subst heq
        rw [if_pos rfl] at h h'
        rw [ih h h']
      · rw [if_neg heq, decide_eq_true_eq] at h
        rw [if_neg (Ne.symm heq), decide_eq_true_eq] at h'
        omega

theorem strLe_trans {s t u : Str} (h : strLe s t = true) (h' : strLe t u = true) : strLe s u = true := by
  induction s generalizing t u with
  | nil => rfl
  | cons c s ih =>
    cases t with
    | nil => cases h
    | cons d t =>
      cases u with
      | nil => cases h'
      | cons e u =>
        rw [strLe] at h h' ⊢
        split at h
        next hcd =>
          subst hcd
          split at h'
          next hce => rw [if_pos hce]; exact ih h h'
          next hce => rw [if_neg hce]; exact h'
        next hcd =>
          rw [decide_eq_true_eq] at h
          split at h'
          next hde =>
            subst hde
            rw [if_neg hcd, decide_eq_true_eq]
            exact h
          next hde =>
            rw [decide_eq_true_eq] at h'
            rw [if_neg (by omega), decide_eq_true_eq]
            omega

instance : Std.Total (fun s t : Str => strLe s t = true) := ⟨strLe_total⟩

instance : Std.Antisymm (fun s t : Str => strLe s t = true) := ⟨fun _ _ => strLe_antisymm⟩

instance : IsTrans Str (fun s t => strLe s t = true) := ⟨fun _ _ _ => strLe_trans⟩

/-- `sorted` of a set. -/
def sortedSet (items : Finset Str) : List Str := items.sort (fun s t => strLe s t = true)

/-- The order of tuples of `str`. -/
def tupleLe : List Str → List Str → Bool
  | [], _ => true
  | _ :: _, [] => false
  | s :: p, t :: q => if s = t then tupleLe p q else strLe s t

/-- `sorted` of tuples. -/
def sortedPaths (paths : List (List Str)) : List (List Str) := paths.insertionSort (fun p q => tupleLe p q = true)

/-! ## Numbers -/

/-- `str` of a natural number. -/
def strNat (n : Nat) : Str := (decimal n).map UInt8.toNat

/-- `str` of an integer. -/
def strInt (i : Int) : Str := if i < 0 then 45 :: strNat i.natAbs else strNat i.natAbs

def isDigit (c : Nat) : Bool := decide (48 ≤ c ∧ c ≤ 57)

/-- `[0-9a-f]`. -/
def isHex (c : Nat) : Bool := decide ((48 ≤ c ∧ c ≤ 57) ∨ (97 ≤ c ∧ c ≤ 102))

theorem isDigit_strNat {n c : Nat} (h : c ∈ strNat n) : isDigit c = true := by
  obtain ⟨d, hd, rfl⟩ := List.mem_map.mp h
  have hdigit := isDigit_decimal hd
  simp only [Lib.isDigit, decide_eq_true_eq, UInt8.le_iff_toNat_le] at hdigit
  simpa [isDigit] using hdigit

theorem strNat_ne_nil (n : Nat) : strNat n ≠ [] := by
  simpa [strNat] using decimal_ne_nil n

theorem strNat_inj {m n : Nat} (h : strNat m = strNat n) : m = n :=
  decimal_inj (List.map_injective_iff.mpr (fun _ _ => UInt8.toNat_inj.mp) h)

/-! ## UTF-8 -/

def isSurrogate (c : Nat) : Bool := decide (0xD800 ≤ c ∧ c ≤ 0xDFFF)

/-- One code point in UTF-8; a surrogate has no code. -/
def encodePoint (c : Nat) : Option Bytes :=
  if c < 0x80 then some [UInt8.ofNat c]
  else if c < 0x800 then some [UInt8.ofNat (0xC0 + c / 64), UInt8.ofNat (0x80 + c % 64)]
  else if isSurrogate c then none
  else if c < 0x10000 then
    some [UInt8.ofNat (0xE0 + c / 4096), UInt8.ofNat (0x80 + c / 64 % 64), UInt8.ofNat (0x80 + c % 64)]
  else
    some [UInt8.ofNat (0xF0 + c / 262144), UInt8.ofNat (0x80 + c / 4096 % 64), UInt8.ofNat (0x80 + c / 64 % 64),
      UInt8.ofNat (0x80 + c % 64)]

/-- `s.encode()`. -/
def encode : Str → Except Exn Bytes
  | [] => .ok []
  | c :: s => do
    let point ← match encodePoint c with
      | some bytes => .ok bytes
      | none => .error .unicodeError
    let rest ← encode s
    .ok (point ++ rest)

/-- `data.decode()` in the middle of a code point: `need` continuation bytes are owed, the next one between `low` and
`high`, and `value` holds the bits read so far. -/
def decodeFrom (need value low high : Nat) : Bytes → Except Exn Str
  | [] => if need = 0 then .ok [] else .error .unicodeError
  | b :: rest =>
    let b := b.toNat
    if need = 0 then
      if b < 0x80 then do
        let s ← decodeFrom 0 0 0 0 rest
        .ok (b :: s)
      else if 0xC2 ≤ b ∧ b ≤ 0xDF then decodeFrom 1 (b - 0xC0) 0x80 0xBF rest
      else if 0xE0 ≤ b ∧ b ≤ 0xEF then
        decodeFrom 2 (b - 0xE0) (if b = 0xE0 then 0xA0 else 0x80) (if b = 0xED then 0x9F else 0xBF) rest
      else if 0xF0 ≤ b ∧ b ≤ 0xF4 then
        decodeFrom 3 (b - 0xF0) (if b = 0xF0 then 0x90 else 0x80) (if b = 0xF4 then 0x8F else 0xBF) rest
      else .error .unicodeError
    else if low ≤ b ∧ b ≤ high then
      if need = 1 then do
        let s ← decodeFrom 0 0 0 0 rest
        .ok ((value * 64 + (b - 0x80)) :: s)
      else decodeFrom (need - 1) (value * 64 + (b - 0x80)) 0x80 0xBF rest
    else .error .unicodeError

/-- `data.decode("utf-8")`. -/
def decode (data : Bytes) : Except Exn Str := decodeFrom 0 0 0 0 data

/-- The newline translation of a text file that is read. -/
def universalNewlines : Str → Str
  | [] => []
  | 0x0D :: 0x0A :: rest => 0x0A :: universalNewlines rest
  | c :: rest => (if c = 0x0D then 0x0A else c) :: universalNewlines rest

theorem encodePoint_isSome {c : Nat} : (encodePoint c).isSome = !isSurrogate c := by
  unfold encodePoint
  by_cases hs : isSurrogate c = true
  · have hrange : 0xD800 ≤ c ∧ c ≤ 0xDFFF := by simpa [isSurrogate] using hs
    rw [if_neg (by omega), if_neg (by omega), if_pos hs, hs]
    rfl
  · rw [if_neg hs]
    simp only [Bool.not_eq_true] at hs
    rw [hs]
    repeat' split
    all_goals rfl

/-- A text is encoded unless it holds a surrogate. -/
theorem encode_ok_iff {s : Str} : (∃ data, encode s = .ok data) ↔ ∀ c ∈ s, isSurrogate c = false := by
  induction s with
  | nil => simp [encode]
  | cons c s ih =>
    have hpoint : (encodePoint c).isSome = !isSurrogate c := encodePoint_isSome
    rw [List.forall_mem_cons, ← ih, ← Bool.not_eq_true', ← hpoint]
    cases hc : encodePoint c <;> cases hs : encode s <;> simp [encode, hc, hs]

theorem encode_ascii {s : Str} (hs : ∀ c ∈ s, c < 0x80) : encode s = .ok (s.map UInt8.ofNat) := by
  induction s with
  | nil => rfl
  | cons c s ih =>
    have hc : c < 0x80 := hs c (by simp)
    rw [encode, ih (fun d hd => hs d (by simp [hd]))]
    simp [encodePoint, hc]

theorem decode_ascii {s : Str} (hs : ∀ c ∈ s, c < 0x80) : decode (s.map UInt8.ofNat) = .ok s := by
  unfold decode
  induction s with
  | nil => rfl
  | cons c s ih =>
    have hc : c < 0x80 := hs c (by simp)
    have hnat : (UInt8.ofNat c).toNat = c := by
      rw [UInt8.toNat_ofNat']
      omega
    rw [List.map_cons, decodeFrom, ih (fun d hd => hs d (by simp [hd]))]
    simp [hnat, hc]

theorem universalNewlines_eq_self {s : Str} (hs : 0x0D ∉ s) : universalNewlines s = s := by
  induction s with
  | nil => rfl
  | cons c s ih =>
    simp only [List.mem_cons, not_or] at hs
    rw [universalNewlines]
    · rw [if_neg (Ne.symm hs.1), ih hs.2]
    · intro rest h
      exact absurd h.symm hs.1

end Exasphere.Py

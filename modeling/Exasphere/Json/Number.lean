import Mathlib.Data.Nat.Log
import Exasphere.Lib.Bytes

/-!
# Numbers in JSON text

The conversions `src/core/json.cpp` takes from the standard library: `std::to_string` and `std::stoll` for a
`long long`, `std::stod` and the `%.17g` format for a `double`. A `double` is its 64 bits. A decimal text is an exact
ratio of natural numbers, rounded half to even; a result that overflows, or that is below the normal range and
inexact, sets `ERANGE` and throws `std::out_of_range`.
-/

namespace Exasphere.Json

open Exasphere.Lib

/-- What a conversion throws. `exhausted` is the fuel of the model; no parse reaches it. -/
inductive Raise
  | invalidArgument
  | outOfRange
  | exhausted
  deriving DecidableEq, Repr

/-! ## `long long` -/

def toText (i : Int64) : Bytes :=
  if i.toInt < 0 then 45 :: decimal i.toInt.natAbs else decimal i.toInt.natAbs

/-- A text without its minus sign. -/
def splitSign (s : Bytes) : Bool × Bytes := if s.head? = some 45 then (true, s.tail) else (false, s)

/-- `std::stoll` of a number token. -/
def stoll (s : Bytes) : Except Raise Int64 :=
  let (negative, s) := splitSign s
  let digits := s.takeWhile isDigit
  if digits = [] then .error .invalidArgument
  else
    let value : Int := if negative then -(readDecimal digits : Int) else readDecimal digits
    if -2 ^ 63 ≤ value ∧ value < 2 ^ 63 then .ok (Int64.ofInt value) else .error .outOfRange

/-! ## Ratios -/

def roundHalfEven (num den : Nat) : Nat :=
  let q := num / den
  let r := num % den
  if 2 * r < den ∨ (2 * r = den ∧ q % 2 = 0) then q else q + 1

/-- `num / den` times `base ^ k`. -/
def scaleRatio (base num den : Nat) (k : Int) : Nat × Nat :=
  if 0 ≤ k then (num * base ^ k.toNat, den) else (num, den * base ^ (-k).toNat)

/-- The greatest `k` with `base ^ k ≤ num / den`. -/
def ratioLog (base num den : Nat) : Int :=
  let k : Int := (Nat.log base num : Int) - Nat.log base den
  let (n, d) := scaleRatio base num den (-k)
  if n < d then k - 1 else k

/-! ## `double` -/

structure Double where
  bits : UInt64
  deriving DecidableEq, Repr

namespace Double

def ofParts (negative : Bool) (exponent fraction : Nat) : Double :=
  ⟨UInt64.ofNat ((if negative then 2 ^ 63 else 0) + exponent * 2 ^ 52 + fraction)⟩

def negative (d : Double) : Bool := decide (2 ^ 63 ≤ d.bits.toNat)
def exponent (d : Double) : Nat := d.bits.toNat / 2 ^ 52 % 2 ^ 11
def fraction (d : Double) : Nat := d.bits.toNat % 2 ^ 52

/-- `std::isnan` or `std::isinf`. -/
def isNanOrInf (d : Double) : Bool := decide (d.exponent = 2 ^ 11 - 1)

/-- The nearest `double` to `num / den`. -/
def ofRatio (negative : Bool) (num den : Nat) : Except Raise Double :=
  if num = 0 then .ok (ofParts negative 0 0)
  else
    let e := ratioLog 2 num den
    let (n, d) := scaleRatio 2 num den (52 - e)
    let mantissa := roundHalfEven n d
    let e := if mantissa = 2 ^ 53 then e + 1 else e
    if 1023 < e then .error .outOfRange
    else if -1022 ≤ e then
      .ok (ofParts negative (e + 1023).toNat (if mantissa = 2 ^ 53 then 0 else mantissa - 2 ^ 52))
    -- below the normal range only an exact result keeps `errno`
    else if num * 2 ^ 1074 % den = 0 then .ok (ofParts negative 0 (num * 2 ^ 1074 / den))
    else .error .outOfRange

/-- The absolute value as a ratio. -/
def ratio (d : Double) : Nat × Nat :=
  if d.exponent = 0 then (d.fraction, 2 ^ 1074)
  else scaleRatio 2 (2 ^ 52 + d.fraction) 1 ((d.exponent : Int) - 1075)

end Double

/-- The digits after the decimal point, and the text after them. -/
def splitFraction (s : Bytes) : Bytes × Bytes :=
  if s.head? = some 46 then (s.tail.takeWhile isDigit, s.tail.dropWhile isDigit) else ([], s)

/-- The exponent at the start of a text; one without digits is not part of the number. -/
def readExponent (s : Bytes) : Int :=
  if s.head? = some 101 ∨ s.head? = some 69 then
    let (negative, t) := splitSign s.tail
    let t := if t.head? = some 43 ∧ ¬negative then t.tail else t
    let digits := t.takeWhile isDigit
    if negative then -(readDecimal digits : Int) else readDecimal digits
  else 0

/-- `std::stod` of a number token. -/
def stod (s : Bytes) : Except Raise Double :=
  let (negative, s) := splitSign s
  let int := s.takeWhile isDigit
  let (frac, s) := splitFraction (s.dropWhile isDigit)
  if int ++ frac = [] then .error .invalidArgument
  else
    let (num, den) := scaleRatio 10 (readDecimal (int ++ frac)) 1 (readExponent s - frac.length)
    Double.ofRatio negative num den

/-! ## `%.17g` -/

def stripZeros (s : Bytes) : Bytes := (s.reverse.dropWhile (· = 48)).reverse

/-- A decimal point and the digits after it, without trailing zeros. -/
def fractionText (digits : Bytes) : Bytes :=
  if stripZeros digits = [] then [] else 46 :: stripZeros digits

/-- The exponent of the `e` style has two digits at least. -/
def exponentText (x : Int) : Bytes :=
  101 :: (if x < 0 then 45 else 43) :: (if x.natAbs < 10 then [48] else []) ++ decimal x.natAbs

/-- 17 digits `d₀ d₁ …` of the number `d₀.d₁… * 10 ^ x`. -/
def styleG (digits : Bytes) (x : Int) : Bytes :=
  if x < -4 ∨ 17 ≤ x then digits.take 1 ++ fractionText (digits.drop 1) ++ exponentText x
  else if 0 ≤ x then digits.take (x.toNat + 1) ++ fractionText (digits.drop (x.toNat + 1))
  else 48 :: fractionText (List.replicate ((-x).toNat - 1) 48 ++ digits)

/-- `std::snprintf(buf, sizeof(buf), "%.17g", d)` of a finite `d`. -/
def formatG17 (d : Double) : Bytes :=
  let (num, den) := d.ratio
  let sign : Bytes := if d.negative then [45] else []
  if num = 0 then sign ++ [48]
  else
    let x := ratioLog 10 num den
    let (n, m) := scaleRatio 10 num den (16 - x)
    let digits := roundHalfEven n m
    if digits = 10 ^ 17 then sign ++ styleG (decimal (10 ^ 16)) (x + 1)
    else sign ++ styleG (decimal digits) x

end Exasphere.Json

import Mathlib.Tactic.Positivity
import Exasphere.Lib.Bytes

/-!
# Formatted extraction from a text stream

`ss >> x` of a stream over a string: white space is skipped, then a word or a number is read. An extraction that finds
none fails, and so does every later one.

- `word` reads a run of bytes other than white space, and leaves the variable as it is when it fails;
- `number` reads an optional sign and digits; what is stored for them, and whether they fit, is the `Reading` of the
  integer type (`signedReading`, `unsignedReading`);
- `numbers` is the loop `while (ss >> v)`; `numbers_of_none` and `numbers_of_some` are its two turns;
- `words` is the loop `while (ss >> tok)` (`words_of_word`).

For a text that is written as a sequence of runs, `word_run`, `number_run` and `numbers_fields` say what is read, and
`number_signedText` for a printed integer.

`convert` is the conversion of a whole text to a number, `std::stoi` and its kind: it throws where `number` fails, and
does not look at what follows the digits. `atoi` throws nothing.
-/

namespace Exasphere.Lib

/-- The text that is left, or `none` once an extraction has failed. -/
abbrev IStream := Option Bytes

/-- The value stored for a sign and a magnitude, and whether it is theirs. -/
abbrev Reading (α : Type*) := Bool → Nat → α × Bool

/-- A signed type of `w + 1` bits; out of range it stores the limit. -/
def signedReading (w : Nat) : Reading Int := fun negative magnitude =>
  let v : Int := if negative then -magnitude else magnitude
  if v < -2 ^ w then (-2 ^ w, false) else if 2 ^ w ≤ v then (2 ^ w - 1, false) else (v, true)

/-- An unsigned type of `w` bits; a sign negates modulo `2 ^ w`. -/
def unsignedReading (w : Nat) : Reading Nat := fun negative magnitude =>
  if magnitude < 2 ^ w then (if negative then (2 ^ w - magnitude) % 2 ^ w else magnitude, true) else (2 ^ w - 1, false)

/-! ## Readings of magnitudes -/

section Readings

variable {w n : Nat}

theorem signedReading_of_lt (h : n < 2 ^ w) : signedReading w false n = ((n : Int), true) := by
  have hn : (n : Int) < 2 ^ w := by exact_mod_cast h
  have hpos : (0 : Int) < 2 ^ w := by positivity
  have hlow : ¬(n : Int) < -2 ^ w := by omega
  simp only [signedReading, Bool.false_eq_true, if_false]
  rw [if_neg hlow, if_neg (by omega)]

theorem signedReading_of_le (h : 2 ^ w ≤ n) : (signedReading w false n).2 = false := by
  have hn : (2 : Int) ^ w ≤ n := by exact_mod_cast h
  have hpos : (0 : Int) < 2 ^ w := by positivity
  have hlow : ¬(n : Int) < -2 ^ w := by omega
  simp only [signedReading, Bool.false_eq_true, if_false]
  rw [if_neg hlow, if_pos hn]

theorem signedReading_fits_iff : (signedReading w false n).2 = true ↔ n < 2 ^ w := by
  rcases Nat.lt_or_ge n (2 ^ w) with h | h
  · simp [signedReading_of_lt h, h]
  · rw [signedReading_of_le h]
    simp only [Bool.false_eq_true, false_iff]
    omega

theorem unsignedReading_fits_iff {negative : Bool} : (unsignedReading w negative n).2 = true ↔ n < 2 ^ w := by
  unfold unsignedReading
  split <;> simp [*]

end Readings

/-- A nonempty text of bytes that satisfy `p`. -/
structure Run (p : UInt8 → Bool) where
  bytes : Bytes
  ne : bytes ≠ []
  all : ∀ c ∈ bytes, p c = true

namespace IStream

variable {α : Type*}

/-- White space of the classic locale. -/
def isSpace (c : UInt8) : Bool := decide (c = 32 ∨ (9 ≤ c ∧ c ≤ 13))

def notSpace (c : UInt8) : Bool := !isSpace c

/-- The stream behind the white space; the end of the text is a failure. -/
def skipws (ss : IStream) : IStream :=
  ss.bind fun text => if text.dropWhile isSpace = [] then none else some (text.dropWhile isSpace)

/-- `ss >> tok` for a string. -/
def word (ss : IStream) (tok : Bytes) : IStream × Bytes :=
  match ss.skipws with
  | none => (none, tok)
  | some text => (some (text.dropWhile notSpace), text.takeWhile notSpace)

/-- The sign at the head of a text, and what follows it. -/
def takeSign (text : Bytes) : Bool × Bytes :=
  if text.head? = some 45 then (true, text.tail)
  else if text.head? = some 43 then (false, text.tail)
  else (false, text)

/-- The bytes a number starts with. -/
def startsNumber (c : UInt8) : Bool := isDigit c || c == 43 || c == 45

/-- `ss >> v` for an integer. Without a digit a zero is stored. -/
def number (read : Reading α) (ss : IStream) (v : α) : IStream × α :=
  match ss.skipws with
  | none => (none, v)
  | some text =>
    let (negative, text) := takeSign text
    let digits := text.takeWhile isDigit
    if digits = [] then (none, (read false 0).1)
    else
      let (v, fits) := read negative (readDecimal digits)
      (if fits then some (text.dropWhile isDigit) else none, v)

/-- The values that `while (ss >> v)` visits in a bounded number of turns. -/
def numbersFrom (read : Reading α) : Nat → IStream → List α
  | 0, _ => []
  | turns + 1, ss =>
    match number read ss (read false 0).1 with
    | (none, _) => []
    | (some rest, v) => v :: numbersFrom read turns (some rest)

/-- `while (ss >> v)`: every turn takes a digit off the text, so its length bounds them. -/
def numbers (read : Reading α) (ss : IStream) : List α :=
  numbersFrom read (ss.getD []).length ss

/-- The words that `while (ss >> tok)` visits. -/
def words (ss : IStream) : List Bytes :=
  ((ss.getD []).splitOnP isSpace).filter (fun w => decide (w ≠ []))

/-! ## Turns of the loop -/

section Turns

variable {read : Reading α} {ss : IStream} {text rest : Bytes} {v x : α}

theorem numbersFrom_of_none (h : (number read ss (read false 0).1).1 = none) (turns : Nat) :
    numbersFrom read turns ss = [] := by
  cases turns with
  | zero => rfl
  | succ turns =>
    unfold numbersFrom
    split
    · rfl
    next rest v hsome =>
      rw [hsome] at h
      cases h

theorem numbers_of_none (h : (number read ss (read false 0).1).1 = none) : numbers read ss = [] :=
  numbersFrom_of_none h _

end Turns

/-! ## Texts written as runs -/

section Runs

variable {read : Reading α} {gap t trail : Bytes} {p q : UInt8 → Bool}

theorem halts_mono (h : ∀ c, q c = true → p c = true) (ht : Halts p t) : Halts q t := by
  intro c hc
  have hp := ht c hc
  by_contra hq
  rw [h c (by simpa using hq)] at hp
  cases hp

/-- A run of `p` ends a run of what `p` excludes. -/
theorem halts_run (r : Run p) (h : ∀ c, p c = true → q c = false) : Halts q (r.bytes ++ t) := by
  intro c hc
  apply h c
  rw [List.head?_append_of_ne_nil _ r.ne] at hc
  exact r.all c (List.mem_of_mem_head? hc)

theorem isSpace_of_isDigit (c : UInt8) (h : isDigit c = true) : isSpace c = false := by
  simp only [isDigit, decide_eq_true_eq, UInt8.le_iff_toNat_le] at h
  simp only [isSpace, decide_eq_false_iff_not, UInt8.le_iff_toNat_le, ← UInt8.toNat_inj]
  simp at *
  omega

theorem skipws_run (hgap : ∀ c ∈ gap, isSpace c = true) (hne : t ≠ []) (ht : Halts isSpace t) :
    skipws (some (gap ++ t)) = some t := by
  simp only [skipws, Option.bind_some]
  rw [dropWhile_run hgap ht, if_neg hne]

/-- A word behind white space is read. -/
theorem word_run (hgap : ∀ c ∈ gap, isSpace c = true) (w : Run notSpace) (ht : Halts notSpace t) (tok : Bytes) :
    word (some (gap ++ (w.bytes ++ t))) tok = (some t, w.bytes) := by
  have hhead : Halts isSpace (w.bytes ++ t) := halts_run w (fun c hc => by simpa [notSpace] using hc)
  unfold word
  rw [skipws_run hgap (by simp [w.ne]) hhead]
  dsimp only
  rw [dropWhile_run w.all ht, takeWhile_run w.all ht]

theorem takeSign_of_head (hminus : t.head? ≠ some 45) (hplus : t.head? ≠ some 43) : takeSign t = (false, t) := by
  rw [takeSign, if_neg hminus, if_neg hplus]

theorem head_ne_of_halts {c : UInt8} (ht : Halts p t) (hc : p c = true) : t.head? ≠ some c := by
  intro h
  have := ht c h
  rw [hc] at this
  cases this

/-- No number is read where none starts. -/
theorem number_stuck (hgap : ∀ c ∈ gap, isSpace c = true) (hne : t ≠ []) (hspace : Halts isSpace t)
    (ht : Halts startsNumber t) (v : α) : (number read (some (gap ++ t)) v).1 = none := by
  have hdigits : t.takeWhile isDigit = [] := by
    have hhalts : Halts isDigit t := halts_mono (fun c hc => by simp [startsNumber, hc]) ht
    simpa using takeWhile_run (s := []) (by simp) hhalts
  unfold number
  rw [skipws_run hgap hne hspace]
  dsimp only
  rw [takeSign_of_head (head_ne_of_halts ht (by decide)) (head_ne_of_halts ht (by decide))]
  dsimp only
  rw [hdigits, if_pos rfl]

theorem words_cons_space {c : UInt8} (hc : isSpace c = true) : words (some (c :: t)) = words (some t) := by
  simp [words, List.splitOnP_cons_eq_if_modifyHead, hc]

theorem words_dropWhile : words (some (t.dropWhile isSpace)) = words (some t) := by
  induction t with
  | nil => rfl
  | cons c t ih =>
    cases hc : isSpace c with
    | true => rw [List.dropWhile_cons_of_pos hc, ih, words_cons_space hc]
    | false => rw [List.dropWhile_cons_of_neg (by simp [hc])]

theorem words_append {w : Bytes} (hne : w ≠ []) (hw : ∀ c ∈ w, isSpace c = false) (ht : Halts notSpace t) :
    words (some (w ++ t)) = w :: words (some t) := by
  cases t with
  | nil => simp [words, List.splitOnP_eq_singleton hw, hne]
  | cons c t =>
    have hc : isSpace c = true := by simpa [notSpace] using ht c rfl
    rw [words_cons_space hc]
    simp only [words, Option.getD_some]
    rw [List.splitOnP_append_cons_of_forall_mem hw c hc, List.filter_cons_of_pos (by simpa using hne)]

/-- The loop over words is a word and the loop over what is left. -/
theorem words_of_word {ss : IStream} {rest w tok : Bytes} (h : word ss tok = (some rest, w)) :
    words ss = w :: words (some rest) := by
  unfold word at h
  split at h
  · cases h
  next text hskip =>
    obtain ⟨full, rfl⟩ : ∃ full, ss = some full := by
      cases ss with
      | none => cases hskip
      | some full => exact ⟨full, rfl⟩
    simp only [skipws, Option.bind_some] at hskip
    split at hskip
    · cases hskip
    next hne =>
      obtain rfl := Option.some.inj hskip
      obtain ⟨hrest, rfl⟩ := Prod.mk.inj h
      obtain rfl := Option.some.inj hrest
      rw [← words_dropWhile]
      have hhead : Halts isSpace (full.dropWhile isSpace) := halts_dropWhile
      generalize full.dropWhile isSpace = text at hne hhead ⊢
      conv_lhs => rw [← List.takeWhile_append_dropWhile (p := notSpace) (l := text)]
      apply words_append
      · obtain ⟨c, t, rfl⟩ := List.exists_cons_of_ne_nil hne
        have hc := hhead c rfl
        simp [notSpace, hc]
      · intro c hc
        simpa [notSpace] using List.all_eq_true.mp List.all_takeWhile c hc
      · exact halts_dropWhile

theorem word_ne_nil {ss : IStream} {rest w tok : Bytes} (h : word ss tok = (some rest, w)) : w ≠ [] := by
  have hmem : w ∈ words ss := by
    rw [words_of_word h]
    exact List.mem_cons_self
  simpa using (List.mem_filter.mp hmem).2

end Runs

/-! ## Printed integers -/

section Signed

variable {gap t : Bytes}

/-- An integer in decimal. -/
def signedText (v : Int) : Bytes := if v < 0 then 45 :: decimal v.natAbs else decimal v.natAbs

theorem signedText_ne_nil (v : Int) : signedText v ≠ [] := by
  unfold signedText
  split
  · simp
  · exact decimal_ne_nil _

theorem signedText_byte {v : Int} {c : UInt8} (h : c ∈ signedText v) : c = 45 ∨ isDigit c = true := by
  unfold signedText at h
  split at h
  · exact (List.mem_cons.mp h).imp_right isDigit_decimal
  · exact Or.inr (isDigit_decimal h)

theorem takeSign_signedText (v : Int) (t : Bytes) :
    takeSign (signedText v ++ t) = (decide (v < 0), decimal v.natAbs ++ t) := by
  unfold signedText
  split
  next hv => simp [takeSign, hv]
  next hv =>
    have hhead : Halts (fun c => !isDigit c) (decimal v.natAbs ++ t) := by
      intro c hc
      rw [List.head?_append_of_ne_nil _ (decimal_ne_nil _)] at hc
      simp [isDigit_decimal (List.mem_of_mem_head? hc)]
    rw [takeSign_of_head (head_ne_of_halts hhead (by decide)) (head_ne_of_halts hhead (by decide))]
    simp [hv]

theorem signedReading_natAbs {w : Nat} {v : Int} (hlow : -2 ^ w ≤ v) (hhigh : v < 2 ^ w) :
    signedReading w (decide (v < 0)) v.natAbs = (v, true) := by
  have habs : (if decide (v < 0) = true then -(v.natAbs : Int) else v.natAbs) = v := by
    by_cases hv : v < 0
    · rw [if_pos (decide_eq_true hv)]
      omega
    · rw [if_neg (by simpa using hv)]
      omega
  unfold signedReading
  dsimp only
  rw [habs, if_neg (not_lt.mpr hlow), if_neg (not_le.mpr hhigh)]

/-- A printed integer that fits is read behind white space. -/
theorem number_signedText {w : Nat} {v : Int} (hgap : ∀ c ∈ gap, isSpace c = true) (ht : Halts isDigit t)
    (hlow : -2 ^ w ≤ v) (hhigh : v < 2 ^ w) (x : Int) :
    number (signedReading w) (some (gap ++ (signedText v ++ t))) x = (some t, v) := by
  have hhead : Halts isSpace (signedText v ++ t) := by
    intro c hc
    rw [List.head?_append_of_ne_nil _ (signedText_ne_nil v)] at hc
    rcases signedText_byte (List.mem_of_mem_head? hc) with rfl | hd
    · decide
    · exact isSpace_of_isDigit c hd
  unfold number
  rw [skipws_run hgap (by simp [signedText_ne_nil]) hhead]
  dsimp only
  rw [takeSign_signedText]
  dsimp only
  rw [takeWhile_run (fun c hc => isDigit_decimal hc) ht, dropWhile_run (fun c hc => isDigit_decimal hc) ht,
    if_neg (decimal_ne_nil _), readDecimal_decimal, signedReading_natAbs hlow hhigh, if_pos rfl]

end Signed

/-! ## Conversions -/

section Convert

/-- The sign and the digits that a text starts with, behind white space. -/
def numeral (s : Bytes) : Bool × Bytes :=
  let (negative, text) := takeSign (s.dropWhile isSpace)
  (negative, text.takeWhile isDigit)

/-- What a conversion throws. -/
inductive ConversionError
  | invalidArgument
  | outOfRange
deriving DecidableEq

def convert (read : Reading α) (s : Bytes) : Except ConversionError α :=
  let (negative, digits) := numeral s
  if digits = [] then .error .invalidArgument
  else
    let (v, fits) := read negative (readDecimal digits)
    if fits then .ok v else .error .outOfRange

/-- `std::atoi`, by way of a `long`. -/
def atoi (s : Bytes) : Int32 := Int32.ofInt (signedReading 63 (numeral s).1 (readDecimal (numeral s).2)).1

/-- A text converts if it starts with a number that fits. -/
def Converts (read : Reading α) (s : Bytes) : Prop :=
  (numeral s).2 ≠ [] ∧ (read (numeral s).1 (readDecimal (numeral s).2)).2 = true

variable {read : Reading α} {s : Bytes} {v : α}

theorem convert_ok_iff : convert read s = .ok v ↔
    Converts read s ∧ (read (numeral s).1 (readDecimal (numeral s).2)).1 = v := by
  unfold convert Converts
  by_cases hdigits : (numeral s).2 = []
  · simp [hdigits]
  · cases hfits : (read (numeral s).1 (readDecimal (numeral s).2)).2 with
    | false => simp [hdigits, hfits]
    | true => simp [hdigits, hfits]

theorem exists_convert_iff : (∃ v, convert read s = .ok v) ↔ Converts read s := by
  simp [convert_ok_iff]

/-- A text that starts with a digit has no sign. -/
theorem numeral_of_digit (h : s.head?.any isDigit = true) : numeral s = (false, s.takeWhile isDigit) := by
  obtain ⟨c, hc, hdigit⟩ := (Option.any_eq_true ..).mp h
  have hspace : s.dropWhile isSpace = s := by
    have hhalts : Halts isSpace s := by
      intro d hd
      obtain rfl := Option.some.inj (hc.symm.trans hd)
      exact isSpace_of_isDigit c hdigit
    simpa using dropWhile_run (s := []) (by simp) hhalts
  have hsign : ∀ d, isDigit d = false → s.head? ≠ some d := by
    intro d hd hhead
    obtain rfl := Option.some.inj (hc.symm.trans hhead)
    rw [hdigit] at hd
    cases hd
  have htake : takeSign s = (false, s) := takeSign_of_head (hsign 45 (by decide)) (hsign 43 (by decide))
  simp only [numeral, hspace, htake]

/-- A text of digits alone. -/
theorem numeral_digits (hne : s ≠ []) (h : ∀ c ∈ s, isDigit c = true) : numeral s = (false, s) := by
  have hhead : s.head?.any isDigit = true := by
    obtain ⟨c, t, rfl⟩ := List.exists_cons_of_ne_nil hne
    exact h c (by simp)
  have hself := takeWhile_run h halts_nil
  rw [List.append_nil] at hself
  rw [numeral_of_digit hhead, hself]

/-- A printed number that an `int` holds. -/
theorem atoi_decimal {n : Nat} {t : Bytes} (hn : n < 2 ^ 31) (ht : Halts isDigit t) :
    atoi (decimal n ++ t) = Int32.ofNat n := by
  have hhead : (decimal n ++ t).head?.any isDigit = true := by
    obtain ⟨c, rest, hdec⟩ := List.exists_cons_of_ne_nil (decimal_ne_nil n)
    rw [hdec, List.cons_append, List.head?_cons, Option.any_some]
    exact isDigit_decimal (n := n) (by simp [hdec])
  have hfits : signedReading 63 false n = ((n : Int), true) := signedReading_of_lt (by omega)
  rw [atoi, numeral_of_digit hhead, takeWhile_run (fun c hc => isDigit_decimal hc) ht]
  dsimp only
  rw [readDecimal_decimal, hfits]
  rfl

end Convert

end IStream

end Exasphere.Lib

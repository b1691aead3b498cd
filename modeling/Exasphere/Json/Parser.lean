import Exasphere.Lib.Checked
import Exasphere.Json.Value

/-!
# The parser (`src/core/json.cpp`)

The `Parser` of the source reads a `string_view` from a position; here the state is the rest of the input from that
position on. `peek` at the end of the input is a NUL byte, which no test of the source asks for, so `peek() == c` is
`accept`. An error is the value `null` together with the position where the parser gave up; only the number
conversions throw. Recursion and loops take fuel; the length of the input is enough (`parse_ne_exhausted`).
-/

namespace Exasphere.Json

open Exasphere.Lib

/-! ## Tokens -/

def isWhite (c : UInt8) : Bool := decide (c = 32 ∨ c = 9 ∨ c = 10 ∨ c = 13)

def skipWs (s : Bytes) : Bytes := s.dropWhile isWhite

/-- `if (peek() == c) next()`: the rest after `c`. -/
def accept (c : UInt8) (s : Bytes) : Option Bytes := if s.head? = some c then some s.tail else none

/-- `isspace` of the C locale. -/
def isSpace (c : UInt8) : Bool := decide (c = 32 ∨ (9 ≤ c ∧ c ≤ 13))

def hexValue (c : UInt8) : Option Nat :=
  if isDigit c then some (digitValue c)
  else if 97 ≤ c ∧ c ≤ 102 then some (c.toNat - 87)
  else if 65 ≤ c ∧ c ≤ 70 then some (c.toNat - 55)
  else none

def readHex (s : Bytes) : Nat :=
  ((s.map hexValue).takeWhile Option.isSome).foldl (fun n d => 16 * n + d.getD 0) 0

/-- A `0x` before a digit. -/
def dropHexMark (s : Bytes) : Bytes :=
  if s.head? = some 48 ∧ (s[1]? = some 120 ∨ s[1]? = some 88) ∧ (s[2]?.bind hexValue).isSome then s.drop 2 else s

/-- `std::strtoul(hex.c_str(), nullptr, 16)` of at most four bytes. -/
def strtoul16 (s : Bytes) : Nat :=
  let (negative, s) := splitSign (s.dropWhile isSpace)
  let s := if s.head? = some 43 ∧ ¬negative then s.tail else s
  let value := readHex (dropHexMark s)
  if negative then (2 ^ 64 - value) % 2 ^ 64 else value

/-- The bytes appended for the code point of a `\u` escape; `static_cast<char>` keeps the low byte. -/
def encodeCodePoint (cp : Nat) : Bytes :=
  if cp < 0x80 then [UInt8.ofNat cp]
  else if cp < 0x800 then [UInt8.ofNat (0xC0 ||| cp >>> 6), UInt8.ofNat (0x80 ||| cp &&& 0x3F)]
  else [UInt8.ofNat (0xE0 ||| cp >>> 12), UInt8.ofNat (0x80 ||| (cp >>> 6) &&& 0x3F),
    UInt8.ofNat (0x80 ||| cp &&& 0x3F)]

/-- The byte of an escape other than `\u`. -/
def unescape (esc : UInt8) : UInt8 :=
  if esc = 98 then 8
  else if esc = 102 then 12
  else if esc = 110 then 10
  else if esc = 114 then 13
  else if esc = 116 then 9
  else esc

/-- The loop of `parse_string` after the opening quote: the decoded bytes and the rest of the input. -/
def parseString : Bytes → Bytes × Bytes
  | [] => ([], [])
  | c :: s =>
    if c = 34 then ([], s)
    else if c ≠ 92 then ((parseString s).1.cons c, (parseString s).2)
    else match s with
      -- `next()` at the end is a NUL byte
      | [] => ([0], [])
      | esc :: s =>
        if esc ≠ 117 then ((parseString s).1.cons (unescape esc), (parseString s).2)
        else match s with
          | h₁ :: h₂ :: h₃ :: h₄ :: s =>
            (encodeCodePoint (strtoul16 [h₁, h₂, h₃, h₄]) ++ (parseString s).1, (parseString s).2)
          | hex => (encodeCodePoint (strtoul16 hex), [])

section Strings

variable {c : UInt8} {t : Bytes}

@[simp] theorem parseString_quote : parseString (34 :: t) = ([], t) := by
  rw [parseString.eq_def]
  simp

theorem parseString_plain (h₁ : c ≠ 34) (h₂ : c ≠ 92) :
    parseString (c :: t) = (c :: (parseString t).1, (parseString t).2) := by
  rw [parseString.eq_def]
  simp [h₁, h₂]

theorem parseString_backslash (h : c ≠ 117) :
    parseString (92 :: c :: t) = (unescape c :: (parseString t).1, (parseString t).2) := by
  rw [parseString.eq_def]
  simp [h]

theorem parseString_unicode (h₁ h₂ h₃ h₄ : UInt8) : parseString (92 :: 117 :: h₁ :: h₂ :: h₃ :: h₄ :: t) =
    (encodeCodePoint (strtoul16 [h₁, h₂, h₃, h₄]) ++ (parseString t).1, (parseString t).2) := by
  rw [parseString.eq_def]
  simp

end Strings

/-- A number token: its text, whether it is a `double`, and the rest of the input. -/
structure Token where
  text : Bytes
  isDouble : Bool
  rest : Bytes
  deriving DecidableEq

/-- The optional fraction of a number. -/
def scanFraction (s : Bytes) : Bytes × Bytes :=
  match accept 46 s with
  | some t => (46 :: t.takeWhile isDigit, t.dropWhile isDigit)
  | none => ([], s)

/-- The optional sign of an exponent. -/
def scanExponentSign (s : Bytes) : Bytes × Bytes :=
  match s with
  | c :: t => if c = 43 ∨ c = 45 then ([c], t) else ([], s)
  | [] => ([], [])

/-- The optional exponent of a number. -/
def scanExponent (s : Bytes) : Bytes × Bytes :=
  match s with
  | c :: t =>
    if c = 101 ∨ c = 69 then
      let (sign, t) := scanExponentSign t
      (c :: sign ++ t.takeWhile isDigit, t.dropWhile isDigit)
    else ([], s)
  | [] => ([], [])

def scanNumber (s : Bytes) : Token :=
  let (negative, t) := splitSign s
  let int := t.takeWhile isDigit
  let (frac, t) := scanFraction (t.dropWhile isDigit)
  let (exp, t) := scanExponent t
  { text := (if negative then [45] else []) ++ int ++ frac ++ exp
    isDouble := !frac.isEmpty || !exp.isEmpty
    rest := t }

/-! ## Values -/

/-- A value and the rest of the input. -/
abbrev Parsed := Value × Bytes

def parseNumber (s : Bytes) : Except Raise Parsed := do
  let token := scanNumber s
  if token.isDouble then
    let d ← stod token.text
    .ok (.double d, token.rest)
  else
    let i ← stoll token.text
    .ok (.int i, token.rest)

def parseBool (s : Bytes) : Parsed :=
  if s.take 4 = [116, 114, 117, 101] then (.bool true, s.drop 4)
  else if s.take 5 = [102, 97, 108, 115, 101] then (.bool false, s.drop 5)
  else (.null, s)

def parseNull (s : Bytes) : Parsed := if s.take 4 = [110, 117, 108, 108] then (.null, s.drop 4) else (.null, s)

section Containers

variable (parseValue : Bytes → Except Raise Parsed)

/-- The loop of `parse_object`. -/
def membersLoop : Nat → List (Bytes × Value) → Bytes → Except Raise Parsed
  | 0, _, _ => .error .exhausted
  | fuel + 1, obj, s =>
    match accept 34 (skipWs s) with
    | none => .ok (.null, skipWs s)
    | some s =>
      let (key, s) := parseString s
      match accept 58 (skipWs s) with
      | none => .ok (.null, skipWs s)
      | some s => do
        let (val, s) ← parseValue s
        let obj := insertKey key val obj
        match accept 44 (skipWs s) with
        | some s => membersLoop fuel obj s
        | none =>
          match accept 125 (skipWs s) with
          | some s => .ok (.object obj, s)
          | none => .ok (.null, skipWs s)

/-- `parse_object` after the opening brace. -/
def parseObject (fuel : Nat) (s : Bytes) : Except Raise Parsed :=
  match accept 125 (skipWs s) with
  | some s => .ok (.object [], s)
  | none => membersLoop parseValue fuel [] (skipWs s)

/-- The loop of `parse_array`. -/
def itemsLoop : Nat → List Value → Bytes → Except Raise Parsed
  | 0, _, _ => .error .exhausted
  | fuel + 1, arr, s => do
    let (val, s) ← parseValue s
    let arr := arr ++ [val]
    match accept 44 (skipWs s) with
    | some s => itemsLoop fuel arr s
    | none =>
      match accept 93 (skipWs s) with
      | some s => .ok (.array arr, s)
      | none => .ok (.null, skipWs s)

/-- `parse_array` after the opening bracket. -/
def parseArray (fuel : Nat) (s : Bytes) : Except Raise Parsed :=
  match accept 93 (skipWs s) with
  | some s => .ok (.array [], s)
  | none => itemsLoop parseValue fuel [] (skipWs s)

end Containers

def parseValue : Nat → Bytes → Except Raise Parsed
  | 0, _ => .error .exhausted
  | fuel + 1, s =>
    match skipWs s with
    | [] => .ok (.null, [])
    | c :: t =>
      if c = 123 then parseObject (parseValue fuel) fuel t
      else if c = 91 then parseArray (parseValue fuel) fuel t
      else if c = 34 then .ok (.string (parseString t).1, (parseString t).2)
      else if c = 116 ∨ c = 102 then .ok (parseBool (c :: t))
      else if c = 110 then .ok (parseNull (c :: t))
      else if c = 45 ∨ isDigit c then parseNumber (c :: t)
      else .ok (.null, c :: t)

def parse (input : Bytes) : Except Raise Value := do
  let (v, rest) ← parseValue (input.length + 1) input
  if skipWs rest ≠ [] then .ok .null else .ok v

/-! ## The invariant -/

section WellFormed

variable {pv : Bytes → Except Raise Parsed} {fuel : Nat} {s rest : Bytes} {v : Value}

theorem membersLoop_wellFormed (hpv : ∀ s v rest, pv s = .ok (v, rest) → v.WellFormed) {obj : List (Bytes × Value)}
    (hinc : Increasing obj) (hobj : allMembers Value.increasing obj = true)
    (h : membersLoop pv fuel obj s = .ok (v, rest)) : v.WellFormed := by
  induction fuel generalizing obj s with
  | zero => simp [membersLoop] at h
  | succ fuel ih =>
    rw [membersLoop] at h
    split at h
    · obtain ⟨rfl, -⟩ := Prod.mk.inj (Except.ok.inj h)
      rfl
    next t ht =>
      simp only at h
      split at h
      · obtain ⟨rfl, -⟩ := Prod.mk.inj (Except.ok.inj h)
        rfl
      · obtain ⟨⟨val, r⟩, hval, h⟩ := bind_eq_ok.mp h
        have hset := allMembers_insertKey (k := (parseString t).1) hobj (hpv _ _ _ hval)
        simp only at h
        split at h
        · exact ih (insertKey_increasing hinc) hset h
        · split at h
          · obtain ⟨rfl, -⟩ := Prod.mk.inj (Except.ok.inj h)
            simp only [Value.WellFormed, Value.all, Value.increasing, Bool.and_eq_true, decide_eq_true_eq]
            exact ⟨insertKey_increasing hinc, hset⟩
          · obtain ⟨rfl, -⟩ := Prod.mk.inj (Except.ok.inj h)
            rfl

theorem itemsLoop_wellFormed (hpv : ∀ s v rest, pv s = .ok (v, rest) → v.WellFormed) {arr : List Value}
    (harr : allItems Value.increasing arr = true) (h : itemsLoop pv fuel arr s = .ok (v, rest)) : v.WellFormed := by
  induction fuel generalizing arr s with
  | zero => simp [itemsLoop] at h
  | succ fuel ih =>
    rw [itemsLoop] at h
    obtain ⟨⟨val, r⟩, hval, h⟩ := bind_eq_ok.mp h
    have hpush := allItems_append harr (hpv _ _ _ hval)
    simp only at h
    split at h
    · exact ih hpush h
    · split at h
      · obtain ⟨rfl, -⟩ := Prod.mk.inj (Except.ok.inj h)
        simp only [Value.WellFormed, Value.all, Value.increasing, Bool.true_and]
        exact hpush
      · obtain ⟨rfl, -⟩ := Prod.mk.inj (Except.ok.inj h)
        rfl

theorem parseBool_wellFormed (s : Bytes) : (parseBool s).1.WellFormed := by
  unfold parseBool
  split
  · rfl
  · split <;> rfl

theorem parseNull_wellFormed (s : Bytes) : (parseNull s).1.WellFormed := by
  unfold parseNull
  split <;> rfl

theorem parseNumber_wellFormed (h : parseNumber s = .ok (v, rest)) : v.WellFormed := by
  unfold parseNumber at h
  simp only at h
  split at h
  · simp only [bind_eq_ok, Except.ok.injEq, Prod.mk.injEq] at h
    obtain ⟨d, -, rfl, -⟩ := h
    rfl
  · simp only [bind_eq_ok, Except.ok.injEq, Prod.mk.injEq] at h
    obtain ⟨i, -, rfl, -⟩ := h
    rfl

theorem parseValue_wellFormed (h : parseValue fuel s = .ok (v, rest)) : v.WellFormed := by
  induction fuel generalizing s v rest with
  | zero => simp [parseValue] at h
  | succ fuel ih =>
    have ih' : ∀ s v rest, parseValue fuel s = .ok (v, rest) → v.WellFormed := fun _ _ _ => ih
    rw [parseValue] at h
    split at h
    · obtain ⟨rfl, -⟩ := Prod.mk.inj (Except.ok.inj h)
      rfl
    next c t hs =>
      split_ifs at h with h₁ h₂ h₃ h₄ h₅ h₆
      · unfold parseObject at h
        split at h
        · obtain ⟨rfl, -⟩ := Prod.mk.inj (Except.ok.inj h)
          rfl
        · exact membersLoop_wellFormed ih' (by simp [Increasing]) rfl h
      · unfold parseArray at h
        split at h
        · obtain ⟨rfl, -⟩ := Prod.mk.inj (Except.ok.inj h)
          rfl
        · exact itemsLoop_wellFormed ih' rfl h
      · obtain ⟨rfl, -⟩ := Prod.mk.inj (Except.ok.inj h)
        rfl
      · have := parseBool_wellFormed (c :: t)
        rw [Except.ok.inj h] at this
        exact this
      · have := parseNull_wellFormed (c :: t)
        rw [Except.ok.inj h] at this
        exact this
      · exact parseNumber_wellFormed h
      · obtain ⟨rfl, -⟩ := Prod.mk.inj (Except.ok.inj h)
        rfl

/-- The objects of a parsed value are maps. -/
theorem parse_wellFormed (h : parse s = .ok v) : v.WellFormed := by
  obtain ⟨⟨u, rest⟩, hp, h⟩ := bind_eq_ok.mp h
  simp only at h
  split at h
  · obtain rfl := Except.ok.inj h
    rfl
  · obtain rfl := Except.ok.inj h
    exact parseValue_wellFormed hp

end WellFormed

end Exasphere.Json

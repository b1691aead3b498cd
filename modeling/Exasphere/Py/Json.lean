import Exasphere.Lib.Assignment
import Exasphere.Py.Str

/-!
# The `json` module

`Value` is what `json.loads` returns: the keys of a `dict` are in the order of their first insertion. `loads` is the
scanner of the module and `dumps` its encoder with `sort_keys` and `ensure_ascii`; `Value.repr` and `Value.toStr` are
`repr` and `str`. The recursion of the scanner is on a fuel that no text exhausts.
-/

namespace Exasphere.Py

open Exasphere.Lib

inductive Value
  | none
  | bool (b : Bool)
  | int (i : Int)
  | float (literal : Str)
  | str (s : Str)
  | list (items : List Value)
  | dict (members : List (Str × Value))

abbrev Dict := List (Str × Value)

/-! ## Members -/

/-- `d.get(key)`; a missing key and a `null` are both `None`. -/
def Dict.get (d : Dict) (key : String) : Value := (findKey (str key) d).getD .none

/-- `key in d`. -/
def Dict.has (d : Dict) (key : String) : Bool := (findKey (str key) d).isSome

/-- `d[key] = v`. -/
def Dict.set (key : Str) (v : Value) : Dict → Dict
  | [] => [(key, v)]
  | (k, w) :: d => if k = key then (k, v) :: d else (k, w) :: Dict.set key v d

theorem Dict.set_eq_assign (key : Str) (v : Value) (d : Dict) : Dict.set key v d = assign key v d := by
  induction d with
  | nil => rfl
  | cons e d ih => rw [Dict.set, assign, ih]

/-- `child` is a member of the name `key` at some depth of a value. -/
inductive Value.Member (key : Str) (child : Value) : Value → Prop
  | here {members : Dict} : (key, child) ∈ members → Member key child (.dict members)
  | dict {members : Dict} {k : Str} {v : Value} : (k, v) ∈ members → Member key child v →
    Member key child (.dict members)
  | list {items : List Value} {v : Value} : v ∈ items → Member key child v → Member key child (.list items)

/-! ## Equality and truth -/

/-- `bool` is a subclass of `int`. -/
def Value.asInt? : Value → Option Int
  | .bool b => some (if b then 1 else 0)
  | .int i => some i
  | _ => Option.none

section Equality

variable (b : Builtins)

def Value.eqInt : Value → Int → Bool
  | .bool x, i => decide ((if x then 1 else 0) = i)
  | .int j, i => decide (j = i)
  | .float l, i => b.floatEqInt l i
  | _, _ => false

/-- `bool(v)`. -/
def Value.truthy : Value → Bool
  | .none => false
  | .bool x => x
  | .int i => decide (i ≠ 0)
  | .float l => !b.floatEqInt l 0
  | .str s => !s.isEmpty
  | .list items => !items.isEmpty
  | .dict members => !members.isEmpty

mutual

/-- `v == w`. -/
def Value.eq : Value → Value → Bool
  | .none, .none => true
  | .bool x, w => w.eqInt b (if x then 1 else 0)
  | .int i, w => w.eqInt b i
  | .float l, .float m => b.floatEq l m
  | .float l, .bool y => b.floatEqInt l (if y then 1 else 0)
  | .float l, .int j => b.floatEqInt l j
  | .str s, .str t => decide (s = t)
  | .list xs, .list ys => eqItems xs ys
  | .dict xs, .dict ys => xs.length == ys.length && eqMembers xs ys
  | _, _ => false

def eqItems : List Value → List Value → Bool
  | [], [] => true
  | v :: vs, w :: ws => v.eq w && eqItems vs ws
  | _, _ => false

def eqMembers : Dict → Dict → Bool
  | [], _ => true
  | (k, v) :: d, e =>
    match findKey k e with
    | some w => v.eq w && eqMembers d e
    | Option.none => false

end

/-- `v == "..."`. -/
def Value.eqStr (v : Value) (s : Str) : Bool := v.eq b (.str s)

variable {b}

@[simp] theorem Value.eq_str {v : Value} {s : Str} : v.eq b (.str s) = true ↔ v = .str s := by
  cases v <;> simp [Value.eq, Value.eqInt]

@[simp] theorem Value.str_eq {v : Value} {s : Str} : (Value.str s).eq b v = true ↔ v = .str s := by
  cases v <;> simp [Value.eq, eq_comm]

@[simp] theorem Value.eqStr_iff {v : Value} {s : Str} : v.eqStr b s = true ↔ v = .str s := Value.eq_str

end Equality

/-! ## `repr` and `str` -/

section Repr

/-- A number as hexadecimal digits of a fixed width. -/
def hexText : Nat → Nat → Str
  | 0, _ => []
  | n + 1, c => hexText n (c / 16) ++ [if c % 16 < 10 then 48 + c % 16 else 87 + c % 16]

variable (b : Builtins)

/-- One character inside a `repr` with the given quote. -/
def reprChar (quote c : Nat) : Str :=
  if c = quote ∨ c = 92 then [92, c]
  else if c = 9 then str "\\t"
  else if c = 10 then str "\\n"
  else if c = 13 then str "\\r"
  else if c < 32 ∨ c = 127 then str "\\x" ++ hexText 2 c
  else if c < 127 ∨ b.isPrintable c then [c]
  else if c < 0x100 then str "\\x" ++ hexText 2 c
  else if c < 0x10000 then str "\\u" ++ hexText 4 c
  else str "\\U" ++ hexText 8 c

/-- `repr` of a `str`: the double quote only where the text holds single quotes and no double ones. -/
def reprStr (s : Str) : Str :=
  let quote := if s.contains 39 && !s.contains 34 then 34 else 39
  quote :: s.flatMap (reprChar b quote) ++ [quote]

mutual

/-- `repr(v)`. -/
def Value.repr : Value → Str
  | .none => str "None"
  | .bool x => if x then str "True" else str "False"
  | .int i => strInt i
  | .float l => b.reprFloat l
  | .str s => reprStr b s
  | .list items => 91 :: join (str ", ") (reprItems items) ++ [93]
  | .dict members => 123 :: join (str ", ") (reprMembers members) ++ [125]

def reprItems : List Value → List Str
  | [] => []
  | v :: vs => v.repr :: reprItems vs

def reprMembers : Dict → List Str
  | [] => []
  | (k, v) :: d => (reprStr b k ++ str ": " ++ v.repr) :: reprMembers d

end

/-- `str(v)`. -/
def Value.toStr : Value → Str
  | .str s => s
  | v => v.repr b

/-- Only the empty text has no text. -/
theorem Value.toStr_eq_nil {v : Value} : v.toStr b = [] ↔ v = .str [] := by
  cases v with
  | none => simp [toStr, repr, show Py.str "None" ≠ [] by decide]
  | bool x =>
    cases x with
    | false => simp [toStr, repr, show Py.str "False" ≠ [] by decide]
    | true => simp [toStr, repr, show Py.str "True" ≠ [] by decide]
  | int i =>
    have hnat : strNat i.natAbs ≠ [] := strNat_ne_nil i.natAbs
    simp only [toStr, repr, strInt]
    split <;> simp [hnat]
  | float l => simp [toStr, repr, b.reprFloat_ne_nil]
  | str s => simp [toStr]
  | list items => simp [toStr, repr]
  | dict members => simp [toStr, repr]

end Repr

/-! ## `json.dumps` -/

section Dumps

variable (b : Builtins)

/-- One character in ASCII JSON; beyond the basic plane it is a surrogate pair. -/
def escapeAscii (c : Nat) : Str :=
  if c = 34 then [92, 34]
  else if c = 92 then [92, 92]
  else if c = 10 then [92, 110]
  else if c = 13 then [92, 114]
  else if c = 9 then [92, 116]
  else if c = 12 then [92, 102]
  else if c = 8 then [92, 98]
  else if 32 ≤ c ∧ c ≤ 126 then [c]
  else if c < 0x10000 then [92, 117] ++ hexText 4 c
  else [92, 117] ++ hexText 4 (0xD800 + (c - 0x10000) / 0x400 % 0x400) ++
    [92, 117] ++ hexText 4 (0xDC00 + (c - 0x10000) % 0x400)

def dumpStr (s : Str) : Str := 34 :: s.flatMap escapeAscii ++ [34]

def dumpFloat (literal : Str) : Str :=
  let r := b.reprFloat literal
  if r = str "nan" then str "NaN"
  else if r = str "inf" then str "Infinity"
  else if r = str "-inf" then str "-Infinity"
  else r

/-- `sorted` by the key. -/
def sortKeys {α : Type*} (l : List (Str × α)) : List (Str × α) := l.insertionSort (fun e f => strLe e.1 f.1 = true)

/-- One member of an object whose value is written already. -/
def dumpMember (e : Str × Str) : Str := dumpStr e.1 ++ 58 :: 32 :: e.2

mutual

/-- `json.dumps(v, sort_keys=True)`. -/
def dumps : Value → Str
  | .none => str "null"
  | .bool x => if x then str "true" else str "false"
  | .int i => strInt i
  | .float l => dumpFloat b l
  | .str s => dumpStr s
  | .list items => 91 :: join [44, 32] (dumpItems items) ++ [93]
  | .dict members => 123 :: join [44, 32] ((sortKeys (dumpMembers members)).map dumpMember) ++ [125]

def dumpItems : List Value → List Str
  | [] => []
  | v :: vs => dumps v :: dumpItems vs

def dumpMembers : Dict → List (Str × Str)
  | [] => []
  | (k, v) :: d => (k, dumps v) :: dumpMembers d

end

end Dumps

/-! ## `json.loads` -/

section Loads

def isJsonSpace (c : Nat) : Bool := c == 32 || c == 9 || c == 10 || c == 13

def skipSpace (s : Str) : Str := s.dropWhile isJsonSpace

/-- The value of a hexadecimal digit of either case. -/
def hexValue (c : Nat) : Option Nat :=
  if 48 ≤ c ∧ c ≤ 57 then some (c - 48)
  else if 97 ≤ c ∧ c ≤ 102 then some (c - 87)
  else if 65 ≤ c ∧ c ≤ 70 then some (c - 55)
  else Option.none

/-- Four hexadecimal digits and what follows them. -/
def scanHex4 : Str → Except Exn (Nat × Str)
  | c₁ :: c₂ :: c₃ :: c₄ :: rest =>
    match hexValue c₁, hexValue c₂, hexValue c₃, hexValue c₄ with
    | some d₁, some d₂, some d₃, some d₄ => .ok (((d₁ * 16 + d₂) * 16 + d₃) * 16 + d₄, rest)
    | _, _, _, _ => .error .jsonDecodeError
  | _ => .error .jsonDecodeError

def isHighSurrogate (c : Nat) : Bool := decide (0xD800 ≤ c ∧ c ≤ 0xDBFF)

def isLowSurrogate (c : Nat) : Bool := decide (0xDC00 ≤ c ∧ c ≤ 0xDFFF)

/-- The code point of a surrogate pair. -/
def combine (high low : Nat) : Nat := 0x10000 + (high - 0xD800) * 0x400 + (low - 0xDC00)

/-- The low half of a pair whose high half has been read. -/
def scanLow (high : Nat) (rest : Str) : Except Exn (Nat × Str) :=
  if [92, 117].isPrefixOf rest then do
    let (low, rest') ← scanHex4 (rest.drop 2)
    if isLowSurrogate low then .ok (combine high low, rest') else .ok (high, rest)
  else .ok (high, rest)

/-- The character of an escape, behind its backslash. -/
def scanEscape : Str → Except Exn (Nat × Str)
  | [] => .error .jsonDecodeError
  | e :: rest =>
    if e = 117 then do
      let (c, rest) ← scanHex4 rest
      if isHighSurrogate c then scanLow c rest else .ok (c, rest)
    else if e = 34 ∨ e = 92 ∨ e = 47 then .ok (e, rest)
    else if e = 98 then .ok (8, rest)
    else if e = 102 then .ok (12, rest)
    else if e = 110 then .ok (10, rest)
    else if e = 114 then .ok (13, rest)
    else if e = 116 then .ok (9, rest)
    else .error .jsonDecodeError

/-- A string behind its opening quote, and what follows it. -/
def scanString : Nat → Str → Except Exn (Str × Str)
  | 0, _ => .error .recursionError
  | _ + 1, [] => .error .jsonDecodeError
  | fuel + 1, c :: rest =>
    if c = 34 then .ok ([], rest)
    else if c = 92 then do
      let (d, rest) ← scanEscape rest
      let (s, rest) ← scanString fuel rest
      .ok (d :: s, rest)
    else if c ≤ 0x1F then .error .jsonDecodeError
    else do
      let (s, rest) ← scanString fuel rest
      .ok (c :: s, rest)

def readDigits (s : Str) : Nat := s.foldl (fun n c => 10 * n + (c - 48)) 0

/-- The digits `int` converts. -/
def maxStrDigits : Nat := 4300

/-- The fraction or the exponent that starts `s`, if it has a digit. -/
def scanDigits (s : Str) (behind : Nat) : Str :=
  let digits := (s.drop behind).takeWhile isDigit
  if digits = [] then [] else s.take behind ++ digits

def scanFraction (s : Str) : Str := if s.head? = some 46 then scanDigits s 1 else []

def scanExponent (s : Str) : Str :=
  if s.head? = some 101 ∨ s.head? = some 69 then
    scanDigits s (if s.tail.head? = some 43 ∨ s.tail.head? = some 45 then 2 else 1)
  else []

/-- A number and what follows it. -/
def scanNumber (s : Str) : Except Exn (Value × Str) :=
  let sign := if s.head? = some 45 then [45] else []
  let body := s.drop sign.length
  let digits := if body.head? = some 48 then [48] else body.takeWhile isDigit
  if digits = [] then .error .jsonDecodeError
  else
    let rest := body.drop digits.length
    let fraction := scanFraction rest
    let exponent := scanExponent (rest.drop fraction.length)
    if fraction = [] ∧ exponent = [] then
      if maxStrDigits < digits.length then .error .valueError
      else .ok (.int (if sign = [] then readDigits digits else -readDigits digits), rest)
    else .ok (.float (sign ++ digits ++ fraction ++ exponent), (rest.drop fraction.length).drop exponent.length)

/-- A word at the start of the text. -/
def scanWord (s : Str) (words : List (String × Value)) : Option (Value × Str) :=
  (words.find? (fun w => (str w.1).isPrefixOf s)).map (fun w => (w.2, s.drop (str w.1).length))

def literals : List (String × Value) := [("null", .none), ("true", .bool true), ("false", .bool false)]

/-- The constants beyond JSON, as the value of each is its name. -/
def constants : List (String × Value) :=
  [("NaN", .float (str "NaN")), ("Infinity", .float (str "Infinity")), ("-Infinity", .float (str "-Infinity"))]

variable (parseConstant : Value → Except Exn Value)

mutual

/-- One value and what follows it. -/
def scanOnce : Nat → Str → Except Exn (Value × Str)
  | 0, _ => .error .recursionError
  | fuel + 1, s =>
    if s.head? = some 34 then do
      let (t, rest) ← scanString fuel s.tail
      .ok (.str t, rest)
    else if s.head? = some 123 then
      let rest := skipSpace s.tail
      if rest.head? = some 125 then .ok (.dict [], rest.tail)
      else do
        let (d, rest) ← scanMembers fuel [] rest
        .ok (.dict d, rest)
    else if s.head? = some 91 then
      let rest := skipSpace s.tail
      if rest.head? = some 93 then .ok (.list [], rest.tail)
      else do
        let (items, rest) ← scanItems fuel rest
        .ok (.list items, rest)
    else
      match scanWord s literals with
      | some found => .ok found
      | Option.none =>
        match scanWord s constants with
        | some (constant, rest) => do
          let v ← parseConstant constant
          .ok (v, rest)
        | Option.none => scanNumber s

/-- The members of an object up to its closing brace, behind those in `d`. -/
def scanMembers : Nat → Dict → Str → Except Exn (Dict × Str)
  | 0, _, _ => .error .recursionError
  | fuel + 1, d, s =>
    if s.head? = some 34 then do
      let (key, rest) ← scanString fuel s.tail
      let rest := skipSpace rest
      if rest.head? = some 58 then do
        let (v, rest) ← scanOnce fuel (skipSpace rest.tail)
        let rest := skipSpace rest
        if rest.head? = some 125 then .ok (Dict.set key v d, rest.tail)
        else if rest.head? = some 44 then scanMembers fuel (Dict.set key v d) (skipSpace rest.tail)
        else .error .jsonDecodeError
      else .error .jsonDecodeError
    else .error .jsonDecodeError

/-- The items of an array up to its closing bracket. -/
def scanItems : Nat → Str → Except Exn (List Value × Str)
  | 0, _ => .error .recursionError
  | fuel + 1, s => do
    let (v, rest) ← scanOnce fuel s
    let rest := skipSpace rest
    if rest.head? = some 93 then .ok ([v], rest.tail)
    else if rest.head? = some 44 then do
      let (items, rest) ← scanItems fuel (skipSpace rest.tail)
      .ok (v :: items, rest)
    else .error .jsonDecodeError

end

/-- `json.loads(s, parse_constant=...)`. -/
def loadsWith (s : Str) : Except Exn Value :=
  if s.head? = some 0xFEFF then .error .jsonDecodeError
  else do
    let start := skipSpace s
    let (v, rest) ← scanOnce parseConstant (start.length + 1) start
    if skipSpace rest = [] then .ok v else .error .jsonDecodeError

/-- `json.loads(s)`. -/
def loads (s : Str) : Except Exn Value := loadsWith .ok s

variable {parseConstant}

/-- A scanner that rejects some of the constants reads what it reads as the plain one does. -/
theorem scan_refines (hf : ∀ c v, parseConstant c = .ok v → v = c) (fuel : Nat) :
    (∀ s, Refines (scanOnce parseConstant fuel s) (scanOnce .ok fuel s)) ∧
      (∀ d s, Refines (scanMembers parseConstant fuel d s) (scanMembers .ok fuel d s)) ∧
      ∀ s, Refines (scanItems parseConstant fuel s) (scanItems .ok fuel s) := by
  induction fuel with
  | zero => exact ⟨fun _ => .refl _, fun _ _ => .refl _, fun _ => .refl _⟩
  | succ fuel ih =>
    obtain ⟨ihOnce, ihMembers, ihItems⟩ := ih
    refine ⟨fun s => ?_, fun d s => ?_, fun s => ?_⟩
    · unfold scanOnce
      refine .ite (fun _ => .refl _) fun _ => .ite (fun _ => ?_) fun _ => .ite (fun _ => ?_) fun _ => ?_
      · exact .ite (fun _ => .refl _) fun _ => (ihMembers _ _).bind fun _ => .refl _
      · exact .ite (fun _ => .refl _) fun _ => (ihItems _).bind fun _ => .refl _
      · split
        · exact .refl _
        · split
          · refine Refines.bind ?_ fun _ => .refl _
            intro v hv
            rw [hf _ v hv]
          · exact .refl _
    · unfold scanMembers
      refine .ite (fun _ => Refines.bind (.refl _) fun _ => ?_) fun _ => .refl _
      refine .ite (fun _ => (ihOnce _).bind fun _ => ?_) fun _ => .refl _
      exact .ite (fun _ => .refl _) fun _ => .ite (fun _ => ihMembers _ _) fun _ => .refl _
    · unfold scanItems
      refine (ihOnce _).bind fun _ => .ite (fun _ => .refl _) fun _ => .ite (fun _ => ?_) fun _ => .refl _
      exact (ihItems _).bind fun _ => .refl _

theorem loads_of_loadsWith (hf : ∀ c v, parseConstant c = .ok v → v = c) {s : Str} {v : Value}
    (h : loadsWith parseConstant s = .ok v) : loads s = .ok v := by
  have hrefines : Refines (loadsWith parseConstant s) (loads s) := by
    unfold loads loadsWith
    refine .ite (fun _ => .refl _) fun _ => ?_
    exact ((scan_refines hf _).1 _).bind fun _ => .refl _
  exact hrefines v h

end Loads

end Exasphere.Py

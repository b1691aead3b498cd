import Exasphere.Lib.KeyedList
import Exasphere.Json.Number

/-!
# JSON values and their text (`include/xsprof/json.hpp`, `src/core/json.cpp`)

`Value` is a tree; the `std::map` of an object is its list of members by increasing key, which is the invariant
`WellFormed` of every `json::Value` (`Canonical`). `Value.dump` is the serializer, with and without indentation.
-/

namespace Exasphere.Json

open Exasphere.Lib

inductive Value
  | null
  | bool (b : Bool)
  | int (i : Int64)
  | double (d : Double)
  | string (s : Bytes)
  | array (items : List Value)
  | object (members : List (Bytes × Value))

/-! ## The invariant -/

mutual

/-- Every node of the tree satisfies `p`. -/
def Value.all (p : Value → Bool) : Value → Bool
  | .null => p .null
  | .bool b => p (.bool b)
  | .int i => p (.int i)
  | .double d => p (.double d)
  | .string s => p (.string s)
  | .array items => p (.array items) && allItems p items
  | .object members => p (.object members) && allMembers p members

def allItems (p : Value → Bool) : List Value → Bool
  | [] => true
  | v :: vs => v.all p && allItems p vs

def allMembers (p : Value → Bool) : List (Bytes × Value) → Bool
  | [] => true
  | (_, v) :: ms => v.all p && allMembers p ms

end

theorem Value.all_self {p : Value → Bool} {v : Value} (h : v.all p = true) : p v = true := by
  cases v <;> simp_all [Value.all]

mutual

theorem Value.all_and {p q : Value → Bool} : (v : Value) → v.all p = true → v.all q = true →
    v.all (fun v => p v && q v) = true
  | .null, hp, hq | .bool b, hp, hq | .int i, hp, hq | .double d, hp, hq | .string s, hp, hq => by
    simp only [Value.all] at hp hq ⊢
    rw [hp, hq]
    rfl
  | .array items, hp, hq => by
    simp only [Value.all, Bool.and_eq_true] at hp hq ⊢
    exact ⟨⟨hp.1, hq.1⟩, allItems_and items hp.2 hq.2⟩
  | .object members, hp, hq => by
    simp only [Value.all, Bool.and_eq_true] at hp hq ⊢
    exact ⟨⟨hp.1, hq.1⟩, allMembers_and members hp.2 hq.2⟩

theorem allItems_and {p q : Value → Bool} : (vs : List Value) → allItems p vs = true → allItems q vs = true →
    allItems (fun v => p v && q v) vs = true
  | [], _, _ => rfl
  | v :: vs, hp, hq => by
    simp only [allItems, Bool.and_eq_true] at hp hq ⊢
    exact ⟨v.all_and hp.1 hq.1, allItems_and vs hp.2 hq.2⟩

theorem allMembers_and {p q : Value → Bool} : (ms : List (Bytes × Value)) → allMembers p ms = true →
    allMembers q ms = true → allMembers (fun v => p v && q v) ms = true
  | [], _, _ => rfl
  | (_, v) :: ms, hp, hq => by
    simp only [allMembers, Bool.and_eq_true] at hp hq ⊢
    exact ⟨v.all_and hp.1 hq.1, allMembers_and ms hp.2 hq.2⟩

end

theorem allItems_append {p : Value → Bool} {vs : List Value} {v : Value} (hvs : allItems p vs = true)
    (hv : v.all p = true) : allItems p (vs ++ [v]) = true := by
  induction vs with
  | nil => simp [allItems, hv]
  | cons u vs ih =>
    simp only [List.cons_append, allItems, Bool.and_eq_true] at hvs ⊢
    exact ⟨hvs.1, ih hvs.2⟩

theorem allMembers_insertKey {p : Value → Bool} {ms : List (Bytes × Value)} {k : Bytes} {v : Value}
    (hms : allMembers p ms = true) (hv : v.all p = true) : allMembers p (insertKey k v ms) = true := by
  induction ms with
  | nil => simp [insertKey, allMembers, hv]
  | cons m ms ih =>
    simp only [allMembers, Bool.and_eq_true] at hms
    unfold insertKey
    split
    · simp only [allMembers, Bool.and_eq_true]
      exact ⟨hv, hms⟩
    · split
      · simp only [allMembers, Bool.and_eq_true]
        exact ⟨hms.1, ih hms.2⟩
      · simp only [allMembers, Bool.and_eq_true]
        exact ⟨hv, hms.2⟩

namespace Value

/-- A node that is an object has its members by increasing key. -/
def increasing : Value → Bool
  | .object members => decide (Increasing members)
  | _ => true

def isDouble : Value → Bool
  | .double _ => true
  | _ => false

def isNull : Value → Bool
  | .null => true
  | _ => false

theorem isNull_eq {v : Value} (h : v.isNull = true) : v = .null := by
  cases v <;> first | rfl | cases h

/-- The objects of the tree are maps. -/
def WellFormed (v : Value) : Prop := v.all increasing = true

/-- The tree holds no `double`. -/
def NoDouble (v : Value) : Prop := v.all (fun v => !v.isDouble) = true

instance (v : Value) : Decidable v.WellFormed := inferInstanceAs (Decidable (_ = true))
instance (v : Value) : Decidable v.NoDouble := inferInstanceAs (Decidable (_ = true))

end Value

/-- A `json::Value`. -/
abbrev Canonical := { v : Value // v.WellFormed }

/-! ## Serialization -/

/-- A hexadecimal digit of the `%04x` format. -/
def hexDigit (d : Nat) : UInt8 := UInt8.ofNat (if d < 10 then 48 + d else 87 + d)

/-- `\u%04x` of a byte. -/
def unicodeEscape (c : UInt8) : Bytes := [92, 117, 48, 48, hexDigit (c.toNat / 16), hexDigit (c.toNat % 16)]

def escapeByte (c : UInt8) : Bytes :=
  if c = 34 then [92, 34]
  else if c = 92 then [92, 92]
  else if c = 8 then [92, 98]
  else if c = 12 then [92, 102]
  else if c = 10 then [92, 110]
  else if c = 13 then [92, 114]
  else if c = 9 then [92, 116]
  else if c < 32 then unicodeEscape c
  else [c]

def escape (s : Bytes) : Bytes := s.flatMap escapeByte

/-- A quoted string. -/
def quoted (s : Bytes) : Bytes := 34 :: escape s ++ [34]

/-- The line break before an entry or a closing bracket, when printing with indentation. -/
def lineBreak (pretty : Bool) (indent : Nat) : Bytes :=
  if pretty then 10 :: List.replicate (indent * 2) 32 else []

mutual

def Value.dumpTo (pretty : Bool) (indent : Nat) : Value → Bytes
  | .null => [110, 117, 108, 108]
  | .bool b => if b then [116, 114, 117, 101] else [102, 97, 108, 115, 101]
  | .int i => toText i
  | .double d => if d.isNanOrInf then [110, 117, 108, 108] else formatG17 d
  | .string s => quoted s
  | .array items =>
    91 :: dumpItems pretty indent true items ++ (if items.isEmpty then [] else lineBreak pretty indent) ++ [93]
  | .object members =>
    123 :: dumpMembers pretty indent true members ++ (if members.isEmpty then [] else lineBreak pretty indent) ++ [125]

/-- The loop over the items of an array; `first` as in the source. -/
def dumpItems (pretty : Bool) (indent : Nat) (first : Bool) : List Value → Bytes
  | [] => []
  | v :: vs =>
    (if first then [] else [44]) ++ lineBreak pretty (indent + 1) ++ v.dumpTo pretty (indent + 1) ++
      dumpItems pretty indent false vs

def dumpMembers (pretty : Bool) (indent : Nat) (first : Bool) : List (Bytes × Value) → Bytes
  | [] => []
  | (k, v) :: ms =>
    (if first then [] else [44]) ++ lineBreak pretty (indent + 1) ++ quoted k ++ [58] ++
      (if pretty then [32] else []) ++ v.dumpTo pretty (indent + 1) ++ dumpMembers pretty indent false ms

end

def Value.dump (v : Value) (pretty : Bool) : Bytes := v.dumpTo pretty 0

end Exasphere.Json

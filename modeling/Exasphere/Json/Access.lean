import Exasphere.Json.RoundTrip

/-!
# Building and reading values (`include/xsprof/json.hpp`)

The constructors, `set`, `push_back` and the accessors of `json::Value`. An accessor of another type than the value has
gives the type's zero, and `find` finds nothing in a value that is not an object. Records are written as a chain of
`set`, so `find_set` reads their fields back and `Value.Plain.set` carries the round trip of `parse` through the chain.
-/

namespace Exasphere.Json

open Exasphere.Lib

namespace Value

/-! ## Constructors -/

def makeObject : Value := .object []

/-- `json::Value(const char*)`, for a literal of the source. -/
def ofLiteral (s : String) : Value := .string (utf8 s)

/-- `json::Value(unsigned long long)`: `static_cast<long long>`. -/
def ofUInt64 (n : UInt64) : Value := .int n.toInt64

/-- `json::Value(int)` -/
def ofInt32 (n : Int32) : Value := .int n.toInt64

/-! ## Accessors -/

def isObject : Value → Bool
  | .object _ => true
  | _ => false

def asBool : Value → Bool
  | .bool b => b
  | _ => false

def asInt : Value → Int64
  | .int i => i
  | _ => 0

def asString : Value → Bytes
  | .string s => s
  | _ => []

def asArray : Value → List Value
  | .array items => items
  | _ => []

def asObject : Value → List (Bytes × Value)
  | .object members => members
  | _ => []

def find (v : Value) (key : String) : Option Value := findKey (utf8 key) v.asObject

/-! ## Changes -/

/-- `set`, by a key of any bytes. -/
def setBytes (v : Value) (key : Bytes) (val : Value) : Value := .object (insertKey key val v.asObject)

def set (v : Value) (key : String) (val : Value) : Value := v.setBytes (utf8 key) val

/-- `if (!s.empty()) v.set(key, s)` -/
def setNonempty (v : Value) (key : String) (s : Bytes) : Value := if s.isEmpty then v else v.set key (.string s)

def pushBack (v item : Value) : Value := .array (v.asArray ++ [item])

/-- `v[key].push_back(item)` -/
def pushBackAt (v : Value) (key : String) (item : Value) : Value := v.set key (((v.find key).getD .null).pushBack item)

/-! ## Reading back -/

section Find

variable {key key' : String} {val v : Value} {s : Bytes}

@[simp] theorem find_makeObject : makeObject.find key = none := rfl

@[simp] theorem isObject_set : (v.set key val).isObject = true := rfl

@[simp] theorem find_set : (v.set key val).find key' = if key = key' then some val else v.find key' := by
  unfold find set setBytes asObject
  rw [findKey_insertKey]
  simp only [utf8_inj]

@[simp] theorem isObject_setNonempty : (v.setNonempty key s).isObject = (v.isObject || !s.isEmpty) := by
  unfold setNonempty
  cases hs : s.isEmpty <;> simp

theorem find_setNonempty : (v.setNonempty key s).find key' =
    if key = key' ∧ s ≠ [] then some (.string s) else v.find key' := by
  unfold setNonempty
  cases s <;> simp

@[simp] theorem asString_string : (Value.string s).asString = s := rfl

@[simp] theorem asString_ofLiteral {t : String} : (ofLiteral t).asString = utf8 t := rfl

@[simp] theorem toUInt64_ofUInt64 (n : UInt64) : (ofUInt64 n).asInt.toUInt64 = n := by simp [ofUInt64, asInt]

@[simp] theorem toInt32_ofInt32 (n : Int32) : (ofInt32 n).asInt.toInt32 = n := by simp [ofInt32, asInt]

/-- A string that is left out when it is empty. -/
@[simp] theorem elim_string : (if s = [] then none else some (Value.string s)).elim [] asString = s := by
  cases s <;> rfl

end Find

/-! ## Values that `parse` reads back -/

/-- The objects of the tree are maps and it holds no `double`. -/
def Plain (v : Value) : Prop := v.all plain = true

section Plain

variable {key : String} {val v : Value} {s : Bytes}

theorem plain_makeObject : makeObject.Plain := rfl

theorem plain_string : (Value.string s).Plain := rfl

theorem plain_literal {t : String} : (ofLiteral t).Plain := rfl

theorem plain_int {i : Int64} : (Value.int i).Plain := rfl

theorem plain_bool {b : Bool} : (Value.bool b).Plain := rfl

theorem Plain.members (h : v.Plain) : Increasing v.asObject ∧ allMembers plain v.asObject = true := by
  cases v with
  | object members =>
    simp only [Plain, Value.all, plain, increasing, Bool.and_eq_true, decide_eq_true_eq] at h
    exact ⟨h.1.1, h.2⟩
  | _ => exact ⟨List.Pairwise.nil, rfl⟩

theorem Plain.setBytes (h : v.Plain) {k : Bytes} (hval : val.Plain) : (v.setBytes k val).Plain := by
  obtain ⟨hinc, hall⟩ := h.members
  have hinc' : Increasing (insertKey k val v.asObject) := insertKey_increasing hinc
  simp only [Plain, Value.setBytes, Value.all, plain, increasing, isDouble, Bool.and_eq_true, decide_eq_true_eq,
    Bool.not_false, and_true]
  exact ⟨hinc', allMembers_insertKey hall hval⟩

theorem Plain.set (h : v.Plain) (hval : val.Plain) : (v.set key val).Plain := h.setBytes hval

theorem Plain.setNonempty (h : v.Plain) : (v.setNonempty key s).Plain := by
  unfold Value.setNonempty
  split
  · exact h
  · exact h.set plain_string

theorem plain_array {items : List Value} (h : ∀ v ∈ items, v.Plain) : (Value.array items).Plain := by
  simp only [Plain, Value.all, plain, increasing, isDouble, Bool.not_false, Bool.and_true, Bool.true_and]
  induction items with
  | nil => rfl
  | cons v vs ih =>
    simp only [allItems, Bool.and_eq_true]
    exact ⟨h v (by simp), ih (fun u hu => h u (by simp [hu]))⟩

theorem Plain.read_back (h : v.Plain) : parse (v.dump false) = .ok v := parse_dump_plain h false

end Plain

end Value

end Exasphere.Json

import Exasphere.Py.Json

/-!
# Locations in a JSON value

A location is a path of object keys and list indices, and `Value.at?` is what stands there. Written as texts, two
locations of one value are the same only if they are (`pathOf_inj`): at each step the value is an object or a list, so
that the key `0` and the index `0` never meet.

A `dict` has each of its keys once. `JsonValue` is a value of which all objects are such, and `json.loads` returns no
others (`loadsWith_distinct`).
-/

namespace Exasphere.Py

open Exasphere.Lib

/-! ## Locations -/

section Locations

inductive Step
  | key (name : Str)
  | index (i : Nat)
  deriving DecidableEq

def Step.text : Step → Str
  | .key name => name
  | .index i => strNat i

/-- A location as a path of texts. -/
def pathOf (loc : List Step) : List Str := loc.map Step.text

def Value.child? : Value → Step → Option Value
  | .dict members, .key name => findKey name members
  | .list items, .index i => items[i]?
  | _, _ => Option.none

/-- What stands at a location. -/
def Value.at? : Value → List Step → Option Value
  | v, [] => some v
  | v, step :: loc => (v.child? step).bind (fun child => child.at? loc)

variable {v w w' : Value} {step step' : Step} {loc loc' : List Step}

theorem at?_cons : v.at? (step :: loc) = some w ↔ ∃ child, v.child? step = some child ∧ child.at? loc = some w := by
  rw [Value.at?, Option.bind_eq_some_iff]

theorem child?_key {name : Str} (h : v.child? (.key name) = some w) :
    ∃ members, v = .dict members ∧ findKey name members = some w := by
  cases v with
  | dict members => exact ⟨members, rfl, h⟩
  | none | bool | int | float | str | list => cases h

theorem child?_index {i : Nat} (h : v.child? (.index i) = some w) : ∃ items, v = .list items ∧ items[i]? = some w := by
  cases v with
  | list items => exact ⟨items, rfl, h⟩
  | none | bool | int | float | str | dict => cases h

/-- The steps from one value are told apart by their texts. -/
theorem step_inj (h : v.child? step = some w) (h' : v.child? step' = some w') (ht : step.text = step'.text) :
    step = step' := by
  cases step with
  | key name =>
    obtain ⟨members, rfl, -⟩ := child?_key h
    cases step' with
    | key name' => exact congrArg Step.key ht
    | index i => cases h'
  | index i =>
    obtain ⟨items, rfl, -⟩ := child?_index h
    cases step' with
    | key name => cases h'
    | index j => exact congrArg Step.index (strNat_inj ht)

/-- The locations of one value are told apart by their texts. -/
theorem pathOf_inj (h : v.at? loc = some w) (h' : v.at? loc' = some w') (ht : pathOf loc = pathOf loc') :
    loc = loc' := by
  induction loc generalizing v loc' with
  | nil => exact (List.map_eq_nil_iff.mp ht.symm).symm
  | cons step loc ih =>
    cases loc' with
    | nil => cases ht
    | cons step' loc' =>
      obtain ⟨child, hchild, hloc⟩ := at?_cons.mp h
      obtain ⟨child', hchild', hloc'⟩ := at?_cons.mp h'
      obtain ⟨hstep, hrest⟩ := List.cons.inj ht
      obtain rfl := step_inj hchild hchild' hstep
      obtain rfl := Option.some.inj (hchild.symm.trans hchild')
      rw [ih hloc hloc' hrest]

end Locations

/-! ## Objects with distinct keys -/

section Distinct

/-- Every object in the value has each of its keys once. -/
inductive Value.Distinct : Value → Prop
  | none : Distinct .none
  | bool (b : Bool) : Distinct (.bool b)
  | int (i : Int) : Distinct (.int i)
  | float (literal : Str) : Distinct (.float literal)
  | str (s : Str) : Distinct (.str s)
  | list {items : List Value} : (∀ v ∈ items, Distinct v) → Distinct (.list items)
  | dict {members : Dict} : (members.map Prod.fst).Nodup → (∀ e ∈ members, Distinct e.2) → Distinct (.dict members)

/-- What stands one step below a value. -/
def Value.children : Value → List (Step × Value)
  | .dict members => members.map (fun e => (.key e.1, e.2))
  | .list items => items.zipIdx.map (fun e => (.index e.2, e.1))
  | _ => []

variable {v w : Value} {step : Step}

theorem Value.Distinct.child (h : v.Distinct) (hw : (step, w) ∈ v.children) : w.Distinct := by
  cases h with
  | list hitems =>
    obtain ⟨e, he, heq⟩ := List.mem_map.mp hw
    obtain ⟨-, rfl⟩ := Prod.mk.inj heq
    exact hitems e.1 (List.fst_mem_of_mem_zipIdx he)
  | dict _ hmembers =>
    obtain ⟨e, he, heq⟩ := List.mem_map.mp hw
    obtain ⟨-, rfl⟩ := Prod.mk.inj heq
    exact hmembers e he
  | none | bool | int | float | str => cases hw

/-- Below a value with distinct keys, each step leads to one child. -/
theorem child?_iff (h : v.Distinct) : v.child? step = some w ↔ (step, w) ∈ v.children := by
  cases h with
  | list hitems =>
    cases step with
    | key name => simp [Value.child?, Value.children]
    | index i => simp [Value.child?, Value.children, List.mem_zipIdx_iff_getElem?]
  | dict hnodup hmembers =>
    cases step with
    | key name =>
      rw [Value.child?, findKey_eq_some_iff hnodup]
      simp [Value.children]
    | index i => simp [Value.child?, Value.children]
  | none | bool | int | float | str => simp [Value.child?, Value.children]

theorem nodup_children (h : v.Distinct) : (v.children.map Prod.fst).Nodup := by
  cases h with
  | @list items hitems =>
    have hsteps : (Value.list items).children.map Prod.fst = (items.zipIdx.map Prod.snd).map Step.index := by
      rw [Value.children, List.map_map, List.map_map]
      rfl
    have hnodup : (List.range' 0 items.length).Nodup := List.nodup_range'
    rw [hsteps, List.zipIdx_map_snd]
    exact hnodup.map (fun _ _ h => Step.index.inj h)
  | @dict members hnodup hmembers =>
    have hsteps : (Value.dict members).children.map Prod.fst = (members.map Prod.fst).map Step.key := by
      rw [Value.children, List.map_map, List.map_map]
      rfl
    rw [hsteps]
    exact hnodup.map (fun _ _ h => Step.key.inj h)
  | none | bool | int | float | str => exact List.nodup_nil

/-- Induction from the children to the value. -/
theorem Value.Distinct.induct_children {motive : ∀ v : Value, v.Distinct → Prop}
    (step : ∀ (v : Value) (hv : v.Distinct), (∀ e (he : e ∈ v.children), motive e.2 (hv.child he)) → motive v hv)
    (h : v.Distinct) : motive v h := by
  induction h with
  | list hitems ih =>
    refine step _ (.list hitems) ?_
    intro e he
    obtain ⟨e', he', rfl⟩ := List.mem_map.mp he
    exact ih e'.1 (List.fst_mem_of_mem_zipIdx he')
  | dict hnodup hmembers ih =>
    refine step _ (.dict hnodup hmembers) ?_
    intro e he
    obtain ⟨e', he', rfl⟩ := List.mem_map.mp he
    exact ih e' he'
  | none | bool | int | float | str =>
    refine step _ _ ?_
    intro e he
    cases he

/-- A value as Python holds it. -/
structure JsonValue where
  value : Value
  distinct : value.Distinct

theorem Value.Distinct.set {key : Str} {v : Value} {d : Dict} (hd : (Value.dict d).Distinct) (hv : v.Distinct) :
    (Value.dict (Dict.set key v d)).Distinct := by
  rw [Dict.set_eq_assign]
  cases hd with
  | dict hnodup hmembers =>
    refine .dict (nodup_assign hnodup) ?_
    intro e he
    rcases mem_assign he with rfl | he
    · exact hv
    · exact hmembers e he

theorem distinct_of_scanWord {words : List (String × Value)} (hwords : ∀ e ∈ words, e.2.Distinct)
    {s rest : Str} {v : Value}
    (h : scanWord s words = some (v, rest)) : v.Distinct := by
  obtain ⟨e, he, heq⟩ := Option.map_eq_some_iff.mp h
  obtain ⟨rfl, -⟩ := Prod.mk.inj heq
  exact hwords e (List.mem_of_find?_eq_some he)

theorem distinct_of_scanNumber (s : Str) : Yields (fun e => e.1.Distinct) (scanNumber s) := by
  unfold scanNumber
  exact .ite (.error _) (.ite (.ite (.error _) (.ok (.int _))) (.ok (.float _)))

theorem distinct_constants : ∀ e ∈ constants, e.2.Distinct := by
  intro e he
  simp only [constants, List.mem_cons, List.not_mem_nil, or_false] at he
  rcases he with rfl | rfl | rfl <;> exact .float _

theorem distinct_literals : ∀ e ∈ literals, e.2.Distinct := by
  intro e he
  simp only [literals, List.mem_cons, List.not_mem_nil, or_false] at he
  rcases he with rfl | rfl | rfl
  · exact .none
  · exact .bool true
  · exact .bool false

variable {parseConstant : Value → Except Exn Value}

/-- The scanner returns no others. -/
theorem scan_distinct (hf : ∀ c v, parseConstant c = .ok v → v = c) (fuel : Nat) :
    (∀ s, Yields (fun e => e.1.Distinct) (scanOnce parseConstant fuel s)) ∧
      (∀ d s, (Value.dict d).Distinct →
        Yields (fun e => (Value.dict e.1).Distinct) (scanMembers parseConstant fuel d s)) ∧
      ∀ s, Yields (fun e => ∀ v ∈ e.1, v.Distinct) (scanItems parseConstant fuel s) := by
  induction fuel with
  | zero => exact ⟨fun _ => .error _, fun _ _ _ => .error _, fun _ => .error _⟩
  | succ fuel ih =>
    obtain ⟨ihOnce, ihMembers, ihItems⟩ := ih
    have hempty : (Value.dict []).Distinct := .dict List.nodup_nil (by simp)
    refine ⟨fun s => ?_, fun d s hd => ?_, fun s => ?_⟩
    · unfold scanOnce
      refine .ite ?_ (.ite ?_ (.ite ?_ ?_))
      · exact Yields.bind (P := fun _ => True) (fun _ _ => trivial) fun e _ => .ok (.str e.1)
      · exact .ite (.ok hempty) ((ihMembers [] _ hempty).bind fun e he => .ok he)
      · exact .ite (.ok (.list (by simp))) ((ihItems _).bind fun e he => .ok (.list he))
      · split
        next found hfound => exact .ok (distinct_of_scanWord distinct_literals hfound)
        · split
          next constant rest hconstant =>
            have hdistinct := distinct_of_scanWord distinct_constants hconstant
            exact Yields.bind (P := Value.Distinct) (fun v hv => hf _ v hv ▸ hdistinct) fun v hv => .ok hv
          · exact distinct_of_scanNumber s
    · unfold scanMembers
      refine .ite (Yields.bind (P := fun _ => True) (fun _ _ => trivial) fun key _ => .ite ?_ (.error _)) (.error _)
      refine (ihOnce _).bind fun e he => ?_
      exact .ite (.ok (hd.set he)) (.ite (ihMembers _ _ (hd.set he)) (.error _))
    · unfold scanItems
      refine (ihOnce _).bind fun e he => .ite (.ok ?_) (.ite ((ihItems _).bind fun items hitems => .ok ?_) (.error _))
      · intro v hv
        rw [List.mem_singleton.mp hv]
        exact he
      · intro v hv
        rcases List.mem_cons.mp hv with rfl | hv
        · exact he
        · exact hitems v hv

theorem loadsWith_distinct (hf : ∀ c v, parseConstant c = .ok v → v = c) (s : Str) :
    Yields Value.Distinct (loadsWith parseConstant s) := by
  unfold loadsWith
  exact .ite (.error _) (((scan_distinct hf _).1 _).bind fun e he => .ite (.ok he) (.error _))

end Distinct

end Exasphere.Py

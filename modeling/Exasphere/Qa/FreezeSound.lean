import Exasphere.Qa.RequiredFreeze

/-!
# The freeze of required fields is exact

`requiredLists` goes through a value as `collectRequiredPaths` does, and keeps the locations with their steps: it has
exactly the lists at a key `required` (`mem_requiredLists`), each once (`nodup_requiredLists`). `collectRequiredPaths`
is one check after the other of these lists (`collectRequiredPaths_eq`), so the paths that it returns are all there are,
and none is returned twice.
-/

namespace Exasphere.Qa.SchemaCompatibility

open Exasphere.Lib Exasphere.Py

/-! ## Required lists -/

section RequiredLists

/-- The key `required` at the end of the location holds a list. -/
def RequiredAt (v : Value) (loc : List Step) (items : List Value) : Prop :=
  loc.getLast? = some (.key (str "required")) ∧ v.at? loc = some (.list items)

/-- The `required` list of an object itself. -/
def ownLists (v : Value) : List (List Step × List Value) :=
  match v.child? (.key (str "required")) with
  | some (.list items) => [([.key (str "required")], items)]
  | _ => []

def behind (step : Step) (lists : List (List Step × List Value)) : List (List Step × List Value) :=
  lists.map (fun e => (step :: e.1, e.2))

mutual

def requiredLists : Value → List (List Step × List Value)
  | .dict members => ownLists (.dict members) ++ memberLists members
  | .list items => itemLists 0 items
  | _ => []

def memberLists : Dict → List (List Step × List Value)
  | [] => []
  | (key, child) :: members => behind (.key key) (requiredLists child) ++ memberLists members

def itemLists : Nat → List Value → List (List Step × List Value)
  | _, [] => []
  | index, child :: items => behind (.index index) (requiredLists child) ++ itemLists (index + 1) items

end

variable {v w : Value} {loc : List Step} {items : List Value} {step : Step}

theorem memberLists_eq (members : Dict) :
    memberLists members = members.flatMap (fun e => behind (.key e.1) (requiredLists e.2)) := by
  induction members with
  | nil => rfl
  | cons e members ih => rw [memberLists, ih, List.flatMap_cons]

theorem itemLists_eq (index : Nat) (items : List Value) :
    itemLists index items = (items.zipIdx index).flatMap (fun e => behind (.index e.2) (requiredLists e.1)) := by
  induction items generalizing index with
  | nil => rfl
  | cons child items ih => rw [itemLists, ih, List.zipIdx_cons, List.flatMap_cons]

theorem requiredAt_cons : RequiredAt v (step :: loc) items ↔
    (loc = [] ∧ step = .key (str "required") ∧ v.child? step = some (.list items)) ∨
      ∃ child, v.child? step = some child ∧ RequiredAt child loc items := by
  cases loc with
  | nil => simp [RequiredAt, Value.at?]
  | cons step' loc => simp [RequiredAt, at?_cons, List.getLast?_cons_cons, and_left_comm]

theorem mem_behind : (loc, items) ∈ behind step (requiredLists w) ↔
    ∃ loc', loc = step :: loc' ∧ (loc', items) ∈ requiredLists w := by
  simp only [behind, List.mem_map, Prod.mk.injEq, Prod.exists]
  constructor
  · rintro ⟨loc', items', hmem, rfl, rfl⟩
    exact ⟨loc', rfl, hmem⟩
  · rintro ⟨loc', rfl, hmem⟩
    exact ⟨loc', items, hmem, rfl, rfl⟩

theorem mem_ownLists : (loc, items) ∈ ownLists v ↔
    loc = [.key (str "required")] ∧ v.child? (.key (str "required")) = some (.list items) := by
  unfold ownLists
  split
  next items' hchild => simp [hchild, eq_comm]
  next hnone =>
    constructor
    · intro hmem
      cases hmem
    · rintro ⟨-, hchild⟩
      exact absurd hchild (hnone items)

/-- The lists of a value are its own, and those of its children behind the step to each. -/
theorem requiredLists_eq (v : Value) :
    requiredLists v = ownLists v ++ v.children.flatMap (fun e => behind e.1 (requiredLists e.2)) := by
  cases v with
  | dict members => rw [requiredLists, memberLists_eq, Value.children, List.flatMap_map]
  | list items =>
    rw [requiredLists, itemLists_eq, Value.children, List.flatMap_map]
    rfl
  | none | bool | int | float | str => simp [requiredLists, ownLists, Value.children, Value.child?]

/-- **Every `required` list is found, and nothing else.** -/
theorem mem_requiredLists (hv : v.Distinct) : (loc, items) ∈ requiredLists v ↔ RequiredAt v loc items := by
  induction hv using Value.Distinct.induct_children generalizing loc with
  | step v hv ih =>
    rw [requiredLists_eq, List.mem_append, mem_ownLists, List.mem_flatMap]
    cases loc with
    | nil => simp [RequiredAt, mem_behind]
    | cons step loc =>
      rw [requiredAt_cons]
      refine or_congr ?_ ?_
      · constructor
        · rintro ⟨heq, hchild⟩
          obtain ⟨rfl, rfl⟩ := List.cons.inj heq
          exact ⟨rfl, rfl, hchild⟩
        · rintro ⟨rfl, rfl, hchild⟩
          exact ⟨rfl, hchild⟩
      · constructor
        · rintro ⟨e, he, hmem⟩
          obtain ⟨loc', heq, hmem⟩ := mem_behind.mp hmem
          obtain ⟨rfl, rfl⟩ := List.cons.inj heq
          exact ⟨e.2, (child?_iff hv).mpr he, (ih e he).mp hmem⟩
        · rintro ⟨child, hchild, hrequired⟩
          have he := (child?_iff hv).mp hchild
          exact ⟨(step, child), he, mem_behind.mpr ⟨loc, rfl, (ih _ he).mpr hrequired⟩⟩

theorem nodup_behind {lists : List (List Step × List Value)} (h : (lists.map Prod.fst).Nodup) :
    ((behind step lists).map Prod.fst).Nodup := by
  have hmap : (behind step lists).map Prod.fst = (lists.map Prod.fst).map (step :: ·) := by
    rw [behind, List.map_map, List.map_map]
    rfl
  rw [hmap]
  exact h.map List.cons_injective

/-- **No location is found twice.** -/
theorem nodup_requiredLists (hv : v.Distinct) : ((requiredLists v).map Prod.fst).Nodup := by
  induction hv using Value.Distinct.induct_children with
  | step v hv ih =>
    rw [requiredLists_eq, List.map_append, List.nodup_append]
    refine ⟨?_, ?_, ?_⟩
    · unfold ownLists
      split <;> simp
    · rw [List.map_flatMap, List.nodup_flatMap]
      refine ⟨fun e he => nodup_behind (ih e he), (List.pairwise_map.mp (nodup_children hv)).imp ?_⟩
      -- the locations behind different steps differ in the first step
      intro e e' hne loc hloc hloc'
      obtain ⟨⟨loc, items⟩, hmem, rfl⟩ := List.mem_map.mp hloc
      obtain ⟨⟨loc', items'⟩, hmem', heq⟩ := List.mem_map.mp hloc'
      obtain ⟨tail, rfl, -⟩ := mem_behind.mp hmem
      obtain ⟨tail', rfl, -⟩ := mem_behind.mp hmem'
      exact hne (List.cons.inj heq).1.symm
    · -- a location behind a step is longer than one
      intro loc hloc loc' hloc' heq
      obtain ⟨⟨loc, items⟩, hown, rfl⟩ := List.mem_map.mp hloc
      obtain ⟨⟨loc', items'⟩, hbelow, rfl⟩ := List.mem_map.mp hloc'
      obtain ⟨e, he, hmem⟩ := List.mem_flatMap.mp hbelow
      obtain ⟨tail, rfl, htail⟩ := mem_behind.mp hmem
      have hrequired := (mem_requiredLists (hv.child he)).mp htail
      rw [(mem_ownLists.mp hown).1] at heq
      rw [← (List.cons.inj heq).2] at hrequired
      cases hrequired.1

end RequiredLists

/-! ## The walk -/

section Walk

variable {v : Value} {path : List Str}

/-- One `required` list as the walk collects it. -/
def entry (path : List Str) (e : List Step × List Value) : Except Exn (List Str × List Str) := do
  let fields ← stringList (.list e.2) (dotted (path ++ pathOf e.1))
  .ok (path ++ pathOf e.1, fields)

theorem entry_behind (step : Step) (lists : List (List Step × List Value)) :
    (behind step lists).mapM (entry path) = lists.mapM (entry (path ++ [step.text])) := by
  rw [behind, List.mapM_map]
  congr
  funext e
  simp [entry, pathOf]

theorem ownRequired_eq (members : Dict) (path : List Str) :
    ownRequired members path = (ownLists (.dict members)).mapM (entry path) := by
  unfold ownRequired ownLists
  rw [Dict.get, Value.child?]
  cases findKey (str "required") members with
  | none => rfl
  | some w =>
    cases w with
    | list items => simp [entry, pathOf, Step.text]
    | none | bool | int | float | str | dict => rfl

theorem collectMembers_eq {members : Dict}
    (h : ∀ e ∈ members, ∀ path, collectRequiredPaths e.2 path = (requiredLists e.2).mapM (entry path))
    (path : List Str) :
    collectMembers members path = (memberLists members).mapM (entry path) := by
  induction members with
  | nil => rfl
  | cons e members ih =>
    obtain ⟨key, child⟩ := e
    rw [collectMembers, memberLists, List.mapM_append, entry_behind, h (key, child) List.mem_cons_self,
      ih (fun e he => h e (List.mem_cons_of_mem _ he))]
    rfl

theorem collectItems_eq {items : List Value}
    (h : ∀ child ∈ items, ∀ path, collectRequiredPaths child path = (requiredLists child).mapM (entry path))
    (index : Nat)
    (path : List Str) : collectItems index items path = (itemLists index items).mapM (entry path) := by
  induction items generalizing index with
  | nil => rfl
  | cons child items ih =>
    rw [collectItems, itemLists, List.mapM_append, entry_behind, h child List.mem_cons_self,
      ih (fun child hchild => h child (List.mem_cons_of_mem _ hchild))]
    rfl

/-- The walk checks one `required` list after the other. -/
theorem collectRequiredPaths_eq (hv : v.Distinct) (path : List Str) :
    collectRequiredPaths v path = (requiredLists v).mapM (entry path) := by
  induction hv generalizing path with
  | list hitems ih =>
    rw [collectRequiredPaths, requiredLists]
    exact collectItems_eq ih 0 path
  | dict hnodup hmembers ih =>
    rw [collectRequiredPaths, requiredLists, List.mapM_append, ownRequired_eq, collectMembers_eq ih]
    rfl
  | none | bool | int | float | str => rfl

theorem stringItem_ok {context s : Str} {item : Value} : stringItem context item = .ok s ↔ item = .str s := by
  cases item <;> simp [stringItem, fail]

theorem stringList_ok {context : Str} {items : List Value} {fields : List Str} :
    stringList (.list items) context = .ok fields ↔ items = fields.map .str := by
  rw [stringList, mapM_eq_ok]
  simp only [stringItem_ok]
  induction items generalizing fields with
  | nil => cases fields <;> simp
  | cons item items ih => cases fields <;> simp [ih]

theorem entry_ok {e : List Step × List Value} {found : List Str × List Str} :
    entry path e = .ok found ↔ ∃ fields, e.2 = fields.map .str ∧ found = (path ++ pathOf e.1, fields) := by
  rw [entry, bind_eq_ok]
  simp only [stringList_ok, Except.ok.injEq, eq_comm (a := found)]

/-- The `required` lists of a value that hold only texts. -/
structure Enumerates (v : Value) (locations : List (List Step × List Str)) : Prop where
  nodup : (locations.map Prod.fst).Nodup
  mem_iff : ∀ loc fields, (loc, fields) ∈ locations ↔ RequiredAt v loc (fields.map .str)

def located (locations : List (List Step × List Str)) : List (List Str × List Str) :=
  locations.map (fun e => (pathOf e.1, e.2))

theorem mapM_entry_ok {lists : List (List Step × List Value)} {found : List (List Str × List Str)}
    (h : lists.mapM (entry []) = .ok found) :
    ∃ locations, lists = locations.map (fun e => (e.1, e.2.map .str)) ∧ found = located locations := by
  rw [mapM_eq_ok] at h
  induction h with
  | nil => exact ⟨[], rfl, rfl⟩
  | @cons e own lists found hentry _ ih =>
    obtain ⟨fields, hitems, rfl⟩ := entry_ok.mp hentry
    obtain ⟨locations, rfl, rfl⟩ := ih
    exact ⟨(e.1, fields) :: locations, by rw [List.map_cons, ← hitems], rfl⟩

/-- **What the walk returns is the enumeration of the `required` lists.** -/
theorem collectRequiredPaths_ok (hv : v.Distinct) {found : List (List Str × List Str)}
    (h : collectRequiredPaths v [] = .ok found) : ∃ locations, Enumerates v locations ∧ found = located locations := by
  rw [collectRequiredPaths_eq hv] at h
  obtain ⟨locations, hlists, rfl⟩ := mapM_entry_ok h
  refine ⟨locations, ⟨?_, ?_⟩, rfl⟩
  · have hnodup := nodup_requiredLists hv
    rw [hlists, List.map_map] at hnodup
    exact hnodup
  · intro loc fields
    rw [← mem_requiredLists hv, hlists, List.mem_map]
    constructor
    · intro hmem
      exact ⟨(loc, fields), hmem, rfl⟩
    · rintro ⟨e, hmem, heq⟩
      obtain ⟨rfl, hfields⟩ := Prod.mk.inj heq
      have hstr : Function.Injective Value.str := fun _ _ h => Value.str.inj h
      rw [← List.map_injective_iff.mpr hstr hfields]
      exact hmem

/-- The paths of an enumeration are distinct, as its locations are. -/
theorem Enumerates.nodup_located {locations : List (List Step × List Str)} (h : Enumerates v locations) :
    ((located locations).map Prod.fst).Nodup := by
  have hpaths : (located locations).map Prod.fst = (locations.map Prod.fst).map pathOf := by
    rw [located, List.map_map, List.map_map]
    rfl
  rw [hpaths]
  refine h.nodup.map_on ?_
  intro loc hloc loc' hloc' heq
  obtain ⟨e, he, rfl⟩ := List.mem_map.mp hloc
  obtain ⟨e', he', rfl⟩ := List.mem_map.mp hloc'
  exact pathOf_inj ((h.mem_iff e.1 e.2).mp he).2 ((h.mem_iff e'.1 e'.2).mp he').2 heq

theorem exists_fields {items : List Value} (h : ∀ x ∈ items, ∃ s, x = .str s) :
    ∃ fields : List Str, items = fields.map .str := by
  induction items with
  | nil => exact ⟨[], rfl⟩
  | cons x items ih =>
    obtain ⟨s, rfl⟩ := h x List.mem_cons_self
    obtain ⟨fields, rfl⟩ := ih (fun x hx => h x (List.mem_cons_of_mem _ hx))
    exact ⟨s :: fields, rfl⟩

/-- The walk returns if the `required` lists hold texts only. -/
theorem collectRequiredPaths_isOk (hv : v.Distinct)
    (h : ∀ loc items, RequiredAt v loc items → ∀ x ∈ items, ∃ s, x = .str s) :
    ∃ found, collectRequiredPaths v [] = .ok found := by
  rw [collectRequiredPaths_eq hv]
  refine mapM_total ?_
  rintro ⟨loc, items⟩ he
  obtain ⟨fields, rfl⟩ := exists_fields (h loc items ((mem_requiredLists hv).mp he))
  exact ⟨_, entry_ok.mpr ⟨fields, rfl, rfl⟩⟩

/-- They do if the walk returns. -/
theorem fields_of_collected (hv : v.Distinct) {found : List (List Str × List Str)}
    (h : collectRequiredPaths v [] = .ok found) {loc : List Step} {items : List Value}
    (hrequired : RequiredAt v loc items) : ∃ fields : List Str, items = fields.map .str := by
  rw [collectRequiredPaths_eq hv] at h
  obtain ⟨locations, hlists, -⟩ := mapM_entry_ok h
  have hmem := (mem_requiredLists hv).mpr hrequired
  rw [hlists] at hmem
  obtain ⟨e, -, heq⟩ := List.mem_map.mp hmem
  exact ⟨e.2, (Prod.mk.inj heq).2.symm⟩

/-- **It raises if one of them does not.** -/
theorem collectRequiredPaths_error_iff (hv : v.Distinct) : (∃ e, collectRequiredPaths v [] = .error e) ↔
    ∃ loc items, RequiredAt v loc items ∧ ∃ x ∈ items, ∀ s, x ≠ .str s := by
  constructor
  · rintro ⟨e, he⟩
    by_contra hnone
    have htexts : ∀ loc items, RequiredAt v loc items → ∀ x ∈ items, ∃ s, x = .str s := by
      intro loc items hrequired x hx
      by_contra hx'
      exact hnone ⟨loc, items, hrequired, x, hx, fun s hs => hx' ⟨s, hs⟩⟩
    obtain ⟨found, hfound⟩ := collectRequiredPaths_isOk hv htexts
    rw [hfound] at he
    cases he
  · rintro ⟨loc, items, hrequired, x, hx, hne⟩
    cases hfound : collectRequiredPaths v [] with
    | error e => exact ⟨e, rfl⟩
    | ok found =>
      obtain ⟨fields, rfl⟩ := fields_of_collected hv hfound hrequired
      obtain ⟨s, -, rfl⟩ := List.mem_map.mp hx
      exact absurd rfl (hne s)

theorem ownErrors_collectRequiredPaths (hv : v.Distinct) : OwnErrors (collectRequiredPaths v path) := by
  rw [collectRequiredPaths_eq hv]
  refine .mapM fun e => .bind ?_ fun fields => .ok _
  refine .mapM fun item => ?_
  cases item with
  | str s => exact .ok s
  | none | bool | int | float | list | dict => exact .fail _

end Walk

/-! ## The freeze -/

section Freeze

variable {name : Str} {path : List Str}

/-- The rules freeze the fields at a path of the schema `name`. -/
def Freezes (name : Str) (path fields : List Str) : Prop :=
  ∃ rule ∈ frozenRequiredRules, str rule.1 = name ∧ rule.2.1.map str = path ∧ rule.2.2.map str = fields

/-- The paths of the `required` lists are those that the rules freeze for the name, and at each the set of fields is the
frozen one. -/
structure MatchesFreeze (name : Str) (v : Value) : Prop where
  locations : ∀ path, (∃ loc items, RequiredAt v loc items ∧ pathOf loc = path) ↔ ∃ fields, Freezes name path fields
  fields : ∀ loc items fields, RequiredAt v loc items → Freezes name (pathOf loc) fields →
    ∀ x, x ∈ items ↔ ∃ f ∈ fields, x = .str f

theorem fieldSets_eq {rules : List (List Str × List Str)} (h : (rules.map Prod.fst).Nodup) :
    fieldSets rules = rules.map (fun e => (e.1, e.2.toFinset)) ∧ ((fieldSets rules).map Prod.fst).Nodup := by
  have hkeys : (rules.map (fun e => (e.1, e.2.toFinset))).map Prod.fst = rules.map Prod.fst := by
    rw [List.map_map]
    rfl
  have hassigned : fieldSets rules = rules.map (fun e => (e.1, e.2.toFinset)) := by
    refine assignAll_of_nodup ?_
    rw [hkeys]
    exact h
  rw [hassigned, hkeys]
  exact ⟨rfl, h⟩

theorem findKey_fieldSets {rules : List (List Str × List Str)} (h : (rules.map Prod.fst).Nodup) {set : Finset Str} :
    findKey path (fieldSets rules) = some set ↔ ∃ fields, (path, fields) ∈ rules ∧ set = fields.toFinset := by
  obtain ⟨hassigned, hnodup⟩ := fieldSets_eq h
  rw [findKey_eq_some_iff hnodup, hassigned]
  simp only [List.mem_map, Prod.mk.injEq, Prod.exists]
  constructor
  · rintro ⟨path', fields, hmem, rfl, rfl⟩
    exact ⟨fields, hmem, rfl⟩
  · rintro ⟨fields, hmem, rfl⟩
    exact ⟨path, fields, hmem, rfl, rfl⟩

/-- No path of a schema is frozen twice. -/
theorem nodup_frozenRequiredRules : (frozenRequiredRules.map (fun rule => (str rule.1, rule.2.1.map str))).Nodup := by
  decide +kernel

theorem nodup_rulesFor (name : Str) : ((rulesFor name).map Prod.fst).Nodup := by
  have hsub := (List.filter_sublist (p := fun rule => decide (str rule.1 = name)) (l := frozenRequiredRules)).map
    (fun rule => (str rule.1, rule.2.1.map str))
  have hnodup := hsub.nodup nodup_frozenRequiredRules
  -- the names are all the same, so the paths differ
  have hpaths : (frozenRequiredRules.filter (fun rule => decide (str rule.1 = name))).map
      (fun rule => (str rule.1, rule.2.1.map str)) = ((rulesFor name).map Prod.fst).map (fun path => (name, path)) := by
    rw [rulesFor, List.map_map, List.map_map]
    refine List.map_congr_left ?_
    intro rule hrule
    have hname := of_decide_eq_true (List.mem_filter.mp hrule).2
    rw [← hname]
    rfl
  rw [hpaths] at hnodup
  exact hnodup.of_map

theorem mem_rulesFor {fields : List Str} : (path, fields) ∈ rulesFor name ↔ Freezes name path fields := by
  simp only [rulesFor, Freezes, List.mem_map, List.mem_filter, decide_eq_true_eq, Prod.mk.injEq, and_assoc]

theorem findKey_expected {set : Finset Str} :
    findKey path (expectedRequiredFor name) = some set ↔
      ∃ fields, Freezes name path fields ∧ set = fields.toFinset := by
  rw [expectedRequiredFor, findKey_fieldSets (nodup_rulesFor name)]
  simp only [mem_rulesFor]

/-- What both sides of a comparison hold at a path. -/
theorem findKey_actual {v : Value} {locations : List (List Step × List Str)} (h : Enumerates v locations)
    {set : Finset Str} : findKey path (fieldSets (located locations)) = some set ↔
      ∃ loc, ∃ fields : List Str, RequiredAt v loc (fields.map .str) ∧ pathOf loc = path ∧ set = fields.toFinset := by
  rw [findKey_fieldSets h.nodup_located]
  simp only [located, List.mem_map, Prod.mk.injEq, Prod.exists]
  constructor
  · rintro ⟨fields, ⟨loc, fields', hmem, rfl, rfl⟩, rfl⟩
    exact ⟨loc, fields', (h.mem_iff loc fields').mp hmem, rfl, rfl⟩
  · rintro ⟨loc, fields, hrequired, rfl, rfl⟩
    exact ⟨fields, ⟨loc, fields, (h.mem_iff loc fields).mpr hrequired, rfl, rfl⟩, rfl⟩

theorem sorted_isEmpty {items : List Str} : (sorted items).isEmpty = true ↔ items = [] := by
  rw [List.isEmpty_iff, sorted]
  constructor
  · intro h
    exact List.perm_nil.mp (h ▸ (List.perm_insertionSort _ items).symm)
  · rintro rfl
    rfl

theorem missingFrom_eq_nil {sets others : FieldSets} :
    missingFrom sets others = [] ↔ ∀ path, findKey path others = none → findKey path sets = none := by
  rw [missingFrom, List.filter_eq_nil_iff]
  constructor
  · intro h path hnone
    rw [← Option.not_isSome_iff_eq_none, findKey_isSome_iff]
    intro hmem
    exact h path hmem (by rw [hnone]; rfl)
  · intro h path hmem hnone
    rw [← findKey_isSome_iff, h path (Option.isNone_iff_eq_none.mp hnone)] at hmem
    cases hmem

theorem sortedPaths_mem {paths : List (List Str)} : path ∈ sortedPaths paths ↔ path ∈ paths :=
  (List.perm_insertionSort _ paths).mem_iff

/-- The checks behind an inequality find a difference. -/
theorem same_of_checks {actual expected : FieldSets} (hmissing : missingFrom expected actual = [])
    (hfields : ∀ path ∈ actual.map Prod.fst, findKey path actual = findKey path expected) (path : List Str) :
    findKey path actual = findKey path expected := by
  by_cases hmem : path ∈ actual.map Prod.fst
  · exact hfields path hmem
  · rw [← findKey_isSome_iff, Option.not_isSome_iff_eq_none] at hmem
    rw [hmem, missingFrom_eq_nil.mp hmissing path hmem]

/-- **The freeze holds exactly if the walk returns and every path has the same set on both sides.** -/
theorem validateRequiredFreeze_ok {schema : JsonObject} : validateRequiredFreeze name schema = .ok () ↔
    ∃ locations, collectRequiredPaths (.dict schema.members) [] = .ok (located locations) ∧
      Enumerates (.dict schema.members) locations ∧
      ∀ path, findKey path (fieldSets (located locations)) = findKey path (expectedRequiredFor name) := by
  have hsame : ∀ {locations}, Enumerates (.dict schema.members) locations →
      (sameEntries (fieldSets (located locations)) (expectedRequiredFor name) = true ↔
        ∀ path, findKey path (fieldSets (located locations)) = findKey path (expectedRequiredFor name)) := by
    intro locations henum
    exact sameEntries_iff (fieldSets_eq henum.nodup_located).2 (fieldSets_eq (nodup_rulesFor name)).2
  rw [validateRequiredFreeze, bind_eq_ok]
  constructor
  · rintro ⟨found, hfound, hcheck⟩
    obtain ⟨locations, henum, rfl⟩ := collectRequiredPaths_ok schema.distinct hfound
    refine ⟨locations, hfound, henum, ?_⟩
    rw [checkWhen_ok, Bool.not_eq_true'] at hcheck
    cases hequal : sameEntries (fieldSets (located locations)) (expectedRequiredFor name) with
    | true => exact (hsame henum).mp hequal
    | false =>
      obtain ⟨u, hlocations, hfields⟩ := bind_eq_ok.mp (hcheck hequal)
      rw [require_ok, sorted_isEmpty, List.map_eq_nil_iff, List.append_eq_nil_iff] at hlocations
      refine same_of_checks hlocations.2 ?_
      intro path hpath
      have hfield := forM_eq_ok.mp hfields path (sortedPaths_mem.mpr hpath)
      rw [require_ok] at hfield
      exact of_decide_eq_true hfield
  · rintro ⟨locations, hfound, henum, hpaths⟩
    refine ⟨_, hfound, ?_⟩
    rw [checkWhen_ok, (hsame henum).mpr hpaths]
    intro hdiffer
    cases hdiffer

theorem ownErrors_validateRequiredFreeze (schema : JsonObject) : OwnErrors (validateRequiredFreeze name schema) := by
  unfold validateRequiredFreeze
  refine (ownErrors_collectRequiredPaths schema.distinct).bind fun found => .checkWhen _ ?_
  exact (OwnErrors.require _ _).bind fun _ => .forM fun path => .require _ _

/-- What both sides hold at every path, said of the schema and the rules. -/
theorem matchesFreeze_iff {v : Value} {locations : List (List Step × List Str)} (henum : Enumerates v locations)
    (htexts : ∀ loc items, RequiredAt v loc items → ∃ fields : List Str, items = fields.map .str) :
    (∀ path, findKey path (fieldSets (located locations)) = findKey path (expectedRequiredFor name)) ↔
      MatchesFreeze name v := by
  constructor
  · intro h
    refine ⟨fun path => ⟨?_, ?_⟩, ?_⟩
    · rintro ⟨loc, items, hrequired, rfl⟩
      obtain ⟨fields, rfl⟩ := htexts loc items hrequired
      have hactual := (findKey_actual henum).mpr ⟨loc, fields, hrequired, rfl, rfl⟩
      rw [h] at hactual
      obtain ⟨frozen, hfrozen, -⟩ := findKey_expected.mp hactual
      exact ⟨frozen, hfrozen⟩
    · rintro ⟨fields, hfrozen⟩
      have hexpected := findKey_expected.mpr ⟨fields, hfrozen, rfl⟩
      rw [← h] at hexpected
      obtain ⟨loc, found, hrequired, hpath, -⟩ := (findKey_actual henum).mp hexpected
      exact ⟨loc, found.map .str, hrequired, hpath⟩
    · intro loc items fields hrequired hfrozen x
      obtain ⟨found, rfl⟩ := htexts loc items hrequired
      have hactual := (findKey_actual henum).mpr ⟨loc, found, hrequired, rfl, rfl⟩
      have hexpected := findKey_expected.mpr ⟨fields, hfrozen, rfl⟩
      rw [h, hexpected] at hactual
      have hsets := Finset.ext_iff.mp (Option.some.inj hactual)
      simp only [List.mem_toFinset] at hsets
      rw [List.mem_map]
      constructor
      · rintro ⟨s, hs, rfl⟩
        exact ⟨s, (hsets s).mpr hs, rfl⟩
      · rintro ⟨s, hs, rfl⟩
        exact ⟨s, (hsets s).mp hs, rfl⟩
  · intro h path
    -- at a frozen path both sides hold the same set, elsewhere nothing
    have hfields : ∀ loc (fields frozen : List Str), RequiredAt v loc (fields.map .str) →
      Freezes name (pathOf loc) frozen →
        fields.toFinset = frozen.toFinset := by
      intro loc fields frozen hrequired hfrozen
      ext s
      rw [List.mem_toFinset, List.mem_toFinset]
      have hmem := h.fields loc _ frozen hrequired hfrozen (.str s)
      simpa using hmem
    ext set
    rw [findKey_actual henum, findKey_expected]
    constructor
    · rintro ⟨loc, fields, hrequired, rfl, rfl⟩
      obtain ⟨frozen, hfrozen⟩ := (h.locations (pathOf loc)).mp ⟨loc, _, hrequired, rfl⟩
      exact ⟨frozen, hfrozen, hfields loc fields frozen hrequired hfrozen⟩
    · rintro ⟨frozen, hfrozen, rfl⟩
      obtain ⟨loc, items, hrequired, rfl⟩ := (h.locations path).mpr ⟨frozen, hfrozen⟩
      obtain ⟨fields, rfl⟩ := htexts loc items hrequired
      exact ⟨loc, fields, hrequired, rfl, (hfields loc fields frozen hrequired hfrozen).symm⟩

/-- Where the rules are met, the `required` lists hold texts only. -/
theorem MatchesFreeze.texts {v : Value} (h : MatchesFreeze name v) :
    ∀ loc items, RequiredAt v loc items → ∀ x ∈ items, ∃ s, x = .str s := by
  intro loc items hrequired x hx
  obtain ⟨frozen, hfrozen⟩ := (h.locations (pathOf loc)).mp ⟨loc, items, hrequired, rfl⟩
  obtain ⟨s, -, rfl⟩ := (h.fields loc items frozen hrequired hfrozen x).mp hx
  exact ⟨s, rfl⟩

theorem validateRequiredFreeze_iff {schema : JsonObject} :
    validateRequiredFreeze name schema = .ok () ↔ MatchesFreeze name (.dict schema.members) := by
  have hv := schema.distinct
  rw [validateRequiredFreeze_ok]
  constructor
  · rintro ⟨locations, hfound, henum, hpaths⟩
    exact (matchesFreeze_iff henum (fun loc items => fields_of_collected hv hfound)).mp hpaths
  · intro h
    obtain ⟨found, hfound⟩ := collectRequiredPaths_isOk hv h.texts
    obtain ⟨locations, henum, rfl⟩ := collectRequiredPaths_ok hv hfound
    exact ⟨locations, hfound, henum, (matchesFreeze_iff henum (fun loc items => fields_of_collected hv hfound)).mpr h⟩

/-- **The freeze is exact.** The walk returns the paths of all `required` lists of texts, each once, and raises if one
of the lists holds something else; the freeze succeeds if the paths and the sets of fields are the frozen ones, and
raises its own error otherwise. -/
theorem required_freeze_exact :
    (∀ v : JsonValue,
      (∀ found, collectRequiredPaths v.value [] = .ok found → (found.map Prod.fst).Nodup ∧
        ∃ locations, Enumerates v.value locations ∧ found = located locations) ∧
      ((∃ e, collectRequiredPaths v.value [] = .error e) ↔
        ∃ loc items, RequiredAt v.value loc items ∧ ∃ x ∈ items, ∀ s, x ≠ .str s) ∧
      OwnErrors (collectRequiredPaths v.value [])) ∧
    ∀ (name : Str) (schema : JsonObject),
      (validateRequiredFreeze name schema = .ok () ↔ MatchesFreeze name (.dict schema.members)) ∧
      (validateRequiredFreeze name schema ≠ .ok () →
        ∃ message, validateRequiredFreeze name schema = .error (.error message)) := by
  refine ⟨fun v => ⟨?_, collectRequiredPaths_error_iff v.distinct, ownErrors_collectRequiredPaths v.distinct⟩,
    fun name schema => ⟨validateRequiredFreeze_iff, ?_⟩⟩
  · intro found hfound
    obtain ⟨locations, henum, rfl⟩ := collectRequiredPaths_ok v.distinct hfound
    exact ⟨henum.nodup_located, locations, henum, rfl⟩
  · intro hne
    cases hresult : validateRequiredFreeze name schema with
    | ok u => exact absurd hresult hne
    | error e =>
      obtain ⟨message, rfl⟩ := ownErrors_validateRequiredFreeze schema e hresult
      exact ⟨message, rfl⟩

/-- A property of the name `required` is no required list. -/
example : okAnd (fun schema =>
    okAnd (fun _ => true) (validateRequiredFreeze (str "daemon-event.v1.schema.json") schema))
    (parseJsonObject .ascii (dumps .ascii (object
      [("required", .list [word "host_mutation", word "status", word "event", word "schema"]),
        ("properties", object [("required", object [("type", word "boolean")])])])) []) = true := by
  decide +kernel

end Freeze

end Exasphere.Qa.SchemaCompatibility

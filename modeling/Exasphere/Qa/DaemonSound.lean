import Exasphere.Qa.DaemonEvents

/-!
# What an accepted stream of daemon events holds

The rows of an accepted stream are the objects on its lines that are not blank (`Loaded`). Two of the checks miss what
they are for:

- `require_int` takes `true` for the number 1, so the `seq` of the first row need not be a number
  (`validate_numbered_iff`);
- the scan for private fields skips everything below a key `command_argv_hash`, and looks for the key `env` with its
  quotes, which a decoded key does not have (`validate_private_iff`).
-/

namespace Exasphere.Qa.DaemonEvents

open Exasphere.Lib Exasphere.Py

variable {b : Builtins} {fs : Files} {path : Path} {requireLifecycle : Bool}

/-! ## Rows and lines -/

section Lines

/-- The row is the object on the line. -/
structure Loaded (s : Str) (row : EventRow) : Prop where
  object : loads s = .ok (.dict row.raw)
  seq : (row.raw.get "seq").asInt? = some row.seq
  hostMutation : row.raw.get "host_mutation" = .bool row.hostMutation

/-- The lines that are not blank. -/
def rowLines (s : Str) : List Str := (splitlines s).filter (fun line => !isBlank line)

theorem parseObject_ok {s : Str} {lineNumber : Nat} {row : Dict} (h : parseObject b s lineNumber = .ok row) :
    loads s = .ok (.dict row) := by
  unfold parseObject at h
  split at h
  next row' hparse =>
    obtain rfl := Except.ok.inj h
    unfold parseJsonValue at hparse
    dsimp only at hparse
    split at hparse
    · cases hparse
    · refine loads_of_loadsWith ?_ hparse
      intro c v hv
      cases c with
      | float name => cases hv
      | none | bool | int | str | list | dict => exact (Except.ok.inj hv).symm
  all_goals cases h

theorem requireInt_ok {row : Dict} {field : String} {context : Str} {i : Int}
    (h : requireInt row field context = .ok i) :
    (row.get field).asInt? = some i := by
  unfold requireInt at h
  split at h
  next j hj =>
    rw [hj, Except.ok.inj h]
  · cases h

theorem requireBool_ok {row : Dict} {field : String} {context : Str} {x : Bool}
    (h : requireBool row field context = .ok x) : row.get field = .bool x := by
  unfold requireBool at h
  split at h
  next y hy =>
    rw [hy, Except.ok.inj h]
  · cases h

theorem loadLines_ok {lines : List Str} {lineNumber : Nat} {rows : List EventRow}
    (h : loadLines b lineNumber lines = .ok rows) :
    List.Forall₂ Loaded (lines.filter (fun line => !isBlank line)) rows := by
  induction lines generalizing lineNumber rows with
  | nil =>
    obtain rfl := Except.ok.inj h
    exact .nil
  | cons s lines ih =>
    unfold loadLines at h
    by_cases hblank : isBlank s = true
    · rw [if_pos hblank] at h
      rw [List.filter_cons_of_neg (by simp [hblank])]
      exact ih h
    · rw [if_neg hblank] at h
      rw [List.filter_cons_of_pos (by simpa using hblank)]
      obtain ⟨raw, hraw, h⟩ := bind_eq_ok.mp h
      obtain ⟨seq, hseq, h⟩ := bind_eq_ok.mp h
      obtain ⟨event, -, h⟩ := bind_eq_ok.mp h
      obtain ⟨hostMutation, hhost, h⟩ := bind_eq_ok.mp h
      obtain ⟨rest, hrest, h⟩ := bind_eq_ok.mp h
      obtain rfl := Except.ok.inj h
      exact .cons ⟨parseObject_ok hraw, requireInt_ok hseq, requireBool_ok hhost⟩ (ih hrest)

theorem loadRows_ok {rows : List EventRow} (h : loadRows b fs path = .ok rows) :
    ∃ s, fs.readText path = .ok s ∧ List.Forall₂ Loaded (rowLines s) rows := by
  obtain ⟨s, hs, h⟩ := bind_eq_ok.mp h
  obtain ⟨rows', hrows, h⟩ := bind_eq_ok.mp h
  obtain ⟨u, -, h⟩ := bind_eq_ok.mp h
  obtain rfl := Except.ok.inj h
  exact ⟨s, hs, loadLines_ok hrows⟩

/-- What the check of one row establishes. -/
structure RowAccepted (row : EventRow) (expectedSeq : Nat) : Prop where
  schema : row.raw.get "schema" = .str (str schemaId)
  seq : row.seq = expectedSeq
  hostMutation : row.hostMutation = false
  privacy : containsPrivateField (.dict row.raw) = false

theorem validateRow_ok {row : EventRow} {expectedSeq : Nat} (h : validateRow b row expectedSeq = .ok ()) :
    RowAccepted row expectedSeq := by
  obtain ⟨u, hschema, h⟩ := bind_eq_ok.mp h
  obtain ⟨u, hseq, h⟩ := bind_eq_ok.mp h
  obtain ⟨u, hhost, h⟩ := bind_eq_ok.mp h
  obtain ⟨u, -, h⟩ := bind_eq_ok.mp h
  obtain ⟨u, -, hprivate⟩ := bind_eq_ok.mp h
  rw [require_ok] at hschema hseq hhost hprivate
  exact ⟨Value.eqStr_iff.mp hschema, of_decide_eq_true hseq, by simpa using hhost, by simpa using hprivate⟩

theorem validate_ok (h : validate b fs path requireLifecycle = .ok ()) : ∃ rows, loadRows b fs path = .ok rows ∧
    ∀ e ∈ rows.zipIdx 1, RowAccepted e.1 e.2 := by
  obtain ⟨rows, hrows, h⟩ := bind_eq_ok.mp h
  obtain ⟨u, hall, -⟩ := bind_eq_ok.mp h
  refine ⟨rows, hrows, ?_⟩
  intro e he
  exact validateRow_ok (forM_eq_ok.mp hall e he)

/-- The rows of an accepted stream, as its lines hold them. -/
theorem validate_rows {s : Str} (h : validate b fs path requireLifecycle = .ok ()) (hs : fs.readText path = .ok s) :
    ∃ rows, List.Forall₂ Loaded (rowLines s) rows ∧ ∀ e ∈ rows.zipIdx 1, RowAccepted e.1 e.2 := by
  obtain ⟨rows, hrows, hall⟩ := validate_ok h
  obtain ⟨s', hs', hloaded⟩ := loadRows_ok hrows
  obtain rfl := Except.ok.inj (hs'.symm.trans hs)
  exact ⟨rows, hloaded, hall⟩

/-- An object with a property. -/
def dictAnd (p : Dict → Bool) : Value → Bool
  | .dict row => p row
  | _ => false

theorem dictAnd_eq_true {p : Dict → Bool} {v : Value} : dictAnd p v = true ↔ ∃ row, v = .dict row ∧ p row = true := by
  cases v <;> simp [dictAnd]

/-- The row on the first line that is not blank has a property. -/
def firstRow (p : Dict → Bool) (s : Str) : Bool :=
  (rowLines s).head?.any (fun line => okAnd (dictAnd p) (loads line))

theorem firstRow_eq_true {p : Dict → Bool} {s : Str} (h : firstRow p s = true) :
    ∃ (line : Str) (row : Dict), (rowLines s).head? = some line ∧ loads line = .ok (.dict row) ∧ p row = true := by
  obtain ⟨line, hline, hloads⟩ := (Option.any_eq_true _ _).mp h
  obtain ⟨v, hv, hp⟩ := okAnd_eq_true.mp hloads
  obtain ⟨row, rfl, hrow⟩ := dictAnd_eq_true.mp hp
  exact ⟨line, row, hline, hv, hrow⟩

def eventsPath : Path := .parse (str "events.jsonl")

/-- A stream of one row. -/
def oneRow (seq : Value) (rest : List (String × Value)) : Files := fun p =>
  if p = eventsPath then
    some (written (object ([("schema", word schemaId), ("seq", seq), ("event", word "boot"),
      ("host_mutation", .bool false)] ++ rest)))
  else none

end Lines

/-! ## Numbers of the rows -/

section Numbers

/-- The lines hold objects that are numbered from 1 on, of the schema, and without a mutation of the host. -/
def Numbered (s : Str) : Prop :=
  ∃ rows : List Dict, List.Forall₂ (fun line row => loads line = .ok (.dict row)) (rowLines s) rows ∧
    ∀ e ∈ rows.zipIdx 1, e.1.get "seq" = .int e.2 ∧ e.1.get "host_mutation" = .bool false ∧
      e.1.get "schema" = .str (str schemaId)

/-- The first row has `true` for its number. -/
def FirstSeqTrue (s : Str) : Prop :=
  ∃ (line : Str) (row : Dict),
    (rowLines s).head? = some line ∧ loads line = .ok (.dict row) ∧ row.get "seq" = .bool true

/-- Only the number 1 has a `bool` that is equal to it. -/
theorem seq_cases {v : Value} {n : Nat} (hpos : 0 < n) (h : v.asInt? = some (n : Int)) :
    v = .int n ∨ (v = .bool true ∧ n = 1) := by
  cases v with
  | int i =>
    obtain rfl : i = n := Option.some.inj h
    exact Or.inl rfl
  | bool x =>
    have hx : (if x then 1 else 0 : Int) = n := Option.some.inj h
    cases x with
    | false =>
      rw [if_neg Bool.false_ne_true] at hx
      omega
    | true =>
      rw [if_pos rfl] at hx
      exact Or.inr ⟨rfl, by omega⟩
  | none | float | str | list | dict => cases h

theorem FirstSeqTrue.not_numbered {s : Str} (h : FirstSeqTrue s) : ¬Numbered s := by
  rintro ⟨dicts, hdicts, hnumbers⟩
  obtain ⟨line, row, hline, hrow, htrue⟩ := h
  obtain ⟨lines, hlines⟩ := List.head?_eq_some_iff.mp hline
  rw [hlines] at hdicts
  cases hdicts with
  | cons hfirst hrest =>
    obtain ⟨hseq, -, -⟩ := hnumbers (_, 1) List.mem_cons_self
    obtain rfl : row = _ := Value.dict.inj (Except.ok.inj (hrow.symm.trans hfirst))
    rw [htrue] at hseq
    cases hseq

theorem firstSeqTrue_of_head {s : Str} {rows : List EventRow} {row : EventRow}
    (hloaded : List.Forall₂ Loaded (rowLines s) rows) (hrow : rows[0]? = some row)
    (htrue : row.raw.get "seq" = .bool true) : FirstSeqTrue s := by
  unfold FirstSeqTrue
  generalize rowLines s = lines at hloaded ⊢
  cases hloaded with
  | nil => cases hrow
  | cons hfirst hrest =>
    obtain rfl := Option.some.inj hrow
    exact ⟨_, _, rfl, hfirst.object, htrue⟩

/-- **The rows of an accepted stream are numbered** exactly when the first number is not `true`. -/
theorem validate_numbered_iff {s : Str} (h : validate b fs path requireLifecycle = .ok ())
    (hs : fs.readText path = .ok s) : Numbered s ↔ ¬FirstSeqTrue s := by
  obtain ⟨rows, hloaded, haccepted⟩ := validate_rows h hs
  constructor
  · intro hnumbered hfirst
    exact hfirst.not_numbered hnumbered
  · intro hfirst
    refine ⟨rows.map EventRow.raw, List.forall₂_map_right_iff.mpr (hloaded.imp (fun _ _ hrow => hrow.object)), ?_⟩
    rintro ⟨raw, n⟩ he
    rw [List.zipIdx_map] at he
    obtain ⟨⟨row, n'⟩, hmem, heq⟩ := List.mem_map.mp he
    obtain ⟨rfl, rfl⟩ := Prod.mk.inj heq
    obtain ⟨hle, hget⟩ := List.mk_mem_zipIdx_iff_le_and_getElem?_sub.mp hmem
    obtain ⟨hschema, hseq, hhost, -⟩ := haccepted _ hmem
    have hrow : row ∈ rows := List.mem_of_getElem? hget
    obtain ⟨line, -, hline⟩ := exists_of_forall₂ hloaded.flip hrow
    refine ⟨?_, ?_, hschema⟩
    · have hasInt := hline.seq
      rw [hseq] at hasInt
      rcases seq_cases hle hasInt with hint | ⟨htrue, rfl⟩
      · exact hint
      · -- the row is numbered 1, so it is the first
        exact absurd (firstSeqTrue_of_head hloaded hget htrue) hfirst
    · rw [hline.hostMutation, hhost]

theorem validate_numbered_iff_oneRow : ∃ s, (oneRow (.int 1) []).readText eventsPath = .ok s ∧
    (Numbered s ↔ ¬FirstSeqTrue s) := by
  have hvalid : validate .ascii (oneRow (.int 1) []) eventsPath false = .ok () := eq_ok_of_okAnd (by decide +kernel)
  have hread : okAnd (fun _ => true) ((oneRow (.int 1) []).readText eventsPath) = true := by decide +kernel
  obtain ⟨s, hs, -⟩ := okAnd_eq_true.mp hread
  exact ⟨s, hs, validate_numbered_iff hvalid hs⟩

/-- A row with `"seq": true` is accepted. -/
theorem validate_accepts_true : ∃ s, (oneRow (.bool true) []).readText eventsPath = .ok s ∧
    validate .ascii (oneRow (.bool true) []) eventsPath false = .ok () ∧ ¬Numbered s := by
  have hvalid : validate .ascii (oneRow (.bool true) []) eventsPath false = .ok () := eq_ok_of_okAnd (by decide +kernel)
  have hread : okAnd (firstRow (fun row => isTrue (row.get "seq")))
      ((oneRow (.bool true) []).readText eventsPath) = true := by
    decide +kernel
  obtain ⟨s, hs, hfirst⟩ := okAnd_eq_true.mp hread
  obtain ⟨line, row, hline, hrow, htrue⟩ := firstRow_eq_true hfirst
  have hseq : FirstSeqTrue s := ⟨line, row, hline, hrow, isTrue_iff.mp htrue⟩
  exact ⟨s, hs, hvalid, hseq.not_numbered⟩

end Numbers

/-! ## Private fields -/

section Private

def privateWords : List String :=
  ["cmdline", "command_line", "argv", "environment", "secret", "api_key", "--token", "password="]

/-- A private word is part of the text. -/
def HasWord (s : Str) : Prop := ∃ w ∈ privateWords, str w <:+: s

/-- The text is a value at some depth. -/
inductive Text (s : Str) : Value → Prop
  | here : Text s (.str s)
  | dict {members : Dict} {k : Str} {v : Value} : (k, v) ∈ members → Text s v → Text s (.dict members)
  | list {items : List Value} {v : Value} : v ∈ items → Text s v → Text s (.list items)

/-- No private word in a key but `command_argv_hash`, and none in a text. -/
structure WordFree (v : Value) : Prop where
  keys : ∀ key child, Value.Member key child v → key ≠ str "command_argv_hash" → ¬HasWord key
  texts : ∀ s, Text s v → ¬HasWord s

/-- No private word, and no key `env`. -/
structure NoPrivate (v : Value) : Prop extends WordFree v where
  env : ∀ child, ¬Value.Member (str "env") child v

/-- Below every key `command_argv_hash` there is no private word. -/
def HashWordFree (v : Value) : Prop := ∀ child, Value.Member (str "command_argv_hash") child v → WordFree child

theorem Member.trans {key key' : Str} {child child' v : Value} (h : Value.Member key child v)
    (h' : Value.Member key' child' child) : Value.Member key' child' v := by
  induction h with
  | here hmem => exact .dict hmem h'
  | dict hmem _ ih => exact .dict hmem ih
  | list hmem _ ih => exact .list hmem ih

theorem Text.trans {key s : Str} {child v : Value} (h : Value.Member key child v) (h' : Text s child) : Text s v := by
  induction h with
  | here hmem => exact .dict hmem h'
  | dict hmem _ ih => exact .dict hmem ih
  | list hmem _ ih => exact .list hmem ih

theorem WordFree.hashWordFree {v : Value} (h : WordFree v) : HashWordFree v := by
  intro child hchild
  refine ⟨?_, ?_⟩
  · intro key child' hmember
    exact h.keys key child' (Member.trans hchild hmember)
  · intro s htext
    exact h.texts s (htext.trans hchild)

theorem not_hasWord {s : Str} (h : hasNeedle s = false) : ¬HasWord s := by
  rintro ⟨w, hw, hin⟩
  have hneedle : w ∈ privateNeedles := by
    simp only [privateWords, List.mem_cons, List.not_mem_nil, or_false] at hw
    simp only [privateNeedles, List.mem_cons, List.not_mem_nil, or_false]
    tauto
  refine Bool.eq_false_iff.mp h ?_
  exact List.any_eq_true.mpr ⟨w, hneedle, contains_iff.mpr hin⟩

theorem items_clean {items : List Value} (h : itemsContainPrivateField items = false) {v : Value} (hv : v ∈ items) :
    containsPrivateField v = false := by
  induction items with
  | nil => cases hv
  | cons w items ih =>
    rw [itemsContainPrivateField, Bool.or_eq_false_iff] at h
    rcases List.mem_cons.mp hv with rfl | hv
    · exact h.1
    · exact ih h.2 hv

/-- The scan leaves out what stands below `command_argv_hash`. -/
theorem members_clean {members : Dict} (h : membersContainPrivateField members = false) {k : Str} {v : Value}
    (hv : (k, v) ∈ members) (hk : k ≠ str "command_argv_hash") :
    hasNeedle k = false ∧ containsPrivateField v = false := by
  induction members with
  | nil => cases hv
  | cons e members ih =>
    obtain ⟨k', v'⟩ := e
    rw [membersContainPrivateField, Bool.or_eq_false_iff] at h
    rcases List.mem_cons.mp hv with heq | hv
    · obtain ⟨rfl, rfl⟩ := Prod.mk.inj heq
      rw [decide_eq_true hk, Bool.true_and, Bool.or_eq_false_iff] at h
      exact h.1
    · exact ih h.2 hv

theorem member_clean {key : Str} {child v : Value} (hmember : Value.Member key child v)
    (h : containsPrivateField v = false) (hhash : HashWordFree v) (hkey : key ≠ str "command_argv_hash") :
    ¬HasWord key := by
  induction hmember with
  | here hmem => exact not_hasWord (members_clean h hmem hkey).1
  | @dict members k v hmem hin ih =>
    by_cases hk : k = str "command_argv_hash"
    · subst hk
      exact (hhash v (.here hmem)).keys key child hin hkey
    · exact ih (members_clean h hmem hk).2 (fun c hc => hhash c (.dict hmem hc))
  | list hmem hin ih => exact ih (items_clean h hmem) (fun c hc => hhash c (.list hmem hc))

theorem text_clean {s : Str} {v : Value} (htext : Text s v) (h : containsPrivateField v = false)
    (hhash : HashWordFree v) : ¬HasWord s := by
  induction htext with
  | here => exact not_hasWord h
  | @dict members k v hmem hin ih =>
    by_cases hk : k = str "command_argv_hash"
    · subst hk
      exact (hhash v (.here hmem)).texts s hin
    · exact ih (members_clean h hmem hk).2 (fun c hc => hhash c (.dict hmem hc))
  | list hmem hin ih => exact ih (items_clean h hmem) (fun c hc => hhash c (.list hmem hc))

/-- What the scan passes is free of private words exactly when it is below `command_argv_hash`. -/
theorem wordFree_iff {v : Value} (h : containsPrivateField v = false) : WordFree v ↔ HashWordFree v := by
  constructor
  · intro hfree
    exact hfree.hashWordFree
  · intro hhash
    exact ⟨fun key child hmember hkey => member_clean hmember h hhash hkey, fun s htext => text_clean htext h hhash⟩

/-- **The rows of an accepted stream hold nothing private** exactly when they have no key `env` and no private word
below a key `command_argv_hash`. -/
theorem validate_private_iff {s : Str} (h : validate b fs path requireLifecycle = .ok ())
    (hs : fs.readText path = .ok s) :
    (∀ line ∈ rowLines s, ∀ row, loads line = .ok row → NoPrivate row) ↔
      ∀ line ∈ rowLines s, ∀ row, loads line = .ok row →
        (∀ child, ¬Value.Member (str "env") child row) ∧ HashWordFree row := by
  obtain ⟨rows, hloaded, haccepted⟩ := validate_rows h hs
  have hclean : ∀ line ∈ rowLines s, ∀ row, loads line = .ok row → containsPrivateField row = false := by
    intro line hline row hrow
    obtain ⟨row', hmem, hloads⟩ := exists_of_forall₂ hloaded hline
    obtain rfl := Except.ok.inj (hrow.symm.trans hloads.object)
    obtain ⟨i, hi⟩ := List.mem_iff_getElem?.mp hmem
    exact (haccepted (row', i + 1) (List.mk_mem_zipIdx_iff_le_and_getElem?_sub.mpr ⟨by omega, hi⟩)).privacy
  constructor
  · intro hprivate line hline row hrow
    exact ⟨(hprivate line hline row hrow).env, (hprivate line hline row hrow).hashWordFree⟩
  · intro hcondition line hline row hrow
    obtain ⟨henv, hhash⟩ := hcondition line hline row hrow
    exact ⟨(wordFree_iff (hclean line hline row hrow)).mpr hhash, henv⟩

/-- A row with a secret where the scan does not look. -/
def unscanned : List (String × Value) := [("command_argv_hash", word "password=x"), ("env", word "PATH")]

theorem unscanned_accepted : validate .ascii (oneRow (.int 1) unscanned) eventsPath false = .ok () :=
  eq_ok_of_okAnd (by decide +kernel)

theorem validate_private_iff_oneRow : ∃ s, (oneRow (.int 1) unscanned).readText eventsPath = .ok s ∧
    ((∀ line ∈ rowLines s, ∀ row, loads line = .ok row → NoPrivate row) ↔
      ∀ line ∈ rowLines s, ∀ row, loads line = .ok row →
        (∀ child, ¬Value.Member (str "env") child row) ∧ HashWordFree row) := by
  have hread : okAnd (fun _ => true) ((oneRow (.int 1) unscanned).readText eventsPath) = true := by decide +kernel
  obtain ⟨s, hs, -⟩ := okAnd_eq_true.mp hread
  exact ⟨s, hs, validate_private_iff unscanned_accepted hs⟩

/-- A row with a key `env`, and with a private word below `command_argv_hash`, is accepted. -/
theorem validate_misses_private : ∃ s, (oneRow (.int 1) unscanned).readText eventsPath = .ok s ∧
    validate .ascii (oneRow (.int 1) unscanned) eventsPath false = .ok () ∧
      ¬∀ line ∈ rowLines s, ∀ row, loads line = .ok row → NoPrivate row := by
  have hread : okAnd (firstRow (fun row => row.has "env"))
      ((oneRow (.int 1) unscanned).readText eventsPath) = true := by
    decide +kernel
  obtain ⟨s, hs, hfirst⟩ := okAnd_eq_true.mp hread
  obtain ⟨line, row, hline, hrow, henv⟩ := firstRow_eq_true hfirst
  obtain ⟨child, hchild⟩ := Option.isSome_iff_exists.mp henv
  refine ⟨s, hs, unscanned_accepted, ?_⟩
  intro hprivate
  exact (hprivate line (List.mem_of_head? hline) _ hrow).env child (.here (mem_of_findKey hchild))

end Private

end Exasphere.Qa.DaemonEvents

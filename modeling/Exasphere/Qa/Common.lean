import Exasphere.Py.Json
import Exasphere.Py.Path
import Exasphere.Py.Regex

/-!
# What the evidence checkers share (`qa/*.py`)

Each checker has its own `require`, `text`, `only_fields`, `safe_path` and `load_json`, which differ in the texts of
their errors only; `private_key_has_pattern` and `private_text_contains` are those of `qa/runtime_sample_common.py`.
What each returns is said by one lemma (`require_ok`, `text_ok`, `safePath_ok`, `loadObject_ok`).
-/

namespace Exasphere.Qa

open Exasphere.Lib Exasphere.Py

/-- `raise Error(message)`. -/
def fail {α : Type} (message : Str) : Except Exn α := .error (.error message)

def require (condition : Bool) (message : Str) : Except Exn Unit := if condition then .ok () else fail message

@[simp] theorem require_ok {condition : Bool} {message : Str} {u : Unit} :
    require condition message = .ok u ↔ condition = true := by
  cases condition <;> simp [require, fail]

/-- `if condition:` before a check. -/
def checkWhen (condition : Bool) (check : Except Exn Unit) : Except Exn Unit := if condition then check else .ok ()

@[simp] theorem checkWhen_ok {condition : Bool} {check : Except Exn Unit} {u : Unit} :
    checkWhen condition check = .ok u ↔ (condition = true → check = .ok ()) := by
  cases condition <;> simp [checkWhen]

/-- Whatever is raised is of the exception class of the module. -/
def OwnErrors {α : Type} (x : Except Exn α) : Prop := ∀ e, x = .error e → ∃ message, e = .error message

section OwnErrors

variable {α β : Type} {x : Except Exn α}

theorem OwnErrors.ok (a : α) : OwnErrors (.ok a) := by
  intro e he
  cases he

theorem OwnErrors.fail (message : Str) : OwnErrors (Qa.fail message : Except Exn α) := fun _ he =>
  ⟨message, (Except.error.inj he).symm⟩

theorem OwnErrors.bind {f : α → Except Exn β} (h : OwnErrors x) (hf : ∀ a, OwnErrors (f a)) : OwnErrors (x >>= f) := by
  intro e he
  rcases bind_eq_error.mp he with hx | ⟨a, -, hfa⟩
  · exact h e hx
  · exact hf a e hfa

theorem OwnErrors.require (condition : Bool) (message : Str) : OwnErrors (Qa.require condition message) := by
  cases condition with
  | true => exact .ok ()
  | false => exact .fail message

theorem OwnErrors.checkWhen {check : Except Exn Unit} (condition : Bool) (h : OwnErrors check) :
    OwnErrors (Qa.checkWhen condition check) := by
  cases condition with
  | true => exact h
  | false => exact .ok ()

theorem OwnErrors.mapM {f : β → Except Exn α} {l : List β} (h : ∀ a, OwnErrors (f a)) : OwnErrors (l.mapM f) := by
  intro e he
  obtain ⟨pre, a, post, -, -, ha⟩ := mapM_eq_error.mp he
  exact h a e ha

theorem OwnErrors.forM {f : β → Except Exn Unit} {l : List β} (h : ∀ a, OwnErrors (f a)) : OwnErrors (l.forM f) := by
  induction l with
  | nil => exact .ok ()
  | cons a l ih =>
    rw [List.forM_eq_forM, List.forM_cons, ← List.forM_eq_forM]
    exact (h a).bind fun _ => ih

end OwnErrors

/-- The error of another module, raised as one of this module. -/
def reraise (context : Str) (label : String) : Except Exn Unit → Except Exn Unit
  | .error (.error message) => fail (context ++ str label ++ message)
  | result => result

/-! ## Fields -/

/-- `text(value, context)`. -/
def text (value : Value) (context : Str) : Except Exn Str :=
  match value with
  | .str s => if s = [] then fail (context ++ str " must be non-empty text") else .ok s
  | _ => fail (context ++ str " must be non-empty text")

theorem text_ok {value : Value} {context s : Str} : text value context = .ok s ↔ value = .str s ∧ s ≠ [] := by
  cases value with
  | str t =>
    simp only [text, fail]
    split
    next ht =>
      subst ht
      simp only [reduceCtorEq, Value.str.injEq, false_iff, not_and, not_not]
      intro h
      exact h.symm
    next ht =>
      simp only [Except.ok.injEq, Value.str.injEq]
      constructor
      · rintro rfl
        exact ⟨rfl, ht⟩
      · rintro ⟨h, -⟩
        exact h
  | none | bool | int | float | list | dict => simp [text, fail]

/-- A field below a context, as the messages name it. -/
def dot (context : Str) (field : String) : Str := context ++ 46 :: str field

/-- An item of a list, as the messages name it. -/
def at_ (context : Str) (index : Nat) : Str := context ++ 91 :: strNat index ++ [93]

/-- `only_fields(row, allowed, context)`: `unexpected` is the word of the module's message. -/
def onlyFields (unexpected : String) (row : Dict) (allowed : List String) (context : Str) : Except Exn Unit :=
  let extra := sorted ((row.map Prod.fst).filter (fun k => !(allowed.map str).contains k))
  require extra.isEmpty (context ++ str " has unexpected " ++ str unexpected ++ str ": " ++ join (str ", ") extra)

/-- `value is False`. -/
def isFalse : Value → Bool
  | .bool false => true
  | _ => false

/-- `value is True`. -/
def isTrue : Value → Bool
  | .bool true => true
  | _ => false

/-- `value is None`. -/
def isNone : Value → Bool
  | .none => true
  | _ => false

@[simp] theorem isFalse_iff {value : Value} : isFalse value = true ↔ value = .bool false := by
  unfold isFalse
  split <;> simp_all

@[simp] theorem isTrue_iff {value : Value} : isTrue value = true ↔ value = .bool true := by
  unfold isTrue
  split <;> simp_all

/-- A text that is one of a set of words. -/
def isOneOf (s : Str) (words : List String) : Bool := (words.map str).contains s

/-! ## Paths and files -/

/-- `safe_path(value, context)`. -/
def safePath (value : Value) (context : Str) : Except Exn Path := do
  let raw ← text value context
  let path := Path.parse raw
  require (!path.isAbsolute && !path.traverses)
    (context ++ str " must be relative and non-traversing: " ++ raw)
  .ok path

/-- Relative, and without a component `..`. -/
def Safe (p : Path) : Prop := p.isAbsolute = false ∧ str ".." ∉ p.parts

theorem safePath_ok {value : Value} {context : Str} {p : Path} :
    safePath value context = .ok p ↔ ∃ raw, value = .str raw ∧ raw ≠ [] ∧ p = Path.parse raw ∧ Safe p := by
  unfold safePath
  simp only [bind_eq_ok, text_ok, require_ok, Bool.and_eq_true, Bool.not_eq_true', Path.traverses,
    decide_eq_false_iff_not,
    exists_const, Except.ok.injEq, Safe]
  constructor
  · rintro ⟨raw, ⟨hvalue, hraw⟩, hsafe, rfl⟩
    exact ⟨raw, hvalue, hraw, rfl, hsafe⟩
  · rintro ⟨raw, hvalue, hraw, rfl, hsafe⟩
    exact ⟨raw, ⟨hvalue, hraw⟩, hsafe, rfl⟩

/-- `reject_constant`: a constant beyond JSON is given by its name. -/
def rejectConstant : Value → Except Exn Value
  | .float name => fail (str "invalid JSON constant: " ++ name)
  | v => .ok v

/-- `json.loads(path.read_text())` of an object, the errors of which are those of the module. -/
def loadObject (parseConstant : Value → Except Exn Value) (notObject : String) (fs : Files) (path : Path) :
    Except Exn Dict :=
  match fs.readText path >>= loadsWith parseConstant with
  | .ok (.dict d) => .ok d
  | .ok _ => fail (path.asPosix ++ str notObject)
  | .error .fileNotFound => fail (str "missing JSON file: " ++ path.asPosix)
  | .error .jsonDecodeError => fail (str "invalid JSON in " ++ path.asPosix)
  | .error e => .error e

theorem loadObject_ok {parseConstant : Value → Except Exn Value} {notObject : String} {fs : Files} {path : Path}
    {d : Dict} : loadObject parseConstant notObject fs path = .ok d ↔
      ∃ s, fs.readText path = .ok s ∧ loadsWith parseConstant s = .ok (.dict d) := by
  rw [← bind_eq_ok]
  unfold loadObject
  cases h : fs.readText path >>= loadsWith parseConstant with
  | error e => cases e <;> simp [fail]
  | ok v => cases v <;> simp [fail]

/-! ## Private keys and texts -/

section Privacy

def isUpper (c : Nat) : Bool := decide (65 ≤ c ∧ c ≤ 90)

def isLower (c : Nat) : Bool := decide (97 ≤ c ∧ c ≤ 122)

def isAlnum (c : Nat) : Bool := isUpper c || isLower c || Py.isDigit c

def lowerAscii (s : Str) : Str := s.map (fun c => if isUpper c then c + 32 else c)

/-- The lookahead `[A-Z][a-z]|\d|$`. -/
def endsUpperRun (s : Str) : Bool :=
  s.isEmpty || s.head?.any Py.isDigit || (s.head?.any isUpper && s.tail.head?.any isLower)

/-- The length of the token at the start of `s`: a run of capitals that backs off to its lookahead, a word with at most
one capital in front, or a number. -/
def tokenLength (s : Str) : Nat :=
  let capitals := (s.takeWhile isUpper).length
  match ((List.range capitals).map (capitals - ·)).find? (fun k => endsUpperRun (s.drop k)) with
  | some k => k
  | none =>
    let initial := if s.head?.any isUpper then 1 else 0
    let word := ((s.drop initial).takeWhile isLower).length
    if word ≠ 0 then initial + word else (s.takeWhile Py.isDigit).length

/-- The tokens of a chunk of letters and digits; a character that starts none is passed over. -/
def chunkTokens : Nat → Str → List Str
  | 0, _ => []
  | _ + 1, [] => []
  | fuel + 1, c :: s =>
    let n := tokenLength (c :: s)
    if n = 0 then chunkTokens fuel s else lowerAscii ((c :: s).take n) :: chunkTokens fuel ((c :: s).drop n)

/-- The tokens of a key: its chunks of letters and digits cut at changes of case and at numbers. -/
def privateKeyTokens (key : Str) : List Str :=
  (key.splitOnP (fun c => !isAlnum c)).flatMap (fun chunk => chunkTokens chunk.length chunk)

/-- `_contains_pattern(tokens, pattern)`. -/
def containsPattern (tokens pattern : List Str) : Bool := tokens.tails.any (pattern.isPrefixOf ·)

def privateKeyHasPattern (key : Str) (patterns : List (List Str)) : Bool :=
  patterns.any (containsPattern (privateKeyTokens key))

def forbiddenText : List String :=
  ["--token", "api_key=", "AWS_SECRET", "BEGIN PRIVATE KEY", "password=", "/proc/", "/sys/"]

def privateTextContains (b : Builtins) (value : Str) : Bool :=
  forbiddenText.any (fun needle => contains (b.casefold value) (lowerAscii (str needle)))

end Privacy

/-! ## Written files -/

section Written

def object (members : List (String × Value)) : Value := .dict (members.map (fun e => (str e.1, e.2)))

def word (s : String) : Value := .str (str s)

/-- A file written by `json.dumps`. -/
def written (v : Value) : Bytes := (dumps .ascii v ++ [10]).map UInt8.ofNat

end Written

end Exasphere.Qa

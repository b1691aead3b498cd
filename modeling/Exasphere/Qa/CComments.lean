import Exasphere.Lib.Bytes
import Exasphere.Lib.Scanner
import Exasphere.Py.Str

/-!
# Comments of a C source (`qa/bpf_abi_parse.py`)

`stripCComments` removes the block comments of a source first and its line comments then, each by a substitution of its
own. The lexer of C goes through the source once, and a comment starts where the earlier opener stands (`cToken`).

Both are scans, so they can be compared place by place: the substitutions remove exactly the comments of the lexer when
no line comment disturbs the first of them (`stripCComments_exact_iff`). A line comment does where it opens a block
comment that is closed behind it, or where the block comment that is taken out of it takes one of its two slashes along
(`Undisturbed`).
-/

namespace Exasphere.Qa.CComments

open Exasphere.Lib Exasphere.Py

/-! ## Substitutions -/

section Substitutions

def startsLine (s : Str) : Bool := (str "//").isPrefixOf s

def startsBlock (s : Str) : Bool := (str "/*").isPrefixOf s

/-- How far the first `*/` reaches. -/
def closeLength : Str → Option Nat
  | [] => none
  | c :: s => if c = 42 ∧ s.head? = some 47 then some 2 else (closeLength s).map (· + 1)

/-- The text up to the end of the line. -/
def lineOf (s : Str) : Str := s.takeWhile (· != 10)

/-- `/\*.*?\*/` under `re.DOTALL`. -/
def blockToken (s : Str) : Token :=
  if startsBlock s then
    match closeLength (s.drop 2) with
    | some n => ⟨false, n + 2⟩
    | none => ⟨true, 1⟩
  else ⟨true, 1⟩

/-- `//.*`. -/
def lineToken (s : Str) : Token := if startsLine s then ⟨false, (lineOf s).length⟩ else ⟨true, 1⟩

/-- The two substitutions, on characters at their places. -/
def strip {α : Type*} (f : α → Nat) (l : List α) : List α := scan f lineToken (scan f blockToken l)

/-- `strip_c_comments(source)`. -/
def stripCComments (source : Str) : Str := strip id source

end Substitutions

/-! ## The lexer of C -/

section Lexer

inductive Kind
  | line
  | block
  | literal
  | other
  deriving DecidableEq

/-- The length of a literal behind its opening quote: it ends with the quote, or before the end of the line. -/
def literalLength (quote : Nat) : Str → Nat
  | [] => 0
  | [c] => if c = 10 then 0 else 1
  | c :: d :: s =>
    if c = quote then 1
    else if c = 10 then 0
    else if c = 92 then if d = 10 then 1 else literalLength quote s + 2
    else literalLength quote (d :: s) + 1

def kindOf (s : Str) : Kind :=
  if startsLine s then .line
  else if startsBlock s then .block
  else if s.head? = some 34 ∨ s.head? = some 39 then .literal
  else .other

/-- The length of what the lexer reads at the start of a text; a block comment that is not closed is the whole of it. -/
def lengthOf (s : Str) : Nat :=
  match kindOf s with
  | .line => (lineOf s).length
  | .block => (closeLength (s.drop 2)).elim s.length (· + 2)
  | .literal => literalLength (s.headD 0) s.tail + 1
  | .other => 1

def cToken (s : Str) : Token := ⟨decide (kindOf s = .literal ∨ kindOf s = .other), lengthOf s⟩

/-- The source without the comments of the lexer, on characters at their places. -/
def lexed {α : Type*} (f : α → Nat) (l : List α) : List α := scan f cToken l

def withoutComments (source : Str) : Str := lexed id source

def hasOpener (s : Str) : Bool := contains s (str "//") || contains s (str "/*")

/-- Where a literal starts, it holds no opener. -/
def literalClear (s : Str) : Bool := decide (kindOf s ≠ .literal) || !hasOpener (s.take (lengthOf s))

/-- Where a block comment starts, it is closed. -/
def blockClosed (s : Str) : Bool := decide (kindOf s ≠ .block) || (closeLength (s.drop 2)).isSome

/-- No literal holds an opener, no line ends in a backslash, and every block comment is closed. -/
structure Plain (s : Str) : Prop where
  literals : atEvery cToken literalClear s = true
  unspliced : ¬[92, 10] <:+: s ∧ s.getLast? ≠ some 92
  closed : atEvery cToken blockClosed s = true

/-- A block comment is opened in the text, where the scan for them comes, and not closed in it. -/
def leftOpen (s : Str) : Bool :=
  !atEvery blockToken (fun m => !startsBlock m || (closeLength (m.drop 2)).isSome) s

/-- A line comment with the text behind it: without the block comments in it, it still starts as one, and a block
comment that it leaves open is not closed behind it. -/
def lineUndisturbed (comment behind : Str) : Bool :=
  startsLine (scan id blockToken comment) && (!leftOpen comment || !contains behind (str "*/"))

/-- Where a line comment starts, it does not disturb the first substitution. -/
def lineClear (s : Str) : Bool :=
  decide (kindOf s ≠ .line) || lineUndisturbed (lineOf s) (s.dropWhile (· != 10))

/-- No line comment disturbs the first substitution. -/
def Undisturbed (s : Str) : Prop := atEvery cToken lineClear s = true

/-- The substitutions remove exactly the places of the comments. -/
def ExactlyComments (s : Str) : Prop := strip Prod.fst s.zipIdx = lexed Prod.fst s.zipIdx

end Lexer

/-! ## Openers and closers -/

section Openers

variable {s t : Str} {c n : Nat}

theorem isPrefixOf_pair {d e : Nat} : [d, e].isPrefixOf (c :: s) = true ↔ c = d ∧ s.head? = some e := by
  rw [List.isPrefixOf_iff_prefix, List.cons_prefix_cons]
  constructor
  · rintro ⟨rfl, rest, rfl⟩
    exact ⟨rfl, rfl⟩
  · rintro ⟨rfl, hhead⟩
    obtain ⟨rest, rfl⟩ := List.head?_eq_some_iff.mp hhead
    exact ⟨rfl, rest, rfl⟩

theorem startsLine_cons : startsLine (c :: s) = true ↔ c = 47 ∧ s.head? = some 47 := isPrefixOf_pair

theorem startsBlock_cons : startsBlock (c :: s) = true ↔ c = 47 ∧ s.head? = some 42 := isPrefixOf_pair

theorem not_startsBlock_of_startsLine (h : startsLine s = true) : startsBlock s = false := by
  cases s with
  | nil => cases h
  | cons c s =>
    rw [Bool.eq_false_iff]
    intro hblock
    have hline := (startsLine_cons.mp h).2
    rw [(startsBlock_cons.mp hblock).2] at hline
    cases hline

theorem closeLength_le (h : closeLength s = some n) : n ≤ s.length := by
  induction s generalizing n with
  | nil => cases h
  | cons c s ih =>
    rw [closeLength] at h
    split at h
    next hclose =>
      obtain rfl := Option.some.inj h
      cases s with
      | nil => cases hclose.2
      | cons d s => simp
    · obtain ⟨m, hm, rfl⟩ := Option.map_eq_some_iff.mp h
      exact Nat.succ_le_succ (ih hm)

theorem closeLength_pos (h : closeLength s = some n) : 0 < n := by
  cases s with
  | nil => cases h
  | cons c s =>
    rw [closeLength] at h
    split at h
    · obtain rfl := Option.some.inj h
      exact Nat.two_pos
    · obtain ⟨m, -, rfl⟩ := Option.map_eq_some_iff.mp h
      exact Nat.succ_pos m

theorem closeLength_isSome : (closeLength s).isSome = contains s (str "*/") := by
  induction s with
  | nil => rfl
  | cons c s ih =>
    have hstep : contains (c :: s) (str "*/") = ((str "*/").isPrefixOf (c :: s) || contains s (str "*/")) := rfl
    rw [closeLength, hstep, ← ih]
    split
    next hclose =>
      have hyes : (str "*/").isPrefixOf (c :: s) = true := isPrefixOf_pair.mpr hclose
      rw [hyes, Bool.true_or, Option.isSome_some]
    next hclose =>
      have hnot : (str "*/").isPrefixOf (c :: s) = false :=
        Bool.eq_false_iff.mpr (fun h => hclose (isPrefixOf_pair.mp h))
      rw [hnot, Bool.false_or, Option.isSome_map]

/-- A closer in the first part of a text is the first one of the whole. -/
theorem closeLength_append_some (h : closeLength s = some n) : closeLength (s ++ t) = some n := by
  induction s generalizing n with
  | nil => cases h
  | cons c s ih =>
    rw [closeLength] at h
    rw [List.cons_append, closeLength]
    split at h
    next hclose =>
      have hhead : (s ++ t).head? = some 47 := by
        cases s with
        | nil => cases hclose.2
        | cons d s => exact hclose.2
      rw [if_pos ⟨hclose.1, hhead⟩, h]
    next hclose =>
      obtain ⟨m, hm, rfl⟩ := Option.map_eq_some_iff.mp h
      have hclose' : ¬(c = 42 ∧ (s ++ t).head? = some 47) := by
        cases s with
        | nil => cases hm
        | cons d s => exact hclose
      rw [if_neg hclose', ih hm]
      rfl

theorem kindOf_line : kindOf s = .line ↔ startsLine s = true := by
  unfold kindOf
  split
  next hline => simp [hline]
  next hline =>
    simp only [hline]
    split
    · simp
    · split <;> simp

theorem kindOf_block (h : kindOf s = .block) : startsLine s = false ∧ startsBlock s = true := by
  unfold kindOf at h
  split at h
  · cases h
  next hline =>
    split at h
    next hblock => exact ⟨by simpa using hline, hblock⟩
    · split at h <;> cases h

theorem kindOf_literal (h : kindOf s = .literal) : s.head? = some 34 ∨ s.head? = some 39 := by
  unfold kindOf at h
  split at h
  · cases h
  · split at h
    · cases h
    · split at h
      next hquote => exact hquote
      · cases h

theorem kindOf_other (h : kindOf s = .other) : startsLine s = false ∧ startsBlock s = false := by
  unfold kindOf at h
  split at h
  · cases h
  next hline =>
    split at h
    · cases h
    next hblock => exact ⟨by simpa using hline, by simpa using hblock⟩

theorem cToken_line (h : kindOf s = .line) : cToken s = ⟨false, (lineOf s).length⟩ := by
  simp [cToken, lengthOf, h]

theorem cToken_block (h : kindOf s = .block) (hclose : closeLength (s.drop 2) = some n) :
    cToken s = ⟨false, n + 2⟩ := by
  simp only [cToken, lengthOf, h, hclose]
  rfl

theorem cToken_literal (h : kindOf s = .literal) : cToken s = ⟨true, literalLength (s.headD 0) s.tail + 1⟩ := by
  simp [cToken, lengthOf, h]

theorem cToken_other (h : kindOf s = .other) : cToken s = ⟨true, 1⟩ := by
  simp [cToken, lengthOf, h]

/-- The line behind a text starts a new one. -/
def BreaksLine (t : Str) : Prop := ∀ c ∈ t.head?, c = 10

theorem closeLength_append_none (h : closeLength s = none) (ht : BreaksLine t) :
    closeLength (s ++ t) = (closeLength t).map (· + s.length) := by
  induction s with
  | nil => simp
  | cons c s ih =>
    rw [closeLength] at h
    split at h
    · cases h
    next hclose =>
      have hnone := Option.map_eq_none_iff.mp h
      have hclose' : ¬(c = 42 ∧ (s ++ t).head? = some 47) := by
        cases s with
        | nil =>
          rintro ⟨-, hhead⟩
          have := ht 47 hhead
          cases this
        | cons d s => exact hclose
      rw [List.cons_append, closeLength, if_neg hclose', ih hnone, Option.map_map]
      rfl

end Openers

/-! ## Tokens that are not line comments -/

section Tokens

variable {α : Type*} {f : α → Nat} {l w : List α} {x : α}

theorem scanBlock_cons (h : startsBlock ((x :: l).map f) = false) :
    scan f blockToken (x :: l) = x :: scan f blockToken l := by
  refine scan_cons ?_
  rw [blockToken, h]
  rfl

/-- A character that opens nothing stays in front. -/
theorem head_scanBlock (h : (l.map f).head? ≠ some 47) : ((scan f blockToken l).map f).head? = (l.map f).head? := by
  cases l with
  | nil => simp
  | cons x l =>
    have hblock : startsBlock ((x :: l).map f) = false := by
      rw [Bool.eq_false_iff]
      intro hstarts
      rw [List.map_cons] at hstarts h
      exact h (by rw [(startsBlock_cons.mp hstarts).1]; rfl)
    rw [scanBlock_cons hblock]
    rfl

/-- A character that opens no comment is kept. -/
theorem strip_cons (hline : startsLine ((x :: l).map f) = false) (hblock : startsBlock ((x :: l).map f) = false) :
    strip f (x :: l) = x :: strip f l := by
  have hkeep : startsLine ((x :: scan f blockToken l).map f) = false := by
    rw [Bool.eq_false_iff] at hline ⊢
    rw [List.map_cons] at hline ⊢
    intro hstarts
    obtain ⟨hx, hhead⟩ := startsLine_cons.mp hstarts
    have hnext : (l.map f).head? ≠ some 47 := fun hnext => hline (startsLine_cons.mpr ⟨hx, hnext⟩)
    rw [head_scanBlock hnext] at hhead
    exact hnext hhead
  unfold strip
  rw [scanBlock_cons hblock, scan_cons]
  rw [lineToken, hkeep]
  rfl

/-- Text without an opener is kept. -/
theorem strip_run (h : ∀ v, v <:+ w → v ≠ [] →
      startsLine ((v ++ l).map f) = false ∧ startsBlock ((v ++ l).map f) = false) :
    strip f (w ++ l) = w ++ strip f l := by
  induction w with
  | nil => rfl
  | cons x w ih =>
    obtain ⟨hline, hblock⟩ := h (x :: w) List.suffix_rfl (List.cons_ne_nil x w)
    rw [List.cons_append] at hline hblock ⊢
    rw [strip_cons hline hblock, ih (fun v hv => h v (hv.trans (List.suffix_cons x w))), List.cons_append]

end Tokens

/-! ## Line comments -/

section Lines

variable {α : Type*} {f : α → Nat} {t r : List α}

/-- A text of one line opens a block comment on its own, whatever stands behind the line. -/
theorem startsBlock_append (hr : BreaksLine (r.map f)) {x : α} :
    startsBlock ((x :: t ++ r).map f) = startsBlock ((x :: t).map f) := by
  rw [List.cons_append, List.map_cons, List.map_cons, Bool.eq_iff_iff, startsBlock_cons, startsBlock_cons]
  cases t with
  | nil =>
    constructor
    · rintro ⟨-, hhead⟩
      have := hr 42 hhead
      cases this
    · rintro ⟨-, hhead⟩
      cases hhead
  | cons y t => rfl

theorem leftOpen_cons {c : Nat} {s : Str} (h : startsBlock (c :: s) = false) : leftOpen (c :: s) = leftOpen s := by
  have htoken : (blockToken ([c] ++ s)).length = [c].length := by simp [blockToken, h]
  unfold leftOpen
  rw [← List.singleton_append, atEvery_token (List.cons_ne_nil c []) htoken]
  simp [h]

theorem leftOpen_closed {w s : Str} (hw : startsBlock (w ++ s) = true)
    (h : closeLength ((w ++ s).drop 2) = some (w.length - 2))
    (hlength : 2 ≤ w.length) : leftOpen (w ++ s) = leftOpen s := by
  have hne : w ≠ [] := by
    rintro rfl
    cases hlength
  have htoken : (blockToken (w ++ s)).length = w.length := by
    rw [blockToken, if_pos hw, h]
    dsimp only
    omega
  unfold leftOpen
  rw [atEvery_token hne htoken]
  simp [h]

theorem leftOpen_open {c : Nat} {s : Str} (hblock : startsBlock (c :: s) = true)
    (h : closeLength ((c :: s).drop 2) = none) : leftOpen (c :: s) = true := by
  unfold leftOpen atEvery
  rw [atEveryFrom, hblock, h]
  rfl

theorem scanBlock_open {x : α} {l : List α} (h : closeLength (((x :: l).map f).drop 2) = none) :
    scan f blockToken (x :: l) = x :: scan f blockToken l := by
  refine scan_cons ?_
  rw [blockToken, h]
  split <;> rfl

theorem scanBlock_closed {w l : List α} (hblock : startsBlock ((w ++ l).map f) = true)
    (hclose : closeLength (((w ++ l).map f).drop 2) = some (w.length - 2)) (hlength : 2 ≤ w.length) :
    scan f blockToken (w ++ l) = scan f blockToken l := by
  have hne : w ≠ [] := by
    rintro rfl
    cases hlength
  refine scan_drop hne ?_
  rw [blockToken, if_pos hblock, hclose]
  dsimp only
  rw [Nat.sub_add_cancel hlength]

/-- A turn of the first substitution in a line comment with `r` behind it: it keeps a character, it removes a block
comment that is closed in the line comment, or it removes one together with a part of `r`. -/
inductive Turn (f : α → Nat) (r : List α) : List α → Prop
  | keeps {x : α} {t : List α} (append : scan f blockToken (x :: t ++ r) = x :: scan f blockToken (t ++ r))
      (alone : scan f blockToken (x :: t) = x :: scan f blockToken t)
      (same : leftOpen ((x :: t).map f) = leftOpen (t.map f) ∨ contains (r.map f) (str "*/") = false) :
        Turn f r (x :: t)
  | closes {w t : List α} (ne : w ≠ []) (append : scan f blockToken (w ++ t ++ r) = scan f blockToken (t ++ r))
      (alone : scan f blockToken (w ++ t) = scan f blockToken t)
      (same : leftOpen ((w ++ t).map f) = leftOpen (t.map f)) : Turn f r (w ++ t)
  | crosses {t : List α} {k : Nat} (left : leftOpen (t.map f) = true) (closer : contains (r.map f) (str "*/") = true)
      (pos : 0 < k) (append : scan f blockToken (t ++ r) = scan f blockToken (r.drop k)) : Turn f r t

theorem turn_plain {x : α} (hr : BreaksLine (r.map f)) (hblock : startsBlock ((x :: t).map f) = false) :
    Turn f r (x :: t) := by
  have hblock' := hblock
  rw [← startsBlock_append hr, List.cons_append] at hblock'
  exact .keeps (scanBlock_cons hblock') (scanBlock_cons hblock) (Or.inl (leftOpen_cons hblock))

section Opened

variable {x y : α}

theorem turn_closed {n : Nat} (hr : BreaksLine (r.map f)) (hblock : startsBlock ((x :: y :: t).map f) = true)
    (hclose : closeLength (t.map f) = some n) : Turn f r (x :: y :: t) := by
  have hle := closeLength_le hclose
  rw [List.length_map] at hle
  obtain ⟨u, t, rfl, rfl⟩ : ∃ u t', t = u ++ t' ∧ u.length = n :=
    ⟨t.take n, t.drop n, (List.take_append_drop n t).symm, List.length_take_of_le hle⟩
  have hblock' := hblock
  rw [← startsBlock_append hr] at hblock'
  have hclose' := closeLength_append_some (t := r.map f) hclose
  rw [← List.map_append] at hclose'
  have hclosed : leftOpen ((x :: y :: u).map f ++ t.map f) = leftOpen (t.map f) := by
    refine leftOpen_closed ?_ ?_ (by simp)
    · rw [← List.map_append]
      exact hblock
    · rw [← List.map_append, List.length_map]
      exact hclose
  refine .closes (w := x :: y :: u) (List.cons_ne_nil x _) ?_ (scanBlock_closed hblock hclose (by simp)) ?_
  · rw [List.append_assoc] at hclose' ⊢
    exact scanBlock_closed hblock' hclose' (by simp)
  · rw [List.map_append]
    exact hclosed

/-- What the line comment leaves open is kept where nothing closes it, and is otherwise closed in `r`. -/
theorem turn_open (hr : BreaksLine (r.map f)) (hblock : startsBlock ((x :: y :: t).map f) = true)
    (hclose : closeLength (t.map f) = none) : Turn f r (x :: y :: t) := by
  have happend : closeLength (((x :: y :: t ++ r).map f).drop 2) =
      (closeLength (r.map f)).map (· + (t.map f).length) := by
    rw [← closeLength_append_none hclose hr, ← List.map_append]
    rfl
  cases hrest : closeLength (r.map f) with
  | none =>
    rw [hrest] at happend
    refine .keeps (scanBlock_open happend) (scanBlock_open hclose) (Or.inr ?_)
    rw [← closeLength_isSome, hrest]
    rfl
  | some n =>
    have hcloser : contains (r.map f) (str "*/") = true := by
      rw [← closeLength_isSome, hrest]
      rfl
    refine .crosses (leftOpen_open hblock hclose) hcloser (closeLength_pos hrest) ?_
    have hle := closeLength_le hrest
    rw [List.length_map] at hle
    rw [← startsBlock_append hr] at hblock
    have hsplit : x :: y :: t ++ r = (x :: y :: t ++ r.take n) ++ r.drop n := by simp
    have hlength : (x :: y :: t ++ r.take n).length - 2 = n + (t.map f).length := by
      simp only [List.length_append, List.length_cons, List.length_take, List.length_map]
      omega
    rw [hrest, Option.map_some, ← hlength] at happend
    rw [hsplit] at hblock happend ⊢
    exact scanBlock_closed hblock happend (by simp)

end Opened

theorem turn (hr : BreaksLine (r.map f)) (ht : t ≠ []) : Turn f r t := by
  obtain ⟨x, t, rfl⟩ := List.exists_cons_of_ne_nil ht
  by_cases hblock : startsBlock ((x :: t).map f) = true
  · cases t with
    | nil => cases (startsBlock_cons.mp hblock).2
    | cons y t =>
      cases hclose : closeLength (t.map f) with
      | some n => exact turn_closed hr hblock hclose
      | none => exact turn_open hr hblock hclose
  · exact turn_plain hr (by simpa using hblock)

/-- Where the comment leaves nothing open that is closed behind it, the first substitution works on each alone. -/
theorem scanBlock_separate (hr : BreaksLine (r.map f))
    (h : (leftOpen (t.map f) && contains (r.map f) (str "*/")) = false) :
    scan f blockToken (t ++ r) = scan f blockToken t ++ scan f blockToken r := by
  induction hn : t.length using Nat.strong_induction_on generalizing t with
  | _ n ih =>
    subst hn
    by_cases ht : t = []
    · simp [ht]
    cases turn hr ht with
    | @keeps x t happend halone hsame =>
      have h' : (leftOpen (t.map f) && contains (r.map f) (str "*/")) = false := by
        rcases hsame with hsame | hcloser
        · rwa [← hsame]
        · rw [hcloser, Bool.and_false]
      rw [happend, halone, ih t.length (by simp) h' rfl, List.cons_append]
    | @closes w t hne happend halone hsame =>
      have hpos := List.length_pos_iff.mpr hne
      rw [hsame] at h
      rw [happend, halone, ih t.length (by rw [List.length_append]; omega) h rfl]
    | crosses hleft hcloser =>
      rw [hleft, hcloser] at h
      cases h

/-- Otherwise it closes behind the comment what the comment leaves open, and takes the end of the line along. -/
theorem scanBlock_across (hr : BreaksLine (r.map f)) (hopen : leftOpen (t.map f) = true)
    (hclose : contains (r.map f) (str "*/") = true) :
    ∃ kept k, kept.Sublist t ∧ 0 < k ∧ scan f blockToken (t ++ r) = kept ++ scan f blockToken (r.drop k) := by
  induction hn : t.length using Nat.strong_induction_on generalizing t with
  | _ n ih =>
    subst hn
    have ht : t ≠ [] := by
      rintro rfl
      cases hopen
    cases turn hr ht with
    | @keeps x t happend halone hsame =>
      have hopen' : leftOpen (t.map f) = true := by
        rcases hsame with hsame | hnone
        · rwa [← hsame]
        · rw [hclose] at hnone
          cases hnone
      obtain ⟨kept, k, hkept, hk, hscan⟩ := ih t.length (by simp) hopen' rfl
      exact ⟨x :: kept, k, hkept.cons_cons x, hk, by rw [happend, hscan, List.cons_append]⟩
    | @closes w t hne happend halone hsame =>
      have hpos := List.length_pos_iff.mpr hne
      rw [hsame] at hopen
      obtain ⟨kept, k, hkept, hk, hscan⟩ := ih t.length (by rw [List.length_append]; omega) hopen rfl
      exact ⟨kept, k, hkept.trans (List.sublist_append_right w t), hk, happend.trans hscan⟩
    | crosses hleft hcloser hk hscan => exact ⟨[], _, List.nil_sublist _, hk, hscan⟩

theorem breaksLine_scanBlock (hr : BreaksLine (r.map f)) : BreaksLine ((scan f blockToken r).map f) := by
  have hhead : (r.map f).head? ≠ some 47 := by
    intro hhead
    have := hr 47 hhead
    cases this
  unfold BreaksLine
  rw [head_scanBlock hhead]
  exact hr

/-- A line comment that does not disturb the first substitution is removed by the second. -/
theorem strip_undisturbed (hfree : ∀ x ∈ t, f x ≠ 10) (hr : BreaksLine (r.map f))
    (h : lineUndisturbed (t.map f) (r.map f) = true) : strip f (t ++ r) = strip f r := by
  rw [lineUndisturbed, Bool.and_eq_true] at h
  obtain ⟨hstarts, hopen⟩ := h
  rw [← map_scan] at hstarts
  have hseparate : (leftOpen (t.map f) && contains (r.map f) (str "*/")) = false := by
    rw [← Bool.not_eq_true', Bool.not_and]
    exact hopen
  have hrun : ∀ c ∈ (scan f blockToken t).map f, (c != 10) = true := by
    intro c hc
    obtain ⟨x, hx, rfl⟩ := List.mem_map.mp hc
    simpa using hfree x (scan_sublist.subset hx)
  have hhalts : Halts (· != 10) ((scan f blockToken r).map f) := by
    intro c hc
    simp [breaksLine_scanBlock hr c hc]
  have hne : scan f blockToken t ≠ [] := by
    intro hnil
    rw [hnil] at hstarts
    cases hstarts
  unfold strip
  rw [scanBlock_separate hr hseparate]
  refine scan_drop hne ?_
  have hstarts' : startsLine ((scan f blockToken t ++ scan f blockToken r).map f) = true := by
    rw [List.map_append]
    exact List.isPrefixOf_iff_prefix.mpr ((List.isPrefixOf_iff_prefix.mp hstarts).trans (List.prefix_append _ _))
  rw [lineToken, if_pos hstarts', lineOf, List.map_append, takeWhile_run hrun hhalts, List.length_map]

/-- Text that opens no comment at its first place keeps it. -/
theorem mem_strip_of_scanBlock {x : α} {l l' : List α} (h : scan f blockToken l = x :: l')
    (hline : startsLine ((x :: l').map f) = false) : x ∈ strip f l := by
  unfold strip
  rw [h, scan_cons]
  · exact List.mem_cons_self
  · rw [lineToken, hline]
    rfl

theorem lexed_newline {y : α} {l : List α} (hy : f y = 10) : lexed f (y :: l) = y :: lexed f l := by
  have hkind : kindOf ((y :: l).map f) = .other := by
    have hline : ¬startsLine ((y :: l).map f) = true := by
      rw [List.map_cons, startsLine_cons, hy]
      simp
    have hblock : ¬startsBlock ((y :: l).map f) = true := by
      rw [List.map_cons, startsBlock_cons, hy]
      simp
    rw [kindOf, if_neg hline, if_neg hblock, if_neg (by simp [hy])]
  exact scan_cons (cToken_other hkind)

/-- Where a block comment crosses the end of the line, the newline is removed. -/
theorem not_mem_strip_of_crossed {y : α} (hnodup : (t ++ y :: r).Nodup) (hr : BreaksLine ((y :: r).map f))
    (hopen : leftOpen (t.map f) = true) (hclose : contains ((y :: r).map f) (str "*/") = true) :
    y ∉ strip f (t ++ y :: r) := by
  intro hy
  obtain ⟨-, hrnodup, hdisjoint⟩ := List.nodup_append.mp hnodup
  obtain ⟨kept, k, hkept, hk, hscan⟩ := scanBlock_across hr hopen hclose
  have hy' := scan_sublist.subset hy
  rw [hscan] at hy'
  rcases List.mem_append.mp hy' with hy' | hy'
  · exact hdisjoint y (hkept.subset hy') y List.mem_cons_self rfl
  · have hdrop : y ∈ (y :: r).drop k := scan_sublist.subset hy'
    obtain ⟨k, rfl⟩ := Nat.exists_eq_add_one.mpr hk
    exact (List.nodup_cons.mp hrnodup).1 (List.mem_of_mem_drop hdrop)

/-- Where the first substitution takes one of the two slashes along, the other one is kept. -/
theorem mem_strip_of_severed {x : α} (hr : BreaksLine (r.map f)) (hblock : startsBlock ((x :: t).map f) = false)
    (hsevered : startsLine ((scan f blockToken (x :: t)).map f) = false)
    (hseparate : (leftOpen ((x :: t).map f) && contains (r.map f) (str "*/")) = false) : x ∈ strip f (x :: t ++ r) := by
  have hscan : scan f blockToken (x :: t ++ r) = x :: (scan f blockToken t ++ scan f blockToken r) := by
    rw [scanBlock_separate hr hseparate, scanBlock_cons hblock, List.cons_append]
  refine mem_strip_of_scanBlock hscan ?_
  rw [scanBlock_cons hblock] at hsevered
  rw [Bool.eq_false_iff, List.map_cons] at hsevered ⊢
  intro hstarts
  obtain ⟨hx, hhead⟩ := startsLine_cons.mp hstarts
  refine hsevered (startsLine_cons.mpr ⟨hx, ?_⟩)
  rw [List.map_append] at hhead
  cases hrest : (scan f blockToken t).map f with
  | nil =>
    rw [hrest, List.nil_append] at hhead
    have := breaksLine_scanBlock hr 47 hhead
    cases this
  | cons c rest =>
    rw [hrest] at hhead
    exact hhead

/-- A line comment that disturbs the first substitution leaves a trace: the newline behind it, or its first slash. -/
theorem strip_disturbed (hnodup : (t ++ r).Nodup) (hline : startsLine (t.map f) = true) (hr : BreaksLine (r.map f))
    (h : lineUndisturbed (t.map f) (r.map f) = false) : strip f (t ++ r) ≠ lexed f r := by
  intro heq
  by_cases hcrossed : (leftOpen (t.map f) && contains (r.map f) (str "*/")) = true
  · rw [Bool.and_eq_true] at hcrossed
    cases r with
    | nil => cases hcrossed.2
    | cons y r =>
      refine not_mem_strip_of_crossed hnodup hr hcrossed.1 hcrossed.2 ?_
      rw [heq, lexed_newline (hr (f y) rfl)]
      exact List.mem_cons_self
  · rw [Bool.not_eq_true] at hcrossed
    cases t with
    | nil => cases hline
    | cons x t =>
      have hsevered : startsLine ((scan f blockToken (x :: t)).map f) = false := by
        rw [lineUndisturbed, Bool.and_eq_false_iff, ← map_scan] at h
        refine h.resolve_right ?_
        rw [← Bool.not_and, hcrossed]
        decide
      have hx := mem_strip_of_severed hr (not_startsBlock_of_startsLine hline) hsevered hcrossed
      rw [heq] at hx
      exact (List.nodup_append.mp hnodup).2.2 x List.mem_cons_self x (scan_sublist.subset hx) rfl

end Lines

/-! ## Literals -/

section Literals

variable {quote : Nat} {s : Str}

theorem literalLength_le : literalLength quote s ≤ s.length := by
  fun_induction literalLength quote s with
  | case1 | case2 | case3 | case4 | case5 | case6 => simp
  | case7 d s _ _ _ ih => simpa using ih
  | case8 c d s _ _ _ ih => simpa using ih

theorem breaksLine_nil : BreaksLine [] := by
  intro c hc
  cases hc

theorem breaksLine_cons : BreaksLine (10 :: s) := by
  intro c hc
  exact (Option.some.inj hc).symm

/-- A literal ends with its quote, or with the line. -/
theorem literal_end : (∃ t, s.take (literalLength quote s) = t ++ [quote]) ∨
    BreaksLine (s.drop (literalLength quote s)) := by
  fun_induction literalLength quote s with
  | case1 => exact Or.inr breaksLine_nil
  | case2 => exact Or.inr breaksLine_cons
  | case3 c hc => exact Or.inr breaksLine_nil
  | case4 d s => exact Or.inl ⟨[], rfl⟩
  | case5 d s hquote => exact Or.inr breaksLine_cons
  | case6 s hquote hbreak => exact Or.inr breaksLine_cons
  | case7 d s hd hquote hbreak ih =>
    rcases ih with ⟨t, ht⟩ | ih
    · exact Or.inl ⟨92 :: d :: t, by simp [ht]⟩
    · exact Or.inr ih
  | case8 c d s hquote hbreak hescape ih =>
    rcases ih with ⟨t, ht⟩ | ih
    · exact Or.inl ⟨c :: t, by rw [List.take_succ_cons, ht, List.cons_append]⟩
    · exact Or.inr ih

variable {α : Type*} {f : α → Nat} {l w : List α}

/-- The literal behind its opening quote, cut off the text: the last character is a quote again, or the line ends. -/
theorem exists_literal (x : α) (l : List α) : ∃ t r, l = t ++ r ∧ t.length = literalLength (f x) (l.map f) ∧
    ((∀ y ∈ (x :: t).getLast?, f y = f x) ∨ BreaksLine (r.map f)) := by
  have hle : literalLength (f x) (l.map f) ≤ l.length := by
    rw [← List.length_map f]
    exact literalLength_le
  refine ⟨l.take (literalLength (f x) (l.map f)), l.drop (literalLength (f x) (l.map f)),
    (List.take_append_drop _ l).symm,
    List.length_take_of_le hle, ?_⟩
  rw [List.map_drop]
  refine literal_end.imp_left ?_
  rintro ⟨u, hu⟩ y hy
  rw [← List.map_take] at hu
  have hlast := congrArg List.getLast? (congrArg (List.cons (f x)) hu)
  rw [← List.map_cons, List.getLast?_map, hy, ← List.cons_append, List.getLast?_concat] at hlast
  exact Option.some.inj hlast

/-- A pair of characters is an opener in a text that has it. -/
theorem hasOpener_of_suffix {u v : Str} (h : v <:+ u) (hstarts : startsLine v = true ∨ startsBlock v = true) :
    hasOpener u = true := by
  rw [hasOpener, Bool.or_eq_true, contains_iff, contains_iff]
  refine hstarts.imp ?_ ?_ <;> intro hstarts
  · exact (List.isPrefixOf_iff_prefix.mp hstarts).isInfix.trans h.isInfix
  · exact (List.isPrefixOf_iff_prefix.mp hstarts).isInfix.trans h.isInfix

/-- A literal without an opener, which ends with a quote or with the line, opens no comment. -/
theorem strip_literal (hopener : hasOpener (w.map f) = false)
    (hend : (∀ x ∈ w.getLast?, f x ≠ 47) ∨ BreaksLine (l.map f)) : strip f (w ++ l) = w ++ strip f l := by
  refine strip_run ?_
  intro v hv hne
  obtain ⟨x, v', rfl⟩ := List.exists_cons_of_ne_nil hne
  rw [← Bool.not_eq_true, ← Bool.not_eq_true, ← not_or]
  intro hstarts
  cases v' with
  | cons y v' =>
    have hstarts' : startsLine ((x :: y :: v').map f) = true ∨ startsBlock ((x :: y :: v').map f) = true := by
      simpa only [List.cons_append, List.map_cons, startsLine_cons, startsBlock_cons, List.head?_cons] using hstarts
    rw [hasOpener_of_suffix (hv.map f) hstarts'] at hopener
    cases hopener
  | nil =>
    simp only [List.cons_append, List.nil_append, List.map_cons, startsLine_cons, startsBlock_cons] at hstarts
    rcases hend with hlast | hbreak
    · have hx : w.getLast? = some x := by
        obtain ⟨u, rfl⟩ := hv
        exact List.getLast?_concat
      rcases hstarts with hstarts | hstarts
      · exact hlast x hx hstarts.1
      · exact hlast x hx hstarts.1
    · rcases hstarts with hstarts | hstarts
      · cases hbreak 47 hstarts.2
      · cases hbreak 42 hstarts.2

end Literals

/-! ## Exactness -/

section Exact

variable {α : Type*} {f : α → Nat} {l w : List α}

theorem startsLine_lineOf {s : Str} (h : startsLine s = true) : startsLine (lineOf s) = true := by
  cases s with
  | nil => cases h
  | cons c s =>
    obtain ⟨rfl, hhead⟩ := startsLine_cons.mp h
    obtain ⟨s, rfl⟩ := List.head?_eq_some_iff.mp hhead
    rfl

/-- What holds at every token holds at the first, and at every token behind it. -/
theorem atEvery_cToken {p : Str → Bool} (hw : w ≠ []) (hlength : (cToken ((w ++ l).map f)).length = w.length) :
    atEvery cToken p ((w ++ l).map f) = true ↔ p ((w ++ l).map f) = true ∧ atEvery cToken p (l.map f) = true := by
  have hne : w.map f ≠ [] := by simpa using hw
  rw [List.map_append] at hlength ⊢
  rw [atEvery_token hne (by rw [hlength, List.length_map]), Bool.and_eq_true]

/-- The first token, and what it does to the comparison of the substitutions with the lexer. -/
structure FirstToken (f : α → Nat) (l w l' : List α) : Prop where
  ne_nil : w ≠ []
  split : l = w ++ l'
  length : (cToken (l.map f)).length = w.length
  exact_iff : strip f l = lexed f l ↔ lineClear (l.map f) = true ∧ strip f l' = lexed f l'

theorem lineClear_of_ne {s : Str} (h : kindOf s ≠ .line) : lineClear s = true := by
  rw [lineClear, decide_eq_true h, Bool.true_or]

theorem firstToken_line (hnodup : l.Nodup) (hkind : kindOf (l.map f) = .line) : ∃ w l', FirstToken f l w l' := by
  obtain ⟨t, r, rfl, ht, hr⟩ :
    ∃ t r, l = t ++ r ∧ t.map f = lineOf (l.map f) ∧ r.map f = (l.map f).dropWhile (· != 10) :=
    ⟨l.takeWhile (fun x => f x != 10), l.dropWhile (fun x => f x != 10), List.takeWhile_append_dropWhile.symm,
      by rw [lineOf, List.takeWhile_map]; rfl, by rw [List.dropWhile_map]; rfl⟩
  have hline := startsLine_lineOf (kindOf_line.mp hkind)
  have hbreak : BreaksLine (r.map f) := by
    rw [hr]
    intro c hc
    simpa using halts_dropWhile c hc
  have htoken : cToken ((t ++ r).map f) = ⟨false, t.length⟩ := by rw [cToken_line hkind, ← ht, List.length_map]
  have hclear : lineClear ((t ++ r).map f) = lineUndisturbed (t.map f) (r.map f) := by
    rw [lineClear, hkind, ht, hr]
    rfl
  rw [← ht] at hline
  have hne : t ≠ [] := by
    rintro rfl
    cases hline
  have hfree : ∀ x ∈ t, f x ≠ 10 := by
    intro x hx
    have hmem : f x ∈ lineOf ((t ++ r).map f) := ht ▸ List.mem_map_of_mem hx
    simpa using List.all_eq_true.mp List.all_takeWhile (f x) hmem
  have hlexed : lexed f (t ++ r) = lexed f r := scan_drop hne htoken
  refine ⟨t, r, hne, rfl, by rw [htoken], ?_⟩
  rw [hclear, hlexed]
  by_cases hundisturbed : lineUndisturbed (t.map f) (r.map f) = true
  · rw [strip_undisturbed hfree hbreak hundisturbed]
    exact ⟨fun heq => ⟨hundisturbed, heq⟩, fun h => h.2⟩
  · have hne := strip_disturbed hnodup hline hbreak (by simpa using hundisturbed)
    exact ⟨fun heq => absurd heq hne, fun h => absurd h.1 hundisturbed⟩

theorem firstToken_block (hclosed : blockClosed (l.map f) = true) (hkind : kindOf (l.map f) = .block) :
    ∃ w l', FirstToken f l w l' := by
  rw [blockClosed, hkind] at hclosed
  obtain ⟨n, hn⟩ := Option.isSome_iff_exists.mp hclosed
  have hle := closeLength_le hn
  rw [List.length_drop, List.length_map] at hle
  have hblock := (kindOf_block hkind).2
  have hlength : 2 ≤ l.length := by
    rcases l with _ | ⟨x, _ | ⟨y, l⟩⟩
    · cases hblock
    · cases (startsBlock_cons.mp hblock).2
    · simp
  obtain ⟨w, l', rfl, hw⟩ : ∃ w l', l = w ++ l' ∧ w.length = n + 2 :=
    ⟨l.take (n + 2), l.drop (n + 2), (List.take_append_drop _ _).symm, by rw [List.length_take]; omega⟩
  have hne : w ≠ [] := by
    rintro rfl
    cases hw
  have htoken : cToken ((w ++ l').map f) = ⟨false, w.length⟩ := by rw [cToken_block hkind hn, hw]
  have hstrip : strip f (w ++ l') = strip f l' := by
    unfold strip
    rw [scanBlock_closed hblock (by rw [hn, hw]; rfl) (by omega)]
  have hlexed : lexed f (w ++ l') = lexed f l' := scan_drop hne htoken
  refine ⟨w, l', hne, rfl, by rw [htoken], ?_⟩
  rw [hstrip, hlexed]
  exact ⟨fun heq => ⟨lineClear_of_ne (by rw [hkind]; decide), heq⟩, fun h => h.2⟩

/-- A token that both keep. -/
theorem firstToken_kept {w l' : List α} (hne : w ≠ []) (htoken : cToken ((w ++ l').map f) = ⟨true, w.length⟩)
    (hkind : kindOf ((w ++ l').map f) ≠ .line) (hstrip : strip f (w ++ l') = w ++ strip f l') :
    FirstToken f (w ++ l') w l' := by
  refine ⟨hne, rfl, by rw [htoken], ?_⟩
  have hlexed : lexed f (w ++ l') = w ++ lexed f l' := scan_keep hne htoken
  rw [hstrip, hlexed, List.append_cancel_left_eq]
  exact ⟨fun heq => ⟨lineClear_of_ne hkind, heq⟩, fun h => h.2⟩

theorem firstToken_other (hnil : l ≠ []) (hkind : kindOf (l.map f) = .other) : ∃ w l', FirstToken f l w l' := by
  obtain ⟨x, l', rfl⟩ := List.exists_cons_of_ne_nil hnil
  obtain ⟨hline, hblock⟩ := kindOf_other hkind
  exact ⟨[x], l', firstToken_kept (List.cons_ne_nil x []) (cToken_other hkind)
    (by rw [List.singleton_append, hkind]; decide)
    (strip_cons hline hblock)⟩

theorem firstToken_literal (hclear : literalClear (l.map f) = true) (hkind : kindOf (l.map f) = .literal) :
    ∃ w l', FirstToken f l w l' := by
  have hquote := kindOf_literal hkind
  have htoken := cToken_literal hkind
  cases l with
  | nil => simp at hquote
  | cons x l =>
    obtain ⟨t, r, rfl, ht, hend⟩ := exists_literal (f := f) x l
    have hlength : cToken ((x :: t ++ r).map f) = ⟨true, (x :: t).length⟩ := by
      rw [List.length_cons, ht]
      exact htoken
    have hopener : hasOpener ((x :: t).map f) = false := by
      have htake : ((x :: t ++ r).map f).take (lengthOf ((x :: t ++ r).map f)) = (x :: t).map f := by
        have hlength' : lengthOf ((x :: t ++ r).map f) = ((x :: t).map f).length := by
          rw [List.length_map]
          exact congrArg Token.length hlength
        rw [hlength', List.map_append, List.take_left]
      rw [literalClear, hkind] at hclear
      rw [← htake]
      simpa using hclear
    refine ⟨x :: t, r, firstToken_kept (List.cons_ne_nil x t) hlength ?_ (strip_literal hopener (hend.imp_left ?_))⟩
    · have hne : Kind.literal ≠ .line := by decide
      rw [← hkind] at hne
      exact hne
    · intro hlast y hy
      rw [hlast y hy]
      rintro h47
      simp [h47] at hquote

theorem strip_eq_lexed_iff (hnodup : l.Nodup) (hliterals : atEvery cToken literalClear (l.map f) = true)
    (hclosed : atEvery cToken blockClosed (l.map f) = true) : strip f l = lexed f l ↔ Undisturbed (l.map f) := by
  induction hn : l.length using Nat.strong_induction_on generalizing l with
  | _ n ih =>
    subst hn
    by_cases hnil : l = []
    · subst hnil
      simp [strip, lexed, Undisturbed, atEvery, atEveryFrom]
    have hmap : l.map f ≠ [] := by simpa using hnil
    obtain ⟨w, l', hfirst⟩ : ∃ w l', FirstToken f l w l' := by
      cases hkind : kindOf (l.map f) with
      | line => exact firstToken_line hnodup hkind
      | block => exact firstToken_block (head_of_atEvery hmap hclosed) hkind
      | literal => exact firstToken_literal (head_of_atEvery hmap hliterals) hkind
      | other => exact firstToken_other hnil hkind
    obtain ⟨hne, rfl, hlength, hexact⟩ := hfirst
    have hpos := List.length_pos_iff.mpr hne
    rw [atEvery_cToken hne hlength] at hliterals hclosed
    rw [hexact, Undisturbed, atEvery_cToken hne hlength,
      ih l'.length (by rw [List.length_append]; omega) (List.nodup_append.mp hnodup).2.1 hliterals.2 hclosed.2 rfl]
    rfl

theorem stripCComments_of_exactlyComments {s : Str} (h : ExactlyComments s) : stripCComments s = withoutComments s := by
  have hplaces : (s.zipIdx).map Prod.fst = s := List.zipIdx_map_fst 0 s
  have hstrip : (strip Prod.fst s.zipIdx).map Prod.fst = stripCComments s := by
    rw [strip, map_scan, map_scan, hplaces]
    rfl
  have hlexed : (lexed Prod.fst s.zipIdx).map Prod.fst = withoutComments s := by
    rw [lexed, map_scan, hplaces]
    rfl
  rw [← hstrip, ← hlexed, h]

/-- On a plain source the substitutions remove exactly the comments when no line comment disturbs the first of them, and
what they return is then the source without its comments. -/
theorem stripCComments_exact_iff {s : Str} (h : Plain s) :
    (ExactlyComments s ↔ Undisturbed s) ∧ (Undisturbed s → stripCComments s = withoutComments s) := by
  have hplaces : (s.zipIdx).map Prod.fst = s := List.zipIdx_map_fst 0 s
  have hiff : ExactlyComments s ↔ Undisturbed s := by
    have hnodup : (s.zipIdx).Nodup := by
      refine List.Nodup.of_map Prod.snd ?_
      rw [List.zipIdx_map_snd]
      exact List.nodup_range'
    have hexact := strip_eq_lexed_iff (f := Prod.fst) hnodup (by rw [hplaces]; exact h.literals)
      (by rw [hplaces]; exact h.closed)
    rw [hplaces] at hexact
    exact hexact
  refine ⟨hiff, ?_⟩
  intro hundisturbed
  exact stripCComments_of_exactlyComments (hiff.mpr hundisturbed)

/-- Comments of each kind that hold the opener of the other. -/
theorem stripCComments_exact_mixed :
    Undisturbed (str "a /* // */ b // /* c */\nSEC(\"p\")") ∧
      stripCComments (str "a /* // */ b // /* c */\nSEC(\"p\")") = str "a  b \nSEC(\"p\")" := by
  have hplain : Plain (str "a /* // */ b // /* c */\nSEC(\"p\")") := ⟨by decide, by decide, by decide⟩
  have hundisturbed : Undisturbed (str "a /* // */ b // /* c */\nSEC(\"p\")") := by
    unfold Undisturbed
    decide
  refine ⟨hundisturbed, ?_⟩
  rw [(stripCComments_exact_iff hplain).2 hundisturbed]
  decide

/-- A block comment opened in a line comment takes the declaration of the next line away. -/
theorem stripCComments_hides_declaration :
    Plain (str "// see /* x\nint live;\n/* y */") ∧ ¬ExactlyComments (str "// see /* x\nint live;\n/* y */") ∧
      stripCComments (str "// see /* x\nint live;\n/* y */") = [] ∧
      withoutComments (str "// see /* x\nint live;\n/* y */") = str "\nint live;\n" := by
  have hstrip : stripCComments (str "// see /* x\nint live;\n/* y */") = [] := by decide
  have hlexed : withoutComments (str "// see /* x\nint live;\n/* y */") = str "\nint live;\n" := by decide
  refine ⟨⟨by decide, by decide, by decide⟩, ?_, hstrip, hlexed⟩
  intro hexact
  have heq := stripCComments_of_exactlyComments hexact
  rw [hstrip, hlexed] at heq
  exact absurd heq (by decide)

end Exact

end Exasphere.Qa.CComments

import Exasphere.Py.Str

/-!
# Regular expressions

The patterns of the `re` module that repeat single characters only: `ends` lists every position a match may stop at, so
that `fullmatch`, `match` and `search` are decided by it. Of a pattern without anchors that reads only characters of `p`
(`Within`), a search does not see across any other character (`search_append`); a pattern each of whose matches reads a
character of `q` (`Needs`) is not found in a text without one (`search_of_needs`).
-/

namespace Exasphere.Py

/-- A place in a text: the character before it and the text behind it. -/
structure Pos where
  before : Option Nat
  rest : Str
  deriving DecidableEq, Repr

inductive Re
  | empty
  /-- A character class repeated from `least` to `most` times. -/
  | run (p : Nat → Bool) (least : Nat) (most : Option Nat)
  | seq (r s : Re)
  | alt (r s : Re)
  /-- `^`. -/
  | start
  /-- `$`, which also holds before a newline at the end. -/
  | finish
  /-- `\b`, given the characters of a word. -/
  | boundary (word : Nat → Bool)

namespace Re

def runEnds (p : Nat → Bool) : Nat → Option Nat → Option Nat → Str → List Pos
  | least, _, before, [] => if least = 0 then [⟨before, []⟩] else []
  | least, most, before, c :: s =>
    (if least = 0 then [⟨before, c :: s⟩] else []) ++
      if most ≠ some 0 ∧ p c = true then runEnds p (least - 1) (most.map (· - 1)) (some c) s else []

/-- The positions where a match from here may end. -/
def ends : Re → Pos → List Pos
  | .empty, pos => [pos]
  | .run p least most, pos => runEnds p least most pos.before pos.rest
  | .seq r s, pos => (r.ends pos).flatMap s.ends
  | .alt r s, pos => r.ends pos ++ s.ends pos
  | .start, pos => if pos.before = none then [pos] else []
  | .finish, pos => if pos.rest = [] ∨ pos.rest = [10] then [pos] else []
  | .boundary word, pos => if pos.before.any word ≠ pos.rest.head?.any word then [pos] else []

/-- `re.fullmatch(r, s) is not None`. -/
def fullmatch (r : Re) (s : Str) : Bool := (r.ends ⟨none, s⟩).any (fun e => decide (e.rest = []))

/-- `re.match(r, s) is not None`. -/
def matchStart (r : Re) (s : Str) : Bool := !(r.ends ⟨none, s⟩).isEmpty

def searchFrom (r : Re) (before : Option Nat) : Str → Bool
  | [] => !(r.ends ⟨before, []⟩).isEmpty
  | c :: s => !(r.ends ⟨before, c :: s⟩).isEmpty || searchFrom r (some c) s

/-- `re.search(r, s) is not None`. -/
def search (r : Re) (s : Str) : Bool := searchFrom r none s

/-! ## Patterns -/

def cls (p : Nat → Bool) : Re := .run p 1 (some 1)

/-- `[...]{n}`. -/
def exactly (p : Nat → Bool) (n : Nat) : Re := .run p n (some n)

/-- `[...]+`. -/
def plus (p : Nat → Bool) : Re := .run p 1 none

def opt (r : Re) : Re := .alt r .empty

def ofStr (like : Nat → Nat → Bool) : Str → Re
  | [] => .empty
  | c :: s => .seq (cls (like c)) (ofStr like s)

/-- A literal text. -/
def lit (s : String) : Re := ofStr (fun c d => decide (c = d)) (str s)

/-- A lower-case ASCII letter up to case, under `re.IGNORECASE`. -/
def likeLetter (c d : Nat) : Bool :=
  decide (d = c) || (decide (97 ≤ c ∧ c ≤ 122) && decide (d = c - 32)) ||
    (decide (c = 115) && decide (d = 0x17F)) || (decide (c = 107) && decide (d = 0x212A)) ||
    (decide (c = 105) && (decide (d = 0x130) || decide (d = 0x131)))

/-- A literal of lower-case letters up to case. -/
def litI (s : String) : Re := ofStr likeLetter (str s)

/-- The characters of a class that is written out. -/
def oneOf (s : String) (c : Nat) : Bool := (str s).contains c

/-- `[A-Za-z0-9_.-]`. -/
def isIdChar (c : Nat) : Bool :=
  decide ((65 ≤ c ∧ c ≤ 90) ∨ (97 ≤ c ∧ c ≤ 122) ∨ (48 ≤ c ∧ c ≤ 57)) || oneOf "_.-" c

def choice : List Re → Re
  | [] => .run (fun _ => false) 1 none
  | [r] => r
  | r :: s :: rs => .alt r (choice (s :: rs))

/-! ## Where a match ends -/

section Ends

variable {r : Re} {p : Nat → Bool}

theorem suffix_of_mem_runEnds {least : Nat} {most before : Option Nat} {s : Str} {e : Pos}
    (he : e ∈ runEnds p least most before s) : e.rest <:+ s := by
  induction s generalizing least most before with
  | nil =>
    simp only [runEnds] at he
    split at he
    · rw [List.mem_singleton.mp he]
    · cases he
  | cons c s ih =>
    rcases List.mem_append.mp he with he | he
    · split at he
      · rw [List.mem_singleton.mp he]
      · cases he
    · split at he
      · exact (ih he).trans (List.suffix_cons c s)
      · cases he

/-- A match leaves a suffix of the text. -/
theorem suffix_of_mem_ends {pos e : Pos} (he : e ∈ r.ends pos) : e.rest <:+ pos.rest := by
  induction r generalizing pos e with
  | empty => rw [List.mem_singleton.mp he]
  | run p least most => exact suffix_of_mem_runEnds he
  | seq r s ihr ihs =>
    obtain ⟨mid, hmid, he⟩ := List.mem_flatMap.mp he
    exact (ihs he).trans (ihr hmid)
  | alt r s ihr ihs =>
    rcases List.mem_append.mp he with he | he
    · exact ihr he
    · exact ihs he
  | start | finish | boundary word =>
    simp only [ends] at he
    split at he
    · rw [List.mem_singleton.mp he]
    · cases he

/-- A run of the class is read to its end. -/
theorem mem_runEnds {s t : Str} {least : Nat} {most before : Option Nat} (hs : ∀ c ∈ s, p c = true)
    (hleast : least ≤ s.length) (hmost : ∀ m ∈ most, s.length ≤ m) :
    ⟨s.getLast?.or before, t⟩ ∈ runEnds p least most before (s ++ t) := by
  induction s generalizing least most before with
  | nil =>
    obtain rfl : least = 0 := by simpa using hleast
    cases t <;> simp [runEnds]
  | cons c s ih =>
    have hzero : most ≠ some 0 := by
      rintro rfl
      have hle := hmost 0 rfl
      simp at hle
    rw [List.cons_append, runEnds, if_pos (show most ≠ some 0 ∧ p c = true from ⟨hzero, hs c (by simp)⟩)]
    refine List.mem_append_right _ ?_
    have hlast : (c :: s).getLast?.or before = s.getLast?.or (some c) := by
      rw [List.getLast?_cons]
      cases s.getLast? <;> rfl
    rw [hlast]
    refine ih (fun d hd => hs d (by simp [hd])) ?_ ?_
    · simp only [List.length_cons] at hleast
      omega
    · intro m hm
      obtain ⟨m', hm', rfl⟩ := Option.mem_map.mp hm
      have hle := hmost m' hm'
      simp only [List.length_cons] at hle
      omega

theorem mem_ends_seq {s : Re} {pos mid e : Pos} (hr : mid ∈ r.ends pos) (hs : e ∈ s.ends mid) :
    e ∈ (seq r s).ends pos :=
  List.mem_flatMap.mpr ⟨mid, hr, hs⟩

/-- What a run has read where it stops. -/
theorem read_of_mem_runEnds {s : Str} {least : Nat} {most before : Option Nat} {e : Pos}
    (he : e ∈ runEnds p least most before s) :
    ∃ w, s = w ++ e.rest ∧ (∀ c ∈ w, p c = true) ∧ least ≤ w.length ∧ ∀ m ∈ most, w.length ≤ m := by
  induction s generalizing least most before with
  | nil =>
    simp only [runEnds] at he
    split at he
    next hleast =>
      rw [List.mem_singleton.mp he]
      exact ⟨[], rfl, by simp, hleast.le, by simp⟩
    · cases he
  | cons c s ih =>
    rcases List.mem_append.mp he with he | he
    · split at he
      next hleast =>
        rw [List.mem_singleton.mp he]
        exact ⟨[], rfl, by simp, hleast.le, by simp⟩
      · cases he
    · split at he
      next hmore =>
        obtain ⟨w, hs, hw, hleast, hmost⟩ := ih he
        refine ⟨c :: w, by rw [hs, List.cons_append], List.forall_mem_cons.mpr ⟨hmore.2, hw⟩, ?_, ?_⟩
        · rw [List.length_cons]
          omega
        · intro m hm
          have hpos : m ≠ 0 := by
            rintro rfl
            exact hmore.1 hm
          have hle := hmost (m - 1) (Option.mem_map.mpr ⟨m, hm, rfl⟩)
          rw [List.length_cons]
          omega
      · cases he

theorem read_of_mem_exactly {n : Nat} {pos e : Pos} (he : e ∈ (exactly p n).ends pos) :
    ∃ w, pos.rest = w ++ e.rest ∧ w.length = n ∧ ∀ c ∈ w, p c = true := by
  obtain ⟨w, hw, hp, hleast, hmost⟩ := read_of_mem_runEnds he
  exact ⟨w, hw, (hmost n rfl).antisymm hleast, hp⟩

theorem read_of_mem_lit {s : String} {pos e : Pos} (he : e ∈ (lit s).ends pos) : pos.rest = str s ++ e.rest := by
  unfold lit at he
  generalize str s = t at he ⊢
  induction t generalizing pos with
  | nil => rw [List.mem_singleton.mp he, List.nil_append]
  | cons c t ih =>
    obtain ⟨mid, hmid, he⟩ := List.mem_flatMap.mp he
    obtain ⟨w, hw, hlength, hc⟩ := read_of_mem_exactly hmid
    obtain ⟨d, rfl⟩ := List.length_eq_one_iff.mp hlength
    rw [hw, ih he, of_decide_eq_true (hc d List.mem_cons_self), List.cons_append, List.nil_append, List.cons_append]

theorem exists_mem_of_matchStart {s : Str} (h : r.matchStart s = true) : ∃ e, e ∈ r.ends ⟨none, s⟩ := by
  refine List.exists_mem_of_ne_nil _ ?_
  intro hnil
  simp [matchStart, hnil] at h

/-- The pattern reads the text, whatever stands around it. -/
def Reads (r : Re) (s : Str) : Prop := ∀ before t, ∃ before', ⟨before', t⟩ ∈ r.ends ⟨before, s ++ t⟩

/-- The pattern reads the text up to the end. -/
def ReadsAll (r : Re) (s : Str) : Prop := ∀ before, ∃ before', ⟨before', []⟩ ∈ r.ends ⟨before, s⟩

theorem Reads.seq {r' : Re} {s s' : Str} (h : r.Reads s) (h' : r'.Reads s') : (Re.seq r r').Reads (s ++ s') := by
  intro before t
  obtain ⟨mid, hmid⟩ := h before (s' ++ t)
  obtain ⟨last, hlast⟩ := h' mid t
  exact ⟨last, by rw [List.append_assoc]; exact mem_ends_seq hmid hlast⟩

theorem Reads.all {r' : Re} {s s' : Str} (h : r.Reads s) (h' : r'.ReadsAll s') : (Re.seq r r').ReadsAll (s ++ s') := by
  intro before
  obtain ⟨mid, hmid⟩ := h before s'
  obtain ⟨last, hlast⟩ := h' mid
  exact ⟨last, mem_ends_seq hmid hlast⟩

theorem reads_run {s : Str} {least : Nat} {most : Option Nat} (hs : ∀ c ∈ s, p c = true) (hleast : least ≤ s.length)
    (hmost : ∀ m ∈ most, s.length ≤ m) : (Re.run p least most).Reads s :=
  fun _ _ => ⟨_, mem_runEnds hs hleast hmost⟩

theorem reads_lit (s : String) : (lit s).Reads (str s) := by
  unfold lit
  induction str s with
  | nil => exact fun before t => ⟨before, by simp [ofStr, ends]⟩
  | cons c s ih =>
    have hc : (cls (fun d => decide (c = d))).Reads [c] := reads_run (by simp) (by simp) (by simp)
    exact hc.seq ih

theorem readsAll_finish : finish.ReadsAll [] := fun before => ⟨before, by simp [ends]⟩

theorem matchStart_of_mem {s : Str} {e : Pos} (he : e ∈ r.ends ⟨none, s⟩) : r.matchStart s = true := by
  unfold matchStart
  cases h : r.ends ⟨none, s⟩ with
  | nil =>
    rw [h] at he
    cases he
  | cons d ds => rfl

end Ends

/-! ## Searches -/

section Search

/-- Every character a match reads is in `p`, and the pattern looks at nothing else. -/
def Within (p : Nat → Bool) : Re → Prop
  | .empty => True
  | .run q _ _ => ∀ c, q c = true → p c = true
  | .seq r s => r.Within p ∧ s.Within p
  | .alt r s => r.Within p ∧ s.Within p
  | _ => False

/-- Every match reads a character of `q`. -/
def Needs (q : Nat → Bool) : Re → Prop
  | .run p least _ => 0 < least ∧ ∀ c, p c = true → q c = true
  | .seq r s => r.Needs q ∨ s.Needs q
  | .alt r s => r.Needs q ∧ s.Needs q
  | _ => False

variable {r : Re} {p q : Nat → Bool}

theorem Needs.mono {q' : Nat → Bool} (h : r.Needs q) (hq : ∀ c, q c = true → q' c = true) : r.Needs q' := by
  induction r with
  | empty | start | finish | boundary word => exact h
  | run p least most => exact ⟨h.1, fun c hc => hq c (h.2 c hc)⟩
  | seq r s ihr ihs => exact h.imp ihr ihs
  | alt r s ihr ihs => exact ⟨ihr h.1, ihs h.2⟩

/-- A literal needs each of its characters. -/
theorem needs_ofStr {like : Nat → Nat → Bool} {s : Str} {c : Nat} (hc : c ∈ s) : (ofStr like s).Needs (like c) := by
  induction s with
  | nil => cases hc
  | cons d s ih =>
    rcases List.mem_cons.mp hc with rfl | hc
    · exact Or.inl ⟨by decide, fun _ h => h⟩
    · exact Or.inr (ih hc)

/-- A literal reads nothing but its characters. -/
theorem within_ofStr {like : Nat → Nat → Bool} {s : Str} (h : ∀ c ∈ s, ∀ d, like c d = true → p d = true) :
    (ofStr like s).Within p := by
  induction s with
  | nil => trivial
  | cons c s ih => exact ⟨fun d hd => h c (by simp) d hd, ih (fun e he => h e (by simp [he]))⟩

theorem ends_of_needs {pos : Pos} (hr : r.Needs q) (hs : ∀ c ∈ pos.rest, q c = false) : r.ends pos = [] := by
  induction r generalizing pos with
  | empty | start | finish | boundary word => exact hr.elim
  | run p least most =>
    obtain ⟨before, rest⟩ := pos
    have hleast : least ≠ 0 := Nat.ne_of_gt hr.1
    cases rest with
    | nil => simp [ends, runEnds, hleast]
    | cons c s =>
      have hc : ¬ p c = true := by
        intro hp
        have hq := hr.2 c hp
        rw [hs c (by simp)] at hq
        cases hq
      simp [ends, runEnds, hleast, hc]
  | alt r s ihr ihs => simp [ends, ihr hr.1 hs, ihs hr.2 hs]
  | seq r s ihr ihs =>
    rcases hr with hr | hr
    · simp [ends, ihr hr hs]
    · simp only [ends, List.flatMap_eq_nil_iff]
      intro mid hmid
      exact ihs hr (fun c hc => hs c ((suffix_of_mem_ends hmid).subset hc))

theorem searchFrom_of_needs {before : Option Nat} {s : Str} (hr : r.Needs q) (hs : ∀ c ∈ s, q c = false) :
    r.searchFrom before s = false := by
  induction s generalizing before with
  | nil =>
    have hends : r.ends ⟨before, []⟩ = [] := ends_of_needs hr hs
    simp [searchFrom, hends]
  | cons c s ih =>
    have hends : r.ends ⟨before, c :: s⟩ = [] := ends_of_needs hr hs
    simp [searchFrom, hends, ih (fun d hd => hs d (by simp [hd]))]

theorem search_of_needs {s : Str} (hr : r.Needs q) (hs : ∀ c ∈ s, q c = false) : r.search s = false :=
  searchFrom_of_needs hr hs

/-- The text behind a character outside the pattern is carried along. -/
theorem runEnds_append {least : Nat} {most before : Option Nat} {s t : Str} {c : Nat} (hc : p c = false) :
    runEnds p least most before (s ++ c :: t) =
      (runEnds p least most before s).map (fun e => ⟨e.before, e.rest ++ c :: t⟩) := by
  induction s generalizing least most before with
  | nil =>
    simp only [List.nil_append, runEnds, hc]
    split <;> simp
  | cons d s ih =>
    simp only [List.cons_append, runEnds, List.map_append, ih]
    congr 1
    · split <;> simp
    · split <;> simp

theorem ends_append {before : Option Nat} {s t : Str} {c : Nat} (hr : r.Within p) (hc : p c = false) :
    r.ends ⟨before, s ++ c :: t⟩ = (r.ends ⟨before, s⟩).map (fun e => ⟨e.before, e.rest ++ c :: t⟩) := by
  induction r generalizing before s with
  | empty => simp [ends]
  | start | finish | boundary word => exact hr.elim
  | run q least most =>
    refine runEnds_append ?_
    cases hq : q c with
    | false => rfl
    | true =>
      rw [hr c hq] at hc
      cases hc
  | alt r s ihr ihs => simp [ends, ihr hr.1, ihs hr.2]
  | seq r s ihr ihs =>
    simp only [ends, ihr hr.1, List.flatMap_map, List.map_flatMap]
    refine List.flatMap_congr ?_
    intro mid hmid
    exact ihs hr.2

theorem runEnds_rest {least : Nat} {most before before' : Option Nat} {s : Str} :
    (runEnds p least most before s).map Pos.rest = (runEnds p least most before' s).map Pos.rest := by
  cases s with
  | nil => simp only [runEnds]; split <;> simp
  | cons c s =>
    simp only [runEnds, List.map_append]
    congr 1
    split <;> simp

/-- Without anchors the character before the match does not matter. -/
theorem ends_rest (hr : r.Within p) (before before' : Option Nat) (u : Str) :
    (r.ends ⟨before, u⟩).map Pos.rest = (r.ends ⟨before', u⟩).map Pos.rest := by
  induction r generalizing before before' u with
  | empty => rfl
  | start | finish | boundary word => exact hr.elim
  | run q least most => exact runEnds_rest
  | alt r s ihr ihs =>
    simp only [ends, List.map_append]
    rw [ihr hr.1 before before' u, ihs hr.2 before before' u]
  | seq r s ihr ihs =>
    have hflat : ∀ l l' : List Pos, l.map Pos.rest = l'.map Pos.rest →
        (l.flatMap s.ends).map Pos.rest = (l'.flatMap s.ends).map Pos.rest := by
      intro l
      induction l with
      | nil =>
        intro l' h
        rw [List.map_eq_nil_iff.mp h.symm]
      | cons d l ih =>
        intro l' h
        obtain ⟨d', l'', rfl, hd, hl⟩ := List.map_eq_cons_iff.mp h.symm
        simp only [List.flatMap_cons, List.map_append, ih l'' hl.symm]
        congr 1
        obtain ⟨b, t⟩ := d
        obtain ⟨b', t'⟩ := d'
        obtain rfl : t' = t := hd
        exact ihs hr.2 b b' t'
    exact hflat _ _ (ihr hr.1 before before' u)

theorem isEmpty_ends (hr : r.Within p) (before before' : Option Nat) (s : Str) :
    (r.ends ⟨before, s⟩).isEmpty = (r.ends ⟨before', s⟩).isEmpty := by
  have h := congrArg List.isEmpty (ends_rest hr before before' s)
  rwa [List.isEmpty_map, List.isEmpty_map] at h

theorem searchFrom_before (hr : r.Within p) (before before' : Option Nat) (s : Str) :
    r.searchFrom before s = r.searchFrom before' s := by
  cases s with
  | nil => rw [searchFrom, searchFrom, isEmpty_ends hr before before']
  | cons c s => rw [searchFrom, searchFrom, isEmpty_ends hr before before']

/-- A search does not see across a character that the pattern cannot read. -/
theorem search_append {s t : Str} {c : Nat} (hr : r.Within p) (hc : p c = false) :
    r.search (s ++ c :: t) = (r.search s || r.search t) := by
  have hempty : ∀ before u, (r.ends ⟨before, u ++ c :: t⟩).isEmpty = (r.ends ⟨before, u⟩).isEmpty := by
    intro before u
    rw [ends_append hr hc, List.isEmpty_map]
  have hfrom : ∀ before, r.searchFrom before (s ++ c :: t) = (r.searchFrom before s || r.searchFrom none t) := by
    induction s with
    | nil =>
      intro before
      have h : (r.ends ⟨before, c :: t⟩).isEmpty = (r.ends ⟨before, []⟩).isEmpty := hempty before []
      simp only [List.nil_append, searchFrom, h]
      rw [searchFrom_before hr (some c) none]
    | cons d s ih =>
      intro before
      have h : (r.ends ⟨before, d :: (s ++ c :: t)⟩).isEmpty = (r.ends ⟨before, d :: s⟩).isEmpty :=
        hempty before (d :: s)
      simp only [List.cons_append, searchFrom, h, ih, Bool.or_assoc]
  exact hfrom none

end Search

end Re

end Exasphere.Py

import Mathlib.Data.Nat.Digits.Lemmas
import Mathlib.Data.List.Basic

/-!
# Byte strings and decimal numbers

Text is a list of bytes. `decimal` prints a natural number and `readDecimal` reads a run of digits back
(`readDecimal_decimal`); `takeWhile_run` and `dropWhile_run` cut such a run off the text that follows it. `indexOf` is
where a needle starts first in a text; a needle that ends in a delimiter is searched segment by segment
(`indexOf_segment`, `indexOf_segment_skip`).
-/

namespace Exasphere.Lib

abbrev Bytes := List UInt8

/-- The bytes of a literal. -/
def utf8 (s : String) : Bytes := s.toByteArray.data.toList

@[simp] theorem utf8_inj {s t : String} : utf8 s = utf8 t ↔ s = t := by
  unfold utf8
  rw [Array.toList_inj, ← ByteArray.ext_iff, String.toByteArray_inj]

/-- The entry of a name in a table, searched from its start. -/
def findName {κ : Type*} (table : List (String × κ)) (name : Bytes) : Option κ :=
  (table.find? (fun e => utf8 e.1 = name)).map Prod.snd

def isDigit (c : UInt8) : Bool := decide (48 ≤ c ∧ c ≤ 57)

/-- The value of a digit. -/
def digitValue (c : UInt8) : Nat := c.toNat - 48

/-- The digit of a value below 10. -/
def digit (d : Nat) : UInt8 := UInt8.ofNat (48 + d)

/-- A run of digits, most significant first. -/
def readDecimal (s : Bytes) : Nat := s.foldl (fun n c => 10 * n + digitValue c) 0

def decimal (n : Nat) : Bytes := if n = 0 then [48] else ((Nat.digits 10 n).map digit).reverse

/-! ## Printing and reading -/

section Decimal

theorem toNat_digit {d : Nat} (h : d < 10) : (digit d).toNat = 48 + d := by
  simp only [digit, UInt8.toNat_ofNat']
  omega

theorem digitValue_digit {d : Nat} (h : d < 10) : digitValue (digit d) = d := by
  rw [digitValue, toNat_digit h]
  omega

theorem isDigit_digit {d : Nat} (h : d < 10) : isDigit (digit d) = true := by
  have := toNat_digit h
  simp only [isDigit, decide_eq_true_eq, UInt8.le_iff_toNat_le, this]
  simp
  omega

theorem isDigit_decimal {n : Nat} {c : UInt8} (h : c ∈ decimal n) : isDigit c = true := by
  unfold decimal at h
  split at h
  · simp only [List.mem_singleton] at h
    subst h
    rfl
  · simp only [List.mem_reverse, List.mem_map] at h
    obtain ⟨d, hd, rfl⟩ := h
    exact isDigit_digit (Nat.digits_lt_base (by omega) hd)

theorem decimal_ne_nil (n : Nat) : decimal n ≠ [] := by
  unfold decimal
  split
  · simp
  next h => simpa using Nat.digits_ne_nil_iff_ne_zero.mpr h

theorem foldr_digits {l : List Nat} (h : ∀ d ∈ l, d < 10) :
    (l.map digit).foldr (fun c n => 10 * n + digitValue c) 0 = Nat.ofDigits 10 l := by
  induction l with
  | nil => rfl
  | cons d l ih =>
    have hd := h d (by simp)
    rw [List.map_cons, List.foldr_cons, ih (fun e he => h e (by simp [he])), digitValue_digit hd, Nat.ofDigits_cons,
      Nat.add_comm]

/-- A printed number reads back. -/
theorem readDecimal_decimal (n : Nat) : readDecimal (decimal n) = n := by
  unfold readDecimal decimal
  split
  next h => rw [h]; rfl
  next h =>
    rw [List.foldl_reverse, foldr_digits (fun d hd => Nat.digits_lt_base (by omega) hd), Nat.ofDigits_digits]

theorem decimal_inj {m n : Nat} (h : decimal m = decimal n) : m = n := by
  rw [← readDecimal_decimal m, h, readDecimal_decimal]

theorem digitValue_lt {c : UInt8} (h : isDigit c = true) : digitValue c < 10 := by
  simp only [isDigit, decide_eq_true_eq, UInt8.le_iff_toNat_le] at h
  have hnine : (57 : UInt8).toNat = 57 := rfl
  rw [hnine] at h
  unfold digitValue
  omega

/-- A run of digits reads a number with no more digits. -/
theorem readDecimal_lt {s : Bytes} (h : ∀ c ∈ s, isDigit c = true) : readDecimal s < 10 ^ s.length := by
  induction s using List.reverseRecOn with
  | nil => decide
  | append_singleton s c ih =>
    have hs := ih (fun d hd => h d (by simp [hd]))
    have hc := digitValue_lt (h c (by simp))
    have hread : readDecimal (s ++ [c]) = 10 * readDecimal s + digitValue c := by simp [readDecimal]
    rw [hread, List.length_append, List.length_singleton, pow_succ]
    omega

/-- A printed number has no leading zero. -/
theorem pow_length_decimal_le {n : Nat} (h : n ≠ 0) : 10 ^ (decimal n).length ≤ 10 * n := by
  have hlen : (decimal n).length = (Nat.digits 10 n).length := by simp [decimal, h]
  rw [hlen]
  exact Nat.base_pow_length_digits_le 10 n (by omega) h

end Decimal

/-! ## Runs -/

section Runs

variable {α : Type*} {p : α → Bool} {s t : List α}

/-- The text `t` does not continue a run of `p`. -/
def Halts (p : α → Bool) (t : List α) : Prop := ∀ c ∈ t.head?, p c = false

theorem takeWhile_run (hs : ∀ c ∈ s, p c = true) (ht : Halts p t) : (s ++ t).takeWhile p = s := by
  rw [List.takeWhile_append_of_pos hs]
  cases t with
  | nil => simp
  | cons c t => simp [ht c (by simp)]

theorem dropWhile_run (hs : ∀ c ∈ s, p c = true) (ht : Halts p t) : (s ++ t).dropWhile p = t := by
  rw [List.dropWhile_append_of_pos hs]
  cases t with
  | nil => simp
  | cons c t => simp [ht c (by simp)]

theorem halts_nil : Halts p [] := by
  intro c hc
  cases hc

theorem halts_dropWhile : Halts p (s.dropWhile p) := by
  intro c hc
  have hhead := List.head?_dropWhile_not p s
  rw [Option.mem_def.mp hc] at hhead
  exact hhead

end Runs

/-! ## Searching -/

section Search

variable {a b needle core s rest : Bytes} {c : UInt8}

/-- Where the needle starts first. -/
def indexOf (needle : Bytes) : Bytes → Option Nat
  | [] => if needle = [] then some 0 else none
  | c :: text => if needle.isPrefixOf (c :: text) then some 0 else (indexOf needle text).map (· + 1)

theorem indexOf_append (hn : needle ≠ []) (hb : needle <+: b)
    (ha : ∀ i < a.length, ¬ needle <+: (a ++ b).drop i) : indexOf needle (a ++ b) = some a.length := by
  induction a with
  | nil =>
    cases b with
    | nil => exact absurd (List.prefix_nil.mp hb) hn
    | cons c b => rw [List.nil_append, indexOf, if_pos (List.isPrefixOf_iff_prefix.mpr hb)]; rfl
  | cons c a ih =>
    have hfirst : ¬ needle.isPrefixOf (c :: (a ++ b)) = true := by
      rw [List.isPrefixOf_iff_prefix]
      exact ha 0 (by simp)
    rw [List.cons_append, indexOf, if_neg hfirst, ih (fun i hi => ?_)]
    · rfl
    · exact ha (i + 1) (by simpa using hi)

/-- Up to its delimiter a needle is the whole segment that it starts. -/
theorem prefix_segment_iff (hcore : c ∉ core) (hs : c ∉ s) : core ++ [c] <+: s ++ c :: rest ↔ core = s := by
  have hcut : ∀ {t : Bytes}, c ∉ t → ∀ u, (t ++ c :: u).takeWhile (· != c) = t := by
    intro t ht u
    refine takeWhile_run (fun d hd => ?_) (by simp [Halts])
    rw [bne_iff_ne]
    rintro rfl
    exact ht hd
  constructor
  · rintro ⟨post, hpost⟩
    have htake := congrArg (List.takeWhile (· != c)) hpost
    rwa [List.append_assoc, List.singleton_append, hcut hcore, hcut hs] at htake
  · rintro rfl
    exact ⟨rest, by simp⟩

/-- A needle that ends with the first segment is found there. -/
theorem indexOf_segment (hcore : c ∉ core) (hs : c ∉ s) (h : core <:+ s) :
    indexOf (core ++ [c]) (s ++ c :: rest) = some (s.length - core.length) := by
  obtain ⟨front, rfl⟩ := h
  have hlen : (front ++ core).length - core.length = front.length := by simp
  rw [hlen, List.append_assoc]
  refine indexOf_append (by simp) ((prefix_segment_iff hcore hcore).mpr rfl) fun i hi hprefix => ?_
  rw [List.drop_append_of_le_length hi.le, ← List.append_assoc] at hprefix
  have hc : c ∉ front.drop i ++ core := by
    intro hmem
    exact hs ((List.mem_append.mp hmem).elim (fun h => by simp [List.mem_of_mem_drop h]) (by simp [hcore]))
  have hlong := congrArg List.length ((prefix_segment_iff hcore hc).mp hprefix)
  rw [List.length_append, List.length_drop] at hlong
  omega

/-- A needle that the first segment does not end with is searched behind it. -/
theorem indexOf_segment_skip (hcore : c ∉ core) (hs : c ∉ s) (h : ¬core <:+ s) :
    indexOf (core ++ [c]) (s ++ c :: rest) = (indexOf (core ++ [c]) rest).map (· + (s.length + 1)) := by
  induction s with
  | nil =>
    have hne : ¬core = [] := by
      rintro rfl
      exact h List.suffix_rfl
    have hskip : ¬(core ++ [c]).isPrefixOf (c :: rest) = true := by
      rw [List.isPrefixOf_iff_prefix]
      exact fun hprefix => hne ((prefix_segment_iff hcore hs).mp hprefix)
    rw [List.nil_append, indexOf, if_neg hskip]
    rfl
  | cons d s ih =>
    have hne : ¬core = d :: s := by
      rintro rfl
      exact h List.suffix_rfl
    have hskip : ¬(core ++ [c]).isPrefixOf (d :: (s ++ c :: rest)) = true := by
      rw [List.isPrefixOf_iff_prefix, ← List.cons_append]
      exact fun hprefix => hne ((prefix_segment_iff hcore hs).mp hprefix)
    have hs' : c ∉ s := fun hmem => hs (List.mem_cons_of_mem d hmem)
    have hcore' : ¬core <:+ s := fun hsuffix => h (hsuffix.trans (List.suffix_cons d s))
    rw [List.cons_append, indexOf, if_neg hskip, ih hs' hcore', Option.map_map]
    rfl

end Search

end Exasphere.Lib

import Exasphere.Lib.Bytes
import Exasphere.Lib.Checked

/-!
# Numbers in texts (`std.fmt` of Zig)

`parseInt` and `parseUnsigned` in base ten: underscores between digits are skipped, and a number that leaves the `w`
bits of its type is an error of its own. A run of digits is read as its number (`parseInt_digits`), also with zeros in
front of it.
-/

namespace Exasphere.Zig

open Exasphere.Lib

inductive ParseIntError
  | overflow
  | invalidCharacter
  deriving DecidableEq, Repr

/-- One character of `parseIntWithSign`; a negative number has no digit but zero in an unsigned type. -/
def pushDigit (w : Nat) (negative : Bool) (acc : Nat) (c : UInt8) : Except ParseIntError Nat :=
  if c = 95 then .ok acc
  else if ¬isDigit c then .error .invalidCharacter
  else if acc = 0 ∧ negative then if digitValue c = 0 then .ok 0 else .error .overflow
  else if 10 * acc + digitValue c < 2 ^ w then .ok (10 * acc + digitValue c)
  else .error .overflow

def parseIntWithSign (w : Nat) (negative : Bool) (raw : Bytes) : Except ParseIntError Nat :=
  if raw = [] ∨ raw.head? = some 95 ∨ raw.getLast? = some 95 then .error .invalidCharacter
  else raw.foldlM (pushDigit w negative) 0

/-- `std.fmt.parseUnsigned`. -/
def parseUnsigned (w : Nat) (raw : Bytes) : Except ParseIntError Nat := parseIntWithSign w false raw

/-- `std.fmt.parseInt` of an unsigned type. -/
def parseInt (w : Nat) (raw : Bytes) : Except ParseIntError Nat :=
  match raw with
  | [] => .error .invalidCharacter
  | 43 :: rest => parseIntWithSign w false rest
  | 45 :: rest => parseIntWithSign w true rest
  | raw => parseIntWithSign w false raw

/-! ## What is read fits -/

section Fits

variable {w acc value : Nat} {negative : Bool} {c : UInt8} {raw : Bytes}

theorem pushDigit_lt (h : pushDigit w negative acc c = .ok value) (ha : acc < 2 ^ w) : value < 2 ^ w := by
  unfold pushDigit at h
  split_ifs at h with _ _ _ _ hlt
  · exact Except.ok.inj h ▸ ha
  · exact Except.ok.inj h ▸ Nat.two_pow_pos w
  · exact Except.ok.inj h ▸ hlt

theorem foldlM_pushDigit_lt (h : raw.foldlM (pushDigit w negative) acc = .ok value) (ha : acc < 2 ^ w) :
    value < 2 ^ w := by
  induction raw generalizing acc with
  | nil => exact Except.ok.inj h ▸ ha
  | cons c raw ih =>
    obtain ⟨next, hn, h⟩ := bind_eq_ok.mp h
    exact ih h (pushDigit_lt hn ha)

theorem parseIntWithSign_lt (h : parseIntWithSign w negative raw = .ok value) : value < 2 ^ w := by
  obtain ⟨-, h⟩ := ite_error_eq_ok.mp h
  exact foldlM_pushDigit_lt h (Nat.two_pow_pos w)

theorem parseUnsigned_lt (h : parseUnsigned w raw = .ok value) : value < 2 ^ w := parseIntWithSign_lt h

theorem parseInt_lt (h : parseInt w raw = .ok value) : value < 2 ^ w := by
  unfold parseInt at h
  split at h
  · cases h
  · exact parseIntWithSign_lt h
  · exact parseIntWithSign_lt h
  · exact parseIntWithSign_lt h

end Fits

/-! ## Reading digits -/

section Digits

variable {w : Nat} {s : Bytes}

theorem le_foldl_digit (s : Bytes) (acc : Nat) : acc ≤ s.foldl (fun n c => 10 * n + digitValue c) acc := by
  induction s generalizing acc with
  | nil => exact le_refl acc
  | cons c s ih =>
    have hstep : acc ≤ 10 * acc + digitValue c := by omega
    exact hstep.trans (ih _)

theorem isDigit_ne {c d : UInt8} (hc : isDigit c = true) (hd : isDigit d = false) : c ≠ d := by
  rintro rfl
  exact nomatch hc.symm.trans hd

theorem foldlM_pushDigit {acc : Nat} (hs : ∀ c ∈ s, isDigit c = true)
    (h : s.foldl (fun n c => 10 * n + digitValue c) acc < 2 ^ w) :
    s.foldlM (pushDigit w false) acc = .ok (s.foldl (fun n c => 10 * n + digitValue c) acc) := by
  induction s generalizing acc with
  | nil => rfl
  | cons c s ih =>
    have hc := hs c (by simp)
    have hstep : pushDigit w false acc c = .ok (10 * acc + digitValue c) := by
      rw [pushDigit, if_neg (isDigit_ne hc rfl), if_neg (not_not.mpr hc), if_neg (by simp),
        if_pos (lt_of_le_of_lt (le_foldl_digit s _) h)]
    rw [List.foldlM_cons, hstep]
    exact ih (fun d hd => hs d (by simp [hd])) h

/-- A run of digits reads as its number. -/
theorem parseUnsigned_digits (hne : s ≠ []) (hs : ∀ c ∈ s, isDigit c = true) (h : readDecimal s < 2 ^ w) :
    parseUnsigned w s = .ok (readDecimal s) := by
  have hend : ∀ c ∈ s, c ≠ 95 := fun c hc => isDigit_ne (hs c hc) rfl
  rw [parseUnsigned, parseIntWithSign, if_neg]
  · exact foldlM_pushDigit hs h
  · rintro (hnil | hfirst | hlast)
    · exact hne hnil
    · exact hend 95 (List.mem_of_mem_head? hfirst) rfl
    · exact hend 95 (List.mem_of_getLast? hlast) rfl

theorem parseInt_digits (hne : s ≠ []) (hs : ∀ c ∈ s, isDigit c = true) (h : readDecimal s < 2 ^ w) :
    parseInt w s = .ok (readDecimal s) := by
  have hread := parseUnsigned_digits hne hs h
  obtain ⟨c, s, rfl⟩ := List.exists_cons_of_ne_nil hne
  have hc := hs c (by simp)
  unfold parseInt
  split
  next heq => cases heq
  next heq => exact absurd (List.cons.inj heq).1 (isDigit_ne hc rfl)
  next heq => exact absurd (List.cons.inj heq).1 (isDigit_ne hc rfl)
  next => exact hread

theorem parseUnsigned_decimal {n : Nat} (h : n < 2 ^ w) : parseUnsigned w (decimal n) = .ok n := by
  have hread := readDecimal_decimal n
  rw [parseUnsigned_digits (decimal_ne_nil n) (fun c hc => isDigit_decimal hc) (by rwa [hread]), hread]

end Digits

end Exasphere.Zig

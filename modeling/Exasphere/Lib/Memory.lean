import Mathlib.Data.List.Basic
import Exasphere.Lib.Bytes

/-!
# Bounded memory

A block of memory is its bytes. `load` reads a part of it and faults where the part does not lie in the block; words
are stored with their low byte first (`word`, `readWord_word`). A part that is known by what stands before it is read
by `load_append`.

A block may also be read in a circle (`loadRound`): `LaidOut` says which bytes stand from a position on, and such bytes
are read back (`loadRound_of_laidOut`), one part after the other (`LaidOut.append`).
-/

namespace Exasphere.Lib

/-- A read that leaves its block. -/
inductive Fault
  | outOfBounds
  deriving DecidableEq

/-- The `n` bytes from `offset` on. -/
def load (block : Bytes) (offset n : Nat) : Except Fault Bytes :=
  if offset + n ≤ block.length then .ok ((block.drop offset).take n) else .error .outOfBounds

/-- The low `w` bytes of a number. -/
def word : Nat → Nat → Bytes
  | 0, _ => []
  | w + 1, n => UInt8.ofNat n :: word w (n / 256)

def readWord : Bytes → Nat
  | [] => 0
  | b :: bs => b.toNat + 256 * readWord bs

@[simp] theorem length_word (w n : Nat) : (word w n).length = w := by
  induction w generalizing n with
  | zero => rfl
  | succ w ih => rw [word, List.length_cons, ih]

theorem readWord_word (w n : Nat) : readWord (word w n) = n % 256 ^ w := by
  induction w generalizing n with
  | zero => rw [word, readWord, pow_zero, Nat.mod_one]
  | succ w ih =>
    have hpow : 256 ^ (w + 1) = 256 * 256 ^ w := Nat.pow_succ'
    rw [word, readWord, ih, UInt8.toNat_ofNat', hpow, Nat.mod_mul]

/-- A part of a block, by what stands before it. -/
theorem load_append {block part : Bytes} {offset n : Nat} (pre post : Bytes) (hblock : block = pre ++ part ++ post)
    (hoffset : pre.length = offset) (hn : part.length = n) : load block offset n = .ok part := by
  subst hblock hoffset hn
  unfold load
  rw [if_pos (by simp), List.append_assoc, List.drop_left, List.take_left]

/-- A part of a part. -/
theorem load_of_take {block raw : Bytes} {offset k n : Nat} (pre post : Bytes)
    (hblock : block = pre ++ raw ++ post) (hoffset : pre.length + k = offset) (hn : k + n ≤ raw.length) :
    load block offset n = .ok ((raw.drop k).take n) := by
  refine load_append (pre ++ raw.take k) ((raw.drop k).drop n ++ post) ?_ ?_ ?_
  · rw [hblock]
    conv_lhs => rw [← List.take_append_drop k raw, ← List.take_append_drop n (raw.drop k)]
    simp only [List.append_assoc]
  · rw [List.length_append, List.length_take, Nat.min_eq_left (by omega)]
    exact hoffset
  · rw [List.length_take, List.length_drop]
    omega

theorem load_ok_iff {block : Bytes} {offset n : Nat} : (∃ bytes, load block offset n = .ok bytes) ↔
    offset + n ≤ block.length := by
  unfold load
  split <;> simp [*]

theorem load_eq {block : Bytes} {offset n : Nat} (h : offset + n ≤ block.length) :
    load block offset n = .ok ((block.drop offset).take n) :=
  if_pos h

/-! ## Circular blocks -/

/-- The `n` bytes from position `start` on; behind the last byte of the block comes its first. -/
def loadRound (block : Bytes) (start n : Nat) : Bytes :=
  (List.range n).map fun b => block.getD ((start % block.length + b) % block.length) 0

/-- `bytes` stand in the block from position `start` on. -/
def LaidOut (block : Bytes) (start : Nat) (bytes : Bytes) : Prop :=
  ∀ k < bytes.length, block[(start + k) % block.length]? = bytes[k]?

@[simp] theorem length_loadRound (block : Bytes) (start n : Nat) : (loadRound block start n).length = n := by
  simp [loadRound]

theorem loadRound_of_laidOut {block bytes : Bytes} {start : Nat} (h : LaidOut block start bytes) :
    loadRound block start bytes.length = bytes := by
  apply List.ext_getElem?
  intro k
  by_cases hk : k < bytes.length
  · have hbyte := h k hk
    rw [List.getElem?_eq_getElem hk] at hbyte ⊢
    simp [loadRound, hk, List.getD_eq_getElem?_getD, hbyte]
  · rw [List.getElem?_eq_none (by simpa using hk), List.getElem?_eq_none (by simpa using hk)]

/-- Two parts that stand one behind the other. -/
theorem LaidOut.append {block bytes rest : Bytes} {start : Nat} (h : LaidOut block start (bytes ++ rest)) :
    LaidOut block start bytes ∧ LaidOut block (start + bytes.length) rest := by
  constructor
  · intro k hk
    rw [h k (by simp; omega), List.getElem?_append_left hk]
  · intro k hk
    have := h (bytes.length + k) (by simp; omega)
    rwa [List.getElem?_append_right (Nat.le_add_right _ _), Nat.add_sub_cancel_left, ← Nat.add_assoc] at this

end Exasphere.Lib

import Exasphere.Py.Json

/-!
# SHA-256

`hashlib.sha256(data).hexdigest()`, on words as natural numbers below `2 ^ 32`. A digest is 64 lower-case hexadecimal
digits (`length_sha256`, `isHex_sha256`).
-/

namespace Exasphere.Py.Sha256

open Exasphere.Lib

def word (n : Nat) : Nat := n % 2 ^ 32

def rotr (x n : Nat) : Nat := word ((x >>> n) ||| (x <<< (32 - n)))

/-- The words of a number, the highest first. -/
def wordsOf : Nat → Nat → List Nat
  | 0, _ => []
  | n + 1, x => wordsOf n (x / 2 ^ 32) ++ [word x]

/-- The first 32 bits of the fractional parts of the cube roots of the first 64 primes, eight to a row. -/
def roundConstants : List Nat :=
  [0x428a2f9871374491b5c0fbcfe9b5dba53956c25b59f111f1923f82a4ab1c5ed5,
   0xd807aa9812835b01243185be550c7dc372be5d7480deb1fe9bdc06a7c19bf174,
   0xe49b69c1efbe47860fc19dc6240ca1cc2de92c6f4a7484aa5cb0a9dc76f988da,
   0x983e5152a831c66db00327c8bf597fc7c6e00bf3d5a7914706ca635114292967,
   0x27b70a852e1b21384d2c6dfc53380d13650a7354766a0abb81c2c92e92722c85,
   0xa2bfe8a1a81a664bc24b8b70c76c51a3d192e819d6990624f40e3585106aa070,
   0x19a4c1161e376c082748774c34b0bcb5391c0cb34ed8aa4a5b9cca4f682e6ff3,
   0x748f82ee78a5636f84c878148cc7020890befffaa4506cebbef9a3f7c67178f2].flatMap (wordsOf 8)

structure State where
  a : Nat
  b : Nat
  c : Nat
  d : Nat
  e : Nat
  f : Nat
  g : Nat
  h : Nat

/-- The same of the square roots of the first eight. -/
def initial : State :=
  ⟨1779033703, 3144134277, 1013904242, 2773480762, 1359893119, 2600822924, 528734635, 1541459225⟩

/-- The next word of the schedule, from the last sixteen, the latest first. -/
def nextWord (recent : List Nat) : Nat :=
  let w₂ := recent.getD 1 0
  let w₇ := recent.getD 6 0
  let w₁₅ := recent.getD 14 0
  let w₁₆ := recent.getD 15 0
  let s₀ := rotr w₁₅ 7 ^^^ rotr w₁₅ 18 ^^^ (w₁₅ >>> 3)
  let s₁ := rotr w₂ 17 ^^^ rotr w₂ 19 ^^^ (w₂ >>> 10)
  word (w₁₆ + s₀ + w₇ + s₁)

def round (s : State) (k w : Nat) : State :=
  let s₁ := rotr s.e 6 ^^^ rotr s.e 11 ^^^ rotr s.e 25
  let ch := (s.e &&& s.f) ^^^ ((2 ^ 32 - 1 - s.e) &&& s.g)
  let t₁ := word (s.h + s₁ + ch + k + w)
  let s₀ := rotr s.a 2 ^^^ rotr s.a 13 ^^^ rotr s.a 22
  let maj := (s.a &&& s.b) ^^^ (s.a &&& s.c) ^^^ (s.b &&& s.c)
  ⟨word (t₁ + (s₀ + maj)), s.a, s.b, s.c, word (s.d + t₁), s.e, s.f, s.g⟩

/-- The rounds of a block: the words of the message first, then those of the schedule. -/
def rounds (s : State) (message recent : List Nat) : List Nat → State
  | [] => s
  | k :: ks =>
    let w := message.headD (nextWord recent)
    rounds (round s k w) message.tail (w :: recent.take 15) ks

def compress (s : State) (block : List Nat) : State :=
  let t := rounds s block [] roundConstants
  ⟨word (s.a + t.a), word (s.b + t.b), word (s.c + t.c), word (s.d + t.d), word (s.e + t.e), word (s.f + t.f),
    word (s.g + t.g), word (s.h + t.h)⟩

/-- The message with its padding, up to the length. -/
def padded (data : Bytes) : List Nat :=
  data.map UInt8.toNat ++ 0x80 :: List.replicate ((119 - data.length % 64) % 64) 0

/-- Four bytes at a time, big-endian. -/
def words : List Nat → List Nat
  | b₀ :: b₁ :: b₂ :: b₃ :: rest => (((b₀ * 256 + b₁) * 256 + b₂) * 256 + b₃) :: words rest
  | _ => []

/-- The blocks of sixteen words, for as many steps as `fuel`. -/
def compressAll (s : State) : Nat → List Nat → State
  | 0, _ => s
  | fuel + 1, ws => if ws = [] then s else compressAll (compress s (ws.take 16)) fuel (ws.drop 16)

def hexdigest (s : State) : Str :=
  [s.a, s.b, s.c, s.d, s.e, s.f, s.g, s.h].flatMap (hexText 8)

end Sha256

open Sha256 in
/-- `hashlib.sha256(data).hexdigest()`. -/
def sha256 (data : Exasphere.Lib.Bytes) : Str :=
  let ws := words (padded data) ++ wordsOf 2 (8 * data.length)
  hexdigest (compressAll initial ws.length ws)

theorem length_hexText (width c : Nat) : (hexText width c).length = width := by
  induction width generalizing c with
  | zero => rfl
  | succ width ih => rw [hexText, List.length_append, ih, List.length_singleton]

theorem isHex_hexText {n c d : Nat} (h : d ∈ hexText n c) : isHex d = true := by
  induction n generalizing c with
  | zero => cases h
  | succ n ih =>
    rcases List.mem_append.mp h with h | h
    · exact ih h
    · rw [List.mem_singleton.mp h]
      simp only [isHex, decide_eq_true_eq]
      split <;> omega

theorem length_sha256 (data : Exasphere.Lib.Bytes) : (sha256 data).length = 64 := by
  simp [sha256, Sha256.hexdigest, length_hexText]

theorem isHex_sha256 {data : Exasphere.Lib.Bytes} {c : Nat} (h : c ∈ sha256 data) : isHex c = true := by
  obtain ⟨w, -, hc⟩ := List.mem_flatMap.mp h
  exact isHex_hexText hc

example : sha256 [0x61, 0x62, 0x63] = str "ba7816bf8f01cfea414140de5dae2223b00361a396177a9cb410ff61f20015ad" := by
  decide +kernel

end Exasphere.Py

import Exasphere.Lib.Sequence
import Exasphere.Qa.Common

/-!
# The tokens of a private key (`qa/runtime_sample_common.py`)

`private_key_tokens` cuts a key into words that no spelling hides:

- every letter and digit of the key is in a token (`privateKeyTokens_flatten`): where the text of a chunk goes on, a
  token of positive length starts (`tokenLength_pos`);
- the words of a key are its tokens in each of the usual spellings (`privateKeyTokens_spell`).
-/

namespace Exasphere.Qa

open Exasphere.Lib Exasphere.Py

/-! ## Kinds of characters -/

section Kinds

variable {c : Nat}

theorem isAlnum_cases (h : isAlnum c = true) : isUpper c = true ∨ isLower c = true ∨ Py.isDigit c = true := by
  simpa [isAlnum, or_assoc] using h

theorem not_isUpper_of_isLower (h : isLower c = true) : isUpper c = false := by
  simp only [isLower, isUpper, decide_eq_true_eq, decide_eq_false_iff_not] at h ⊢
  omega

theorem not_isLower_of_isUpper (h : isUpper c = true) : isLower c = false := by
  simp only [isLower, isUpper, decide_eq_true_eq, decide_eq_false_iff_not] at h ⊢
  omega

theorem not_isDigit_of_isLower (h : isLower c = true) : Py.isDigit c = false := by
  simp only [isLower, Py.isDigit, decide_eq_true_eq, decide_eq_false_iff_not] at h ⊢
  omega

theorem not_isUpper_of_isDigit (h : Py.isDigit c = true) : isUpper c = false := by
  simp only [isUpper, Py.isDigit, decide_eq_true_eq, decide_eq_false_iff_not] at h ⊢
  omega

theorem not_isLower_of_isDigit (h : Py.isDigit c = true) : isLower c = false := by
  simp only [isLower, Py.isDigit, decide_eq_true_eq, decide_eq_false_iff_not] at h ⊢
  omega

end Kinds

/-! ## One token -/

section Token

variable {s w rest : Str} {c : Nat}

/-- The first length of a run of capitals that the lookahead accepts, longest first. -/
theorem capitals_find {n k : Nat} {p : Nat → Bool} (h : ((List.range n).map (n - ·)).find? p = some k) : 0 < k := by
  obtain ⟨i, hi, rfl⟩ := List.mem_map.mp (List.mem_of_find?_eq_some h)
  have := List.mem_range.mp hi
  omega

theorem capitals_find_none {n k : Nat} {p : Nat → Bool} (h : ((List.range n).map (n - ·)).find? p = none) (hk : 0 < k)
    (hn : k ≤ n) : p k = false := by
  have hmem : k ∈ (List.range n).map (n - ·) := List.mem_map.mpr ⟨n - k, List.mem_range.mpr (by omega), by omega⟩
  simpa using List.find?_eq_none.mp h k hmem

theorem takeWhile_head (h : s.head?.any isUpper = false) : s.takeWhile isUpper = [] := by
  cases s with
  | nil => rfl
  | cons c s => exact List.takeWhile_cons_of_neg (by simpa using h)

/-- Without a capital in front, the token is a run of small letters or of digits. -/
theorem tokenLength_of_not_upper (h : s.head?.any isUpper = false) : tokenLength s =
    if (s.takeWhile isLower).length ≠ 0 then (s.takeWhile isLower).length else (s.takeWhile Py.isDigit).length := by
  unfold tokenLength
  simp [takeWhile_head h, h]

/-- A run of capitals at a number or at the end. -/
theorem tokenLength_capitals (hw : ∀ c ∈ w, isUpper c = true) (hne : w ≠ []) (hhalts : Halts isUpper rest)
    (hends : endsUpperRun rest = true) : tokenLength (w ++ rest) = w.length := by
  obtain ⟨n, hn⟩ : ∃ n, w.length = n + 1 := Nat.exists_eq_add_one.mpr (List.length_pos_iff.mpr hne)
  have hfirst : ((List.range w.length).map (w.length - ·)).find? (fun k => endsUpperRun ((w ++ rest).drop k)) =
      some w.length := by
    rw [hn, List.range_succ_eq_map, List.map_cons, Nat.sub_zero, ← hn]
    exact List.find?_cons_of_pos (by rw [List.drop_left, hends])
  unfold tokenLength
  simp only [takeWhile_run hw hhalts, hfirst]

/-- One capital before small letters. -/
theorem tokenLength_capital {d : Nat} (hd : isUpper d = true) (hw : ∀ c ∈ w, isLower c = true) (hne : w ≠ [])
    (hhalts : Halts isLower rest) : tokenLength (d :: w ++ rest) = w.length + 1 := by
  obtain ⟨e, w', rfl⟩ := List.exists_cons_of_ne_nil hne
  have he := hw e List.mem_cons_self
  have hcapitals : (d :: e :: w' ++ rest).takeWhile isUpper = [d] := by
    simp [hd, not_isUpper_of_isLower he]
  have hword : (e :: w' ++ rest).takeWhile isLower = e :: w' := takeWhile_run hw hhalts
  have hends : endsUpperRun (e :: w' ++ rest) = false := by
    simp [endsUpperRun, not_isUpper_of_isLower he, not_isDigit_of_isLower he]
  have hnone : ((List.range [d].length).map ([d].length - ·)).find?
      (fun k => endsUpperRun ((d :: e :: w' ++ rest).drop k)) = none := by
    simpa using hends
  unfold tokenLength
  simp only [hcapitals, hnone]
  simp only [List.cons_append, List.head?_cons, Option.any_some, hd, if_true, List.drop_succ_cons, List.drop_zero]
  rw [← List.cons_append, hword, if_pos (by simp)]
  omega

/-- A run of small letters. -/
theorem tokenLength_small (hw : ∀ c ∈ w, isLower c = true) (hne : w ≠ []) (hhalts : Halts isLower rest) :
    tokenLength (w ++ rest) = w.length := by
  have hhead : (w ++ rest).head?.any isUpper = false := by
    obtain ⟨e, w', rfl⟩ := List.exists_cons_of_ne_nil hne
    simpa using not_isUpper_of_isLower (hw e List.mem_cons_self)
  rw [tokenLength_of_not_upper hhead, takeWhile_run hw hhalts, if_pos]
  exact (List.length_pos_iff.mpr hne).ne'

/-- Capitals before small letters: the last of them starts the next word, unless it is the only one. -/
theorem tokenLength_pos_of_upper {d : Nat} {t : Str} (hw : ∀ c ∈ w, isUpper c = true) (hd : isUpper d = true)
    (ht : t.head?.any isLower = true) : 0 < tokenLength (w ++ d :: t) := by
  cases w with
  | nil =>
    have hsplit : d :: t = d :: t.takeWhile isLower ++ t.dropWhile isLower := by
      rw [List.cons_append, List.takeWhile_append_dropWhile]
    have hrun : t.takeWhile isLower ≠ [] := by
      cases t with
      | nil => cases ht
      | cons e t => simpa using ht
    rw [List.nil_append, hsplit, tokenLength_capital hd (fun c hc => List.mem_takeWhile_imp hc) hrun halts_dropWhile]
    omega
  | cons c w =>
    have hhalts : Halts isUpper t := by
      intro e he
      rw [Option.mem_def.mp he] at ht
      exact not_isUpper_of_isLower ht
    have hcapitals : (c :: w ++ d :: t).takeWhile isUpper = c :: w ++ [d] := by
      have hrun : ∀ e ∈ c :: w ++ [d], isUpper e = true := by
        intro e he
        rcases List.mem_append.mp he with he | he
        · exact hw e he
        · rwa [List.mem_singleton.mp he]
      rw [← takeWhile_run hrun hhalts, List.append_assoc, List.singleton_append]
    unfold tokenLength
    dsimp only
    rw [hcapitals]
    split
    next k hk => exact capitals_find hk
    next hnone =>
      -- all but the last capital are a run that the lookahead accepts
      have hlast := capitals_find_none hnone (k := w.length + 1) (by omega) (by simp)
      have hdrop : (c :: w ++ d :: t).drop (w.length + 1) = d :: t := by
        rw [List.cons_append, List.drop_succ_cons, List.drop_left]
      rw [hdrop] at hlast
      simp [endsUpperRun, hd, ht] at hlast

/-- In a chunk of letters and digits every place starts a token. -/
theorem tokenLength_pos (h : ∀ e ∈ c :: s, isAlnum e = true) : 0 < tokenLength (c :: s) := by
  rcases isAlnum_cases (h c List.mem_cons_self) with hc | hc | hc
  · -- the capitals `c :: w`, and what ends their run
    obtain ⟨w, t, hw, ht, rfl⟩ : ∃ w t, (∀ e ∈ w, isUpper e = true) ∧ Halts isUpper t ∧ s = w ++ t :=
      ⟨_, _, fun e he => List.mem_takeWhile_imp he, halts_dropWhile, List.takeWhile_append_dropWhile.symm⟩
    have hcw : ∀ e ∈ c :: w, isUpper e = true := List.forall_mem_cons.mpr ⟨hc, hw⟩
    by_cases hends : endsUpperRun t = true
    · rw [← List.cons_append, tokenLength_capitals hcw (by simp) ht hends]
      simp
    · obtain ⟨e, t', rfl⟩ : ∃ e t', t = e :: t' := List.exists_cons_of_ne_nil (by rintro rfl; exact hends rfl)
      have he : isLower e = true := by
        rcases isAlnum_cases (h e (by simp)) with he | he | he
        · simp [ht e (by simp)] at he
        · exact he
        · simp [endsUpperRun, he] at hends
      obtain ⟨w', d, hlast⟩ : ∃ w' d, c :: w = w' ++ [d] :=
        ⟨_, _, (List.dropLast_append_getLast (List.cons_ne_nil c w)).symm⟩
      rw [hlast] at hcw
      have hsplit : c :: (w ++ e :: t') = w' ++ d :: e :: t' := by
        rw [← List.cons_append, hlast, List.append_assoc, List.singleton_append]
      rw [hsplit]
      exact tokenLength_pos_of_upper (fun e he => hcw e (by simp [he])) (hcw d (by simp)) (by simpa using he)
  · rw [tokenLength_of_not_upper (by simpa using not_isUpper_of_isLower hc), if_pos] <;>
      simp [hc]
  · rw [tokenLength_of_not_upper (by simpa using not_isUpper_of_isDigit hc), if_neg] <;>
      simp [hc, not_isLower_of_isDigit hc]

end Token

/-! ## Chunks and keys -/

section Lossless

variable {s w rest key : Str} {fuel : Nat}

theorem lowerAscii_append (s t : Str) : lowerAscii (s ++ t) = lowerAscii s ++ lowerAscii t := List.map_append

/-- The tokens of a chunk are the chunk, in small letters. -/
theorem chunkTokens_flatten (hfuel : s.length ≤ fuel) (h : ∀ e ∈ s, isAlnum e = true) :
    (chunkTokens fuel s).flatten = lowerAscii s := by
  induction fuel generalizing s with
  | zero =>
    obtain rfl := List.length_eq_zero_iff.mp (Nat.le_zero.mp hfuel)
    rfl
  | succ fuel ih =>
    cases s with
    | nil => rfl
    | cons c s =>
      have hpos := tokenLength_pos h
      have hdrop : ((c :: s).drop (tokenLength (c :: s))).length ≤ fuel := by
        rw [List.length_drop]
        omega
      rw [chunkTokens, if_neg hpos.ne', List.flatten_cons, ih hdrop (fun e he => h e (List.mem_of_mem_drop he)),
        ← lowerAscii_append, List.take_append_drop]

theorem privateKeyTokens_flatten (key : Str) : (privateKeyTokens key).flatten = lowerAscii (key.filter isAlnum) := by
  have hchunks : ∀ chunk ∈ key.splitOnP (fun c => !isAlnum c),
      (chunkTokens chunk.length chunk).flatten = lowerAscii chunk := by
    intro chunk hchunk
    refine chunkTokens_flatten le_rfl ?_
    intro e he
    simpa using not_separator_of_mem_splitOnP hchunk e he
  have hflat : (privateKeyTokens key).flatten = ((key.splitOnP (fun c => !isAlnum c)).map lowerAscii).flatten := by
    rw [privateKeyTokens, ← List.flatMap_id, List.flatMap_assoc, ← List.flatMap_def]
    refine List.flatMap_congr ?_
    intro chunk hchunk
    rw [List.flatMap_id, hchunks chunk hchunk]
  have hlower : ((key.splitOnP (fun c => !isAlnum c)).map lowerAscii).flatten =
      lowerAscii (key.splitOnP (fun c => !isAlnum c)).flatten := List.map_flatten.symm
  rw [hflat, hlower, flatten_splitOnP]
  simp only [Bool.not_not]

end Lossless

/-! ## Spellings -/

section Spellings

inductive Spelling
  | snake
  | kebab
  | screaming
  | camel
  | pascal
  deriving DecidableEq

def upperAscii (s : Str) : Str := s.map (fun c => if isLower c then c - 32 else c)

def capitalize : Str → Str
  | [] => []
  | c :: s => upperAscii [c] ++ s

/-- A key of the words. -/
def spell : Spelling → List Str → Str
  | .snake, words => join (str "_") words
  | .kebab, words => join (str "-") words
  | .screaming, words => join (str "_") (words.map upperAscii)
  | .camel, [] => []
  | .camel, w :: words => w ++ words.flatMap capitalize
  | .pascal, words => words.flatMap capitalize

/-- Two or more small letters. -/
structure IsWord (w : Str) : Prop where
  small : ∀ c ∈ w, isLower c = true
  length : 2 ≤ w.length

variable {s w rest : Str} {words : List Str} {fuel : Nat}

theorem IsWord.ne_nil (h : IsWord w) : w ≠ [] := by
  rintro rfl
  have := h.length
  simp at this

theorem lowerAscii_small (h : ∀ c ∈ w, isLower c = true) : lowerAscii w = w := by
  unfold lowerAscii
  conv_rhs => rw [← List.map_id w]
  refine List.map_congr_left ?_
  intro c hc
  simp [not_isUpper_of_isLower (h c hc)]

theorem isUpper_upper {c : Nat} (h : isLower c = true) : isUpper (c - 32) = true := by
  simp only [isLower, isUpper, decide_eq_true_eq] at h ⊢
  omega

theorem isUpper_upperAscii (h : ∀ c ∈ w, isLower c = true) : ∀ c ∈ upperAscii w, isUpper c = true := by
  intro c hc
  obtain ⟨d, hd, rfl⟩ := List.mem_map.mp hc
  rw [if_pos (h d hd)]
  exact isUpper_upper (h d hd)

theorem lowerAscii_upperAscii (h : ∀ c ∈ w, isLower c = true) : lowerAscii (upperAscii w) = w := by
  unfold lowerAscii upperAscii
  rw [List.map_map]
  conv_rhs => rw [← List.map_id w]
  refine List.map_congr_left ?_
  intro c hc
  have hlower := h c hc
  have hle : 32 ≤ c := by
    simp only [isLower, decide_eq_true_eq] at hlower
    omega
  simp only [Function.comp_apply, hlower, if_true, isUpper_upper hlower, id_eq]
  omega

theorem lowerAscii_capitalize (h : ∀ c ∈ w, isLower c = true) : lowerAscii (capitalize w) = w := by
  cases w with
  | nil => rfl
  | cons c w =>
    obtain ⟨hc, hw⟩ := List.forall_mem_cons.mp h
    rw [capitalize, lowerAscii_append, lowerAscii_upperAscii (by simpa using hc), lowerAscii_small hw]
    rfl

/-- A token at the start of a chunk is cut off. -/
theorem chunkTokens_append (hlength : tokenLength (w ++ rest) = w.length) (hne : w ≠ [])
    (hfuel : (w ++ rest).length ≤ fuel) :
    ∃ fuel', rest.length ≤ fuel' ∧ chunkTokens fuel (w ++ rest) = lowerAscii w :: chunkTokens fuel' rest := by
  obtain ⟨c, w', rfl⟩ := List.exists_cons_of_ne_nil hne
  cases fuel with
  | zero => simp at hfuel
  | succ fuel =>
    refine ⟨fuel, ?_, ?_⟩
    · simp only [List.length_append, List.length_cons] at hfuel
      omega
    · rw [List.cons_append] at hlength ⊢
      rw [chunkTokens, hlength, if_neg (by simp), ← List.cons_append, List.take_left, List.drop_left]

theorem chunkTokens_nil : chunkTokens fuel [] = [] := by
  cases fuel <;> rfl

/-- A chunk that is one token. -/
theorem chunkTokens_single (hlength : tokenLength w = w.length) (hne : w ≠ []) :
    chunkTokens w.length w = [lowerAscii w] := by
  have hlength' : tokenLength (w ++ []) = w.length := by rwa [List.append_nil]
  obtain ⟨fuel', -, htokens⟩ := chunkTokens_append hlength' hne le_rfl
  simpa only [List.append_nil, chunkTokens_nil] using htokens

/-- A capitalised word is a capital before small letters. -/
theorem IsWord.capitalize_eq (h : IsWord w) : ∃ d w', capitalize w = d :: w' ∧ isUpper d = true ∧
    (∀ c ∈ w', isLower c = true) ∧ w' ≠ [] := by
  obtain ⟨c, w', rfl⟩ := List.exists_cons_of_ne_nil h.ne_nil
  obtain ⟨hc, hw⟩ := List.forall_mem_cons.mp h.small
  refine ⟨c - 32, w', by simp [capitalize, upperAscii, hc], isUpper_upper hc, hw, ?_⟩
  rintro rfl
  have := h.length
  simp at this

/-- The next capitalised word ends the small letters of the one before. -/
theorem halts_pascal (h : ∀ w ∈ words, IsWord w) : Halts isLower (words.flatMap capitalize) := by
  cases words with
  | nil => exact halts_nil
  | cons w words =>
    obtain ⟨d, w', hw, hd, -, -⟩ := (h w List.mem_cons_self).capitalize_eq
    intro c hc
    rw [List.flatMap_cons, hw] at hc
    obtain rfl := Option.some.inj hc
    exact not_isLower_of_isUpper hd

/-- Capitalised words run together. -/
theorem chunkTokens_pascal (h : ∀ w ∈ words, IsWord w) (hfuel : (words.flatMap capitalize).length ≤ fuel) :
    chunkTokens fuel (words.flatMap capitalize) = words := by
  induction words generalizing fuel with
  | nil => exact chunkTokens_nil
  | cons w words ih =>
    obtain ⟨hword, hwords⟩ := List.forall_mem_cons.mp h
    obtain ⟨d, w', hw, hd, hsmall, hne⟩ := hword.capitalize_eq
    have hlength : tokenLength (capitalize w ++ words.flatMap capitalize) = (capitalize w).length := by
      rw [hw, tokenLength_capital hd hsmall hne (halts_pascal hwords), List.length_cons]
    have hcapital : capitalize w ≠ [] := by simp [hw]
    rw [List.flatMap_cons] at hfuel ⊢
    obtain ⟨fuel', hfuel', htokens⟩ := chunkTokens_append hlength hcapital hfuel
    rw [htokens, lowerAscii_capitalize hword.small, ih hwords hfuel']

theorem chunkTokens_camel (hword : IsWord w) (hwords : ∀ w ∈ words, IsWord w)
    (hfuel : (w ++ words.flatMap capitalize).length ≤ fuel) :
    chunkTokens fuel (w ++ words.flatMap capitalize) = w :: words := by
  have hlength := tokenLength_small hword.small hword.ne_nil (halts_pascal hwords)
  obtain ⟨fuel', hfuel', htokens⟩ := chunkTokens_append hlength hword.ne_nil hfuel
  rw [htokens, lowerAscii_small hword.small, chunkTokens_pascal hwords hfuel']

theorem chunkTokens_small (h : IsWord w) : chunkTokens w.length w = [w] := by
  have hlength := tokenLength_small h.small h.ne_nil halts_nil
  rw [List.append_nil] at hlength
  rw [chunkTokens_single hlength h.ne_nil, lowerAscii_small h.small]

theorem chunkTokens_screaming (h : IsWord w) : chunkTokens (upperAscii w).length (upperAscii w) = [w] := by
  have hne : upperAscii w ≠ [] := by simpa [upperAscii] using h.ne_nil
  have hlength := tokenLength_capitals (isUpper_upperAscii h.small) hne halts_nil rfl
  rw [List.append_nil] at hlength
  rw [chunkTokens_single hlength hne, lowerAscii_upperAscii h.small]

/-- The tokens of chunks that are joined by a separator. -/
theorem privateKeyTokens_join {sep : Nat} {chunks : List Str} (hsep : isAlnum sep = false)
    (hchunks : ∀ chunk ∈ chunks, ∀ c ∈ chunk, isAlnum c = true) (hne : chunks ≠ []) :
    privateKeyTokens ([sep].intercalate chunks) = chunks.flatMap (fun chunk => chunkTokens chunk.length chunk) := by
  rw [privateKeyTokens, splitOnP_intercalate (by simpa using hsep) _ hne]
  intro chunk hchunk c hc
  simpa using hchunks chunk hchunk c hc

theorem privateKeyTokens_chunk {chunk : Str} (h : ∀ c ∈ chunk, isAlnum c = true) :
    privateKeyTokens chunk = chunkTokens chunk.length chunk := by
  rw [privateKeyTokens, List.splitOnP_eq_singleton (by simpa using h), List.flatMap_singleton]

theorem isAlnum_of_isLower {c : Nat} (h : isLower c = true) : isAlnum c = true := by
  simp [isAlnum, h]

theorem isAlnum_of_isUpper {c : Nat} (h : isUpper c = true) : isAlnum c = true := by
  simp [isAlnum, h]

theorem isAlnum_capitalize (h : IsWord w) : ∀ c ∈ capitalize w, isAlnum c = true := by
  obtain ⟨d, w', hw, hd, hsmall, -⟩ := h.capitalize_eq
  rw [hw, List.forall_mem_cons]
  exact ⟨isAlnum_of_isUpper hd, fun c hc => isAlnum_of_isLower (hsmall c hc)⟩

theorem isAlnum_pascal (h : ∀ w ∈ words, IsWord w) : ∀ c ∈ words.flatMap capitalize, isAlnum c = true := by
  intro c hc
  obtain ⟨w, hw, hc⟩ := List.mem_flatMap.mp hc
  exact isAlnum_capitalize (h w hw) c hc

theorem flatMap_singletons {f : Str → List Str} (h : ∀ w ∈ words, f w = [w]) : words.flatMap f = words := by
  rw [List.flatMap_congr h]
  exact List.flatMap_singleton' words

/-- The words of a key are its tokens in every spelling. -/
theorem privateKeyTokens_spell (hne : words ≠ []) (h : ∀ w ∈ words, IsWord w) (spelling : Spelling) :
    privateKeyTokens (spell spelling words) = words := by
  have hsmall : ∀ w ∈ words, ∀ c ∈ w, isAlnum c = true := fun w hw c hc => isAlnum_of_isLower ((h w hw).small c hc)
  cases spelling with
  | snake =>
    rw [spell, join, show str "_" = [95] from rfl, privateKeyTokens_join (by decide) hsmall hne]
    exact flatMap_singletons (fun w hw => chunkTokens_small (h w hw))
  | kebab =>
    rw [spell, join, show str "-" = [45] from rfl, privateKeyTokens_join (by decide) hsmall hne]
    exact flatMap_singletons (fun w hw => chunkTokens_small (h w hw))
  | screaming =>
    have hcapitals : ∀ chunk ∈ words.map upperAscii, ∀ c ∈ chunk, isAlnum c = true := by
      intro chunk hchunk c hc
      obtain ⟨w, hw, rfl⟩ := List.mem_map.mp hchunk
      exact isAlnum_of_isUpper (isUpper_upperAscii (h w hw).small c hc)
    rw [spell, join, show str "_" = [95] from rfl, privateKeyTokens_join (by decide) hcapitals (by simpa using hne),
      List.flatMap_map]
    exact flatMap_singletons (fun w hw => chunkTokens_screaming (h w hw))
  | camel =>
    obtain ⟨w, rest, rfl⟩ := List.exists_cons_of_ne_nil hne
    obtain ⟨hword, hwords⟩ := List.forall_mem_cons.mp h
    rw [spell, privateKeyTokens_chunk, chunkTokens_camel hword hwords le_rfl]
    intro c hc
    rcases List.mem_append.mp hc with hc | hc
    · exact hsmall w List.mem_cons_self c hc
    · exact isAlnum_pascal hwords c hc
  | pascal =>
    rw [spell, privateKeyTokens_chunk (isAlnum_pascal h), chunkTokens_pascal h le_rfl]

/-- **The tokens of a key lose none of its letters and digits, and do not depend on its spelling.** -/
theorem private_key_tokens_faithful :
    (∀ key, (privateKeyTokens key).flatten = lowerAscii (key.filter isAlnum)) ∧
      ∀ words, words ≠ [] → (∀ w ∈ words, IsWord w) → ∀ spelling, privateKeyTokens (spell spelling words) = words ∧
        ∀ spelling' patterns, privateKeyHasPattern (spell spelling words) patterns =
          privateKeyHasPattern (spell spelling' words) patterns := by
  refine ⟨privateKeyTokens_flatten, ?_⟩
  intro words hne h spelling
  have htokens := privateKeyTokens_spell hne h
  refine ⟨htokens spelling, ?_⟩
  intro spelling' patterns
  rw [privateKeyHasPattern, privateKeyHasPattern, htokens, htokens]

/-- The words `api` and `key` in each spelling. -/
theorem private_key_tokens_faithful_apiKey : ∀ spelling,
    privateKeyTokens (spell spelling [str "api", str "key"]) = [str "api", str "key"] ∧
      ∀ spelling' patterns, privateKeyHasPattern (spell spelling [str "api", str "key"]) patterns =
        privateKeyHasPattern (spell spelling' [str "api", str "key"]) patterns := by
  refine private_key_tokens_faithful.2 _ (by decide) ?_
  intro w hw
  rcases List.mem_cons.mp hw with rfl | hw
  · exact ⟨List.all_eq_true.mp (by decide), by decide⟩
  · rw [List.mem_singleton.mp hw]
    exact ⟨List.all_eq_true.mp (by decide), by decide⟩

end Spellings

end Exasphere.Qa

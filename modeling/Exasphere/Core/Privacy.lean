import Mathlib.Data.List.DropRight
import Mathlib.Data.List.Infix
import Exasphere.Json.Value

/-!
# The privacy filter (`src/core/privacy.cpp`)

`redact` cuts the detail string into tokens at blanks, commas and semicolons and cuts each token at its first `=` or
`:` into a key and a value. A token whose key or value is sensitive keeps its key only. The pattern that a
`PrivacyFilter` stores is never read, so the filter has no state here.

A token that went through the filter stays as it is (`redactToken_redactToken`), hence so does the whole string
(`redact_redact`). The filter works token by token and leaves the separators (`redact_local`).
-/

namespace Exasphere.Core

open Exasphere.Lib
open Exasphere.Json (hexDigit)

/-! ## Sensitive words -/

/-- `std::tolower` of the C locale. -/
def toLower (c : UInt8) : UInt8 := if 65 ≤ c ∧ c ≤ 90 then c + 32 else c

/-- `needle` stands at some position of `hay`, up to case. -/
def containsCi (hay needle : Bytes) : Bool :=
  !needle.isEmpty && hay.tails.any (fun rest => (needle.map toLower).isPrefixOf (rest.map toLower))

def kSensitiveKeys : List Bytes :=
  ["secret", "api_key", "apikey", "api-key", "token", "password", "passwd", "credential", "auth", "private_key",
    "access_key", "session_id"].map utf8

def kSecretValueMarkers : List Bytes := ["-----begin", "bearer", "sk-", "ghp_", "xox", "aws_secret"].map utf8

def sensitiveKey (key : Bytes) : Bool := kSensitiveKeys.any (containsCi key)

def sensitiveValue (value : Bytes) : Bool := kSecretValueMarkers.any (containsCi value)

def kRedacted : Bytes := utf8 "[REDACTED]"

/-! ## Redaction -/

/-- A blank, a comma or a semicolon. -/
def isSeparator (c : UInt8) : Bool := decide (c = 32 ∨ c = 44 ∨ c = 59)

/-- One of `find_first_of("=:")`. -/
def isAssign (c : UInt8) : Bool := decide (c = 61 ∨ c = 58)

/-- The body of the loop of `redact`, for one token. -/
def redactToken (tok : Bytes) : Bytes :=
  match tok.dropWhile (fun c => !isAssign c) with
  | _ :: val =>
    let key := tok.takeWhile (fun c => !isAssign c)
    if sensitiveKey key || sensitiveValue val then key ++ 61 :: kRedacted else tok
  | [] => if sensitiveValue tok then kRedacted else tok

/-- The loop of `redact`: `tok` is the token from `start` to `i`. -/
def redactLoop (tok : Bytes) : Bytes → Bytes
  | [] => redactToken tok
  | c :: detail =>
    if isSeparator c then redactToken tok ++ c :: redactLoop [] detail else redactLoop (tok ++ [c]) detail

def redact (detail : Bytes) : Bytes := redactLoop [] detail

/-- The FNV hash of `bound_comm`; `std::size_t` has 64 bits. -/
def commHash (c : Bytes) : UInt64 := c.foldl (fun h ch => (h ^^^ ch.toUInt64) * 1099511628211) 1469598103934665603

/-- `%08llx` of the low 32 bits. -/
def hex32 (h : UInt64) : Bytes :=
  (List.range 8).map (fun i => hexDigit (h.toNat / 16 ^ (7 - i) % 16))

def boundComm (comm : Bytes) (pseudonymize : Bool) : Bytes :=
  let c := comm.take 15
  if pseudonymize then utf8 "task_" ++ hex32 (commHash c) else c

/-! ## Words in a text -/

section Words

variable {hay hay' needle : Bytes}

/-- A word of a text is a word of every longer text. -/
theorem containsCi_mono (h : hay <:+: hay') (hn : containsCi hay needle = true) : containsCi hay' needle = true := by
  obtain ⟨pre, post, rfl⟩ := h
  simp only [containsCi, Bool.and_eq_true, List.any_eq_true, List.mem_tails] at hn ⊢
  obtain ⟨hne, rest, hsuffix, hpre⟩ := hn
  refine ⟨hne, rest ++ post, ?_, ?_⟩
  · obtain ⟨front, rfl⟩ := hsuffix
    exact ⟨pre ++ front, by simp⟩
  · rw [List.isPrefixOf_iff_prefix] at hpre ⊢
    rw [List.map_append]
    exact hpre.trans (List.prefix_append _ _)

theorem sensitiveKey_mono (h : hay <:+: hay') (hs : sensitiveKey hay = true) : sensitiveKey hay' = true := by
  simp only [sensitiveKey, List.any_eq_true] at hs ⊢
  obtain ⟨k, hk, hc⟩ := hs
  exact ⟨k, hk, containsCi_mono h hc⟩

theorem sensitiveValue_mono (h : hay <:+: hay') (hs : sensitiveValue hay = true) : sensitiveValue hay' = true := by
  simp only [sensitiveValue, List.any_eq_true] at hs ⊢
  obtain ⟨m, hm, hc⟩ := hs
  exact ⟨m, hm, containsCi_mono h hc⟩

end Words

/-! ## Tokens -/

section Tokens

variable {key val tok detail : Bytes} {a c : UInt8}

/-- A text without an `=` or a `:`. -/
def NoAssign (s : Bytes) : Prop := ∀ c ∈ s, isAssign c = false

/-- A text without a blank, a comma or a semicolon. -/
def NoSeparator (s : Bytes) : Prop := ∀ c ∈ s, isSeparator c = false

instance (s : Bytes) : Decidable (NoAssign s) := List.decidableBAll _ s
instance (s : Bytes) : Decidable (NoSeparator s) := List.decidableBAll _ s

theorem noSeparator_append {s t : Bytes} : NoSeparator (s ++ t) ↔ NoSeparator s ∧ NoSeparator t := by
  simp only [NoSeparator, List.mem_append, or_imp, forall_and]

/-- A text has no assignment, or a first one. -/
theorem noAssign_or_first (s : Bytes) :
    NoAssign s ∨ ∃ key a val, s = key ++ a :: val ∧ NoAssign key ∧ isAssign a = true := by
  induction s with
  | nil => exact Or.inl (by simp [NoAssign])
  | cons c s ih =>
    cases hc : isAssign c with
    | true => exact Or.inr ⟨[], c, s, rfl, by simp [NoAssign], hc⟩
    | false =>
      rcases ih with hs | ⟨key, a, val, rfl, hkey, ha⟩
      · exact Or.inl (by simpa [NoAssign, hc] using hs)
      · exact Or.inr ⟨c :: key, a, val, rfl, by simpa [NoAssign, hc] using hkey, ha⟩

theorem redactToken_pair (hkey : NoAssign key) (ha : isAssign a = true) : redactToken (key ++ a :: val) =
    if sensitiveKey key || sensitiveValue val then key ++ 61 :: kRedacted else key ++ a :: val := by
  have hrun : ∀ c ∈ key, (fun c => !isAssign c) c = true := fun c hc => by simp [hkey c hc]
  have hstop : Halts (fun c => !isAssign c) (a :: val) := by simp [Halts, ha]
  unfold redactToken
  rw [dropWhile_run hrun hstop, takeWhile_run hrun hstop]

theorem redactToken_word (h : NoAssign tok) : redactToken tok = if sensitiveValue tok then kRedacted else tok := by
  have hdrop : tok.dropWhile (fun c => !isAssign c) = [] := by
    rw [List.dropWhile_eq_nil_iff]
    intro c hc
    simp [h c hc]
  unfold redactToken
  rw [hdrop]

theorem redactToken_noSeparator (h : NoSeparator tok) : NoSeparator (redactToken tok) := by
  have hmark : NoSeparator kRedacted := by decide
  rcases noAssign_or_first tok with hw | ⟨key, a, val, rfl, hkey, ha⟩
  · rw [redactToken_word hw]
    split
    · exact hmark
    · exact h
  · rw [redactToken_pair hkey ha]
    split
    · rw [noSeparator_append] at h ⊢
      refine ⟨h.1, ?_⟩
      intro c hc
      rcases List.mem_cons.mp hc with rfl | hc
      · decide
      · exact hmark c hc
    · exact h

/-- A token that was redacted is not redacted further. -/
theorem redactToken_redactToken (tok : Bytes) : redactToken (redactToken tok) = redactToken tok := by
  rcases noAssign_or_first tok with hw | ⟨key, a, val, rfl, hkey, ha⟩
  · rw [redactToken_word hw]
    split
    · decide
    next hs => rw [redactToken_word hw, if_neg hs]
  · rw [redactToken_pair hkey ha]
    split
    · rw [redactToken_pair hkey (by decide)]
      split <;> rfl
    next hs => rw [redactToken_pair hkey ha, if_neg hs]

/-- The loop goes on to the end of the token. -/
theorem redactLoop_run (h : NoSeparator tok) (start detail : Bytes) :
    redactLoop start (tok ++ detail) = redactLoop (start ++ tok) detail := by
  induction tok generalizing start with
  | nil => simp
  | cons c tok ih =>
    have hc : isSeparator c = false := h c (by simp)
    rw [List.cons_append, redactLoop, hc, if_neg (by simp), ih (fun d hd => h d (by simp [hd])), List.append_assoc]
    rfl

/-- Tokens on the two sides of a separator are redacted on their own. -/
theorem redactLoop_separator (hc : isSeparator c = true) (start p detail : Bytes) :
    redactLoop start (p ++ c :: detail) = redactLoop start p ++ c :: redactLoop [] detail := by
  induction p generalizing start with
  | nil => simp [redactLoop, hc]
  | cons d p ih =>
    rw [List.cons_append, redactLoop, redactLoop]
    split
    · rw [ih, List.append_assoc]
      rfl
    · exact ih _

/-- A text that is one token. -/
theorem redactLoop_token (h : NoSeparator tok) : redactLoop [] tok = redactToken tok := by
  have := redactLoop_run h [] []
  rw [List.append_nil, List.nil_append] at this
  rw [this, redactLoop]

theorem redactLoop_redactLoop (h : NoSeparator tok) (detail : Bytes) :
    redactLoop [] (redactLoop tok detail) = redactLoop tok detail := by
  induction detail generalizing tok with
  | nil => rw [redactLoop, redactLoop_token (redactToken_noSeparator h), redactToken_redactToken]
  | cons c detail ih =>
    cases hc : isSeparator c with
    | true =>
      rw [redactLoop, if_pos hc, redactLoop_separator hc, redactLoop_token (redactToken_noSeparator h),
        redactToken_redactToken, ih (by simp [NoSeparator])]
    | false =>
      rw [redactLoop, if_neg (by simp [hc])]
      exact ih (noSeparator_append.mpr ⟨h, by simpa [NoSeparator] using hc⟩)

/-- Redaction changes nothing the second time. -/
theorem redact_redact (detail : Bytes) : redact (redact detail) = redact detail :=
  redactLoop_redactLoop (by simp [NoSeparator]) detail

end Tokens

/-! ## Values behind a key -/

section Hiding

variable {p q k s tok v : Bytes}

/-- The part of the text behind its last separator: the token that the text leaves open. -/
def openToken (p : Bytes) : Bytes := p.rtakeWhile (fun c => !isSeparator c)

/-- The part of a token before its first assignment. -/
def tokenKey (tok : Bytes) : Bytes := tok.takeWhile (fun c => !isAssign c)

/-- The part of a token behind its first assignment. -/
def tokenValue (tok : Bytes) : Bytes := (tok.dropWhile (fun c => !isAssign c)).tail

/-- A value behind `q ++ k ++ "="` in one token is redacted whatever it is: the token has no earlier assignment, or
the key before the first one is sensitive, or what stands between that one and the value is. -/
def HidesValue (q k : Bytes) : Prop :=
  NoAssign q ∨ sensitiveKey (tokenKey q) = true ∨ sensitiveValue (tokenValue q ++ k ++ [61]) = true

instance (q k : Bytes) : Decidable (HidesValue q k) := inferInstanceAs (Decidable (_ ∨ _))

/-- What follows a token: nothing, or a separator. -/
def ClosesToken (s : Bytes) : Prop := ∀ c ∈ s.head?, isSeparator c = true

instance (s : Bytes) : Decidable (ClosesToken s) := Option.decidableForallMem s.head?

theorem redactLoop_closes (h : ClosesToken s) :
    ∃ post, ∀ start tok, redactLoop start (tok ++ s) = redactLoop start tok ++ post := by
  cases s with
  | nil => exact ⟨[], fun start tok => by simp⟩
  | cons c s => exact ⟨c :: redactLoop [] s, fun start tok => redactLoop_separator (h c (by simp)) start tok s⟩

theorem openToken_noSeparator (p : Bytes) : NoSeparator (openToken p) := by
  intro c hc
  simpa using List.mem_rtakeWhile_imp hc

/-- A text is its open token behind nothing or behind a separator. -/
theorem openToken_split (p : Bytes) :
    p = openToken p ∨ ∃ front c, isSeparator c = true ∧ p = front ++ c :: openToken p := by
  have hp := List.rdropWhile_append_rtakeWhile (l := p) (p := fun c => !isSeparator c)
  by_cases hnil : p.rdropWhile (fun c => !isSeparator c) = []
  · left
    rw [hnil, List.nil_append] at hp
    exact hp.symm
  · right
    have hlast := List.rdropWhile_last_not (fun c => !isSeparator c) p hnil
    refine ⟨(p.rdropWhile (fun c => !isSeparator c)).dropLast, _, by simpa using hlast, ?_⟩
    rw [← List.singleton_append, ← List.append_assoc, List.dropLast_append_getLast hnil]
    exact hp.symm

/-- The filter works on the open token and its continuation, whatever stands around them. -/
theorem redact_context (p : Bytes) (hs : ClosesToken s) : ∃ pre post, ∀ tok, NoSeparator tok →
    redact (p ++ tok ++ s) = pre ++ redactToken (openToken p ++ tok) ++ post := by
  obtain ⟨post, hpost⟩ := redactLoop_closes hs
  have htoken (tok : Bytes) (htok : NoSeparator tok) :
      redactLoop [] (openToken p ++ tok ++ s) = redactToken (openToken p ++ tok) ++ post := by
    rw [hpost, redactLoop_token (noSeparator_append.mpr ⟨openToken_noSeparator p, htok⟩)]
  rcases openToken_split p with hp | ⟨front, c, hc, hp⟩
  · refine ⟨[], post, fun tok htok => ?_⟩
    have h := htoken tok htok
    rw [← hp] at h ⊢
    exact h
  · refine ⟨redactLoop [] front ++ [c], post, fun tok htok => ?_⟩
    have hsplit : p ++ tok ++ s = front ++ c :: (openToken p ++ tok ++ s) := by
      conv_lhs => rw [hp]
      simp
    rw [redact, hsplit, redactLoop_separator hc, htoken tok htok]
    simp

/-- Without an earlier assignment the key of the token is `q ++ k`. -/
theorem redactToken_keyed (hq : NoAssign q) (hk : NoAssign k) (hsens : sensitiveKey k = true) (v : Bytes) :
    redactToken (q ++ (k ++ 61 :: v)) = q ++ k ++ 61 :: kRedacted := by
  have hqk : NoAssign (q ++ k) := by
    intro c hc
    exact (List.mem_append.mp hc).elim (hq c) (hk c)
  have hsens' : sensitiveKey (q ++ k) = true := sensitiveKey_mono (List.suffix_append q k).isInfix hsens
  rw [← List.append_assoc, redactToken_pair hqk (by decide), hsens']
  rfl

/-- The value behind a sensitive key never shows in its token exactly if the token hides it. -/
theorem redactToken_hides_iff (hk : NoAssign k) (hsens : sensitiveKey k = true) :
    (∀ v₁ v₂, NoSeparator v₁ → NoSeparator v₂ →
      redactToken (q ++ (k ++ 61 :: v₁)) = redactToken (q ++ (k ++ 61 :: v₂))) ↔ HidesValue q k := by
  rcases noAssign_or_first q with hq | ⟨key, a, val, rfl, hkey, ha⟩
  · refine iff_of_true (fun v₁ v₂ _ _ => ?_) (Or.inl hq)
    rw [redactToken_keyed hq hk hsens, redactToken_keyed hq hk hsens]
  · have hassign : ¬NoAssign (key ++ a :: val) := fun h => by simpa [ha] using h a (by simp)
    have hrun : ∀ c ∈ key, (fun c => !isAssign c) c = true := fun c hc => by simp [hkey c hc]
    have hstop : Halts (fun c => !isAssign c) (a :: val) := by simp [Halts, ha]
    have hpair (v : Bytes) : redactToken (key ++ a :: val ++ (k ++ 61 :: v)) =
        if sensitiveKey key || sensitiveValue (val ++ k ++ [61] ++ v) then key ++ 61 :: kRedacted
        else key ++ a :: (val ++ k ++ [61] ++ v) := by
      rw [List.append_assoc, List.cons_append, redactToken_pair hkey ha]
      simp
    simp only [HidesValue, hassign, false_or, tokenKey, tokenValue, takeWhile_run hrun hstop,
      dropWhile_run hrun hstop, List.tail_cons]
    constructor
    · intro h
      by_contra hshow
      rw [not_or, Bool.not_eq_true, Bool.not_eq_true] at hshow
      -- the empty value is written out, and no other value gives a token that ends in `=`
      have heq := h [] [97] (by simp [NoSeparator]) (by decide)
      rw [hpair, hpair, List.append_nil, hshow.1, hshow.2, if_neg (by decide), ← List.cons_append,
        ← List.append_assoc] at heq
      have hlast := congrArg List.getLast? heq
      rw [List.getLast?_concat] at hlast
      split at hlast
      · rw [show key ++ 61 :: kRedacted = key ++ 61 :: utf8 "[REDACTED" ++ [93] by simp [kRedacted]; rfl,
          List.getLast?_concat] at hlast
        cases hlast
      · rw [← List.cons_append, ← List.append_assoc, List.getLast?_concat] at hlast
        cases hlast
    · intro h v₁ v₂ _ _
      have hval (v : Bytes) : (sensitiveKey key || sensitiveValue (val ++ k ++ [61] ++ v)) = true := by
        rw [Bool.or_eq_true]
        exact h.imp id (sensitiveValue_mono (List.prefix_append _ v).isInfix)
      rw [hpair, hpair, if_pos (hval v₁), if_pos (hval v₂)]

/-- The value behind a sensitive key never shows in the redacted text exactly if its token hides it. -/
theorem redact_pair_iff (hk : NoAssign k) (hk' : NoSeparator k) (hsens : sensitiveKey k = true)
    (hs : ClosesToken s) : (∀ v₁ v₂, NoSeparator v₁ → NoSeparator v₂ →
      redact (p ++ k ++ [61] ++ v₁ ++ s) = redact (p ++ k ++ [61] ++ v₂ ++ s)) ↔ HidesValue (openToken p) k := by
  obtain ⟨pre, post, hcontext⟩ := redact_context p hs
  have htoken (v : Bytes) (hv : NoSeparator v) : redact (p ++ k ++ [61] ++ v ++ s) =
      pre ++ redactToken (openToken p ++ (k ++ 61 :: v)) ++ post := by
    have hpair : NoSeparator (k ++ 61 :: v) := by
      refine noSeparator_append.mpr ⟨hk', fun c hc => ?_⟩
      rcases List.mem_cons.mp hc with rfl | hc
      · decide
      · exact hv c hc
    rw [← hcontext _ hpair]
    simp
  rw [← redactToken_hides_iff hk hsens]
  apply forall₄_congr
  intro v₁ v₂ h₁ h₂
  rw [htoken v₁ h₁, htoken v₂ h₂, List.append_left_inj, List.append_right_inj]

end Hiding

/-! ## Locality -/

section Locality

variable {key val tok : Bytes} {a : UInt8}

def tokens (detail : Bytes) : List Bytes := detail.splitOnP isSeparator

def separators (detail : Bytes) : Bytes := detail.filter isSeparator

/-- What the filter may make of a token: the token, the mark, or the key before the first assignment with the mark. -/
def Rewritten (tok out : Bytes) : Prop :=
  out = tok ∨ out = kRedacted ∨ (¬NoAssign tok ∧ out = tokenKey tok ++ 61 :: kRedacted)

/-- A token with nothing left to hide: behind a sensitive key stands the mark, and no value has a secret marker. -/
structure Settled (tok : Bytes) : Prop where
  key : ¬NoAssign tok → sensitiveKey (tokenKey tok) = true → tokenValue tok = kRedacted
  value : ¬NoAssign tok → sensitiveValue (tokenValue tok) = false
  word : NoAssign tok → sensitiveValue tok = false

theorem not_noAssign (ha : isAssign a = true) : ¬NoAssign (key ++ a :: val) := by
  intro h
  have := h a (by simp)
  rw [ha] at this
  cases this

theorem tokenKey_pair (hkey : NoAssign key) (ha : isAssign a = true) : tokenKey (key ++ a :: val) = key := by
  have hrun : ∀ c ∈ key, (fun c => !isAssign c) c = true := fun c hc => by simp [hkey c hc]
  have hstop : Halts (fun c => !isAssign c) (a :: val) := by simp [Halts, ha]
  rw [tokenKey, takeWhile_run hrun hstop]

theorem tokenValue_pair (hkey : NoAssign key) (ha : isAssign a = true) : tokenValue (key ++ a :: val) = val := by
  have hrun : ∀ c ∈ key, (fun c => !isAssign c) c = true := fun c hc => by simp [hkey c hc]
  have hstop : Halts (fun c => !isAssign c) (a :: val) := by simp [Halts, ha]
  rw [tokenValue, dropWhile_run hrun hstop, List.tail_cons]

theorem redactToken_rewritten (tok : Bytes) : Rewritten tok (redactToken tok) := by
  rcases noAssign_or_first tok with hw | ⟨key, a, val, rfl, hkey, ha⟩
  · rw [redactToken_word hw]
    split
    · exact Or.inr (Or.inl rfl)
    · exact Or.inl rfl
  · rw [redactToken_pair hkey ha]
    split
    · refine Or.inr (Or.inr ⟨not_noAssign ha, ?_⟩)
      rw [tokenKey_pair hkey ha]
    · exact Or.inl rfl

/-- A pair is settled if its key and its value are. -/
theorem settled_pair (hkey : NoAssign key) (ha : isAssign a = true) (hk : sensitiveKey key = true → val = kRedacted)
    (hv : sensitiveValue val = false) : Settled (key ++ a :: val) := by
  refine ⟨?_, ?_, fun h => absurd h (not_noAssign ha)⟩
  · intro _ hs
    rw [tokenKey_pair hkey ha] at hs
    rw [tokenValue_pair hkey ha]
    exact hk hs
  · intro _
    rwa [tokenValue_pair hkey ha]

theorem redactToken_settled (tok : Bytes) : Settled (redactToken tok) := by
  rcases noAssign_or_first tok with hw | ⟨key, a, val, rfl, hkey, ha⟩
  · rw [redactToken_word hw]
    split
    · have hmark : NoAssign kRedacted := by decide
      exact ⟨fun h => absurd hmark h, fun h => absurd hmark h, fun _ => by decide⟩
    next hs => exact ⟨fun h => absurd hw h, fun h => absurd hw h, fun _ => by simpa using hs⟩
  · rw [redactToken_pair hkey ha]
    split
    · exact settled_pair hkey (by decide) (fun _ => rfl) (by decide)
    next hs =>
      rw [Bool.or_eq_true, not_or, Bool.not_eq_true, Bool.not_eq_true] at hs
      refine settled_pair hkey ha ?_ hs.2
      intro hsens
      rw [hs.1] at hsens
      cases hsens

theorem tokens_of_noSeparator (h : NoSeparator tok) : tokens tok = [tok] :=
  List.splitOnP_eq_singleton h

/-- The loop redacts every token on its own and writes every separator. -/
theorem redactLoop_tokens (h : NoSeparator tok) (detail : Bytes) :
    tokens (redactLoop tok detail) = (tokens (tok ++ detail)).map redactToken ∧
      separators (redactLoop tok detail) = separators (tok ++ detail) := by
  have hnone : ∀ {t : Bytes}, NoSeparator t → separators t = [] := by
    intro t ht
    rw [separators, List.filter_eq_nil_iff]
    intro c hc
    simp [ht c hc]
  induction detail generalizing tok with
  | nil =>
    have hred := redactToken_noSeparator h
    rw [redactLoop, List.append_nil, tokens_of_noSeparator h, tokens_of_noSeparator hred, hnone h, hnone hred]
    exact ⟨rfl, rfl⟩
  | cons c detail ih =>
    cases hc : isSeparator c with
    | true =>
      have hred := redactToken_noSeparator h
      obtain ⟨htokens, hseps⟩ := ih (by simp [NoSeparator] : NoSeparator [])
      rw [redactLoop, if_pos hc]
      constructor
      · rw [tokens, List.splitOnP_append_cons _ _ hc, tokens, List.splitOnP_append_cons _ _ hc, List.map_append]
        exact congrArg₂ (· ++ ·) (by rw [List.splitOnP_eq_singleton hred, List.splitOnP_eq_singleton h]; rfl) htokens
      · rw [separators, List.filter_append, List.filter_cons_of_pos hc, separators, List.filter_append,
          List.filter_cons_of_pos hc]
        exact congrArg₂ (· ++ ·) ((hnone hred).trans (hnone h).symm) (congrArg (c :: ·) hseps)
    | false =>
      rw [redactLoop, if_neg (by simp [hc])]
      have hstep := ih (noSeparator_append.mpr ⟨h, by simpa [NoSeparator] using hc⟩ : NoSeparator (tok ++ [c]))
      rwa [List.append_assoc, List.singleton_append] at hstep

/-- Redaction is idempotent and local: it keeps the separators, rewrites each token for itself, and leaves no token with
something to hide. -/
theorem redact_local (detail : Bytes) : redact (redact detail) = redact detail ∧
    separators (redact detail) = separators detail ∧
    List.Forall₂ Rewritten (tokens detail) (tokens (redact detail)) ∧
    ∀ tok ∈ tokens (redact detail), Settled tok := by
  obtain ⟨htokens, hseps⟩ := redactLoop_tokens (by simp [NoSeparator] : NoSeparator []) detail
  refine ⟨redact_redact detail, hseps, ?_, ?_⟩
  · rw [redact, htokens, List.nil_append, List.forall₂_map_right_iff, List.forall₂_same]
    intro tok _
    exact redactToken_rewritten tok
  · rw [redact, htokens, List.forall_mem_map]
    intro tok _
    exact redactToken_settled tok

end Locality

end Exasphere.Core

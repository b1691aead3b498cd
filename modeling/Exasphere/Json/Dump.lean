import Exasphere.Json.Access
import Exasphere.Json.Grammar

/-!
# What `dump` writes

The text of a value without a `double` is a text of the JSON grammar, over the encoding in which its strings and keys
are strings (`Value.Plain.textOver`); no such text in UTF-8 has a byte 0xFF (`Rfc8259.Text.ne_ff`). A compact text does
not depend on the depth (`dumpTo_compact`) and holds no control character (`Value.Plain.dump_printable`), so it is one
line.
-/

namespace Exasphere.Json

open Exasphere.Lib
open Rfc8259 (Ws Str Derives)

/-! ## Tokens -/

section Tokens

theorem digit_range {d : Nat} (hd : d < 10) : Rfc8259.Digit (digit d) := by
  have h := isDigit_digit hd
  simp only [isDigit, decide_eq_true_eq] at h
  exact h

theorem intPart_decimal (n : Nat) : Rfc8259.IntPart (decimal n) := by
  unfold decimal
  split
  · exact .zero
  next hn =>
    have hne : Nat.digits 10 n ≠ [] := Nat.digits_ne_nil_iff_ne_zero.mpr hn
    have hlast : (Nat.digits 10 n).getLast hne ≠ 0 := Nat.getLast_digit_ne_zero 10 hn
    have hlt : (Nat.digits 10 n).getLast hne < 10 := Nat.digits_lt_base (by omega) (List.getLast_mem hne)
    rw [← List.dropLast_append_getLast hne, List.map_append, List.reverse_append, List.map_singleton,
      List.reverse_singleton, List.singleton_append]
    refine .nonzero (digit ((Nat.digits 10 n).getLast hne)) _ ?_ ?_
    · rw [UInt8.le_iff_toNat_le, UInt8.le_iff_toNat_le, toNat_digit hlt]
      have hlo : (0x31 : UInt8).toNat = 49 := rfl
      have hhi : (0x39 : UInt8).toNat = 57 := rfl
      omega
    · intro c hc
      simp only [List.mem_reverse, List.mem_map] at hc
      obtain ⟨d, hd, rfl⟩ := hc
      exact digit_range (Nat.digits_lt_base (by omega) (List.dropLast_subset _ hd))

theorem number_toText (i : Int64) : Rfc8259.Number (toText i) := by
  have hdec := intPart_decimal i.toInt.natAbs
  unfold toText
  split
  · have := Rfc8259.Number.intro [0x2D] _ [] [] (Or.inr rfl) hdec .none .none
    simpa using this
  · have := Rfc8259.Number.intro [] _ [] [] (Or.inl rfl) hdec .none .none
    simpa using this

theorem hexDigit_range {d : Nat} (hd : d < 16) : Rfc8259.HexDigit (hexDigit d) := by
  unfold Rfc8259.HexDigit Rfc8259.Digit
  interval_cases d <;> decide

theorem byteChar_escapeByte (c : UInt8) : Rfc8259.ByteChar (escapeByte c) := by
  unfold escapeByte
  split_ifs with h₁ h₂ h₃ h₄ h₅ h₆ h₇ h₈
  · exact .escape _ (by decide)
  · exact .escape _ (by decide)
  · exact .escape _ (by decide)
  · exact .escape _ (by decide)
  · exact .escape _ (by decide)
  · exact .escape _ (by decide)
  · exact .escape _ (by decide)
  · have hc : c.toNat < 32 := UInt8.lt_iff_toNat_lt.mp h₈
    have hzero : Rfc8259.HexDigit 48 := Or.inl (by unfold Rfc8259.Digit; decide)
    exact .unicode _ _ _ _ hzero hzero (hexDigit_range (by omega)) (hexDigit_range (by omega))
  · refine .byte c ?_ h₁ h₂
    exact UInt8.not_lt.mp h₈

theorem str_of_escapeByte {char : Bytes → Prop} {s : Bytes} (h : ∀ c ∈ s, char (escapeByte c)) :
    Str char (quoted s) := by
  have hchars : ∀ p ∈ s.map escapeByte, char p := by
    intro p hp
    obtain ⟨c, hc, rfl⟩ := List.mem_map.mp hp
    exact h c hc
  have hstr := Str.intro (s.map escapeByte) hchars
  rwa [← List.flatMap_def] at hstr

/-- A quoted string of any bytes is a string of an encoding that extends ASCII. -/
theorem str_quoted (s : Bytes) : Str Rfc8259.ByteChar (quoted s) :=
  str_of_escapeByte (fun c _ => byteChar_escapeByte c)

/-- The characters of ASCII that stand for themselves in a string. -/
def isUnescaped (c : UInt8) : Bool := decide (0x20 ≤ c ∧ c ≤ 0x7F ∧ c ≠ 0x22 ∧ c ≠ 0x5C)

theorem str_unescaped {s : Bytes} (h : ∀ c ∈ s, isUnescaped c = true) : Str Rfc8259.Char (quoted s) := by
  apply str_of_escapeByte
  intro c hc
  have hc := h c hc
  simp only [isUnescaped, decide_eq_true_eq] at hc
  obtain ⟨hlo, hhi, hq, hb⟩ := hc
  have hlow (d : UInt8) (hd : d < 32) : c ≠ d := by
    rintro rfl
    exact absurd hlo (UInt8.not_le.mpr hd)
  have hself : escapeByte c = [c] := by
    simp [escapeByte, hq, hb, hlow 8 (by decide), hlow 12 (by decide), hlow 10 (by decide), hlow 13 (by decide),
      hlow 9 (by decide), UInt8.not_lt.mpr hlo]
  rw [hself]
  exact .ascii c ⟨hlo, hhi⟩ hq hb

end Tokens

/-! ## Texts -/

mutual

/-- The strings and the keys of the tree. -/
def Value.texts : Value → List Bytes
  | .null | .bool _ | .int _ | .double _ => []
  | .string s => [s]
  | .array items => textsItems items
  | .object members => textsMembers members

def textsItems : List Value → List Bytes
  | [] => []
  | v :: vs => v.texts ++ textsItems vs

def textsMembers : List (Bytes × Value) → List Bytes
  | [] => []
  | (k, v) :: ms => k :: v.texts ++ textsMembers ms

end

section Texts

variable {char : Bytes → Prop}

theorem ws_nil : Ws [] := by simp [Ws]

theorem ws_lineBreak (pretty : Bool) (indent : Nat) : Ws (lineBreak pretty indent) := by
  intro c hc
  have := lineBreak_white c hc
  simp only [isWhite, decide_eq_true_eq] at this
  rcases this with rfl | rfl | rfl | rfl <;> simp

/-- The text of `v` is a value of the grammar. -/
def Writes (char : Bytes → Prop) (v : Value) : Prop :=
  ∀ (pretty : Bool) (indent : Nat), Derives char .value (v.dumpTo pretty indent)

theorem derives_items (pretty : Bool) (indent : Nat) {v : Value} {vs : List Value} (h : ∀ u ∈ v :: vs, Writes char u)
    {w : Bytes} (hw : Ws w) :
    Derives char .elements (dumpItems pretty indent true (v :: vs) ++ w) := by
  induction vs generalizing v with
  | nil =>
    have := Derives.element _ _ w (ws_lineBreak pretty (indent + 1))
      (h v (by simp) pretty (indent + 1)) hw
    simpa [dumpItems] using this
  | cons u vs ih =>
    have hrest := ih (v := u) (fun x hx => h x (by simp [hx]))
    have := Derives.moreElements _ _ [] _ (ws_lineBreak pretty (indent + 1))
      (h v (by simp) pretty (indent + 1)) ws_nil hrest
    rw [dumpItems, dumpItems_false]
    simpa using this

theorem derives_members (pretty : Bool) (indent : Nat) {m : Bytes × Value} {ms : List (Bytes × Value)}
    (h : ∀ e ∈ m :: ms, Writes char e.2) (hk : ∀ e ∈ m :: ms, Str char (quoted e.1)) {w : Bytes} (hw : Ws w) :
    Derives char .members (dumpMembers pretty indent true (m :: ms) ++ w) := by
  have hspace : Ws (if pretty then [32] else []) := by cases pretty <;> simp [Ws]
  induction ms generalizing m with
  | nil =>
    have := Derives.member _ _ [] _ _ w (ws_lineBreak pretty (indent + 1)) (hk m (by simp))
      ws_nil hspace (h m (by simp) pretty (indent + 1)) hw
    simpa [dumpMembers] using this
  | cons e ms ih =>
    have hrest := ih (m := e) (fun x hx => h x (by simp [hx])) (fun x hx => hk x (by simp [hx]))
    have := Derives.moreMembers _ _ [] _ _ [] _ (ws_lineBreak pretty (indent + 1))
      (hk m (by simp)) ws_nil hspace (h m (by simp) pretty (indent + 1)) ws_nil hrest
    rw [dumpMembers, dumpMembers_false]
    simpa using this

mutual

theorem writes_value : (v : Value) → v.Plain → (∀ s ∈ v.texts, Str char (quoted s)) → Writes char v
  | .null, _, _ => fun _ _ => .litNull
  | .bool true, _, _ => fun _ _ => .litTrue
  | .bool false, _, _ => fun _ _ => .litFalse
  | .int i, _, _ => fun _ _ => .number _ (number_toText i)
  | .double d, h, _ => by simp [Value.Plain, Value.all, plain, Value.isDouble] at h
  | .string s, _, hs => fun _ _ => .string _ (hs s (by simp [Value.texts]))
  | .array [], _, _ => fun _ _ => .emptyArray [] ws_nil
  | .array (v :: vs), h, hs => fun pretty indent => by
    simp only [Value.Plain, Value.all, Bool.and_eq_true] at h
    have hitems := writes_items (v :: vs) h.2 (by simpa only [Value.texts] using hs)
    have := Derives.array _ (derives_items pretty indent hitems
      (ws_lineBreak pretty indent))
    simpa [Value.dumpTo] using this
  | .object [], _, _ => fun _ _ => .emptyObject [] ws_nil
  | .object (m :: ms), h, hs => fun pretty indent => by
    simp only [Value.Plain, Value.all, Bool.and_eq_true] at h
    have hmembers := writes_members (m :: ms) h.2 (by simpa only [Value.texts] using hs)
    have := Derives.object _ (derives_members pretty indent (fun e he => (hmembers e he).2)
      (fun e he => (hmembers e he).1) (ws_lineBreak pretty indent))
    simpa [Value.dumpTo] using this

theorem writes_items : (vs : List Value) → allItems plain vs = true → (∀ s ∈ textsItems vs, Str char (quoted s)) →
    ∀ v ∈ vs, Writes char v
  | [], _, _ => by simp
  | v :: vs, h, hs => by
    simp only [allItems, Bool.and_eq_true] at h
    simp only [textsItems, List.mem_append] at hs
    have hv := writes_value v h.1 (fun s hs' => hs s (Or.inl hs'))
    have hvs := writes_items vs h.2 (fun s hs' => hs s (Or.inr hs'))
    simpa using ⟨hv, hvs⟩

theorem writes_members : (ms : List (Bytes × Value)) → allMembers plain ms = true →
    (∀ s ∈ textsMembers ms, Str char (quoted s)) → ∀ m ∈ ms, Str char (quoted m.1) ∧ Writes char m.2
  | [], _, _ => by simp
  | (k, v) :: ms, h, hs => by
    simp only [allMembers, Bool.and_eq_true] at h
    simp only [textsMembers, List.cons_append, List.mem_cons, List.mem_append] at hs
    have hk := hs k (Or.inl rfl)
    have hv := writes_value v h.1 (fun s hs' => hs s (Or.inr (Or.inl hs')))
    have hms := writes_members ms h.2 (fun s hs' => hs s (Or.inr (Or.inr hs')))
    simpa using ⟨⟨hk, hv⟩, fun a b hab => hms (a, b) hab⟩

end

/-- The text of a value is a JSON text. -/
theorem Value.Plain.textOver {v : Value} (h : v.Plain) (hs : ∀ s ∈ v.texts, Str char (quoted s)) {pretty : Bool} :
    Rfc8259.TextOver char (v.dump pretty) :=
  ⟨[], v.dump pretty, [], ws_nil, writes_value v h hs pretty 0, ws_nil, by simp⟩

theorem Value.texts_setBytes {v val : Value} {key s : Bytes} (h : s ∈ (v.setBytes key val).texts) :
    s = key ∨ s ∈ val.texts ∨ s ∈ v.texts := by
  have hmembers (ms : List (Bytes × Value)) (h : s ∈ textsMembers (insertKey key val ms)) :
      s = key ∨ s ∈ val.texts ∨ s ∈ textsMembers ms := by
    induction ms with
    | nil => simpa [insertKey, textsMembers] using h
    | cons m ms ih =>
      obtain ⟨k, u⟩ := m
      unfold insertKey at h
      split_ifs at h with h₁ h₂
      · simp only [textsMembers, List.cons_append, List.mem_cons, List.mem_append] at h ⊢
        tauto
      · simp only [textsMembers, List.cons_append, List.mem_cons, List.mem_append] at h ⊢
        rcases h with h | h | h
        · exact Or.inr (Or.inr (Or.inl h))
        · exact Or.inr (Or.inr (Or.inr (Or.inl h)))
        · have := ih h
          tauto
      · simp only [textsMembers, List.cons_append, List.mem_cons, List.mem_append] at h ⊢
        tauto
  have := hmembers v.asObject h
  cases v with
  | object members => exact this
  | _ =>
    rcases this with h | h | h
    · exact Or.inl h
    · exact Or.inr (Or.inl h)
    · simp [Value.asObject, textsMembers] at h

end Texts

/-! ## UTF-8 -/

section Utf8

variable {v val : Value} {s : Bytes}

/-- The strings and keys of the tree are strings of RFC 8259, which are in UTF-8. -/
def Value.Utf8 (v : Value) : Prop := ∀ s ∈ v.texts, Str Rfc8259.Char (quoted s)

theorem Value.Utf8.setBytes {key : Bytes} (hv : v.Utf8) (hval : val.Utf8) (hkey : Str Rfc8259.Char (quoted key)) :
    (v.setBytes key val).Utf8 := by
  intro s hs
  rcases Value.texts_setBytes hs with rfl | hs | hs
  · exact hkey
  · exact hval s hs
  · exact hv s hs

theorem str_literal {t : String} (h : (utf8 t).all isUnescaped = true) : Str Rfc8259.Char (quoted (utf8 t)) :=
  str_unescaped (List.all_eq_true.mp h)

theorem Value.Utf8.set {key : String} (hv : v.Utf8) (hval : val.Utf8)
    (hkey : (utf8 key).all isUnescaped = true := by decide) : (v.set key val).Utf8 :=
  hv.setBytes hval (str_literal hkey)

theorem Value.utf8_string (h : Str Rfc8259.Char (quoted s)) : (Value.string s).Utf8 := by
  intro t ht
  rw [Value.texts, List.mem_singleton] at ht
  rw [ht]
  exact h

theorem Value.Utf8.setNonempty {key : String} (hv : v.Utf8) (hs : Str Rfc8259.Char (quoted s))
    (hkey : (utf8 key).all isUnescaped = true := by decide) : (v.setNonempty key s).Utf8 := by
  unfold Value.setNonempty
  split
  · exact hv
  · exact hv.set (Value.utf8_string hs) hkey

theorem Value.utf8_literal {t : String} (h : (utf8 t).all isUnescaped = true := by decide) :
    (Value.ofLiteral t).Utf8 :=
  Value.utf8_string (str_literal h)

/-- Strings of printable ASCII need no further look. -/
theorem Value.utf8_of_unescaped {v : Value} (h : v.texts.all (fun s => s.all isUnescaped) = true) : v.Utf8 := by
  intro s hs
  apply str_unescaped
  intro c hc
  exact List.all_eq_true.mp (List.all_eq_true.mp h s hs) c hc

theorem Value.utf8_makeObject : Value.makeObject.Utf8 := by
  simp [Value.Utf8, Value.makeObject, Value.texts, textsMembers]

theorem Value.utf8_int {i : Int64} : (Value.int i).Utf8 := by simp [Value.Utf8, Value.texts]

theorem Value.utf8_array {items : List Value} (h : ∀ v ∈ items, v.Utf8) : (Value.array items).Utf8 := by
  intro s hs
  rw [Value.texts] at hs
  induction items with
  | nil => simp [textsItems] at hs
  | cons v vs ih =>
    rw [textsItems, List.mem_append] at hs
    rcases hs with hs | hs
    · exact h v (by simp) s hs
    · exact ih (fun u hu => h u (by simp [hu])) hs

theorem Rfc8259.Char.ne_ff {p : Bytes} (h : Rfc8259.Char p) : 0xFF ∉ p := by
  have htop (c m : UInt8) (hc : c ≤ m) (hm : m < 0xFF) : (0xFF : UInt8) ≠ c := by
    rintro rfl
    exact absurd (UInt8.lt_of_le_of_lt hc hm) (UInt8.lt_irrefl _)
  have hhex (c : UInt8) (hc : Rfc8259.HexDigit c) : (0xFF : UInt8) ≠ c := by
    rcases hc with hc | hc | hc
    · exact htop c _ hc.2 (by decide)
    · exact htop c _ hc.2 (by decide)
    · exact htop c _ hc.2 (by decide)
  cases h with
  | ascii c h => simpa using htop c _ h.2 (by decide)
  | two a b ha hb => simp [htop a _ ha.2 (by decide), htop b _ hb.2 (by decide)]
  | three a b c ha hb hc => simp [htop a _ ha.2 (by decide), htop b _ hb.2 (by decide), htop c _ hc.2 (by decide)]
  | four a b c d ha hb hc hd =>
    simp [htop a _ ha.2 (by decide), htop b _ hb.2 (by decide), htop c _ hc.2 (by decide), htop d _ hd.2 (by decide)]
  | escape c h =>
    intro hmem
    rcases List.mem_cons.mp hmem with hmem | hmem
    · exact absurd hmem (by decide)
    · rw [← List.mem_singleton.mp hmem] at h
      revert h
      decide
  | unicode a b c d ha hb hc hd => simp [hhex a ha, hhex b hb, hhex c hc, hhex d hd]

namespace Rfc8259

theorem Ws.ne_ff {w : Bytes} (h : Ws w) : 0xFF ∉ w := by
  intro hmem
  have := h _ hmem
  revert this
  decide

theorem Digit.ne_ff {ds : Bytes} (h : ∀ d ∈ ds, Digit d) : 0xFF ∉ ds := by
  intro hmem
  have := (h _ hmem).2
  revert this
  decide

theorem Number.ne_ff {n : Bytes} (h : Number n) : 0xFF ∉ n := by
  obtain ⟨minus, int, frac, exp, hm, hi, hf, he⟩ := h
  have hminus : (0xFF : UInt8) ∉ minus := by rcases hm with rfl | rfl <;> decide
  have hint : (0xFF : UInt8) ∉ int := by
    cases hi with
    | zero => decide
    | nonzero c ds hc hd =>
      intro hmem
      rcases List.mem_cons.mp hmem with rfl | hmem
      · exact absurd hc.2 (by decide)
      · exact Digit.ne_ff hd hmem
  have hfrac : (0xFF : UInt8) ∉ frac := by
    cases hf with
    | none => simp
    | some ds hd => simpa using Digit.ne_ff hd.2
  have hexp : (0xFF : UInt8) ∉ exp := by
    cases he with
    | none => simp
    | some e sign ds he hs hd =>
      have hds := Digit.ne_ff hd.2
      rcases he with rfl | rfl <;> rcases hs with rfl | rfl | rfl <;> simpa using hds
  simp [hminus, hint, hfrac, hexp]

theorem Str.ne_ff {s : Bytes} (h : Str Char s) : 0xFF ∉ s := by
  obtain ⟨chars, hchars⟩ := h
  have hflat : (0xFF : UInt8) ∉ chars.flatten := by
    intro hmem
    obtain ⟨p, hp, hmem⟩ := List.mem_flatten.mp hmem
    exact (hchars p hp).ne_ff hmem
  simp only [List.cons_append, List.mem_cons, List.mem_append, List.not_mem_nil, or_false, not_or]
  exact ⟨by decide, hflat, by decide⟩

theorem Derives.ne_ff {symbol : Symbol} {s : Bytes} (h : Derives Char symbol s) : 0xFF ∉ s := by
  induction h with
  | litNull | litTrue | litFalse => decide
  | number n h => exact h.ne_ff
  | string s h => exact h.ne_ff
  | emptyObject w hw | emptyArray w hw => simpa using hw.ne_ff
  | object ms h ih | array es h ih => simpa using ih
  | member w₁ k w₂ w₃ v w₄ h₁ hk h₂ h₃ hv h₄ ih =>
    simp [h₁.ne_ff, hk.ne_ff, h₂.ne_ff, h₃.ne_ff, h₄.ne_ff, ih]
  | moreMembers w₁ k w₂ w₃ v w₄ ms h₁ hk h₂ h₃ hv h₄ hm ih ihm =>
    simp [h₁.ne_ff, hk.ne_ff, h₂.ne_ff, h₃.ne_ff, h₄.ne_ff, ih, ihm]
  | element w₁ v w₂ h₁ hv h₂ ih => simp [h₁.ne_ff, h₂.ne_ff, ih]
  | moreElements w₁ v w₂ es h₁ hv h₂ he ih ihe => simp [h₁.ne_ff, h₂.ne_ff, ih, ihe]

/-- The byte 0xFF stands in no text in UTF-8. -/
theorem Text.ne_ff {s : Bytes} (h : Text s) : 0xFF ∉ s := by
  obtain ⟨w₁, v, w₂, h₁, hv, h₂, rfl⟩ := h
  simp [h₁.ne_ff, hv.ne_ff, h₂.ne_ff]

end Rfc8259

end Utf8

/-! ## Compact text -/

section Compact

mutual

/-- A compact text does not depend on the depth. -/
theorem dumpTo_compact : (v : Value) → (i j : Nat) → v.dumpTo false i = v.dumpTo false j
  | .null, _, _ | .bool _, _, _ | .int _, _, _ | .double _, _, _ | .string _, _, _ => rfl
  | .array items, i, j => by
    rw [Value.dumpTo, Value.dumpTo, dumpItems_compact items i j true]
    rfl
  | .object members, i, j => by
    rw [Value.dumpTo, Value.dumpTo, dumpMembers_compact members i j true]
    rfl

theorem dumpItems_compact : (vs : List Value) → (i j : Nat) → (first : Bool) →
    dumpItems false i first vs = dumpItems false j first vs
  | [], _, _, _ => rfl
  | v :: vs, i, j, first => by
    rw [dumpItems, dumpItems, dumpTo_compact v (i + 1) (j + 1), dumpItems_compact vs i j false]
    rfl

theorem dumpMembers_compact : (ms : List (Bytes × Value)) → (i j : Nat) → (first : Bool) →
    dumpMembers false i first ms = dumpMembers false j first ms
  | [], _, _, _ => rfl
  | (k, v) :: ms, i, j, first => by
    rw [dumpMembers, dumpMembers, dumpTo_compact v (i + 1) (j + 1), dumpMembers_compact ms i j false]
    rfl

end

/-- One more item at the end. -/
theorem dumpItems_concat (vs : List Value) (v : Value) (first : Bool) : dumpItems false 0 first (vs ++ [v]) =
    dumpItems false 0 first vs ++ (if first && vs.isEmpty then [] else [44]) ++ v.dump false := by
  induction vs generalizing first with
  | nil =>
    simp [dumpItems, lineBreak, Value.dump, dumpTo_compact v 1 0]
  | cons u vs ih =>
    rw [List.cons_append, dumpItems, dumpItems, ih false]
    simp

end Compact

/-! ## Lines -/

section Printable

/-- Without control characters. -/
def Printable (s : Bytes) : Prop := ∀ c ∈ s, 32 ≤ c

instance (s : Bytes) : Decidable (Printable s) := List.decidableBAll _ s

theorem printable_append {s t : Bytes} : Printable (s ++ t) ↔ Printable s ∧ Printable t := by
  simp only [Printable, List.mem_append]
  exact ⟨fun h => ⟨fun c hc => h c (Or.inl hc), fun c hc => h c (Or.inr hc)⟩,
    fun h c hc => hc.elim (h.1 c) (h.2 c)⟩

theorem printable_toText (i : Int64) : Printable (toText i) := by
  have hdec : Printable (decimal i.toInt.natAbs) := by
    intro c hc
    have := isDigit_decimal hc
    simp only [isDigit, decide_eq_true_eq] at this
    exact UInt8.le_trans (by decide) this.1
  unfold toText
  split
  · intro c hc
    rcases List.mem_cons.mp hc with rfl | hc
    · decide
    · exact hdec c hc
  · exact hdec

theorem printable_escapeByte (c : UInt8) : Printable (escapeByte c) := by
  unfold escapeByte
  split_ifs with h₁ h₂ h₃ h₄ h₅ h₆ h₇ h₈
  all_goals try decide
  · have hc : c.toNat < 32 := UInt8.lt_iff_toNat_lt.mp h₈
    have hhex (d : Nat) (hd : d < 16) : 32 ≤ hexDigit d := by interval_cases d <;> decide
    simp [Printable, unicodeEscape, hhex (c.toNat / 16) (by omega), hhex (c.toNat % 16) (by omega)]
  · simpa [Printable] using UInt8.not_lt.mp h₈

theorem printable_quoted (s : Bytes) : Printable (quoted s) := by
  intro c hc
  simp only [quoted, escape, List.cons_append, List.mem_cons, List.mem_append, List.mem_flatMap, List.not_mem_nil,
    or_false] at hc
  rcases hc with rfl | ⟨b, -, hb⟩ | rfl
  · decide
  · exact printable_escapeByte b c hb
  · decide

mutual

theorem printable_value : (v : Value) → v.Plain → (indent : Nat) → Printable (v.dumpTo false indent)
  | .null, _, _ => by simp only [Value.dumpTo]; decide
  | .bool b, _, _ => by cases b <;> simp only [Value.dumpTo] <;> decide
  | .int i, _, _ => printable_toText i
  | .double d, h, _ => by simp [Value.Plain, Value.all, plain, Value.isDouble] at h
  | .string s, _, _ => printable_quoted s
  | .array items, h, indent => by
    simp only [Value.Plain, Value.all, Bool.and_eq_true] at h
    have hitems := printable_items items h.2 indent true
    simp only [Printable] at hitems
    simp [Value.dumpTo, Printable, lineBreak, or_imp, forall_and]
    exact hitems
  | .object members, h, indent => by
    simp only [Value.Plain, Value.all, Bool.and_eq_true] at h
    have hmembers := printable_members members h.2 indent true
    simp only [Printable] at hmembers
    simp [Value.dumpTo, Printable, lineBreak, or_imp, forall_and]
    exact hmembers

theorem printable_items : (vs : List Value) → allItems plain vs = true → (indent : Nat) → (first : Bool) →
    Printable (dumpItems false indent first vs)
  | [], _, _, _ => by simp [dumpItems, Printable]
  | v :: vs, h, indent, first => by
    simp only [allItems, Bool.and_eq_true] at h
    simp only [dumpItems, printable_append]
    refine ⟨⟨⟨?_, ?_⟩, printable_value v h.1 (indent + 1)⟩, printable_items vs h.2 indent false⟩
    · cases first <;> simp [Printable]
    · simp [lineBreak, Printable]

theorem printable_members : (ms : List (Bytes × Value)) → allMembers plain ms = true → (indent : Nat) →
    (first : Bool) → Printable (dumpMembers false indent first ms)
  | [], _, _, _ => by simp [dumpMembers, Printable]
  | (k, v) :: ms, h, indent, first => by
    simp only [allMembers, Bool.and_eq_true] at h
    simp only [dumpMembers, printable_append]
    refine ⟨⟨⟨⟨⟨⟨?_, ?_⟩, printable_quoted k⟩, ?_⟩, ?_⟩, printable_value v h.1 (indent + 1)⟩,
      printable_members ms h.2 indent false⟩
    · cases first <;> simp [Printable]
    · simp [lineBreak, Printable]
    · simp [Printable]
    · simp [Printable]

end

theorem Value.Plain.dump_printable {v : Value} (h : v.Plain) : Printable (v.dump false) := printable_value v h 0

/-- The compact text of a value is one line. -/
theorem Value.Plain.newline_not_mem {v : Value} (h : v.Plain) : 10 ∉ v.dump false := by
  intro hmem
  exact absurd (h.dump_printable 10 hmem) (by decide)

/-- The text of an object stands between its brackets. -/
theorem dump_ends {v : Value} (h : v.isObject = true) :
    (v.dump false).head? = some 123 ∧ (v.dump false).getLast? = some 125 := by
  cases v with
  | object members =>
    simp only [Value.dump, Value.dumpTo]
    exact ⟨rfl, List.getLast?_append_of_ne_nil _ (by simp)⟩
  | _ => cases h

end Printable

end Exasphere.Json

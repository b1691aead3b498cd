import Exasphere.Qa.AuditLedger
import Exasphere.Qa.MicrovmReport

/-!
# The report writer against the ledger checker

What `writeRollbackOutputs` writes is read back by `validateLedger`: the record with its ids, paths and hashes, and the
snapshot with the texts of the guest. The ids have the form the checker asks for and no path holds a word it takes for a
secret, so that the record passes; the snapshot passes exactly if none of its texts is empty.
-/

namespace Exasphere.Qa.Microvm

open Exasphere.Lib Exasphere.Py AuditLedger

variable {b : Builtins}

/-! ## Words that look like secrets -/

section Secrets

theorem likeLetter_lt {c d : Nat} (hc : c < 128) (h : Re.likeLetter c d = true) : d < 0xD800 := by
  simp only [Re.likeLetter, Bool.or_eq_true, Bool.and_eq_true, decide_eq_true_eq] at h
  omega

/-- The pattern reads letters, `_` and `-` only. -/
theorem secretRe_within {p : Nat → Bool} (hp : ∀ c d, 97 ≤ c → c ≤ 122 → Re.likeLetter c d = true → p d = true)
    (hmarks : p 95 = true ∧ p 45 = true) : secretRe.Within p := by
  have hlit : ∀ s : String, (∀ c ∈ str s, 97 ≤ c ∧ c ≤ 122) → (Re.litI s).Within p := by
    intro s hs
    exact Re.within_ofStr (fun c hc d hd => hp c d (hs c hc).1 (hs c hc).2 hd)
  refine ⟨hlit _ (by decide), hlit _ (by decide), hlit _ (by decide), hlit _ (by decide), hlit _ (by decide),
    ⟨?_, trivial⟩,
    hlit _ (by decide)⟩
  intro c hc
  have hcases : c = 95 ∨ c = 45 := by
    have hstr : str "_-" = [95, 45] := by decide
    simpa [Re.oneOf, hstr] using hc
  rcases hcases with rfl | rfl
  · exact hmarks.1
  · exact hmarks.2

/-- A character that is one of the letters up to case. -/
def isLetterOf (letters : Str) (c : Nat) : Bool := letters.any (fun l => Re.likeLetter l c)

theorem needs_litI {s : String} {letters : Str} (h : ∃ l ∈ letters, l ∈ str s) :
    (Re.litI s).Needs (isLetterOf letters) := by
  obtain ⟨l, hl, hs⟩ := h
  refine (Re.needs_ofStr hs).mono ?_
  intro c hc
  exact List.any_eq_true.mpr ⟨l, hl, hc⟩

/-- A text without a `p` and without another letter of each word holds no secret-like word. -/
theorem search_secretRe (letters : Str) {s : Str} (h1 : ∃ l ∈ letters, l ∈ str "secret")
    (h2 : ∃ l ∈ letters, l ∈ str "password") (h3 : ∃ l ∈ letters, l ∈ str "token")
    (h4 : ∃ l ∈ letters, l ∈ str "authorization") (h5 : ∃ l ∈ letters, l ∈ str "api")
    (hs : ∀ c ∈ s, isLetterOf letters c = false) : secretRe.search s = false := by
  have hneeds : secretRe.Needs (isLetterOf letters) :=
    ⟨needs_litI h1, needs_litI h2, needs_litI h3, needs_litI h4, Or.inl (needs_litI h5)⟩
  exact Re.search_of_needs hneeds hs

/-- The characters of an audit id and of a digest: hexadecimal digits, the letters of `AUD-`, `T` and `Z-`. -/
def isIdentChar (c : Nat) : Bool := isHex c || [65, 85, 68, 45, 84, 90].contains c

theorem search_ident {s : Str} (hs : ∀ c ∈ s, isIdentChar c = true) : secretRe.search s = false := by
  -- each word has an `r`, an `o` or a `p`
  refine search_secretRe [114, 111, 112] (by decide) (by decide) (by decide) (by decide) (by decide) ?_
  intro c hc
  have hrange : c ≤ 102 := by
    have h := hs c hc
    simp only [isIdentChar, isHex, Bool.or_eq_true, decide_eq_true_eq, List.contains_eq_mem, List.mem_cons,
      List.not_mem_nil, or_false] at h
    omega
  have hnot : c ≠ 82 ∧ c ≠ 79 ∧ c ≠ 80 := by
    refine ⟨?_, ?_, ?_⟩ <;> (rintro rfl; exact absurd (hs _ hc) (by decide))
  simp only [isLetterOf, List.any_cons, List.any_nil, Re.likeLetter, Bool.or_eq_false_iff, Bool.and_eq_false_iff,
    decide_eq_false_iff_not, Bool.or_false]
  omega

end Secrets

/-! ## Ids -/

section Ids

theorem length_pad (width n : Nat) : (pad width n).length = width := by
  induction width generalizing n with
  | zero => rfl
  | succ width ih => simp [pad, ih]

theorem isDigit_pad {width n c : Nat} (h : c ∈ pad width n) : Py.isDigit c = true := by
  induction width generalizing n with
  | zero => cases h
  | succ width ih =>
    rcases List.mem_append.mp h with h | h
    · exact ih h
    · rw [List.mem_singleton.mp h]
      simp only [Py.isDigit, decide_eq_true_eq]
      omega

/-- The date and the time of a stamp. -/
theorem stamp_eq (clock : Clock) :
    ∃ date time : Str, clock.stamp = date ++ str "T" ++ time ++ str "Z" ∧ date.length = 8 ∧
    time.length = 6 ∧ (∀ c ∈ date, Py.isDigit c = true) ∧ ∀ c ∈ time, Py.isDigit c = true := by
  refine ⟨pad 4 clock.year ++ pad 2 clock.month ++ pad 2 clock.day,
    pad 2 clock.hour ++ pad 2 clock.minute ++ pad 2 clock.second, by simp [Clock.stamp], by simp [length_pad],
    by simp [length_pad], ?_, ?_⟩
  · intro c hc
    simp only [List.mem_append] at hc
    rcases hc with (hc | hc) | hc <;> exact isDigit_pad hc
  · intro c hc
    simp only [List.mem_append] at hc
    rcases hc with (hc | hc) | hc <;> exact isDigit_pad hc

/-- The text of an audit id. -/
structure IsAuditId (s : Str) : Prop where
  matched : auditRe.matchStart s = true
  chars : ∀ c ∈ s, isIdentChar c = true
  head : s.head? = some 65

theorem isAuditId_of_parts {date time commit suffix : Str} (hdate : date.length = 8 ∧ ∀ c ∈ date, Py.isDigit c = true)
    (htime : time.length = 6 ∧ ∀ c ∈ time, Py.isDigit c = true)
    (hcommit : commit.length = 7 ∧ ∀ c ∈ commit, isHex c = true)
    (hsuffix : suffix.length = 6 ∧ ∀ c ∈ suffix, isHex c = true) :
    IsAuditId (str "AUD-" ++ (date ++ (str "T" ++ (time ++ (str "Z-" ++ (commit ++ (str "-" ++ suffix))))))) := by
  have hdigit : ∀ c, Py.isDigit c = true → isIdentChar c = true := by
    intro c hc
    simp only [Py.isDigit, isIdentChar, isHex, decide_eq_true_eq, Bool.or_eq_true] at hc ⊢
    exact Or.inl (Or.inl hc)
  have hhex : ∀ c, isHex c = true → isIdentChar c = true := by
    intro c hc
    simp [isIdentChar, hc]
  have hrun : ∀ {p : Nat → Bool} {s : Str} {n : Nat}, s.length = n ∧ (∀ c ∈ s, p c = true) →
      (Re.exactly p n).Reads s := by
    rintro p s n ⟨rfl, hs⟩
    exact Re.reads_run hs le_rfl (by simp)
  have hcommitRun : (Re.run isHex 7 (some 12)).Reads commit := Re.reads_run hcommit.2 hcommit.1.ge (by simp [hcommit.1])
  have hlast : (Re.seq (.exactly isHex 6) .finish).ReadsAll suffix := by
    have hall := (hrun hsuffix).all Re.readsAll_finish
    rwa [List.append_nil] at hall
  have hall := (Re.reads_lit "AUD-").all ((hrun hdate).all ((Re.reads_lit "T").all ((hrun htime).all
    ((Re.reads_lit "Z-").all (hcommitRun.all ((Re.reads_lit "-").all hlast))))))
  refine ⟨?_, ?_, ?_⟩
  · obtain ⟨e, he⟩ := hall none
    have hstart : ∀ s : Str, (⟨none, s⟩ : Pos) ∈ Re.start.ends ⟨none, s⟩ := fun s => by simp [Re.ends]
    exact Re.matchStart_of_mem (Re.mem_ends_seq (hstart _) he)
  · intro c hc
    have hlit : ∀ s : String, (∀ c ∈ str s, isIdentChar c = true) → c ∈ str s → isIdentChar c = true := fun _ h => h c
    simp only [List.mem_append] at hc
    rcases hc with hc | hc | hc | hc | hc | hc | hc | hc
    · exact hlit _ (by decide) hc
    · exact hdigit c (hdate.2 c hc)
    · exact hlit _ (by decide) hc
    · exact hdigit c (htime.2 c hc)
    · exact hlit _ (by decide) hc
    · exact hhex c (hcommit.2 c hc)
    · exact hlit _ (by decide) hc
    · exact hhex c (hsuffix.2 c hc)
  · have hhead : (str "AUD-").head? = some 65 := by decide
    rw [List.head?_append, hhead]
    rfl

variable {env : ReportEnv} {clock : Clock} {rows : ReportRows} {ids : ReportIds}

/-- What `report_ids` makes of a commit in hexadecimal digits. -/
theorem reportIds_ok (hsha : 7 ≤ env.gitSha.length ∧ ∀ c ∈ env.gitSha, isHex c = true)
    (h : reportIds b env clock rows = .ok ids) : IsAuditId ids.auditId ∧
      ids.rollbackId = str "RB-microvm-live-" ++ (rows.register.get "id").toStr b ∧
      ids.activeTarget = textOr b (rows.staleRefusal.get "active_target")
        "/sys/fs/cgroup/zig-scheduler-lab.slice/demo.scope" := by
  simp only [reportIds, bind_eq_ok] at h
  obtain ⟨data, -, hids⟩ := h
  obtain rfl := Except.ok.inj hids
  refine ⟨?_, rfl, rfl⟩
  obtain ⟨date, time, hstamp, hdate, htime, hdate', htime'⟩ := stamp_eq clock
  have hcommit : (env.gitSha.take 7).length = 7 ∧ ∀ c ∈ env.gitSha.take 7, isHex c = true :=
    ⟨by simp [hsha.1], fun c hc => hsha.2 c (List.mem_of_mem_take hc)⟩
  have hsuffix : ((sha256 data).take 6).length = 6 ∧ ∀ c ∈ (sha256 data).take 6, isHex c = true :=
    ⟨by simp [length_sha256], fun c hc => isHex_sha256 (List.mem_of_mem_take hc)⟩
  have hparts := isAuditId_of_parts ⟨hdate, hdate'⟩ ⟨htime, htime'⟩ hcommit hsuffix
  have hdash : str "Z-" = str "Z" ++ str "-" := by decide
  rw [hdash] at hparts
  rw [hstamp]
  simpa using hparts

theorem reportIds_exists : (∃ ids, reportIds b env clock rows = .ok ids) ↔
    ∀ c ∈ env.gitSha ++ env.objectSha ++ (rows.register.get "id").toStr b, isSurrogate c = false := by
  rw [← encode_ok_iff]
  exact exists_map_ok_iff

/-- The text of an integer: `bool` is a subclass of `int`. -/
theorem toStr_integer {v : Value} {i : Int} (h : v.asInt? = some i) : v.toStr b = strInt i ∨ v.toStr b = str "True" ∨
    v.toStr b = str "False" := by
  cases v with
  | int j => exact Or.inl (by simpa [Value.asInt?, Value.toStr, Value.repr] using congrArg strInt (Option.some.inj h))
  | bool x => cases x <;> simp [Value.toStr, Value.repr]
  | none | float | str | list | dict => simp [Value.asInt?] at h

theorem chars_strInt {i : Int} {c : Nat} (h : c ∈ strInt i) : Py.isDigit c = true ∨ c = 45 := by
  unfold strInt at h
  split at h
  · rcases List.mem_cons.mp h with rfl | h
    · exact Or.inr rfl
    · exact Or.inl (isDigit_strNat h)
  · exact Or.inl (isDigit_strNat h)

theorem search_rollbackId {v : Value} {i : Int} (h : v.asInt? = some i) :
    secretRe.search (str "RB-microvm-live-" ++ v.toStr b) = false := by
  rcases toStr_integer (b := b) h with h | h | h
  · rw [h]
    -- each word has a `t` or a `p`
    refine search_secretRe [116, 112] (by decide) (by decide) (by decide) (by decide) (by decide) ?_
    intro c hc
    rcases List.mem_append.mp hc with hc | hc
    · have hlit : ∀ c ∈ str "RB-microvm-live-", isLetterOf [116, 112] c = false := by decide
      exact hlit c hc
    · have hrange : c ≤ 57 := by
        rcases chars_strInt hc with hc | rfl
        · simp only [Py.isDigit, decide_eq_true_eq] at hc
          exact hc.2
        · decide
      simp only [isLetterOf, List.any_cons, List.any_nil, Re.likeLetter, Bool.or_eq_false_iff, Bool.and_eq_false_iff,
        decide_eq_false_iff_not, Bool.or_false]
      omega
  · rw [h]
    decide
  · rw [h]
    decide

end Ids

/-! ## Paths -/

section Paths

/-- A search does not see across a slash or a dot. -/
theorem search_across {s t : Str} {c : Nat} (hc : c = 47 ∨ c = 46) :
    secretRe.search (s ++ c :: t) = (secretRe.search s || secretRe.search t) := by
  have hwithin : secretRe.Within (fun c => decide (c ≠ 47 ∧ c ≠ 46)) := by
    refine secretRe_within ?_ (by decide)
    intro c d hlow hhigh h
    simp only [Re.likeLetter, Bool.or_eq_true, Bool.and_eq_true, decide_eq_true_eq] at h ⊢
    omega
  refine Re.search_append hwithin ?_
  rcases hc with rfl | rfl <;> decide

theorem search_join (ns : List Str) : secretRe.search (join [47] ns) = ns.any secretRe.search := by
  induction ns with
  | nil => decide
  | cons n ns ih =>
    cases ns with
    | nil => simp [join, List.intercalate]
    | cons m ns =>
      have hjoin : join [47] (n :: m :: ns) = n ++ 47 :: join [47] (m :: ns) := by simp [join, List.intercalate]
      rw [hjoin, search_across (Or.inl rfl), ih]
      rfl

/-- A path looks like a secret exactly if one of its names does. -/
theorem search_asPosix (p : Path) : secretRe.search p.asPosix = p.names.any secretRe.search := by
  unfold Path.asPosix
  split
  next h =>
    rw [h.2]
    decide
  next =>
    have hslash : ∀ t : Str, secretRe.search (47 :: t) = secretRe.search t := by
      intro t
      have hcons := search_across (s := []) (t := t) (c := 47) (Or.inl rfl)
      rwa [List.nil_append, show secretRe.search [] = false by decide, Bool.false_or] at hcons
    cases p.root with
    | relative => exact search_join p.names
    | slash => exact (hslash _).trans (search_join p.names)
    | slashes => exact (hslash _).trans ((hslash _).trans (search_join p.names))

theorem isOsText_asPosix {p : Path} (h : ∀ n ∈ p.names, IsOsText n) : IsOsText p.asPosix := by
  have hsmall : ∀ c : Nat, c < 128 → c < 0x110000 ∧ isHighSurrogate c = false := by
    intro c hc
    refine ⟨by omega, ?_⟩
    simp only [isHighSurrogate, decide_eq_false_iff_not]
    omega
  have hjoin : ∀ ns : List Str, (∀ n ∈ ns, IsOsText n) → IsOsText (join [47] ns) := by
    intro ns
    induction ns with
    | nil => exact fun _ c hc => absurd hc List.not_mem_nil
    | cons n ns ih =>
      intro hns
      have hn : IsOsText n := hns n (by simp)
      have htail : IsOsText (join [47] ns) := ih (fun m hm => hns m (by simp [hm]))
      cases ns with
      | nil => simpa [join, List.intercalate] using hn
      | cons m ns =>
        have heq : join [47] (n :: m :: ns) = n ++ 47 :: join [47] (m :: ns) := by simp [join, List.intercalate]
        rw [heq]
        intro c hc
        rcases List.mem_append.mp hc with hc | hc
        · exact hn c hc
        · rcases List.mem_cons.mp hc with rfl | hc
          · exact hsmall _ (by decide)
          · exact htail c hc
  unfold Path.asPosix
  split
  · intro c hc
    rw [List.mem_singleton.mp hc]
    exact hsmall _ (by decide)
  · intro c hc
    rcases List.mem_append.mp hc with hc | hc
    · have hroot : ∀ root : Root, ∀ c ∈ root.text, c = 47 := by
        intro root
        cases root <;> simp [Root.text]
      rw [hroot p.root c hc]
      exact hsmall _ (by decide)
    · exact hjoin p.names h c hc

/-- The name of a file that starts with an audit id. -/
theorem isName_auditId {s t : Str} (hs : IsAuditId s) (ht : 47 ∉ t) : IsName (s ++ t) := by
  obtain ⟨c, s, rfl⟩ : ∃ c u, s = c :: u := by
    cases s with
    | nil => cases hs.head
    | cons c s => exact ⟨c, s, rfl⟩
  obtain rfl : c = 65 := by simpa using hs.head
  refine ⟨by simp, by simp, ?_⟩
  intro hmem
  rcases List.mem_append.mp hmem with hmem | hmem
  · have hslash := hs.chars 47 hmem
    revert hslash
    decide
  · exact ht hmem

theorem div_inj {p : Path} {n m : Str} (hn : IsName n) (hm : IsName m) (h : p.div n = p.div m) : n = m := by
  have hnames := congrArg Path.names h
  rw [(Path.div_names hn).2, (Path.div_names hm).2] at hnames
  simpa using hnames

end Paths

/-! ## Written files -/

section Outputs

variable {rows : ReportRows} {lines : SerialLines} {ids : ReportIds} {fs : Files} {dir : Path}

/-- The four files are different ones. -/
theorem rollbackOutputs_ne (dir : Path) (h : IsAuditId ids.auditId) :
    let outputs := rollbackOutputs dir ids
    outputs.snapshot ≠ outputs.transcript ∧ outputs.snapshot ≠ outputs.refusals ∧ outputs.snapshot ≠ outputs.ledger ∧
      outputs.transcript ≠ outputs.refusals ∧ outputs.transcript ≠ outputs.ledger := by
  have hsnapshot : IsName (ids.auditId ++ str ".rollback-snapshot.json") := isName_auditId h (by decide)
  have htranscript : IsName (ids.auditId ++ str ".rollback-transcript.txt") := isName_auditId h (by decide)
  have hrefusals : IsName (str "rollback-refusals.jsonl") := by decide
  have hledger : IsName (str "audit-ledger.jsonl") := by decide
  -- a name that starts with the id is no name in small letters
  have hhead : ∀ s t : Str, t.head? ≠ some 65 → ids.auditId ++ s ≠ t := by
    intro s t ht heq
    apply ht
    rw [← heq, List.head?_append, h.head]
    rfl
  refine ⟨?_, ?_, ?_, ?_, ?_⟩
  · intro heq
    have hsame := List.append_cancel_left (div_inj hsnapshot htranscript heq)
    revert hsame
    decide
  · exact fun heq => hhead _ _ (by decide) (div_inj hsnapshot hrefusals heq)
  · exact fun heq => hhead _ _ (by decide) (div_inj hsnapshot hledger heq)
  · exact fun heq => hhead _ _ (by decide) (div_inj htranscript hrefusals heq)
  · exact fun heq => hhead _ _ (by decide) (div_inj htranscript hledger heq)

/-- The line of the snapshot. -/
def snapshotLine (b : Builtins) (rows : ReportRows) (ids : ReportIds) : Str :=
  dumps b (.dict (texts (rollbackSnapshotPayload b rows ids)))

/-- The line of the ledger. -/
def ledgerLine (b : Builtins) (dir : Path) (rows : ReportRows) (ids : ReportIds) (transcript : Bytes) : Str :=
  dumps b (.dict (texts (ledgerRecord (rollbackOutputs dir ids) ids (sha256 (lineBytes (snapshotLine b rows ids)))
    (sha256 transcript))))

/-- What the files hold once they are written. -/
structure Written (b : Builtins) (dir : Path) (rows : ReportRows) (ids : ReportIds) (data : Bytes) (fs : Files) :
    Prop where
  snapshot : fs (rollbackOutputs dir ids).snapshot = some (lineBytes (snapshotLine b rows ids))
  transcript : fs (rollbackOutputs dir ids).transcript = some data
  ledger : fs (rollbackOutputs dir ids).ledger = some (lineBytes (ledgerLine b dir rows ids data))

theorem rollbackRefusalRows_ok (b : Builtins) (lines : SerialLines) (ids : ReportIds) {rc : Int}
    (hrc : (rows.duplicateRefusal.get "rc").asInt? = some rc) :
    ∃ first second, rollbackRefusalRows b rows lines ids = .ok (.dict first, .dict second) ∧
      (∀ e ∈ first, Flat e.2) ∧ ∀ e ∈ second, Flat e.2 := by
  have hint : ∃ i, intOf
      (if rows.duplicateRefusal.has "rc" then rows.duplicateRefusal.get "rc" else .int 1) = .ok i := by
    split
    · exact ⟨rc, by rw [intOf, hrc]⟩
    · exact ⟨1, rfl⟩
  obtain ⟨i, hi⟩ := hint
  refine ⟨_, _, by rw [rollbackRefusalRows, hi, ok_bind]; rfl, ?_, ?_⟩
  · intro e he
    simp only [List.map_cons, List.map_nil, List.mem_cons, List.not_mem_nil, or_false, word] at he
    rcases he with rfl | rfl | rfl | rfl | rfl | rfl | rfl | rfl | rfl | rfl <;> constructor
  · intro e he
    simp only [List.map_cons, List.map_nil, List.mem_cons, List.not_mem_nil, or_false, word] at he
    rcases he with rfl | rfl | rfl | rfl | rfl | rfl | rfl | rfl | rfl | rfl <;> constructor

/-- The transcript of written outputs was encoded. -/
theorem encode_of_writeRollbackOutputs {result : RollbackOutputs × Files}
    (h : writeRollbackOutputs b dir rows lines ids fs = .ok result) :
    ∃ data, encode (rollbackTranscript b rows ids) = .ok data := by
  simp only [writeRollbackOutputs, bind_eq_ok] at h
  obtain ⟨fs₁, -, fs₂, h₂, -⟩ := h
  obtain ⟨data, hdata, -⟩ := bind_eq_ok.mp h₂
  exact ⟨data, hdata⟩

/-- A transcript that can be encoded is written, and the other files with it. -/
theorem exists_writeRollbackOutputs (dir : Path) (lines : SerialLines) (fs : Files)
    (haudit : IsAuditId ids.auditId) {rc : Int}
    (hrc : (rows.duplicateRefusal.get "rc").asInt? = some rc) {data : Bytes}
    (hdata : encode (rollbackTranscript b rows ids) = .ok data) :
    ∃ fs', writeRollbackOutputs b dir rows lines ids fs = .ok (rollbackOutputs dir ids, fs') ∧
      Written b dir rows ids data fs' := by
  have hsnapshot : Printable (snapshotLine b rows ids) := printable_dumps flat_texts
  have hledger : Printable (ledgerLine b dir rows ids data) := printable_dumps flat_texts
  obtain ⟨first, second, hrefusals, hfirst, hsecond⟩ := rollbackRefusalRows_ok b lines ids hrc
  obtain ⟨hST, hSR, hSL, hTR, hTL⟩ := rollbackOutputs_ne dir haudit
  let outputs := rollbackOutputs dir ids
  let fs₁ := Function.update fs outputs.snapshot (some (lineBytes (snapshotLine b rows ids)))
  let fs₂ := Function.update fs₁ outputs.transcript (some data)
  let refusals := dumps b (.dict first) ++ [10] ++ dumps b (.dict second) ++ [10]
  let fs₃ := Function.update fs₂ outputs.refusals (some (refusals.map UInt8.ofNat))
  have h₁ : fs.writeText outputs.snapshot (snapshotLine b rows ids ++ [10]) = .ok fs₁ := writeText_line hsnapshot
  have h₂ : Files.writeText fs₁ outputs.transcript (rollbackTranscript b rows ids) = .ok fs₂ := by
    rw [Files.writeText, hdata]
    rfl
  have h₃ : Files.writeText fs₂ outputs.refusals refusals = .ok fs₃ := by
    refine writeText_ascii ?_
    intro c hc
    change c ∈ dumps b (.dict first) ++ [10] ++ dumps b (.dict second) ++ [10] at hc
    rw [List.append_assoc] at hc
    rcases List.mem_append.mp hc with hc | hc
    · exact (printable_dumps hfirst).ascii c hc
    · exact (printable_dumps hsecond).ascii c hc
  have hfs₃S : fs₃ outputs.snapshot = some (lineBytes (snapshotLine b rows ids)) :=
    (Function.update_of_ne hSR _ _).trans ((Function.update_of_ne hST _ _).trans (Function.update_self _ _ _))
  have hfs₃T : fs₃ outputs.transcript = some data :=
    (Function.update_of_ne hTR _ _).trans (Function.update_self _ _ _)
  have hshaS : sha fs₃ outputs.snapshot = .ok (sha256 (lineBytes (snapshotLine b rows ids))) := by
    rw [sha, Files.readBytes, hfs₃S]
    rfl
  have hshaT : sha fs₃ outputs.transcript = .ok (sha256 data) := by
    rw [sha, Files.readBytes, hfs₃T]
    rfl
  have h₄ : Files.writeText fs₃ outputs.ledger (ledgerLine b dir rows ids data ++ [10]) =
      .ok (Function.update fs₃ outputs.ledger (some (lineBytes (ledgerLine b dir rows ids data)))) :=
        writeText_line hledger
  refine ⟨Function.update fs₃ outputs.ledger (some (lineBytes (ledgerLine b dir rows ids data))), ?_, ?_, ?_, ?_⟩
  · unfold writeRollbackOutputs
    change (fs.writeText outputs.snapshot (snapshotLine b rows ids ++ [10]) >>= _) = _
    rw [h₁, ok_bind, h₂, ok_bind, hrefusals, ok_bind]
    change (Files.writeText fs₂ outputs.refusals refusals >>= _) = _
    rw [h₃, ok_bind, hshaS, ok_bind, hshaT, ok_bind]
    change (Files.writeText fs₃ outputs.ledger (ledgerLine b dir rows ids data ++ [10]) >>= _) = _
    rw [h₄, ok_bind]
  · exact (Function.update_of_ne hSL _ _).trans hfs₃S
  · exact (Function.update_of_ne hTL _ _).trans hfs₃T
  · exact Function.update_self _ _ _

end Outputs

/-! ## The checker on written files -/

section Checked

/-- A text that the checker lets through and that is reread as it is. -/
structure Plain (s : Str) : Prop where
  osText : IsOsText s
  clean : Clean s

theorem isOsText_of_lt {s : Str} (h : ∀ c ∈ s, c < 256) : IsOsText s := by
  intro c hc
  have hlt := h c hc
  refine ⟨by omega, ?_⟩
  simp only [isHighSurrogate, decide_eq_false_iff_not]
  omega

theorem isIdentChar_lt {c : Nat} (h : isIdentChar c = true) : c < 256 := by
  simp only [isIdentChar, isHex, Bool.or_eq_true, decide_eq_true_eq, List.contains_eq_mem, List.mem_cons,
    List.not_mem_nil,
    or_false] at h
  omega

theorem plain_ident {s : Str} (hne : s ≠ []) (h : ∀ c ∈ s, isIdentChar c = true) : Plain s :=
  ⟨isOsText_of_lt (fun c hc => isIdentChar_lt (h c hc)), hne, search_ident h⟩

theorem IsAuditId.plain {s : Str} (h : IsAuditId s) : Plain s := by
  refine plain_ident ?_ h.chars
  rintro rfl
  cases h.head

theorem plain_sha256 (data : Bytes) : Plain (sha256 data) := by
  refine plain_ident ?_ ?_
  · intro h
    have hlength := length_sha256 data
    rw [h] at hlength
    cases hlength
  · intro c hc
    have hhex : isHex c = true := isHex_sha256 hc
    simp [isIdentChar, hhex]

theorem plain_str {s : String} (h : Clean (str s)) : Plain (str s) := ⟨isOsText_of_lt (fun _ => lt_of_mem_str), h⟩

theorem lt_of_mem_integer {v : Value} {i : Int} (h : v.asInt? = some i) {c : Nat} (hc : c ∈ v.toStr b) : c < 256 := by
  rcases toStr_integer (b := b) h with h | h | h
  · rw [h] at hc
    rcases chars_strInt hc with hc | rfl
    · simp only [Py.isDigit, decide_eq_true_eq] at hc
      omega
    · decide
  · rw [h] at hc
    exact lt_of_mem_str hc
  · rw [h] at hc
    exact lt_of_mem_str hc

theorem plain_rollbackId {v : Value} {i : Int} (h : v.asInt? = some i) :
    Plain (str "RB-microvm-live-" ++ v.toStr b) := by
  refine ⟨isOsText_of_lt ?_, by simp [show str "RB-microvm-live-" ≠ [] by decide], search_rollbackId h⟩
  intro c hc
  rcases List.mem_append.mp hc with hc | hc
  · exact lt_of_mem_str hc
  · exact lt_of_mem_integer h hc

/-- The text of a file of the report. -/
theorem plain_path {out : Path} {n : Str} (hout : secretRe.search out.asPosix = false)
    (hos : ∀ m ∈ out.names, IsOsText m)
    (hname : IsName n) (hn : IsOsText n) (hsecret : secretRe.search n = false) :
    Plain ((rollbackDir out).div n).asPosix := by
  have hdrill : IsName (str "rollback-drill") := by decide
  have hnames : ((rollbackDir out).div n).names = out.names ++ [str "rollback-drill"] ++ [n] := by
    rw [(Path.div_names hname).2, rollbackDir, (Path.div_names hdrill).2]
  have hall : ∀ m ∈ ((rollbackDir out).div n).names, IsOsText m ∧ secretRe.search m = false := by
    intro m hm
    rw [hnames] at hm
    simp only [List.mem_append, List.mem_singleton] at hm
    rcases hm with (hm | rfl) | rfl
    · rw [search_asPosix, List.any_eq_false] at hout
      exact ⟨hos m hm, by simpa using hout m hm⟩
    · exact ⟨isOsText_of_lt (fun _ => lt_of_mem_str), by decide⟩
    · exact ⟨hn, hsecret⟩
  refine ⟨isOsText_asPosix (fun m hm => (hall m hm).1), ?_, ?_⟩
  · intro hnil
    have hparse := Path.parse_asPosix ((rollbackDir out).div n)
    have hempty : (Path.parse []).names = [] := by decide
    rw [hnil] at hparse
    rw [hparse, hnames] at hempty
    simp at hempty
  · rw [search_asPosix, List.any_eq_false]
    intro m hm
    simp [(hall m hm).2]

theorem clean_reread {s : Str} : Clean (reread s) ↔ Clean s := by
  have hwithin : secretRe.Within (fun c => decide (c < 0xD800)) := by
    refine secretRe_within ?_ (by decide)
    intro c d hlow hhigh h
    exact decide_eq_true (likeLetter_lt (by omega) h)
  have hsearch := search_reread hwithin (by decide) s
  constructor
  · rintro ⟨hne, hsecret⟩
    exact ⟨fun h => hne (reread_eq_nil.mpr h), hsearch ▸ hsecret⟩
  · rintro ⟨hne, hsecret⟩
    exact ⟨fun h => hne (reread_eq_nil.mp h), hsearch ▸ hsecret⟩

theorem requireString_plain {d : Dict} {field : String} {s : Str} (hget : d.get field = .str (reread s)) (hs : Plain s)
    (context : Str) : requireString d field context = .ok s := by
  rw [reread_self hs.osText] at hget
  exact requireString_ok.mpr ⟨hget, hs.clean⟩

variable {rows : ReportRows} {ids : ReportIds} {fs : Files} {dir : Path} {data : Bytes}

/-- The ledger holds the one record. -/
theorem loadJsonl_written (w : Written b dir rows ids data fs) : ∃ d : Dict,
    loadJsonl fs (rollbackOutputs dir ids).ledger = .ok [d] ∧
      ∀ e ∈ ledgerRecord (rollbackOutputs dir ids) ids (sha256 (lineBytes (snapshotLine b rows ids))) (sha256 data),
        Dict.get d e.1 = .str (reread e.2) := by
  have hprintable : Printable (ledgerLine b dir rows ids data) := printable_dumps flat_texts
  obtain ⟨d, hloads, hget⟩ := loads_dumps_texts (b := b)
    (ledgerRecord (rollbackOutputs dir ids) ids (sha256 (lineBytes (snapshotLine b rows ids))) (sha256 data))
    (by simp [ledgerRecord]) (by simp only [ledgerRecord, List.map_cons, List.map_nil]; decide)
      (show skipSpace [] = [] from rfl)
  have hblank : isBlank (ledgerLine b dir rows ids data) = false := by
    rw [ledgerLine, dumps_texts]
    rfl
  refine ⟨d, ?_, hget⟩
  have hread : readLedger fs (rollbackOutputs dir ids).ledger = .ok (ledgerLine b dir rows ids data ++ [10]) := by
    rw [readLedger, readText_line hprintable w.ledger]
  have hloads' : loads (ledgerLine b dir rows ids data) = .ok (.dict d) := by
    rw [List.append_nil] at hloads
    rw [ledgerLine]
    exact hloads
  have hlines : loadLines 1 [ledgerLine b dir rows ids data] = .ok [d] := by
    simp [loadLines, hblank, hloads']
  rw [loadJsonl, hread, ok_bind, splitlines_line hprintable.isLineBreak, hlines]
  rfl

/-- The snapshot holds the texts of the payload. -/
theorem loadObject_written (w : Written b dir rows ids data fs) : ∃ d : Dict,
    AuditLedger.loadObject fs (rollbackOutputs dir ids).snapshot = .ok d ∧
      ∀ e ∈ rollbackSnapshotPayload b rows ids, Dict.get d e.1 = .str (reread e.2) := by
  have hprintable : Printable (snapshotLine b rows ids) := printable_dumps flat_texts
  obtain ⟨d, hloads, hget⟩ := loads_dumps_texts (b := b) (rollbackSnapshotPayload b rows ids)
    (by simp [rollbackSnapshotPayload]) (by simp only [rollbackSnapshotPayload, List.map_cons, List.map_nil]; decide)
    (show skipSpace [10] = [] from rfl)
  refine ⟨d, ?_, hget⟩
  exact Qa.loadObject_ok.mpr ⟨_, readText_line hprintable w.snapshot, hloads⟩

/-- The record passes up to its snapshot. -/
theorem validateRecord_written (w : Written b dir rows ids data fs) (haudit : IsAuditId ids.auditId)
    (hrollback : Plain ids.rollbackId) (hsnapshot : Plain (rollbackOutputs dir ids).snapshot.asPosix)
    (htranscript : Plain (rollbackOutputs dir ids).transcript.asPosix) {record snapshot : Dict}
    (hget : ∀ e ∈ ledgerRecord (rollbackOutputs dir ids) ids (sha256 (lineBytes (snapshotLine b rows ids)))
      (sha256 data),
      Dict.get record e.1 = .str (reread e.2))
    (hload : AuditLedger.loadObject fs (rollbackOutputs dir ids).snapshot = .ok snapshot) :
    (∃ seen, validateRecord fs [] (record, 0) = .ok seen) ↔
      validateSnapshot snapshot ids.auditId ids.rollbackId = .ok () := by
  simp only [ledgerRecord, List.mem_cons, List.not_mem_nil, or_false, forall_eq_or_imp, forall_eq] at hget
  obtain ⟨hschema, hid, hrb, -, hpath, hsha, hpath', hsha', -⟩ := hget
  have h1 : requireString record "schema" (at_ (str "ledger") 0) = .ok (str ledgerSchema) :=
    requireString_plain hschema (plain_str ⟨by decide, by decide⟩) _
  have h2 := requireString_plain hid haudit.plain (at_ (str "ledger") 0)
  have h3 := requireString_plain hrb hrollback (at_ (str "ledger") 0)
  have h4 := requireString_plain hpath hsnapshot (at_ (str "ledger") 0)
  have h5 := requireString_plain hpath' htranscript (at_ (str "ledger") 0)
  have h6 := requireString_plain hsha (plain_sha256 _) (at_ (str "ledger") 0)
  have h7 := requireString_plain hsha' (plain_sha256 _) (at_ (str "ledger") 0)
  have hfile : fs.isFile (rollbackOutputs dir ids).snapshot = true ∧
      fs.isFile (rollbackOutputs dir ids).transcript = true := by
    simp [Files.isFile, w.snapshot, w.transcript]
  have hshaS : sha256File fs (rollbackOutputs dir ids).snapshot =
      .ok (sha256 (lineBytes (snapshotLine b rows ids))) := by
    rw [sha256File, Files.readBytes, w.snapshot]
    rfl
  have hshaT : sha256File fs (rollbackOutputs dir ids).transcript = .ok (sha256 data) := by
    rw [sha256File, Files.readBytes, w.transcript]
    rfl
  simp only [validateRecord, h1, h2, h3, h4, h5, h6, h7, ok_bind, Path.parse_asPosix, hfile, hshaS, hshaT, hload,
    haudit.matched, require, decide_true, Bool.and_self, ↓reduceIte, List.contains_nil, Bool.not_false]
  rw [exists_map_ok_iff]
  constructor
  · rintro ⟨u, hu⟩
    exact hu
  · intro hu
    exact ⟨(), hu⟩

/-- The snapshot passes if each of its fields does. -/
theorem validateSnapshot_written (haudit : IsAuditId ids.auditId) (hrollback : Plain ids.rollbackId) {snapshot : Dict}
    (hget : ∀ e ∈ rollbackSnapshotPayload b rows ids, Dict.get snapshot e.1 = .str (reread e.2)) :
    validateSnapshot snapshot ids.auditId ids.rollbackId = .ok () ↔
      ∀ field ∈ snapshotFields, ∃ text, requireString snapshot field (str "snapshot") = .ok text := by
  have hschema := hget ("schema", str "zig-scheduler/rollback-snapshot/v1") (by simp [rollbackSnapshotPayload])
  have hid := hget ("audit_id", ids.auditId) (by simp [rollbackSnapshotPayload])
  have hrb := hget ("rollback_id", ids.rollbackId) (by simp [rollbackSnapshotPayload])
  have h1 : requireString snapshot "schema" (str "snapshot") = .ok (str snapshotSchema) :=
    requireString_plain hschema (plain_str ⟨by decide, by decide⟩) _
  have h2 := requireString_plain hid haudit.plain (str "snapshot")
  have h3 := requireString_plain hrb hrollback (str "snapshot")
  simp only [validateSnapshot, h1, h2, h3, ok_bind, require, decide_true, ↓reduceIte, forM_eq_ok]
  refine forall_congr' fun field => imp_congr_right fun _ => ?_
  cases requireString snapshot field (str "snapshot") <;> simp

/-- Every field of the snapshot that is checked is written. -/
theorem exists_payload {field : String} (hfield : field ∈ snapshotFields) :
    ∃ e ∈ rollbackSnapshotPayload b rows ids, e.1 = field := by
  have hnames : ∀ field ∈ snapshotFields, field ∈ (rollbackSnapshotPayload b rows ids).map Prod.fst := by
    simp only [rollbackSnapshotPayload, List.map_cons, List.map_nil]
    decide
  exact List.mem_map.mp (hnames field hfield)

/-- The checker accepts the files exactly if every text of the snapshot is clean. -/
theorem validateLedger_written (w : Written b dir rows ids data fs) (haudit : IsAuditId ids.auditId)
    (hrollback : Plain ids.rollbackId) (hsnapshot : Plain (rollbackOutputs dir ids).snapshot.asPosix)
    (htranscript : Plain (rollbackOutputs dir ids).transcript.asPosix) :
    validateLedger fs (rollbackOutputs dir ids).ledger = .ok () ↔
      ∀ e ∈ rollbackSnapshotPayload b rows ids, e.1 ∈ snapshotFields → Clean e.2 := by
  obtain ⟨record, hrecord, hget⟩ := loadJsonl_written w
  obtain ⟨snapshot, hload, hgetS⟩ := loadObject_written w
  have hledgerIff : validateLedger fs (rollbackOutputs dir ids).ledger = .ok () ↔
      ∃ seen, validateRecord fs [] (record, 0) = .ok seen := by
    rw [validateLedger, hrecord, ok_bind]
    cases hrow : validateRecord fs [] (record, 0) <;> simp [List.zipIdx, List.foldlM, hrow]
  rw [hledgerIff, validateRecord_written w haudit hrollback hsnapshot htranscript hget hload,
    validateSnapshot_written haudit hrollback hgetS]
  constructor
  · intro h e he hfield
    obtain ⟨text, htext⟩ := h e.1 hfield
    obtain ⟨hvalue, hclean⟩ := requireString_ok.mp htext
    rw [hgetS e he] at hvalue
    obtain rfl := Value.str.inj hvalue
    exact clean_reread.mp hclean
  · intro h field hfield
    obtain ⟨e, he, rfl⟩ := exists_payload hfield
    exact ⟨reread e.2, requireString_ok.mpr ⟨hgetS e he, clean_reread.mpr (h e he hfield)⟩⟩

end Checked

/-! ## Rows that were accepted -/

section Rows

variable {serial : Str} {rows : ReportRows} {lines : SerialLines}

/-- What `parse_serial` makes sure of in the rows of the rollback. -/
theorem parseSerial_ok (h : parseSerial b serial = .ok (rows, lines)) :
    rows.register.get "ops" = .str (str "zigsched_minimal") ∧ rows.unregister.get "state" = .str (str "disabled") ∧
      ∃ rc, (rows.duplicateRefusal.get "rc").asInt? = some rc := by
  simp only [parseSerial, requireRows, bind_eq_ok, Except.ok.injEq, Prod.mk.injEq] at h
  obtain ⟨raw, -, result, hresult, rfl, -⟩ := h
  obtain ⟨_, -, _, -, _, -, _, -, _, -, _, -, _, -, _, -, _, -, u, hrows, rfl⟩ := hresult
  simp only [validateRows, requireRefused, bind_eq_ok, require_ok, Bool.and_eq_true, Value.eqStr_iff] at hrows
  obtain ⟨-, -, _, -, -, ⟨-, hops⟩, -, ⟨-, hstate⟩, _, -, -, -, _, ⟨-, -, rc, hrc, -⟩, -⟩ := hrows
  refine ⟨hops, hstate, rc, ?_⟩
  unfold eventRc requireInt at hrc
  split at hrc
  next i hi =>
    obtain rfl := Except.ok.inj hrc
    exact hi
  next => cases hrc

theorem clean_getText {row : Dict} {field default : String}
    (hsecret : secretRe.search ((row.get field).toStr b) = false) (hdefault : Clean (str default)) :
    Clean (getText b row field default) ↔ row.get field ≠ .str [] := by
  unfold getText
  cases h : findKey (str field) row with
  | none =>
    have hget : row.get field = .none := by rw [Dict.get, h]; rfl
    simp [hget, hdefault]
  | some v =>
    have hget : row.get field = v := by rw [Dict.get, h]; rfl
    rw [hget] at hsecret ⊢
    constructor
    · rintro hclean rfl
      exact hclean.ne_nil rfl
    · intro hne
      exact ⟨fun hnil => hne ((Value.toStr_eq_nil b).mp hnil), hsecret⟩

theorem clean_textOr {v : Value} {default : String} (hsecret : secretRe.search (v.toStr b) = false)
    (hdefault : Clean (str default)) : Clean (textOr b v default) := by
  unfold textOr
  split
  next htruthy =>
    refine ⟨?_, hsecret⟩
    intro hnil
    rw [(Value.toStr_eq_nil b).mp hnil] at htruthy
    cases htruthy
  next => exact hdefault

end Rows

/-! ## Agreement -/

section Agreement

/-- The outputs of the rollback are written, and the checker accepts them. -/
def Accepted (b : Builtins) (env : ReportEnv) (clock : Clock) (rows : ReportRows) (lines : SerialLines) (fs : Files) :
    Prop :=
  ∃ ids outputs fs', reportIds b env clock rows = .ok ids ∧
    writeRollbackOutputs b (rollbackDir env.out) rows lines ids fs = .ok (outputs, fs') ∧
    validateLedger fs' outputs.ledger = .ok ()

/-- The texts of a row that the snapshot copies hold no secret-like word. -/
def Secretless (b : Builtins) (row : Dict) : Prop :=
  ∀ field ∈ ["state", "ops", "enable_seq"], secretRe.search ((row.get field).toStr b) = false

/-- No text that the snapshot copies is empty, and the texts that are written or hashed as they are can be encoded. -/
structure Recordable (b : Builtins) (env : ReportEnv) (rows : ReportRows) : Prop where
  stateBefore : rows.register.get "state" ≠ .str []
  enableSeqBefore : rows.register.get "enable_seq" ≠ .str []
  enableSeqAfter : rows.unregister.get "enable_seq" ≠ .str []
  activeTarget : (rows.staleRefusal.get "active_target").truthy b = true →
    ∀ c ∈ (rows.staleRefusal.get "active_target").toStr b, isSurrogate c = false
  objectSha : ∀ c ∈ env.objectSha, isSurrogate c = false

theorem isSurrogate_of_lt {c : Nat} (h : c < 256) : isSurrogate c = false := by
  simp only [isSurrogate, decide_eq_false_iff_not]
  omega

variable {env : ReportEnv} {clock : Clock} {rows : ReportRows} {lines : SerialLines} {ids : ReportIds} {fs : Files}

/-- The transcript is encoded exactly if the active target is. -/
theorem encode_transcript_iff {i : Int} (hid : (rows.register.get "id").asInt? = some i)
    (htarget : ids.activeTarget = textOr b (rows.staleRefusal.get "active_target")
      "/sys/fs/cgroup/zig-scheduler-lab.slice/demo.scope") :
    (∃ data, encode (rollbackTranscript b rows ids) = .ok data) ↔
      ((rows.staleRefusal.get "active_target").truthy b = true →
        ∀ c ∈ (rows.staleRefusal.get "active_target").toStr b, isSurrogate c = false) := by
  have hstr : ∀ s : String, ∀ c ∈ str s, isSurrogate c = false := fun s c hc => isSurrogate_of_lt (lt_of_mem_str hc)
  have hactive : (∀ c ∈ ids.activeTarget, isSurrogate c = false) ↔
      ((rows.staleRefusal.get "active_target").truthy b = true →
        ∀ c ∈ (rows.staleRefusal.get "active_target").toStr b, isSurrogate c = false) := by
    rw [htarget, textOr]
    split
    next htruthy => exact ⟨fun h _ => h, fun h => h htruthy⟩
    next hfalsy => exact ⟨fun _ htruthy => absurd htruthy hfalsy, fun _ => hstr _⟩
  rw [encode_ok_iff, ← hactive]
  simp only [rollbackTranscript, List.mem_append]
  constructor
  · intro h c hc
    exact h c (Or.inl (Or.inr hc))
  · rintro h c ((((hc | hc) | hc) | hc) | hc)
    · exact hstr _ c hc
    · exact isSurrogate_of_lt (lt_of_mem_integer hid hc)
    · exact hstr _ c hc
    · exact h c hc
    · exact hstr _ c hc

/-- The snapshot is clean exactly if none of the three texts copied unchecked is empty. -/
theorem clean_snapshot_iff (ids : ReportIds) (hops : rows.register.get "ops" = .str (str "zigsched_minimal"))
    (hstate : rows.unregister.get "state" = .str (str "disabled")) (hregister : Secretless b rows.register)
    (hunregister : Secretless b rows.unregister) :
    (∀ e ∈ rollbackSnapshotPayload b rows ids, e.1 ∈ snapshotFields → Clean e.2) ↔
      rows.register.get "state" ≠ .str [] ∧ rows.register.get "enable_seq" ≠ .str [] ∧
        rows.unregister.get "enable_seq" ≠ .str [] := by
  have hbefore := clean_getText (b := b) (hregister "state" (by simp))
    (show Clean (str "enabled") from ⟨by decide, by decide⟩)
  have hseq := clean_getText (b := b) (hregister "enable_seq" (by simp))
    (show Clean (str "1") from ⟨by decide, by decide⟩)
  have hseq' := clean_getText (b := b) (hunregister "enable_seq" (by simp))
    (show Clean (str "1") from ⟨by decide, by decide⟩)
  have hafter : Clean (getText b rows.unregister "state" "disabled") :=
    (clean_getText (hunregister "state" (by simp)) ⟨by decide, by decide⟩).mpr
      (by rw [hstate]; simp [show str "disabled" ≠ [] by decide])
  have hopsBefore : Clean (getText b rows.register "ops" "zigsched_minimal") :=
    (clean_getText (hregister "ops" (by simp)) ⟨by decide, by decide⟩).mpr
      (by rw [hops]; simp [show str "zigsched_minimal" ≠ [] by decide])
  have hopsAfter : Clean (textOr b (rows.unregister.get "ops") "none") :=
    clean_textOr (hunregister "ops" (by simp)) ⟨by decide, by decide⟩
  rw [← hbefore, ← hseq, ← hseq']
  simp [rollbackSnapshotPayload, snapshotFields, hafter, hopsBefore, hopsAfter]

/-- With ids, acceptance is a transcript that can be encoded and a snapshot without empty texts. -/
theorem written_accepted_iff {serial : Str} (hparse : parseSerial b serial = .ok (rows, lines)) {i : Int}
    (hid : (rows.register.get "id").asInt? = some i) (hregister : Secretless b rows.register)
    (hunregister : Secretless b rows.unregister) (hsha : 7 ≤ env.gitSha.length ∧ ∀ c ∈ env.gitSha, isHex c = true)
    (hout : secretRe.search env.out.asPosix = false) (hids : reportIds b env clock rows = .ok ids) :
    (∃ outputs fs', writeRollbackOutputs b (rollbackDir env.out) rows lines ids fs = .ok (outputs, fs') ∧
        validateLedger fs' outputs.ledger = .ok ()) ↔
      ((rows.staleRefusal.get "active_target").truthy b = true →
        ∀ c ∈ (rows.staleRefusal.get "active_target").toStr b, isSurrogate c = false) ∧
      rows.register.get "state" ≠ .str [] ∧ rows.register.get "enable_seq" ≠ .str [] ∧
      rows.unregister.get "enable_seq" ≠ .str [] := by
  obtain ⟨hops, hstate, rc, hrc⟩ := parseSerial_ok hparse
  obtain ⟨haudit, hrollback, htarget⟩ := reportIds_ok hsha hids
  have hplain : Plain ids.rollbackId := hrollback ▸ plain_rollbackId hid
  have hpath : ∀ s : String, 47 ∉ str s → (∃ t : String, str s = 46 :: str t ∧ secretRe.search (str t) = false) →
      Plain ((rollbackDir env.out).div (ids.auditId ++ str s)).asPosix := by
    rintro s hs ⟨t, ht, hsecret⟩
    refine plain_path hout env.isOsText (isName_auditId haudit hs) ?_ ?_
    · intro c hc
      rcases List.mem_append.mp hc with hc | hc
      · exact haudit.plain.osText c hc
      · exact isOsText_of_lt (fun _ => lt_of_mem_str) c hc
    · rw [ht, search_across (Or.inr rfl), haudit.plain.clean.notSecret, hsecret]
      rfl
  have hsnapshot := hpath ".rollback-snapshot.json" (by decide) ⟨"rollback-snapshot.json", by decide, by decide⟩
  have htranscript := hpath ".rollback-transcript.txt" (by decide) ⟨"rollback-transcript.txt", by decide, by decide⟩
  rw [← encode_transcript_iff hid htarget, ← clean_snapshot_iff ids hops hstate hregister hunregister]
  constructor
  · rintro ⟨outputs, fs', hwrite, hvalid⟩
    obtain ⟨data, hdata⟩ := encode_of_writeRollbackOutputs hwrite
    obtain ⟨fs'', hwrite', w⟩ := exists_writeRollbackOutputs (rollbackDir env.out) lines fs haudit hrc hdata
    rw [hwrite] at hwrite'
    obtain ⟨rfl, rfl⟩ := Prod.mk.inj (Except.ok.inj hwrite')
    exact ⟨⟨data, hdata⟩, (validateLedger_written w haudit hplain hsnapshot htranscript).mp hvalid⟩
  · rintro ⟨⟨data, hdata⟩, hsnap⟩
    obtain ⟨fs', hwrite, w⟩ := exists_writeRollbackOutputs (rollbackDir env.out) lines fs haudit hrc hdata
    exact ⟨_, fs', hwrite, (validateLedger_written w haudit hplain hsnapshot htranscript).mpr hsnap⟩

/-- **The checker accepts what the writer writes exactly if the guest's rows are recordable.** -/
theorem rollback_outputs_accepted_iff {serial : Str} (hparse : parseSerial b serial = .ok (rows, lines)) {i : Int}
    (hid : (rows.register.get "id").asInt? = some i) (hregister : Secretless b rows.register)
    (hunregister : Secretless b rows.unregister) (hsha : 7 ≤ env.gitSha.length ∧ ∀ c ∈ env.gitSha, isHex c = true)
    (hout : secretRe.search env.out.asPosix = false) : Accepted b env clock rows lines fs ↔ Recordable b env rows := by
  have hids : (∃ ids, reportIds b env clock rows = .ok ids) ↔ ∀ c ∈ env.objectSha, isSurrogate c = false := by
    rw [reportIds_exists]
    simp only [List.mem_append]
    constructor
    · intro h c hc
      exact h c (Or.inl (Or.inr hc))
    · rintro h c ((hc | hc) | hc)
      · have hhex := hsha.2 c hc
        simp only [isHex, decide_eq_true_eq] at hhex
        exact isSurrogate_of_lt (by omega)
      · exact h c hc
      · exact isSurrogate_of_lt (lt_of_mem_integer hid hc)
  constructor
  · rintro ⟨ids, outputs, fs', hok, hrest⟩
    obtain ⟨hactive, hbefore, hseq, hseq'⟩ :=
      (written_accepted_iff hparse hid hregister hunregister hsha hout hok).mp ⟨outputs, fs', hrest⟩
    exact ⟨hbefore, hseq, hseq', hactive, hids.mp ⟨ids, hok⟩⟩
  · rintro ⟨hbefore, hseq, hseq', hactive, hobject⟩
    obtain ⟨ids, hok⟩ := hids.mpr hobject
    obtain ⟨outputs, fs', hrest⟩ :=
      (written_accepted_iff hparse hid hregister hunregister hsha hout hok).mpr ⟨hactive, hbefore, hseq, hseq'⟩
    exact ⟨ids, outputs, fs', hok, hrest⟩

/-! ## A guest -/

def eventRow (event : String) (members : List (String × Value)) : Value := object (("event", word event) :: members)

def mutationRow (family : String) : Value :=
  eventRow "mutation_family" [("family", word family), ("status", word "PASS"), ("target_allowlisted", .bool true),
    ("rollback_restored", .bool true)]

/-- The rows of a guest that reads `enableSeq` of the scheduler, in both places. -/
def guestRows (enableSeq : String) : List Value :=
  [eventRow "boot" [], eventRow "tuple" [("btf", .bool true)], eventRow "workload" [],
    eventRow "workload_execution" [("scenario", word "s"), ("status", word "PASS"), ("rc", .int 0),
      ("host_mutation", .bool false)],
    eventRow "before" [], mutationRow "cgroup.weight", mutationRow "cpu.max", mutationRow "uclamp",
    mutationRow "topology.offline_cpu",
    eventRow "register" [("rc", .int 0), ("id", .int 7), ("state", word "enabled"), ("ops", word "zigsched_minimal"),
      ("enable_seq", word enableSeq)],
    eventRow "unregister"
      [("rc", .int 0), ("state", word "disabled"), ("ops", word ""), ("enable_seq", word enableSeq)],
    eventRow "stale_target_refusal" [("status", word "REFUSE"), ("rc", .int 1),
      ("refusal_path", word "refuse_stale_rollback_target")],
    eventRow "duplicate_rollback_refusal" [("status", word "REFUSE"), ("rc", .int 1)]]

def guestSerial (enableSeq : String) : Str :=
  (guestRows enableSeq).flatMap (fun row => str jsonMarker ++ dumps .ascii row ++ [10])

def guestEnv : ReportEnv where
  out := .parse (str "out")
  objectSha := str "00"
  gitSha := str "0123456"
  isOsText := by
    have hnames : (Path.parse (str "out")).names = [str "out"] := by decide
    rw [hnames]
    intro n hn
    rw [List.mem_singleton.mp hn]
    unfold IsOsText
    decide

def guestClock : Clock := ⟨1970, 1, 1, 0, 0, 0, by decide⟩

/-- The rows as `parse_serial` returns them, with what the agreement asks of them. -/
def guestChecks (enableSeq : Str) (r : ReportRows × SerialLines) : Bool :=
  decide ((r.1.register.get "id").asInt? = some 7) &&
    ["state", "ops", "enable_seq"].all (fun field =>
      !secretRe.search ((r.1.register.get field).toStr .ascii) &&
        !secretRe.search ((r.1.unregister.get field).toStr .ascii)) &&
    (r.1.register.get "state").eqStr .ascii (str "enabled") && (r.1.register.get "enable_seq").eqStr .ascii enableSeq &&
    (r.1.unregister.get "enable_seq").eqStr .ascii enableSeq && !(r.1.staleRefusal.get "active_target").truthy .ascii

theorem guest_parsed (enableSeq : String)
    (h : okAnd (guestChecks (str enableSeq)) (parseSerial .ascii (guestSerial enableSeq)) = true) :
    ∃ rows lines, parseSerial .ascii (guestSerial enableSeq) = .ok (rows, lines) ∧
      (rows.register.get "id").asInt? = some 7 ∧ Secretless .ascii rows.register ∧ Secretless .ascii rows.unregister ∧
      rows.register.get "state" = .str (str "enabled") ∧ rows.register.get "enable_seq" = .str (str enableSeq) ∧
      rows.unregister.get "enable_seq" = .str (str enableSeq) ∧
      (rows.staleRefusal.get "active_target").truthy .ascii = false := by
  obtain ⟨⟨rows, lines⟩, hparse, hchecks⟩ := okAnd_eq_true.mp h
  simp only [guestChecks, Bool.and_eq_true, decide_eq_true_eq, List.all_eq_true, Bool.not_eq_true',
    Value.eqStr_iff] at hchecks
  obtain ⟨⟨⟨⟨⟨hid, hsecret⟩, hstate⟩, hseq⟩, hseq'⟩, htarget⟩ := hchecks
  exact ⟨rows, lines, hparse, hid, fun field hf => (hsecret field hf).1,
    fun field hf => (hsecret field hf).2, hstate, hseq,
    hseq', htarget⟩

/-- A guest that reads a sequence number: its report is accepted. -/
theorem rollback_outputs_accepted_guest : ∃ rows lines, parseSerial .ascii (guestSerial "1") = .ok (rows, lines) ∧
    Accepted .ascii guestEnv guestClock rows lines (fun _ => none) := by
  obtain ⟨rows, lines, hparse, hid, hregister, hunregister, hstate, hseq, hseq', htarget⟩ :=
    guest_parsed "1" (by decide +kernel)
  refine ⟨rows, lines, hparse, (rollback_outputs_accepted_iff hparse hid hregister hunregister ?_ ?_).mpr ?_⟩
  · decide
  · decide
  · have hone : Value.str (str "1") ≠ .str [] := by simp [show str "1" ≠ [] by decide]
    refine ⟨?_, hseq ▸ hone, hseq' ▸ hone, ?_, by decide⟩
    · rw [hstate]
      simp [show str "enabled" ≠ [] by decide]
    · intro htruthy
      rw [htarget] at htruthy
      cases htruthy

/-- A guest whose kernel has no `enable_seq`: what the writer writes of it, the checker refuses. -/
theorem empty_enable_seq_refused : ∃ rows lines, parseSerial .ascii (guestSerial "") = .ok (rows, lines) ∧
    (rows.register.get "id").asInt? = some 7 ∧ Secretless .ascii rows.register ∧ Secretless .ascii rows.unregister ∧
    (7 ≤ guestEnv.gitSha.length ∧ ∀ c ∈ guestEnv.gitSha, isHex c = true) ∧
    secretRe.search guestEnv.out.asPosix = false ∧
    ¬ Accepted .ascii guestEnv guestClock rows lines (fun _ => none) := by
  obtain ⟨rows, lines, hparse, hid, hregister, hunregister, -, hseq, -, -⟩ :=
    guest_parsed "" (by decide +kernel)
  have hsha : 7 ≤ guestEnv.gitSha.length ∧ ∀ c ∈ guestEnv.gitSha, isHex c = true := by decide
  have hout : secretRe.search guestEnv.out.asPosix = false := by decide
  refine ⟨rows, lines, hparse, hid, hregister, hunregister, hsha, hout, ?_⟩
  rintro ⟨ids, outputs, fs', hids, hrest⟩
  have hcond := (written_accepted_iff hparse hid hregister hunregister hsha hout hids).mp ⟨outputs, fs', hrest⟩
  exact hcond.2.2.1 hseq

end Agreement

end Exasphere.Qa.Microvm

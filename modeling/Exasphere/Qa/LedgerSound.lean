import Mathlib.Data.List.DropRight
import Exasphere.Qa.AuditLedger

/-!
# What an accepted audit ledger holds

Every record of an accepted ledger names a snapshot and a transcript with the digests it records (`Evidenced`), and no
audit id twice. The pattern of an audit id ends in `$`, which also holds before a newline at the end, so an id may have
one newline too many (`audit_id_of_match`): the ids are words of the pattern, and distinct as they are read, exactly
when none of them ends in a newline (`validateLedger_sound_iff`).
-/

namespace Exasphere.Qa.AuditLedger

open Exasphere.Lib Exasphere.Py

variable {fs : Files} {path : Path}

/-! ## Audit ids -/

section Ids

/-- A word of the language `AUD-[0-9]{8}T[0-9]{6}Z-[0-9a-f]{7,12}-[0-9a-f]{6}`. -/
structure AuditId (s : Str) : Prop where
  parts : ∃ date time commit nonce : Str,
    s = str "AUD-" ++ (date ++ (str "T" ++ (time ++ (str "Z-" ++ (commit ++ (str "-" ++ nonce)))))) ∧
      (date.length = 8 ∧ ∀ c ∈ date, Py.isDigit c = true) ∧ (time.length = 6 ∧ ∀ c ∈ time, Py.isDigit c = true) ∧
      (7 ≤ commit.length ∧ commit.length ≤ 12 ∧ ∀ c ∈ commit, isHex c = true) ∧
      nonce.length = 6 ∧ ∀ c ∈ nonce, isHex c = true

/-- `s.rstrip()`. -/
def rstrip (s : Str) : Str := s.rdropWhile isSpace

theorem audit_id_of_match {s : Str} (h : auditRe.matchStart s = true) :
    ∃ id, AuditId id ∧ (s = id ∨ s = id ++ [10]) := by
  obtain ⟨e, he⟩ := Re.exists_mem_of_matchStart h
  simp only [auditRe, Re.ends.eq_3, List.mem_flatMap] at he
  obtain ⟨start, hstart, p₁, haud, p₂, hdate, p₃, hT, p₄, htime, p₅, hZ, p₆, hcommit, p₇, hdash, p₈, hnonce, hfinish⟩ :=
    he
  have hs : start.rest = s := by
    rw [Re.ends, if_pos rfl, List.mem_singleton] at hstart
    rw [hstart]
  have hend : p₈.rest = [] ∨ p₈.rest = [10] := by
    rw [Re.ends] at hfinish
    by_contra hrest
    rw [if_neg hrest] at hfinish
    cases hfinish
  have haud := Re.read_of_mem_lit haud
  obtain ⟨date, hdate, hdate'⟩ := Re.read_of_mem_exactly hdate
  have hT := Re.read_of_mem_lit hT
  obtain ⟨time, htime, htime'⟩ := Re.read_of_mem_exactly htime
  have hZ := Re.read_of_mem_lit hZ
  obtain ⟨commit, hcommit, hhex, hleast, hmost⟩ := Re.read_of_mem_runEnds hcommit
  have hdash := Re.read_of_mem_lit hdash
  obtain ⟨nonce, hnonce, hnonce'⟩ := Re.read_of_mem_exactly hnonce
  rw [← hs, haud, hdate, hT, htime, hZ, hcommit, hdash, hnonce]
  refine ⟨_, ⟨date, time, commit, nonce, rfl, hdate', htime', ⟨hleast, hmost 12 rfl, hhex⟩, hnonce'⟩, ?_⟩
  simpa using hend

/-- An id ends in a digit or a letter. -/
theorem AuditId.getLast {s : Str} (h : AuditId s) : ∃ c, s.getLast? = some c ∧ isHex c = true := by
  obtain ⟨date, time, commit, nonce, rfl, -, -, -, hlength, hhex⟩ := h.parts
  have hne : nonce ≠ [] := by
    rintro rfl
    cases hlength
  refine ⟨nonce.getLast hne, ?_, hhex _ (List.getLast_mem hne)⟩
  simp [List.getLast?_append, List.getLast?_eq_getLast_of_ne_nil hne]

theorem not_isSpace_of_isHex {c : Nat} (h : isHex c = true) : isSpace c = false := by
  simp only [isHex, decide_eq_true_eq] at h
  simp only [isSpace, Bool.or_eq_false_iff, Bool.and_eq_false_iff, decide_eq_false_iff_not, beq_eq_false_iff_ne]
  omega

theorem AuditId.not_newline {s : Str} (h : AuditId s) : s.getLast? ≠ some 10 := by
  obtain ⟨c, hlast, hhex⟩ := h.getLast
  rw [hlast]
  rintro ⟨⟩
  cases hhex

theorem AuditId.rstrip_eq {s : Str} (h : AuditId s) : rstrip s = s := by
  obtain ⟨c, hlast, hhex⟩ := h.getLast
  obtain ⟨t, rfl⟩ := List.getLast?_eq_some_iff.mp hlast
  exact List.rdropWhile_concat_neg isSpace t c (by simp [not_isSpace_of_isHex hhex])

end Ids

/-! ## Records -/

section Records

/-- The record's snapshot and transcript have the digests it records, and the snapshot names its ids. -/
structure Evidenced (fs : Files) (row : Dict) (id : Str) : Prop where
  auditId : row.get "audit_id" = .str id
  snapshot : ∃ (snapshotPath s : Str) (data : Bytes) (snapshot : Dict),
    row.get "rollback_snapshot" = .str snapshotPath ∧ fs.readBytes (.parse snapshotPath) = .ok data ∧
      row.get "rollback_snapshot_sha256" = .str (sha256 data) ∧ fs.readText (.parse snapshotPath) = .ok s ∧
      loads s = .ok (.dict snapshot) ∧ snapshot.get "audit_id" = .str id ∧
      snapshot.get "rollback_id" = row.get "rollback_id"
  transcript : ∃ (transcriptPath : Str) (data : Bytes), row.get "transcript" = .str transcriptPath ∧
    fs.readBytes (.parse transcriptPath) = .ok data ∧ row.get "transcript_sha256" = .str (sha256 data)

/-- The records name their evidence; their ids are words of the language, and distinct without trailing white space. -/
def LedgerSound (fs : Files) (rows : List Dict) : Prop :=
  ∃ ids, List.Forall₂ (Evidenced fs) rows ids ∧ (∀ id ∈ ids, AuditId id) ∧ (ids.map rstrip).Nodup

theorem sha256File_ok {digest : Str} (h : sha256File fs path = .ok digest) :
    ∃ data, fs.readBytes path = .ok data ∧ digest = sha256 data := by
  obtain ⟨data, hdata, h⟩ := bind_eq_ok.mp h
  exact ⟨data, hdata, (Except.ok.inj h).symm⟩

theorem loadObject_read {d : Dict} (h : loadObject fs path = .ok d) :
    ∃ s, fs.readText path = .ok s ∧ loads s = .ok (.dict d) :=
  loadObject_ok.mp h

theorem validateSnapshot_ok {snapshot : Dict} {auditId rollbackId : Str}
    (h : validateSnapshot snapshot auditId rollbackId = .ok ()) :
    snapshot.get "audit_id" = .str auditId ∧ snapshot.get "rollback_id" = .str rollbackId := by
  simp only [validateSnapshot, bind_eq_ok, requireString_ok, require_ok, decide_eq_true_eq] at h
  obtain ⟨schema, -, -, -, auditId', ⟨hid, -⟩, -, rfl, rollbackId', ⟨hrollback, -⟩, -, rfl, -⟩ := h
  exact ⟨hid, hrollback⟩

/-- One record: its id matches the pattern and is new. -/
theorem validateRecord_ok {seen seen' : List Str} {entry : Dict × Nat}
    (h : validateRecord fs seen entry = .ok seen') :
    ∃ id, Evidenced fs entry.1 id ∧ auditRe.matchStart id = true ∧ id ∉ seen ∧ seen' = id :: seen := by
  simp only [validateRecord, bind_eq_ok, requireString_ok, require_ok, Bool.not_eq_true', List.contains_eq_mem,
    decide_eq_false_iff_not, decide_eq_true_eq] at h
  obtain ⟨schema, -, -, -, auditId, ⟨hid, -⟩, -, hmatch, -, hnew, rollbackId, ⟨hrollback, -⟩, snapshotPath,
    ⟨hsnapshot, -⟩, transcriptPath, ⟨htranscript, -⟩, snapshotSha, ⟨hsnapshotSha, -⟩, transcriptSha,
    ⟨htranscriptSha, -⟩, -, -, digest, hdigest, -, rfl, digest', hdigest', -, rfl, snapshot, hload, u,
      hvalid, hseen⟩ := h
  obtain ⟨data, hdata, rfl⟩ := sha256File_ok hdigest
  obtain ⟨data', hdata', rfl⟩ := sha256File_ok hdigest'
  obtain ⟨s, hs, hloads⟩ := loadObject_read hload
  obtain ⟨hsame, hsame'⟩ := validateSnapshot_ok hvalid
  refine ⟨auditId, ⟨hid, ?_, ?_⟩, hmatch, hnew, (Except.ok.inj hseen).symm⟩
  · exact ⟨snapshotPath, s, data, snapshot, hsnapshot, hdata, hsnapshotSha, hs, hloads, hsame,
      hsame'.trans hrollback.symm⟩
  · exact ⟨transcriptPath, data', htranscript, hdata', htranscriptSha⟩

/-- What the loop keeps: the ids of the records done, all matched and distinct. -/
structure Recorded (fs : Files) (rows : List Dict) (ids : List Str) : Prop where
  evidenced : List.Forall₂ (Evidenced fs) rows ids
  matched : ∀ id ∈ ids, auditRe.matchStart id = true
  distinct : ids.Nodup

theorem Recorded.step {rows : List Dict} {ids : List Str} {row : Dict} {id : Str} (h : Recorded fs rows ids)
    (hrow : Evidenced fs row id) (hmatch : auditRe.matchStart id = true) (hnew : id ∉ ids) :
    Recorded fs (rows ++ [row]) (ids ++ [id]) where
  evidenced := List.rel_append h.evidenced (.cons hrow .nil)
  matched := by
    intro id' hid'
    rcases List.mem_append.mp hid' with hid' | hid'
    · exact h.matched id' hid'
    · rwa [List.mem_singleton.mp hid']
  distinct := by
    rw [← List.concat_eq_append]
    exact h.distinct.concat hnew

theorem validateRecords_recorded {rows : List Dict} {seen : List Str}
    (h : rows.zipIdx.foldlM (validateRecord fs) [] = .ok seen) : ∃ ids, Recorded fs rows ids := by
  have hloop := foldlM_inv
    (P := fun done seen => ∃ ids, Recorded fs (done.map Prod.fst) ids ∧ ∀ id ∈ ids, id ∈ seen)
    ⟨[], ⟨.nil, by simp, List.nodup_nil⟩, by simp⟩ (fun done entry rest seen seen' _ hacc hstep => by
      obtain ⟨ids, hrecorded, hseen⟩ := hacc
      obtain ⟨id, hrow, hmatch, hnew, rfl⟩ := validateRecord_ok hstep
      have hids : id ∉ ids := fun hmem => hnew (hseen id hmem)
      refine ⟨ids ++ [id], by simpa using hrecorded.step hrow hmatch hids, ?_⟩
      intro id' hid'
      rcases List.mem_append.mp hid' with hid' | hid'
      · exact List.mem_cons_of_mem id (hseen id' hid')
      · rw [List.mem_singleton.mp hid']
        exact List.mem_cons_self) h
  obtain ⟨ids, hrecorded, -⟩ := hloop
  rw [List.zipIdx_map_fst] at hrecorded
  exact ⟨ids, hrecorded⟩

/-- The audit id ends in a newline. -/
def EndsInNewline (row : Dict) : Prop := ∃ s, row.get "audit_id" = .str (s ++ [10])

theorem Evidenced.not_endsInNewline {row : Dict} {id : Str} (h : Evidenced fs row id) (hid : AuditId id) :
    ¬EndsInNewline row := by
  rintro ⟨s, hs⟩
  obtain rfl := Value.str.inj (h.auditId.symm.trans hs)
  exact hid.not_newline (by simp)

/-- **An accepted ledger is sound** exactly when no audit id ends in a newline. -/
theorem validateLedger_sound_iff {rows : List Dict} (h : validateLedger fs path = .ok ())
    (hrows : loadJsonl fs path = .ok rows) : LedgerSound fs rows ↔ ∀ row ∈ rows, ¬EndsInNewline row := by
  constructor
  · rintro ⟨ids, hevidenced, hids, -⟩ row hrow
    obtain ⟨id, hid, hrow'⟩ := exists_of_forall₂ hevidenced hrow
    exact hrow'.not_endsInNewline (hids id hid)
  · intro hnewline
    obtain ⟨rows', hrows', h⟩ := bind_eq_ok.mp h
    obtain rfl := Except.ok.inj (hrows.symm.trans hrows')
    obtain ⟨seen, hseen, -⟩ := bind_eq_ok.mp h
    obtain ⟨ids, hrecorded⟩ := validateRecords_recorded hseen
    have hids : ∀ id ∈ ids, AuditId id := by
      intro id hid
      obtain ⟨row, hrow, hid'⟩ := exists_of_forall₂ hrecorded.evidenced.flip hid
      obtain ⟨id', haudit, rfl | rfl⟩ := audit_id_of_match (hrecorded.matched id hid)
      · exact haudit
      · exact absurd ⟨id', hid'.auditId⟩ (hnewline row hrow)
    refine ⟨ids, hrecorded.evidenced, hids, ?_⟩
    have hstrip : ids.map rstrip = ids := by
      conv_rhs => rw [← List.map_id ids]
      exact List.map_congr_left (fun id hid => (hids id hid).rstrip_eq)
    rw [hstrip]
    exact hrecorded.distinct

end Records

/-! ## A ledger with a newline in an id -/

section Newline

def newlineId : String := "AUD-20990101T000000Z-deadbee-abc123\n"

def newlineFiles : List (String × Bytes) :=
  [("ledger.jsonl", written (object [("schema", word ledgerSchema), ("audit_id", word newlineId),
      ("rollback_id", word "RB"), ("rollback_snapshot", word "snapshot.json"),
      ("rollback_snapshot_sha256", word "86a7d7253420215cbb4abdc7fde93f36a540cda3bdf522027d5e2f302e04c35c"),
      ("transcript", word "transcript.txt"),
      ("transcript_sha256", word "e3b0c44298fc1c149afbf4c8996fb92427ae41e4649b934ca495991b7852b855")])),
    ("snapshot.json", written (object ([("schema", word snapshotSchema), ("audit_id", word newlineId),
      ("rollback_id", word "RB")] ++ snapshotFields.map (fun field => (field, word "a"))))),
    ("transcript.txt", [])]

/-- A ledger of one record, and what it names. -/
def newlineLedger : Files := fun p =>
  (newlineFiles.find? (fun e => decide (Path.parse (str e.1) = p))).map Prod.snd

def newlinePath : Path := .parse (str "ledger.jsonl")

theorem newlineLedger_accepted : validateLedger newlineLedger newlinePath = .ok () := eq_ok_of_okAnd (by decide +kernel)

theorem validateLedger_sound_iff_newline : ∃ rows, loadJsonl newlineLedger newlinePath = .ok rows ∧
    (LedgerSound newlineLedger rows ↔ ∀ row ∈ rows, ¬EndsInNewline row) := by
  obtain ⟨rows, hrows, -⟩ := bind_eq_ok.mp newlineLedger_accepted
  exact ⟨rows, hrows, validateLedger_sound_iff newlineLedger_accepted hrows⟩

/-- The record is accepted, and its id is no word of the language. -/
theorem validateLedger_accepts_newline : ∃ rows, loadJsonl newlineLedger newlinePath = .ok rows ∧
    validateLedger newlineLedger newlinePath = .ok () ∧ ¬LedgerSound newlineLedger rows := by
  have hread : okAnd (fun rows => rows.any (fun row => (row.get "audit_id").eqStr .ascii (str newlineId)))
      (loadJsonl newlineLedger newlinePath) = true := by decide +kernel
  obtain ⟨rows, hrows, hany⟩ := okAnd_eq_true.mp hread
  obtain ⟨row, hrow, hid⟩ := List.any_eq_true.mp hany
  refine ⟨rows, hrows, newlineLedger_accepted, ?_⟩
  rintro ⟨ids, hevidenced, hids, -⟩
  obtain ⟨id, hmem, hrow'⟩ := exists_of_forall₂ hevidenced hrow
  have hnewline : str newlineId = (str newlineId).dropLast ++ [10] := by decide
  refine hrow'.not_endsInNewline (hids id hmem) ⟨(str newlineId).dropLast, ?_⟩
  rw [Value.eqStr_iff.mp hid, ← hnewline]

end Newline

end Exasphere.Qa.AuditLedger

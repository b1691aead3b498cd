import Mathlib.Data.List.DropRight
import Exasphere.Lib.Extraction
import Exasphere.Lib.KeyedList
import Exasphere.Lib.Lines

/-!
# Format files of tracepoints (`src/collectors/live_capture.cpp`)

The kernel describes the payload of a tracepoint by a text with a line for each field, and `parse_format` makes a table
of it, field name to offset and size. The name is the last word of the declaration up to its bracket; the declaration
ends before `offset:`, so it still has the semicolon that the kernel prints behind it. A field without a bracket thus
goes under a key that ends in a semicolon (`FormatField.key`, `parseFormatLine_line`), and no table of a text that the
kernel prints has a key that is the name of such a field (`findKey_scalar`); an array goes under its name
(`findKey_array`).
-/

namespace Exasphere.Collectors

open Exasphere.Lib

/-- Field name to offset and size, by a tracepoint's format file. -/
abbrev Format := List (Bytes × Int32 × Int32)

/-! ## The parser -/

/-- A blank or a tab. -/
def isBlank (c : UInt8) : Bool := decide (c = 32 ∨ c = 9)

/-- The name in a declaration: its last word, without what stands behind a bracket. -/
def declName (decl : Bytes) : Bytes :=
  let before := (decl.takeWhile (· != 91)).rdropWhile isBlank
  before.rtakeWhile (fun c => !(isBlank c || c == 42))

/-- The loop body of `parse_format`; `none` for a line that gives no field. -/
def parseFormatLine (line : Bytes) : Option (Bytes × Int32 × Int32) := do
  let fpos ← indexOf (utf8 "field:") line
  let opos ← indexOf (utf8 "offset:") line
  let spos ← indexOf (utf8 "size:") line
  -- the length of the declaration is a `size_t`; where it wraps, `substr` goes to the end of the line
  let decl := if fpos + 6 ≤ opos then (line.drop (fpos + 6)).take (opos - (fpos + 6)) else line.drop (fpos + 6)
  let fname := declName decl
  if fname.isEmpty then none
  else some (fname, IStream.atoi (line.drop (opos + 7)), IStream.atoi (line.drop (spos + 5)))

/-- `parse_format`, with the content of the file, or `none` where it cannot be opened. -/
def parseFormat (file : Option Bytes) : Format :=
  ((lines (file.getD [])).filterMap parseFormatLine).foldl (fun fields f => insertKey f.1 f.2 fields) []

/-- The format file of a tracepoint. -/
def formatPath (subsys name : String) : Bytes :=
  utf8 "/sys/kernel/tracing/events/" ++ utf8 subsys ++ utf8 "/" ++ utf8 name ++ utf8 "/format"

/-! ## What the kernel prints -/

/-- Letters, digits and underscores. -/
def isIdent (c : UInt8) : Bool :=
  isDigit c || decide (65 ≤ c ∧ c ≤ 90) || decide (97 ≤ c ∧ c ≤ 122) || c == 95

/-- A field of a tracepoint, with the length of an array. -/
structure FormatField where
  type : Bytes
  name : Bytes
  len : Option Nat
  offset : Nat
  size : Nat
  signed : Bool
  type_plain : type.all (fun c => c != 10 && c != 58 && c != 91) = true := by decide
  name_ne : name ≠ [] := by decide
  name_ident : name.all isIdent = true := by decide
  offset_lt : offset < 2 ^ 31 := by decide
  size_lt : size < 2 ^ 31 := by decide

namespace FormatField

variable (f : FormatField)

/-- What stands behind the name. -/
def brackets : Bytes := f.len.elim [] fun n => 91 :: (if n = 0 then [] else decimal n) ++ [93]

/-- The declaration, up to `offset:`. -/
def decl : Bytes := f.type ++ 32 :: f.name ++ f.brackets ++ utf8 ";\t"

/-- The line of the field. -/
def line : Bytes :=
  utf8 "\tfield:" ++ f.decl ++ utf8 "offset:" ++ decimal f.offset ++ utf8 ";\tsize:" ++ decimal f.size ++
    utf8 ";\tsigned:" ++ (if f.signed then utf8 "1;" else utf8 "0;")

/-- The key that the parser makes of the name. -/
def key : Bytes := if f.len.isSome then f.name else f.name ++ [59]

/-- The entry of the field in the table. -/
def entry : Bytes × Int32 × Int32 := (f.key, Int32.ofNat f.offset, Int32.ofNat f.size)

end FormatField

/-- A line of a format file; those that describe no field have no `field:`. -/
inductive FormatLine
  | field (f : FormatField)
  | other (text : Bytes) (one_line : 10 ∉ text) (unmarked : indexOf (utf8 "field:") text = none)

def FormatLine.bytes : FormatLine → Bytes
  | .field f => f.line
  | .other text _ _ => text

def FormatLine.field? : FormatLine → Option FormatField
  | .field f => some f
  | .other _ _ _ => none

/-- The fields of a text. -/
def formatFields (ls : List FormatLine) : List FormatField := ls.filterMap FormatLine.field?

def formatText (ls : List FormatLine) : Bytes := unlines (ls.map FormatLine.bytes)

/-! ## Reading a field -/

section Field

variable {f g : FormatField} {c : UInt8}

theorem ne_of_isIdent (h : isIdent c = true) {d : UInt8} (hd : isIdent d = false) : c ≠ d := by
  rintro rfl
  rw [h] at hd
  cases hd

theorem FormatField.name_byte (h : c ∈ f.name) : isIdent c = true := List.all_eq_true.mp f.name_ident c h

theorem FormatField.type_byte (h : c ∈ f.type) : c ≠ 10 ∧ c ≠ 58 ∧ c ≠ 91 := by
  have := List.all_eq_true.mp f.type_plain c h
  simpa [and_assoc] using this

theorem isIdent_of_isDigit (h : isDigit c = true) : isIdent c = true := by simp [isIdent, h]

theorem FormatField.brackets_byte (h : c ∈ f.brackets) : c = 91 ∨ c = 93 ∨ isDigit c = true := by
  unfold brackets at h
  cases hlen : f.len with
  | none => simp [hlen] at h
  | some n =>
    rw [hlen, Option.elim_some, List.cons_append, List.mem_cons, List.mem_append, List.mem_singleton] at h
    rcases h with h | h | h
    · exact Or.inl h
    · split at h
      · cases h
      · exact Or.inr (Or.inr (isDigit_decimal h))
    · exact Or.inr (Or.inl h)

/-- The declaration has no colon and no newline. -/
theorem FormatField.decl_byte (h : c ∈ f.decl) : c ≠ 58 ∧ c ≠ 10 := by
  have hident : ∀ {d : UInt8}, isIdent d = true → d ≠ 58 ∧ d ≠ 10 := fun hd =>
    ⟨ne_of_isIdent hd (by decide), ne_of_isIdent hd (by decide)⟩
  unfold decl at h
  rw [List.mem_append, List.mem_append, List.mem_append, List.mem_cons] at h
  rcases h with ((h | rfl | h) | h) | h
  · exact ⟨(f.type_byte h).2.1, (f.type_byte h).1⟩
  · decide
  · exact hident (f.name_byte h)
  · rcases f.brackets_byte h with rfl | rfl | hd
    · decide
    · decide
    · exact hident (isIdent_of_isDigit hd)
  · have hall : (utf8 ";\t").all (fun d => d != 58 && d != 10) = true := by decide
    simpa using List.all_eq_true.mp hall c h

theorem rtakeWhile_run {p : UInt8 → Bool} {w text : Bytes} (hw : ∀ c ∈ w, p c = true) (hc : p c = false) :
    (text ++ c :: w).rtakeWhile p = w := by
  have hrev : (text ++ c :: w).reverse = w.reverse ++ c :: text.reverse := by simp
  rw [List.rtakeWhile, hrev, takeWhile_run (by simpa using hw) (by simpa [Halts] using hc), List.reverse_reverse]

theorem rdropWhile_run {p : UInt8 → Bool} {w text : Bytes} (hw : ∀ c ∈ w, p c = true)
    (ht : ∀ c ∈ text.getLast?, p c = false) : (text ++ w).rdropWhile p = text := by
  rw [List.rdropWhile, List.reverse_append, dropWhile_run (by simpa using hw), List.reverse_reverse]
  intro c hc
  rw [List.head?_reverse] at hc
  exact ht c hc

theorem FormatField.not_blank_name (h : c ∈ f.name) : (!(isBlank c || c == 42)) = true := by
  have hident := f.name_byte h
  have hblank : isBlank c = false := by
    rw [isBlank, decide_eq_false_iff_not]
    rintro (rfl | rfl) <;> exact absurd hident (by decide)
  have hstar : c ≠ 42 := ne_of_isIdent hident (by decide)
  simp [hblank, hstar]

theorem FormatField.not_bracket (h : c ∈ f.type ++ 32 :: f.name) : (c != 91) = true := by
  rw [bne_iff_ne]
  rcases List.mem_append.mp h with h | h
  · exact (f.type_byte h).2.2
  · rcases List.mem_cons.mp h with rfl | h
    · decide
    · exact ne_of_isIdent (f.name_byte h) (by decide)

/-- A last word with only blanks up to the bracket behind it. -/
theorem declName_word {type w rest : Bytes} (hplain : ∀ c ∈ type ++ 32 :: w, (c != 91) = true) (hne : w ≠ [])
    (hw : ∀ c ∈ w, (!(isBlank c || c == 42)) = true) (hrest : ∀ c ∈ rest.takeWhile (· != 91), isBlank c = true) :
    declName (type ++ 32 :: w ++ rest) = w := by
  have hlast : ∀ c ∈ (type ++ 32 :: w).getLast?, isBlank c = false := by
    intro c hc
    have hmem : c ∈ w := by
      rw [List.getLast?_append_of_ne_nil _ (List.cons_ne_nil _ _), List.getLast?_cons_of_ne_nil hne] at hc
      exact List.mem_of_getLast? hc
    have := hw c hmem
    simp only [Bool.not_eq_true', Bool.or_eq_false_iff] at this
    exact this.1
  unfold declName
  rw [List.takeWhile_append_of_pos hplain]
  dsimp only
  rw [rdropWhile_run hrest hlast, rtakeWhile_run hw (by decide)]

/-- The name of a field is read off its declaration, with the semicolon if there is no bracket. -/
theorem FormatField.declName_decl (f : FormatField) : declName f.decl = f.key := by
  have hname : ∀ c ∈ f.name, (!(isBlank c || c == 42)) = true := fun c hc => f.not_blank_name hc
  unfold key
  cases hlen : f.len with
  | none =>
    have hdecl : f.decl = f.type ++ 32 :: (f.name ++ [59]) ++ [9] := by
      have hend : utf8 ";\t" = [59, 9] := by decide
      simp [decl, brackets, hlen, hend]
    rw [hdecl, declName_word (fun c hc => ?_) (by simp) (fun c hc => ?_) (List.all_eq_true.mp (by decide))]
    · rfl
    · rw [← List.cons_append, ← List.append_assoc] at hc
      rcases List.mem_append.mp hc with hc | hc
      · exact f.not_bracket hc
      · obtain rfl := List.mem_singleton.mp hc
        decide
    · rcases List.mem_append.mp hc with hc | hc
      · exact hname c hc
      · obtain rfl := List.mem_singleton.mp hc
        decide
  | some n =>
    have hdecl : f.decl = f.type ++ 32 :: f.name ++ (f.brackets ++ utf8 ";\t") := by simp [decl]
    have hcut : (f.brackets ++ utf8 ";\t").takeWhile (· != 91) = [] := by simp [brackets, hlen]
    rw [hdecl, declName_word (fun c hc => f.not_bracket hc) f.name_ne hname (by rw [hcut]; nofun)]
    rfl

theorem FormatField.key_ne_nil (f : FormatField) : f.key ≠ [] := by
  unfold key
  split
  · exact f.name_ne
  · simp

/-- The line of a field, at its colons. -/
theorem FormatField.line_eq (f : FormatField) : f.line = utf8 "\tfield" ++ 58 :: ((f.decl ++ utf8 "offset") ++ 58 ::
    ((decimal f.offset ++ utf8 ";\tsize") ++ 58 :: (decimal f.size ++ (utf8 ";\tsigned:" ++
      (if f.signed then utf8 "1;" else utf8 "0;"))))) := by
  have hfield : utf8 "\tfield:" = utf8 "\tfield" ++ [58] := by decide
  have hoffset : utf8 "offset:" = utf8 "offset" ++ [58] := by decide
  have hsize : utf8 ";\tsize:" = utf8 ";\tsize" ++ [58] := by decide
  simp [line, hfield, hoffset, hsize]

theorem halts_literal {s : Bytes} (t : Bytes) (h : s.head?.any (fun c => !isDigit c) = true) :
    Halts isDigit (s ++ t) := by
  obtain ⟨d, hd, hdigit⟩ := (Option.any_eq_true ..).mp h
  intro e he
  rw [List.head?_append, hd] at he
  obtain rfl := Option.some.inj he
  simpa using hdigit

/-- The colons of a line are those of its three markers and of `signed:`. -/
theorem FormatField.colon_not_mem (f : FormatField) : 58 ∉ utf8 "\tfield" ∧ 58 ∉ f.decl ++ utf8 "offset" ∧
    58 ∉ decimal f.offset ++ utf8 ";\tsize" := by
  refine ⟨by decide, fun h => ?_, fun h => ?_⟩
  · rcases List.mem_append.mp h with h | h
    · exact (f.decl_byte h).1 rfl
    · exact absurd h (by decide)
  · rcases List.mem_append.mp h with h | h
    · exact absurd (isDigit_decimal h) (by decide)
    · exact absurd h (by decide)

theorem lengths_markers : (utf8 "\tfield").length = 6 ∧ (utf8 "offset").length = 6 ∧ (utf8 ";\tsize").length = 6 ∧
    (utf8 "size").length = 4 := by decide

theorem FormatField.indexOf_field (f : FormatField) : indexOf (utf8 "field:") f.line = some 1 := by
  have hmarker : utf8 "field:" = utf8 "field" ++ [58] := by decide
  rw [f.line_eq, hmarker, indexOf_segment (by decide) f.colon_not_mem.1 ⟨[9], by decide⟩]
  rfl

theorem FormatField.indexOf_offset (f : FormatField) :
    indexOf (utf8 "offset:") f.line = some (f.decl.length + 7) := by
  have hmarker : utf8 "offset:" = utf8 "offset" ++ [58] := by decide
  obtain ⟨hfield, hdecl, -⟩ := f.colon_not_mem
  rw [f.line_eq, hmarker, indexOf_segment_skip (by decide) hfield (by decide),
    indexOf_segment (by decide) hdecl (List.suffix_append _ _), Option.map_some, List.length_append]
  rfl

theorem FormatField.indexOf_size (f : FormatField) :
    indexOf (utf8 "size:") f.line = some (f.decl.length + (decimal f.offset).length + 16) := by
  have hmarker : utf8 "size:" = utf8 "size" ++ [58] := by decide
  obtain ⟨hfield, hdecl, hoffset⟩ := f.colon_not_mem
  -- in front of the second colon stands another marker
  have hother : ¬utf8 "size" <:+ f.decl ++ utf8 "offset" := by
    rintro ⟨front, hfront⟩
    have hlast := congrArg List.getLast? hfront
    rw [List.getLast?_append_of_ne_nil _ (by decide), List.getLast?_append_of_ne_nil _ (by decide)] at hlast
    exact absurd hlast (by decide)
  rw [f.line_eq, hmarker, indexOf_segment_skip (by decide) hfield (by decide),
    indexOf_segment_skip (by decide) hdecl hother,
    indexOf_segment (by decide) hoffset ⟨decimal f.offset ++ [59, 9], by simp; decide⟩, Option.map_some,
    Option.map_some]
  simp only [List.length_append, lengths_markers]
  congr 1
  omega

theorem FormatField.take_decl (f : FormatField) : (f.line.drop 7).take f.decl.length = f.decl := by
  have hline : f.line = (utf8 "\tfield" ++ [58]) ++ (f.decl ++ (utf8 "offset" ++ 58 ::
      ((decimal f.offset ++ utf8 ";\tsize") ++ 58 :: (decimal f.size ++ (utf8 ";\tsigned:" ++
        (if f.signed then utf8 "1;" else utf8 "0;")))))) := by
    rw [f.line_eq]
    simp
  rw [hline, List.drop_left' (by decide), List.take_left' rfl]

theorem FormatField.atoi_offset (f : FormatField) :
    IStream.atoi (f.line.drop (f.decl.length + 7 + 7)) = Int32.ofNat f.offset := by
  have hline : f.line = (utf8 "\tfield" ++ 58 :: (f.decl ++ utf8 "offset") ++ [58]) ++ (decimal f.offset ++
      (utf8 ";\tsize" ++ 58 :: (decimal f.size ++ (utf8 ";\tsigned:" ++
        (if f.signed then utf8 "1;" else utf8 "0;"))))) := by
    rw [f.line_eq]
    simp
  have hfront : (utf8 "\tfield" ++ 58 :: (f.decl ++ utf8 "offset") ++ [58]).length = f.decl.length + 7 + 7 := by
    simp only [List.length_append, List.length_cons, List.length_nil, lengths_markers]
    omega
  rw [hline, List.drop_left' hfront, IStream.atoi_decimal f.offset_lt (halts_literal _ (by decide))]

theorem FormatField.atoi_size (f : FormatField) :
    IStream.atoi (f.line.drop (f.decl.length + (decimal f.offset).length + 16 + 5)) = Int32.ofNat f.size := by
  have hline : f.line = (utf8 "\tfield" ++ 58 :: (f.decl ++ utf8 "offset") ++ 58 :: (decimal f.offset ++
      utf8 ";\tsize") ++ [58]) ++ (decimal f.size ++ (utf8 ";\tsigned:" ++
        (if f.signed then utf8 "1;" else utf8 "0;"))) := by
    rw [f.line_eq]
    simp
  have hfront : (utf8 "\tfield" ++ 58 :: (f.decl ++ utf8 "offset") ++ 58 :: (decimal f.offset ++
      utf8 ";\tsize") ++ [58]).length = f.decl.length + (decimal f.offset).length + 16 + 5 := by
    simp only [List.length_append, List.length_cons, List.length_nil, lengths_markers]
    omega
  rw [hline, List.drop_left' hfront, IStream.atoi_decimal f.size_lt (halts_literal _ (by decide))]

/-- Every line of a field is read, with the key of the field, its offset and its size. -/
theorem parseFormatLine_line (f : FormatField) : parseFormatLine f.line = some f.entry := by
  have hname : ¬f.key.isEmpty = true := by
    rw [List.isEmpty_iff]
    exact f.key_ne_nil
  have hcount : 1 + 6 ≤ f.decl.length + 7 := by omega
  have hlen : f.decl.length + 7 - (1 + 6) = f.decl.length := by omega
  simp only [parseFormatLine, f.indexOf_field, f.indexOf_offset, f.indexOf_size, Option.bind_eq_bind,
    Option.bind_some, if_pos hcount, hlen, f.take_decl, f.declName_decl, if_neg hname, f.atoi_offset, f.atoi_size]
  rfl

end Field

/-! ## The table of a text -/

section Table

variable {ls : List FormatLine} {f g : FormatField}

theorem FormatField.newline_not_mem (f : FormatField) : 10 ∉ f.line := by
  have hdigits : ∀ n, 10 ∉ decimal n := fun n h => absurd (isDigit_decimal h) (by decide)
  have hdecl : 10 ∉ f.decl := fun h => (f.decl_byte h).2 rfl
  have hsigned : 10 ∉ (if f.signed then utf8 "1;" else utf8 "0;") := by
    split <;> decide
  have hliterals : 10 ∉ utf8 "\tfield:" ∧ 10 ∉ utf8 "offset:" ∧ 10 ∉ utf8 ";\tsize:" ∧ 10 ∉ utf8 ";\tsigned:" := by
    decide
  simp only [line, List.mem_append, not_or, and_assoc]
  exact ⟨hliterals.1, hdecl, hliterals.2.1, hdigits _, hliterals.2.2.1, hdigits _, hliterals.2.2.2, hsigned⟩

theorem parseFormatLine_bytes (l : FormatLine) : parseFormatLine l.bytes = l.field?.map FormatField.entry := by
  cases l with
  | field f => exact parseFormatLine_line f
  | other text _ unmarked =>
    rw [FormatLine.bytes, parseFormatLine, unmarked]
    rfl

/-- A table has the entries of the fields, and the last one of a key counts. -/
theorem findKey_parseFormat (ls : List FormatLine) (k : Bytes) : findKey k (parseFormat (some (formatText ls))) =
    findKey k ((formatFields ls).map FormatField.entry).reverse := by
  have hlines : lines (formatText ls) = ls.map FormatLine.bytes := by
    refine lines_unlines fun l hl => ?_
    obtain ⟨l, -, rfl⟩ := List.mem_map.mp hl
    cases l with
    | field f => exact f.newline_not_mem
    | other text one_line _ => exact one_line
  have hentries : (ls.map FormatLine.bytes).filterMap parseFormatLine = (formatFields ls).map FormatField.entry := by
    rw [List.filterMap_map, formatFields, List.map_filterMap]
    exact List.filterMap_congr fun l _ => parseFormatLine_bytes l
  rw [parseFormat, Option.getD_some, hlines, hentries, findKey_foldl_insertKey, findKey_nil, Option.or_none]

/-- Fields with different names have different keys: no name ends in a semicolon. -/
theorem FormatField.name_eq_of_key (h : f.key = g.key) : f.name = g.name := by
  have hsemi : ∀ {f g : FormatField}, f.name ≠ g.name ++ [59] := by
    intro f g heq
    have hmem : (59 : UInt8) ∈ f.name := by simp [heq]
    exact absurd (f.name_byte hmem) (by decide)
  unfold key at h
  split_ifs at h
  · exact h
  · exact absurd h hsemi
  · exact absurd h.symm hsemi
  · exact List.append_cancel_right h

variable (hnames : ((formatFields ls).map FormatField.name).Nodup)

include hnames

/-- Two fields of a text with one name are one field. -/
theorem field_eq_of_name (hf : f ∈ formatFields ls) (hg : g ∈ formatFields ls) (h : f.name = g.name) : f = g :=
  List.inj_on_of_nodup_map hnames hf hg h

/-- The name of a field without a bracket is no key of the table. -/
theorem findKey_scalar (hf : f ∈ formatFields ls) (hlen : f.len = none) :
    findKey f.name (parseFormat (some (formatText ls))) = none := by
  rw [findKey_parseFormat]
  by_contra hne
  obtain ⟨v, hv⟩ := Option.ne_none_iff_exists'.mp hne
  obtain ⟨g, hg, hentry⟩ := List.mem_map.mp (List.mem_reverse.mp (mem_of_findKey hv))
  have hkey : g.key = f.name := congrArg Prod.fst hentry
  by_cases hlen' : g.len.isSome = true
  · rw [FormatField.key, if_pos hlen'] at hkey
    obtain rfl := field_eq_of_name hnames hg hf hkey
    rw [hlen] at hlen'
    cases hlen'
  · rw [FormatField.key, if_neg hlen'] at hkey
    have hmem : (59 : UInt8) ∈ f.name := by simp [← hkey]
    exact absurd (f.name_byte hmem) (by decide)

/-- An array goes under its name. -/
theorem findKey_array (hf : f ∈ formatFields ls) (hlen : f.len.isSome = true) :
    findKey f.name (parseFormat (some (formatText ls))) = some (Int32.ofNat f.offset, Int32.ofNat f.size) := by
  have hkeys : (((formatFields ls).map FormatField.entry).reverse.map Prod.fst).Nodup := by
    rw [List.map_reverse, List.nodup_reverse, List.map_map]
    refine List.Nodup.map_on (fun g hg h hh hkey => ?_) (List.Nodup.of_map _ hnames)
    exact field_eq_of_name hnames hg hh (FormatField.name_eq_of_key hkey)
  rw [findKey_parseFormat]
  refine findKey_of_mem hkeys ?_
  rw [List.mem_reverse]
  refine List.mem_map.mpr ⟨f, hf, ?_⟩
  rw [FormatField.entry, FormatField.key, if_pos hlen]

end Table

/-! ## The format of `sched_switch` -/

/-- The format file of the `sched_switch` tracepoint: the two pids are numbers and the name is an array. -/
structure SwitchFormat where
  lines : List FormatLine
  names : ((formatFields lines).map FormatField.name).Nodup
  prevPid : FormatField
  nextPid : FormatField
  nextComm : FormatField
  prev_mem : prevPid ∈ formatFields lines
  next_mem : nextPid ∈ formatFields lines
  comm_mem : nextComm ∈ formatFields lines
  prev_name : prevPid.name = utf8 "prev_pid"
  next_name : nextPid.name = utf8 "next_pid"
  comm_name : nextComm.name = utf8 "next_comm"
  prev_scalar : prevPid.len = none
  next_scalar : nextPid.len = none
  comm_array : nextComm.len = some 16

namespace SwitchFormat

variable (format : SwitchFormat)

/-- The table that the capture makes of it. -/
def table : Format := parseFormat (some (formatText format.lines))

theorem findKey_prevPid : findKey (utf8 "prev_pid") format.table = none := by
  rw [← format.prev_name]
  exact findKey_scalar format.names format.prev_mem format.prev_scalar

theorem findKey_nextPid : findKey (utf8 "next_pid") format.table = none := by
  rw [← format.next_name]
  exact findKey_scalar format.names format.next_mem format.next_scalar

theorem findKey_nextComm : findKey (utf8 "next_comm") format.table =
    some (Int32.ofNat format.nextComm.offset, Int32.ofNat format.nextComm.size) := by
  rw [← format.comm_name]
  exact findKey_array format.names format.comm_mem (by rw [format.comm_array]; rfl)

end SwitchFormat

end Exasphere.Collectors

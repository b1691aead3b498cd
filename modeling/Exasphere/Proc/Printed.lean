import Exasphere.Proc.Facts

/-!
# Texts of the kernel

The files under `/proc`, as the kernel prints them, are read back.

- The CPU lines of `/proc/stat` are all read, whatever other lines stand between them (`readStat_text`).
- The entry of a process is what its line says, whatever its command is: a command may hold blanks and parentheses, and
  nothing of it is kept (`readProcesses_text`).
- `/proc/meminfo` is read up to the first line without a unit. That line is kept when another one follows, which serves
  as its unit; nothing behind is read (`readMeminfo_text`).
-/

namespace Exasphere.Proc

open Exasphere.Lib Exasphere.Json

/-! ## Numbers -/

/-- The integers of `w + 1` bits. -/
def Fits (w : Nat) (v : Int) : Prop := -2 ^ w ≤ v ∧ v < 2 ^ w

instance (w : Nat) (v : Int) : Decidable (Fits w v) := inferInstanceAs (Decidable (_ ∧ _))

instance (p : UInt8 → Bool) (t : Bytes) : Decidable (Halts p t) :=
  decidable_of_iff (t.head?.all (fun c => !p c) = true) (by cases t <;> simp [Halts])

/-- A number behind a blank. -/
def field (v : Int) : Bytes := 32 :: IStream.signedText v

section Fields

variable {t : Bytes} {v : Int}

theorem isSpace_blank : ∀ c ∈ [(32 : UInt8)], IStream.isSpace c = true := List.all_eq_true.mp (by decide)

theorem halts_field (v : Int) (t : Bytes) : Halts isDigit (field v ++ t) := by
  intro c hc
  obtain rfl := Option.some.inj hc
  decide

theorem halts_fields {vs : List Int} (ht : Halts isDigit t) : Halts isDigit (vs.flatMap field ++ t) := by
  cases vs with
  | nil => exact ht
  | cons v vs =>
    rw [List.flatMap_cons, List.append_assoc]
    exact halts_field v _

theorem extract_field (h : Fits 63 v) (ht : Halts isDigit t) (x : Int) :
    extract (some (field v ++ t)) x = (some t, v) :=
  IStream.number_signedText isSpace_blank ht h.1 h.2 x

theorem extractInt_field (h : Fits 31 v) (ht : Halts isDigit t) (x : Int) :
    extractInt (some (field v ++ t)) x = (some t, v) :=
  IStream.number_signedText isSpace_blank ht h.1 h.2 x

theorem skipNumbers_fields {vs : List Int} (h : ∀ v ∈ vs, Fits 63 v) (ht : Halts isDigit t) :
    skipNumbers vs.length (some (vs.flatMap field ++ t)) = some t := by
  induction vs with
  | nil => rfl
  | cons v vs ih =>
    rw [List.length_cons, List.flatMap_cons, List.append_assoc, skipNumbers,
      extract_field (h v (by simp)) (halts_fields ht)]
    exact ih fun u hu => h u (by simp [hu])

theorem field_byte {c : UInt8} (h : c ∈ field v) : c = 32 ∨ c = 45 ∨ isDigit c = true := by
  rcases List.mem_cons.mp h with rfl | h
  · exact Or.inl rfl
  · exact Or.inr (IStream.signedText_byte h)

theorem not_mem_fields {vs : List Int} {c : UInt8} (h : c ≠ 32 ∧ c ≠ 45 ∧ isDigit c = false) :
    c ∉ vs.flatMap field := by
  intro hmem
  obtain ⟨v, -, hc⟩ := List.mem_flatMap.mp hmem
  rcases field_byte hc with hc | hc | hc
  · exact h.1 hc
  · exact h.2.1 hc
  · rw [h.2.2] at hc
    cases hc

end Fields

/-! ## `/proc/stat` -/

/-- A CPU line: the sum over all CPUs, or the line of one. -/
structure CpuLine where
  cpu : Option Nat
  stat : CpuStat
  rest : Bytes
  fits : ∀ v ∈ [stat.user, stat.nice, stat.system, stat.idle, stat.iowait, stat.irq, stat.softirq, stat.steal],
    Fits 63 v
  rest_halts : Halts isDigit rest
  rest_line : 10 ∉ rest

/-- The number of a CPU, or a blank. -/
def CpuLine.label (l : CpuLine) : Bytes := l.cpu.elim [32] decimal

def CpuLine.values (l : CpuLine) : List Int :=
  [l.stat.user, l.stat.nice, l.stat.system, l.stat.idle, l.stat.iowait, l.stat.irq, l.stat.softirq, l.stat.steal]

def CpuLine.text (l : CpuLine) : Bytes := utf8 "cpu" ++ (l.label ++ (l.values.flatMap field ++ l.rest))

theorem CpuLine.cpu_text (l : CpuLine) : utf8 "cpu" <+: l.text := ⟨_, rfl⟩

theorem CpuLine.blank_iff (l : CpuLine) : utf8 "cpu " <+: l.text ↔ l.cpu = none := by
  have hsplit : utf8 "cpu " = utf8 "cpu" ++ [32] := by decide
  rw [hsplit, CpuLine.text, List.prefix_append_right_inj, CpuLine.label]
  cases l.cpu with
  | none => exact ⟨fun _ => rfl, fun _ => ⟨_, rfl⟩⟩
  | some n =>
    obtain ⟨c, t, ht⟩ := List.exists_cons_of_ne_nil (decimal_ne_nil n)
    have hdigit : isDigit c = true := isDigit_decimal (by rw [ht]; simp)
    simp only [Option.elim_some, ht, List.cons_append, List.cons_prefix_cons, reduceCtorEq, iff_false]
    rintro ⟨rfl, -⟩
    cases hdigit

/-- What follows the label of a CPU line. -/
theorem CpuLine.label_read (l : CpuLine) : ∃ label gap, utf8 "cpu" <+: label ∧ (∀ c ∈ gap, IStream.isSpace c = true) ∧
    IStream.word (some l.text) [] = (some (gap ++ (IStream.signedText l.stat.user ++
      (l.values.tail.flatMap field ++ l.rest))), label) := by
  have hcpu : ∀ c ∈ utf8 "cpu", IStream.notSpace c = true := List.all_eq_true.mp (by decide)
  cases hid : l.cpu with
  | none =>
    have htext : l.text = [] ++ (utf8 "cpu" ++ (32 :: 32 :: (IStream.signedText l.stat.user ++
        (l.values.tail.flatMap field ++ l.rest)))) := by
      simp [CpuLine.text, CpuLine.label, CpuLine.values, hid, field]
    refine ⟨utf8 "cpu", [32, 32], List.prefix_rfl, List.all_eq_true.mp (by decide), ?_⟩
    rw [htext, IStream.word_run (by simp) ⟨utf8 "cpu", by decide, hcpu⟩ (fun c hc => by
      obtain rfl := Option.some.inj hc
      decide)]
    rfl
  | some n =>
    have htext : l.text = [] ++ ((utf8 "cpu" ++ decimal n) ++ (32 :: (IStream.signedText l.stat.user ++
        (l.values.tail.flatMap field ++ l.rest)))) := by
      simp [CpuLine.text, CpuLine.label, CpuLine.values, hid, field]
    have hword : ∀ c ∈ utf8 "cpu" ++ decimal n, IStream.notSpace c = true := by
      intro c hc
      rcases List.mem_append.mp hc with hc | hc
      · exact hcpu c hc
      · simp [IStream.notSpace, IStream.isSpace_of_isDigit c (isDigit_decimal hc)]
    refine ⟨utf8 "cpu" ++ decimal n, [32], List.prefix_append _ _, isSpace_blank, ?_⟩
    rw [htext, IStream.word_run (by simp) ⟨utf8 "cpu" ++ decimal n, by simp [decimal_ne_nil], hword⟩ (fun c hc => by
      obtain rfl := Option.some.inj hc
      decide)]
    rfl

theorem parseCpuLine_text (l : CpuLine) (out : CpuStat) : parseCpuLine l.text out = (true, l.stat) := by
  obtain ⟨label, gap, hlabel, hgap, hword⟩ := l.label_read
  have hfits := l.fits
  simp only [List.forall_mem_cons, List.not_mem_nil, false_implies, implies_true, and_true] at hfits
  obtain ⟨h₁, h₂, h₃, h₄, h₅, h₆, h₇, h₈⟩ := hfits
  have hrest : ∀ vs : List Int, Halts isDigit (vs.flatMap field ++ l.rest) := fun vs => halts_fields l.rest_halts
  have huser : extract (some (gap ++ (IStream.signedText l.stat.user ++ (l.values.tail.flatMap field ++ l.rest))))
      out.user = (some (l.values.tail.flatMap field ++ l.rest), l.stat.user) :=
    IStream.number_signedText hgap (hrest _) h₁.1 h₁.2 _
  simp only [CpuLine.values, List.tail_cons, List.flatMap_cons, List.flatMap_nil, List.append_assoc,
    List.nil_append] at hword huser
  unfold parseCpuLine
  simp only [hword, hlabel, not_true_eq_false, if_false, huser, extract_field h₂ (halts_field _ _),
    extract_field h₃ (halts_field _ _), extract_field h₄ (halts_field _ _), extract_field h₅ (halts_field _ _),
    extract_field h₆ (halts_field _ _), extract_field h₇ (halts_field _ _), extract_field h₈ l.rest_halts]

theorem CpuLine.newline_not_mem (l : CpuLine) : 10 ∉ l.text := by
  have hlabel : (10 : UInt8) ∉ l.label := by
    unfold CpuLine.label
    cases l.cpu with
    | none => decide
    | some n => exact fun hmem => absurd (isDigit_decimal hmem) (by decide)
  simp only [CpuLine.text, List.mem_append, not_or]
  exact ⟨by decide, hlabel, not_mem_fields (by decide), l.rest_line⟩

/-- A line of the file, without its newline. -/
inductive StatLine
  | cpu (line : CpuLine)
  | other (text : Bytes) (line : 10 ∉ text) (label : ¬utf8 "cpu" <+: text)

def StatLine.text : StatLine → Bytes
  | .cpu l => l.text
  | .other text _ _ => text

/-- The sum over all CPUs. -/
def StatLine.aggregate? : StatLine → Option CpuStat
  | .cpu l => if l.cpu = none then some l.stat else none
  | .other .. => none

/-- The line of one CPU. -/
def StatLine.perCpu? : StatLine → Option CpuStat
  | .cpu l => if l.cpu = none then none else some l.stat
  | .other .. => none

theorem statStep_text (l : StatLine) (cpus : CpuStat × List CpuStat) :
    statStep cpus l.text = (l.aggregate?.getD cpus.1, cpus.2 ++ l.perCpu?.toList) := by
  cases l with
  | cpu l =>
    unfold statStep StatLine.text
    rw [if_neg (not_not.mpr l.cpu_text), parseCpuLine_text]
    dsimp only
    by_cases hcpu : l.cpu = none
    · rw [if_pos (l.blank_iff.mpr hcpu)]
      simp [StatLine.aggregate?, StatLine.perCpu?, hcpu]
    · rw [if_neg (mt l.blank_iff.mp hcpu)]
      simp [StatLine.aggregate?, StatLine.perCpu?, hcpu]
  | other text _ hlabel =>
    unfold statStep StatLine.text
    rw [if_pos hlabel]
    simp [StatLine.aggregate?, StatLine.perCpu?]

/-- The CPU lines are read among the others. -/
theorem readStat_text (ls : List StatLine) : readStat (unlines (ls.map StatLine.text)) =
    ((ls.filterMap StatLine.aggregate?).getLast?.getD {}, ls.filterMap StatLine.perCpu?) := by
  have hlines : ∀ l ∈ ls.map StatLine.text, 10 ∉ l := by
    intro l hl
    obtain ⟨item, -, rfl⟩ := List.mem_map.mp hl
    cases item with
    | cpu l => exact l.newline_not_mem
    | other text hline _ => exact hline
  have hloop : ∀ (ls : List StatLine) (cpus : CpuStat × List CpuStat), (ls.map StatLine.text).foldl statStep cpus =
      ((ls.filterMap StatLine.aggregate?).getLast?.getD cpus.1, cpus.2 ++ ls.filterMap StatLine.perCpu?) := by
    intro ls
    induction ls with
    | nil => simp
    | cons l ls ih =>
      intro cpus
      rw [List.map_cons, List.foldl_cons, statStep_text, ih]
      cases ha : l.aggregate? with
      | none => cases hp : l.perCpu? <;> simp [ha, hp]
      | some cs => cases hp : l.perCpu? <;> simp [ha, hp, List.getLast?_cons]
  rw [readStat, lines_unlines hlines, hloop, List.nil_append]

/-! ## `/proc/<pid>/stat` -/

/-- The line of a process. -/
structure ProcessLine where
  pid : Nat
  comm : Bytes
  state : UInt8
  ppid : Int
  /-- From the process group to the flags. -/
  ids : List Int
  faults : List Int
  utime : Int
  stime : Int
  /-- From the times of the children to the nice value. -/
  waits : List Int
  threads : Int
  rest : Bytes
  state_word : IStream.isSpace state = false ∧ state ≠ 41
  ppid_fits : Fits 31 ppid
  ids_fit : ids.length = 5 ∧ ∀ v ∈ ids, Fits 63 v
  faults_fit : faults.length = 4 ∧ ∀ v ∈ faults, Fits 63 v
  times_fit : Fits 63 utime ∧ Fits 63 stime
  waits_fit : waits.length = 4 ∧ ∀ v ∈ waits, Fits 63 v
  threads_fit : Fits 31 threads
  rest_halts : Halts isDigit rest
  rest_paren : 41 ∉ rest

/-- The numbers behind the state. -/
def ProcessLine.numbers (p : ProcessLine) : Bytes :=
  field p.ppid ++ (p.ids.flatMap field ++ (p.faults.flatMap field ++ (field p.utime ++ (field p.stime ++
    (p.waits.flatMap field ++ (field p.threads ++ p.rest))))))

def ProcessLine.text (p : ProcessLine) : Bytes :=
  decimal p.pid ++ 32 :: 40 :: p.comm ++ 41 :: 32 :: p.state :: p.numbers

def ProcessLine.info (p : ProcessLine) (pid : Int) : ProcessInfo where
  pid := pid
  ppid := p.ppid
  state := p.state
  threads := p.threads
  utime := p.utime
  stime := p.stime

theorem ProcessLine.paren_not_mem (p : ProcessLine) : 41 ∉ 32 :: p.state :: p.numbers := by
  have hfields : ∀ vs : List Int, (41 : UInt8) ∉ vs.flatMap field := fun vs => not_mem_fields (by decide)
  have hfield : ∀ v : Int, (41 : UInt8) ∉ field v := by
    intro v hmem
    exact hfields [v] (by simpa using hmem)
  simp only [ProcessLine.numbers, List.mem_cons, List.mem_append, not_or]
  exact ⟨by decide, p.state_word.2.symm, hfield _, hfields _, hfields _, hfield _, hfield _, hfields _, hfield _,
    p.rest_paren⟩

/-- Whatever the command is, the text behind its last parenthesis is that of the state and the numbers. -/
theorem ProcessLine.afterComm_text (p : ProcessLine) : afterComm p.text = some (32 :: p.state :: p.numbers) := by
  have hmem : 41 ∈ p.text := by simp [ProcessLine.text]
  have hafter : ∀ c ∈ (32 :: p.state :: p.numbers).reverse, decide (c ≠ 41) = true := by
    intro c hc
    rw [decide_eq_true_eq]
    rintro rfl
    exact p.paren_not_mem (List.mem_reverse.mp hc)
  have hrev : p.text.reverse = (32 :: p.state :: p.numbers).reverse ++
      41 :: (decimal p.pid ++ 32 :: 40 :: p.comm).reverse := by
    simp [ProcessLine.text]
  rw [afterComm, if_pos hmem, hrev, takeWhile_run hafter, List.reverse_reverse]
  intro c hc
  obtain rfl := Option.some.inj hc
  decide

/-- A process is read as its line says. -/
theorem parseProcess_text (host : Host) (name : Bytes) (p : ProcessLine) :
    parseProcess host name p.text = some (p.info (toInt (parseLl name))) := by
  have hstate : extractChar (some (p.state :: p.numbers)) host.indeterminate = (some p.numbers, p.state) := by
    have hskip : IStream.skipws (some (p.state :: p.numbers)) = some (p.state :: p.numbers) :=
      IStream.skipws_run (List.forall_mem_nil _) (by simp) (fun c hc => Option.some.inj hc ▸ p.state_word.1)
    rw [extractChar, hskip]
    rfl
  have hids := fun t ht => skipNumbers_fields (t := t) p.ids_fit.2 ht
  have hfaults := fun t ht => skipNumbers_fields (t := t) p.faults_fit.2 ht
  have hwaits := fun t ht => skipNumbers_fields (t := t) p.waits_fit.2 ht
  rw [p.ids_fit.1] at hids
  rw [p.faults_fit.1] at hfaults
  rw [p.waits_fit.1] at hwaits
  have hlong : ¬(32 :: p.state :: p.numbers).length ≤ 1 := by simp
  unfold parseProcess
  rw [p.afterComm_text]
  simp only [if_neg hlong, List.tail_cons, hstate]
  simp only [ProcessLine.numbers, extractInt_field p.ppid_fits (halts_fields (halts_fields (halts_field _ _))),
    hids _ (halts_fields (halts_field _ _)), hfaults _ (halts_field _ _), extract_field p.times_fit.1 (halts_field _ _),
    extract_field p.times_fit.2 (halts_fields (halts_field _ _)), hwaits _ (halts_field _ _),
    extractInt_field p.threads_fit p.rest_halts, ProcessLine.info]

theorem parseLl_decimal {n : Nat} (h : n < 2 ^ 31) : toInt (parseLl (decimal n)) = n := by
  have hdigits : (decimal n).takeWhile isDigit = decimal n := by
    simpa using takeWhile_run (fun c hc => isDigit_decimal hc) (halts_nil (p := isDigit))
  have hsign : splitSign (decimal n) = (false, decimal n) := by
    refine if_neg fun hhead => ?_
    exact absurd (isDigit_decimal (List.mem_of_mem_head? hhead)) (by decide)
  have hvalue : parseLl (decimal n) = n := by
    unfold parseLl
    rw [hsign]
    simp only [hdigits, readDecimal_decimal, Bool.false_eq_true, if_false, if_neg (decimal_ne_nil n)]
    exact if_pos ⟨by omega, by omega⟩
  rw [hvalue, toInt, BitVec.toInt_ofInt]
  exact Int.bmod_eq_of_le (by omega) (by omega)

/-- An entry of `/proc`: a process, with its line where it can be read, or another name. -/
inductive ProcEntry
  | process (pid : Nat) (line : Option ProcessLine) (fits : pid < 2 ^ 31)
  | other (name : Bytes) (letters : isNumeric name = false)

def ProcEntry.name : ProcEntry → Bytes
  | .process pid _ _ => decimal pid
  | .other name _ => name

def ProcEntry.info? : ProcEntry → Option ProcessInfo
  | .process pid line _ => line.map (ProcessLine.info · pid)
  | .other _ _ => none

theorem isNumeric_decimal (n : Nat) : isNumeric (decimal n) = true := by
  simp only [isNumeric, Bool.and_eq_true, decide_eq_true_eq, List.all_eq_true]
  exact ⟨decimal_ne_nil n, fun c hc => isDigit_decimal hc⟩

/-- The processes are those of the entries, in their order. -/
theorem readProcesses_text {host : Host} {entries : List ProcEntry}
    (hlist : host.listDir (utf8 "/proc") = some (entries.map ProcEntry.name))
    (hread : ∀ pid line fits, ProcEntry.process pid line fits ∈ entries →
      host.readFile (statPath (decimal pid)) = line.map ProcessLine.text) :
    readProcesses host = entries.filterMap ProcEntry.info? := by
  unfold readProcesses
  rw [hlist]
  dsimp only
  clear hlist
  induction entries with
  | nil => rfl
  | cons e entries ih =>
    have ih := ih fun pid line fits hmem => hread pid line fits (List.mem_cons_of_mem _ hmem)
    cases e with
    | process pid line fits =>
      have hline := hread pid line fits List.mem_cons_self
      have hinfo : (host.readFile (statPath (decimal pid))).bind (parseProcess host (decimal pid)) =
          (ProcEntry.process pid line fits).info? := by
        rw [hline]
        cases line with
        | none => rfl
        | some p => simp [parseProcess_text, parseLl_decimal fits, ProcEntry.info?]
      rw [List.map_cons, ProcEntry.name, List.filter_cons_of_pos (isNumeric_decimal pid), List.filterMap_cons,
        List.filterMap_cons, hinfo, ih]
    | other name hletters =>
      rw [List.map_cons, ProcEntry.name, List.filter_cons_of_neg (by simp [hletters]), ih]
      rfl

/-! ## `/proc/meminfo` -/

/-- A line `<key> <value> [<unit>]`. -/
structure MemLine where
  key : Run IStream.notSpace
  gap : Run IStream.isSpace
  val : Int
  unit : Option (Run IStream.notSpace)
  fits : Fits 63 val
  key_letter : Halts IStream.startsNumber key.bytes
  unit_letter : ∀ u ∈ unit, Halts IStream.startsNumber u.bytes

def MemLine.unitText (l : MemLine) : Bytes := l.unit.elim [] fun u => 32 :: u.bytes

def MemLine.text (l : MemLine) : Bytes :=
  l.key.bytes ++ (l.gap.bytes ++ (IStream.signedText l.val ++ (l.unitText ++ [10])))

/-- The lines that the loop sees: those up to the first one without a unit, and that one where another follows. -/
def seenLines : List MemLine → List MemLine
  | [] => []
  | l :: rest => if l.unit.isSome then l :: seenLines rest else if rest = [] then [] else [l]

section MemInfo

variable {l next : MemLine} {gap t : Bytes}

theorem isSpace_newline : ∀ c ∈ [(10 : UInt8)], IStream.isSpace c = true := List.all_eq_true.mp (by decide)

theorem halts_space {p : UInt8 → Bool} (c : UInt8) (hc : p c = false) (t : Bytes) : Halts p (c :: t) := by
  intro d hd
  obtain rfl := Option.some.inj hd
  exact hc

theorem halts_word {w : Run IStream.notSpace} {p : UInt8 → Bool} (h : Halts p w.bytes) (t : Bytes) :
    Halts p (w.bytes ++ t) := by
  intro c hc
  rw [List.head?_append_of_ne_nil _ w.ne] at hc
  exact h c hc

theorem halts_notSpace (w : Run IStream.notSpace) (t : Bytes) : Halts IStream.isSpace (w.bytes ++ t) :=
  IStream.halts_run w fun c hc => by simpa [IStream.notSpace] using hc

/-- White space alone holds no word and no number. -/
theorem skipws_space (hgap : ∀ c ∈ gap, IStream.isSpace c = true) : IStream.skipws (some gap) = none := by
  have hdrop := dropWhile_run hgap (halts_nil (p := IStream.isSpace))
  rw [List.append_nil] at hdrop
  rw [IStream.skipws, Option.bind_some, hdrop, if_pos rfl]

theorem word_none (ss : IStream) (tok : Bytes) (h : ss.skipws = none) : IStream.word ss tok = (none, tok) := by
  rw [IStream.word, h]

/-- The key and the value of a line. -/
theorem extract_line (hgap : ∀ c ∈ gap, IStream.isSpace c = true) (l : MemLine) (t : Bytes) :
    IStream.word (some (gap ++ (l.text ++ t))) [] =
        (some (l.gap.bytes ++ (IStream.signedText l.val ++ (l.unitText ++ 10 :: t))), l.key.bytes) ∧
      extract (some (l.gap.bytes ++ (IStream.signedText l.val ++ (l.unitText ++ 10 :: t)))) 0 =
        (some (l.unitText ++ 10 :: t), l.val) := by
  have htext : l.text ++ t =
      l.key.bytes ++ (l.gap.bytes ++ (IStream.signedText l.val ++ (l.unitText ++ 10 :: t))) := by
    simp [MemLine.text]
  have hunit : Halts isDigit (l.unitText ++ 10 :: t) := by
    unfold MemLine.unitText
    cases l.unit with
    | none => exact halts_space 10 (by decide) t
    | some u => exact halts_space 32 (by decide) _
  rw [htext]
  refine ⟨IStream.word_run hgap l.key ?_ [], IStream.number_signedText l.gap.all hunit l.fits.1 l.fits.2 0⟩
  exact IStream.halts_run l.gap fun c hc => by simp [IStream.notSpace, hc]

theorem extractEntry_unit (hgap : ∀ c ∈ gap, IStream.isSpace c = true) {u : Run IStream.notSpace}
    (hu : l.unit = some u) : extractEntry (some (gap ++ (l.text ++ t))) = (some (10 :: t), l.key.bytes, l.val) := by
  obtain ⟨hword, hval⟩ := extract_line hgap l t
  have hunit : IStream.word (some (l.unitText ++ 10 :: t)) [] = (some (10 :: t), u.bytes) := by
    have htext : l.unitText ++ 10 :: t = [32] ++ (u.bytes ++ 10 :: t) := by simp [MemLine.unitText, hu]
    rw [htext]
    exact IStream.word_run isSpace_blank u (halts_space 10 (by decide) t) []
  simp only [extractEntry, hword, hval, hunit]

/-- Without a unit, the key of the next line is taken for it. -/
theorem extractEntry_bare (hgap : ∀ c ∈ gap, IStream.isSpace c = true) (hu : l.unit = none) :
    extractEntry (some (gap ++ (l.text ++ (next.text ++ t)))) =
      (some (next.gap.bytes ++ (IStream.signedText next.val ++ (next.unitText ++ 10 :: t))), l.key.bytes, l.val) := by
  obtain ⟨hword, hval⟩ := extract_line hgap l (next.text ++ t)
  have hunit := (extract_line isSpace_newline next t).1
  have htext : l.unitText ++ 10 :: (next.text ++ t) = [10] ++ (next.text ++ t) := by simp [MemLine.unitText, hu]
  rw [htext] at hval hword
  simp only [extractEntry, hword, hval, hunit]

theorem extractEntry_last (hgap : ∀ c ∈ gap, IStream.isSpace c = true) (hu : l.unit = none) :
    (extractEntry (some (gap ++ l.text))).1 = none := by
  obtain ⟨hword, hval⟩ := extract_line hgap l []
  have htext : l.unitText ++ [10] = [10] := by simp [MemLine.unitText, hu]
  rw [List.append_nil, htext] at hword
  rw [htext] at hval
  simp only [extractEntry, hword, hval, word_none _ _ (skipws_space isSpace_newline)]

theorem extractEntry_space (hgap : ∀ c ∈ gap, IStream.isSpace c = true) : (extractEntry (some gap)).1 = none := by
  simp only [extractEntry, word_none _ _ (skipws_space hgap)]
  rfl

/-- Behind a value there is no number. -/
theorem number_behind (l : MemLine) (ls : List MemLine) :
    (extract (some (l.unitText ++ 10 :: ls.flatMap MemLine.text)) 0).1 = none := by
  unfold MemLine.unitText
  cases hu : l.unit with
  | some u =>
    exact IStream.number_stuck isSpace_blank (by simp [u.ne]) (halts_notSpace u _)
      (halts_word (l.unit_letter u hu) _) 0
  | none =>
    cases ls with
    | nil =>
      unfold extract IStream.number
      rw [Option.elim_none, List.nil_append, List.flatMap_nil, skipws_space isSpace_newline]
    | cons next ls =>
      have htext : [] ++ 10 :: (next :: ls).flatMap MemLine.text = [10] ++ (next.key.bytes ++ (next.gap.bytes ++
          (IStream.signedText next.val ++ (next.unitText ++ 10 :: ls.flatMap MemLine.text)))) := by
        simp [MemLine.text]
      rw [Option.elim_none, htext]
      exact IStream.number_stuck isSpace_newline (by simp [next.key.ne]) (halts_notSpace next.key _)
        (halts_word next.key_letter _) 0

/-- The value of a line is no entry's key: the loop ends there. -/
theorem extractEntry_value (l : MemLine) (ls : List MemLine) : (extractEntry (some (l.gap.bytes ++
    (IStream.signedText l.val ++ (l.unitText ++ 10 :: ls.flatMap MemLine.text))))).1 = none := by
  have hall : ∀ c ∈ IStream.signedText l.val, IStream.notSpace c = true := by
    intro c hc
    rcases IStream.signedText_byte hc with rfl | hd
    · decide
    · simp [IStream.notSpace, IStream.isSpace_of_isDigit c hd]
  have hhalts : Halts IStream.notSpace (l.unitText ++ 10 :: ls.flatMap MemLine.text) := by
    unfold MemLine.unitText
    cases l.unit with
    | none => exact halts_space 10 (by decide) _
    | some u => exact halts_space 32 (by decide) _
  have hword := IStream.word_run l.gap.all ⟨_, IStream.signedText_ne_nil l.val, hall⟩ hhalts []
  have hstuck := number_behind l ls
  simp only [extractEntry, hword]
  rw [hstuck, word_none _ _ rfl]

end MemInfo

theorem memLoop_of_none {turns : Nat} {ss : IStream} {mem : MemInfo} (h : (extractEntry ss).1 = none) :
    memLoop turns ss mem = mem := by
  cases turns with
  | zero => rfl
  | succ turns =>
    unfold memLoop
    split
    · rfl
    next hsome =>
      rw [hsome] at h
      cases h

theorem memLoop_lines (ls : List MemLine) {gap : Bytes} {turns : Nat} (mem : MemInfo)
    (hgap : ∀ c ∈ gap, IStream.isSpace c = true) (hturns : (gap ++ ls.flatMap MemLine.text).length ≤ turns) :
    memLoop turns (some (gap ++ ls.flatMap MemLine.text)) mem =
      (seenLines ls).foldl (fun mem l => mem.record l.key.bytes l.val) mem := by
  induction ls generalizing gap turns mem with
  | nil =>
    rw [List.flatMap_nil, List.append_nil]
    exact memLoop_of_none (extractEntry_space hgap)
  | cons l ls ih =>
    rw [List.flatMap_cons] at hturns ⊢
    have hkey := List.length_pos_iff.mpr l.key.ne
    have hval := List.length_pos_iff.mpr (IStream.signedText_ne_nil l.val)
    have hlen : (10 :: ls.flatMap MemLine.text).length < turns ∧
        (l.text ++ ls.flatMap MemLine.text).length ≤ turns := by
      simp only [MemLine.text, List.length_append, List.length_cons, List.length_nil] at hturns ⊢
      omega
    obtain ⟨turns, rfl⟩ : ∃ n, turns = n + 1 := ⟨turns - 1, by omega⟩
    cases hu : l.unit with
    | some u =>
      rw [memLoop, extractEntry_unit hgap hu, seenLines, if_pos (by simp [hu]), List.foldl_cons]
      exact ih _ isSpace_newline (by simpa using Nat.le_of_lt_succ hlen.1)
    | none =>
      rw [seenLines, if_neg (by simp [hu])]
      cases ls with
      | nil =>
        rw [List.flatMap_nil, List.append_nil, if_pos rfl]
        exact memLoop_of_none (extractEntry_last hgap hu)
      | cons next ls =>
        rw [List.flatMap_cons, memLoop, extractEntry_bare hgap hu, if_neg (List.cons_ne_nil _ _)]
        exact memLoop_of_none (extractEntry_value next ls)

/-- The entries are those of the lines up to the first one without a unit. -/
theorem readMeminfo_text (ls : List MemLine) : readMeminfo (ls.flatMap MemLine.text) =
    (seenLines ls).foldl (fun mem l => mem.record l.key.bytes l.val) {} :=
  memLoop_lines ls {} (List.forall_mem_nil _) (by simp)

theorem seenLines_append {full : List MemLine} (hfull : ∀ l ∈ full, l.unit.isSome) (ls : List MemLine) :
    seenLines (full ++ ls) = full ++ seenLines ls := by
  induction full with
  | nil => rfl
  | cons l full ih =>
    rw [List.cons_append, seenLines, if_pos (hfull l (by simp)), ih fun l hl => hfull l (by simp [hl]),
      List.cons_append]

/-! ## The snapshot -/

/-- The values of the lines, recorded in their order. -/
def recorded (ls : List MemLine) : MemInfo := ls.foldl (fun mem l => mem.record l.key.bytes l.val) {}

/-- A host whose files show these CPUs and processes. -/
structure Host.Shows (host : Host) (cpus : List StatLine) (entries : List ProcEntry) : Prop where
  stat : host.readFile (utf8 "/proc/stat") = some (unlines (cpus.map StatLine.text))
  names : host.listDir (utf8 "/proc") = some (entries.map ProcEntry.name)
  lines : ∀ pid line fits, ProcEntry.process pid line fits ∈ entries →
    host.readFile (statPath (decimal pid)) = line.map ProcessLine.text

/-- **The snapshot holds the CPUs and the processes that the kernel shows**, and nothing of their commands. -/
theorem collectFacts_shows {host : Host} {cpus : List StatLine} {entries : List ProcEntry}
    (h : host.Shows cpus entries) :
    (collectFacts host).aggregateCpu = (cpus.filterMap StatLine.aggregate?).getLast?.getD {} ∧
      (collectFacts host).perCpu = cpus.filterMap StatLine.perCpu? ∧
      (collectFacts host).processes = entries.filterMap ProcEntry.info? := by
  have hstat : readStat ((host.readFile (utf8 "/proc/stat")).getD []) =
      ((cpus.filterMap StatLine.aggregate?).getLast?.getD {}, cpus.filterMap StatLine.perCpu?) := by
    rw [h.stat, Option.getD_some, readStat_text]
  exact ⟨congrArg Prod.fst hstat, congrArg Prod.snd hstat, readProcesses_text h.names h.lines⟩

/-- A process whose command has blanks and parentheses. -/
def oddProcess : ProcessLine where
  pid := 7
  comm := utf8 "a) S 1 (b"
  state := 82
  ppid := 1
  ids := [7, 7, 0, -1, 4194304]
  faults := [10, 0, 0, 0]
  utime := 12
  stime := 34
  waits := [0, 0, -51, 0]
  threads := 3
  rest := utf8 " 0 55\n"
  state_word := by decide
  ppid_fits := by decide
  ids_fit := by decide
  faults_fit := by decide
  times_fit := by decide
  waits_fit := by decide
  threads_fit := by decide
  rest_halts := by decide
  rest_paren := by decide

def twoCpus : List StatLine :=
  [.cpu ⟨none, ⟨3, 0, 4, 5, 0, 0, 0, 0⟩, utf8 " 0 0", by decide, by decide, by decide⟩,
    .cpu ⟨some 0, ⟨3, 0, 4, 5, 0, 0, 0, 0⟩, utf8 " 0 0", by decide, by decide, by decide⟩,
    .other (utf8 "ctxt 9") (by decide) (by decide)]

def oddEntries : List ProcEntry := [.other (utf8 "self") (by decide), .process 7 (some oddProcess) (by decide)]

/-- A host with one process. -/
def oddHost : Host where
  readFile path :=
    if path = utf8 "/proc/stat" then some (unlines (twoCpus.map StatLine.text))
    else if path = utf8 "/proc/7/stat" then some oddProcess.text
    else none
  fileExists _ := false
  readable _ := false
  listDir path := if path = utf8 "/proc" then some (oddEntries.map ProcEntry.name) else none
  hostname := none
  kernelRelease := none
  onlineCpus := 1
  indeterminate := 0

theorem collectFacts_shows_odd :
    (collectFacts oddHost).aggregateCpu = ⟨3, 0, 4, 5, 0, 0, 0, 0⟩ ∧
      (collectFacts oddHost).perCpu = [⟨3, 0, 4, 5, 0, 0, 0, 0⟩] ∧
      (collectFacts oddHost).processes = [⟨7, 1, 82, 3, 12, 34⟩] := by
  have hshows : oddHost.Shows twoCpus oddEntries := by
    refine ⟨by decide, by decide, fun pid line fits hmem => ?_⟩
    obtain ⟨rfl, rfl⟩ : pid = 7 ∧ line = some oddProcess := by simpa [oddEntries] using hmem
    decide
  exact collectFacts_shows hshows

/-- **The memory of the snapshot**: lines with units are all read, a first line without one only when another follows,
and nothing behind it. -/
theorem collectFacts_meminfo (host : Host) {full : List MemLine} (hfull : ∀ l ∈ full, l.unit.isSome) :
    (host.readFile (utf8 "/proc/meminfo") = some (full.flatMap MemLine.text) →
      (collectFacts host).mem = recorded full) ∧
    ∀ bare : MemLine, bare.unit = none →
      (host.readFile (utf8 "/proc/meminfo") = some ((full ++ [bare]).flatMap MemLine.text) →
        (collectFacts host).mem = recorded full) ∧
      ∀ next rest, host.readFile (utf8 "/proc/meminfo") = some ((full ++ bare :: next :: rest).flatMap MemLine.text) →
        (collectFacts host).mem = recorded (full ++ [bare]) := by
  have hmem : ∀ ls : List MemLine, host.readFile (utf8 "/proc/meminfo") = some (ls.flatMap MemLine.text) →
      (collectFacts host).mem = recorded (seenLines ls) := by
    intro ls h
    show readMeminfo ((host.readFile (utf8 "/proc/meminfo")).getD []) = _
    rw [h, Option.getD_some, readMeminfo_text, recorded]
  have hseen := seenLines_append hfull
  refine ⟨fun h => ?_, fun bare hbare => ⟨fun h => ?_, fun next rest h => ?_⟩⟩
  · have hnil := hseen []
    rw [List.append_nil, seenLines, List.append_nil] at hnil
    rw [hmem _ h, hnil]
  · rw [hmem _ h, hseen, seenLines, if_neg (by simp [hbare]), if_pos rfl, List.append_nil]
  · rw [hmem _ h, hseen, seenLines, if_neg (by simp [hbare]), if_neg (List.cons_ne_nil _ _)]

/-- A line of the file, with a unit or without. -/
def memLine (key : String) (val : Nat) (unit : Bool) (hne : utf8 key ≠ [] := by decide)
    (hall : (utf8 key).all IStream.notSpace = true := by decide)
    (hletter : Halts IStream.startsNumber (utf8 key) := by decide)
    (hval : Fits 63 (val : Int) := by decide) : MemLine where
  key := ⟨utf8 key, hne, List.all_eq_true.mp hall⟩
  gap := ⟨[32, 32], by decide, List.all_eq_true.mp (by decide)⟩
  val := val
  unit := if unit then some ⟨utf8 "kB", by decide, List.all_eq_true.mp (by decide)⟩ else none
  fits := hval
  key_letter := hletter
  unit_letter := by
    intro u hu
    cases unit with
    | true =>
      obtain rfl := Option.some.inj hu
      decide
    | false => cases hu

/-- The lines in the order of the kernel, around the first one without a unit. -/
def sizeLines : List MemLine := [memLine "MemTotal:" 16 true, memLine "MemAvailable:" 8 true]
def totalLine : MemLine := memLine "HugePages_Total:" 4 false
def freeLine : MemLine := memLine "HugePages_Free:" 3 false
def pageLines : List MemLine := [memLine "Hugepagesize:" 2048 true]

def memHost : Host :=
  { oddHost with readFile := fun _ => some ((sizeLines ++ totalLine :: freeLine :: pageLines).flatMap MemLine.text) }

theorem sizeLines_full : ∀ l ∈ sizeLines, l.unit.isSome := by decide

/-- In the order of the kernel, the free huge pages and their size are not read. -/
theorem collectFacts_meminfo_kernel : (collectFacts memHost).mem = ⟨16, 8, 4, 0, 0⟩ :=
  (((collectFacts_meminfo memHost sizeLines_full).2 totalLine rfl).2 freeLine pageLines rfl).trans
    (by decide)

end Exasphere.Proc

import Exasphere.Collectors.Buddyinfo

/-!
# Lines of `/proc` and names of `/sys` (`src/sched/collector.cpp`, `src/memory/collector.cpp`)

The parsers of `/proc/schedstat`, `/proc/buddyinfo` and `/proc/<pid>/numa_maps` answer `false` to a line they do not
understand, and leave their output alone. Two of them convert a part of the line with `std::stoi` and `std::stoull`,
which throw; `procLines_total_iff` says on which lines none of them does.

`poll_hugepages` reads the size of a page from the name of its directory, from the third digit on
(`pollHugepages_size_iff`).
-/

namespace Exasphere.Collectors

open Exasphere.Lib

/-! ## `parse_schedstat_cpu_line` -/

structure RunqueueSample where
  cpu : Int := -1
  nrRunning : Nat := 0
  nrUninterruptible : Nat := 0
  nrSwitches : Nat := 0
  runDelayNs : Nat := 0
  timeslicesNs : Nat := 0

/-- `parse_schedstat_cpu_line`: what it returns, and `out` after it. -/
def parseSchedstatCpuLine (line : Bytes) (out : RunqueueSample) :
    Except IStream.ConversionError (Bool × RunqueueSample) :=
  let ss : IStream := some line
  let (ss, label) := ss.word []
  if (utf8 "cpu").isPrefixOf label = false then .ok (false, out)
  else
    let numPart := label.drop 3
    if numPart = [] ∨ numPart.all isDigit = false then .ok (false, out)
    else do
      let cpu ← IStream.convert (signedReading 31) numPart
      -- an eleventh field is extracted, and dropped
      let fields := (ss.numbers (unsignedReading 64)).take 10
      if fields.length < 7 then .ok (false, out)
      else
        .ok (true, { out with
          cpu := cpu
          nrSwitches := fields.getD 1 0
          runDelayNs := fields.getD 5 0
          timeslicesNs := fields.getD 4 0 })

/-! ## `parse_numa_maps_line` -/

structure NumaMapEntry where
  vaddr : Nat := 0
  flags : Bytes := []
  node : Int := -1
  pages : Nat := 0

def addressDigit (c : UInt8) : Option Nat :=
  if 48 ≤ c ∧ c ≤ 57 then some (c.toNat - 48)
  else if 97 ≤ c ∧ c ≤ 102 then some (c.toNat - 97 + 10)
  else if 65 ≤ c ∧ c ≤ 70 then some (c.toNat - 65 + 10)
  else none

/-- The address in a `uint64_t`, which wraps. -/
def parseAddress (addr : Bytes) : Option Nat :=
  addr.foldlM (fun vaddr c => (addressDigit c).map (fun d => (vaddr * 16 + d) % 2 ^ 64)) 0

/-- A word `N<node>=<pages>`, as far as it is looked at. -/
def namesNode (tok : Bytes) : Bool :=
  decide (2 < tok.length ∧ tok.head? = some 78) && tok.tail.head?.any isDigit && tok.contains 61

/-- The text between the `N` and the first `=`. -/
def nodeText (tok : Bytes) : Bytes := (tok.takeWhile (fun c => decide (c ≠ 61))).drop 1

/-- The text behind the first `=`. -/
def pagesText (tok : Bytes) : Bytes := (tok.dropWhile (fun c => decide (c ≠ 61))).drop 1

/-- One word of the scan for the node with the most pages. -/
def scanNode (best : Int × Nat) (tok : Bytes) : Except IStream.ConversionError (Int × Nat) :=
  if namesNode tok then do
    let node ← IStream.convert (signedReading 31) (nodeText tok)
    let pages ← IStream.convert (unsignedReading 64) (pagesText tok)
    if best.2 < pages then .ok (node, pages) else .ok best
  else .ok best

/-- `parse_numa_maps_line`: what it returns, and `out` after it. -/
def parseNumaMapsLine (line : Bytes) (out : NumaMapEntry) : Except IStream.ConversionError (Bool × NumaMapEntry) :=
  let ss : IStream := some line
  let (ss, addrStr) := ss.word []
  if addrStr = [] then .ok (false, out)
  else
    match parseAddress addrStr with
    | none => .ok (false, out)
    | some vaddr => do
      let (ss, flags) := ss.word []
      let best ← ss.words.foldlM scanNode (-1, 0)
      .ok (true, { vaddr := vaddr, flags := flags, node := best.1, pages := best.2 })

/-! ## Lines that do not throw -/

section Total

/-- The call returns, and its output is unchanged where it returns `false`. -/
def Total {ε α : Type} (result : Except ε (Bool × α)) (out : α) : Prop :=
  ∃ ok out', result = .ok (ok, out') ∧ (ok = false → out' = out)

theorem total_ok {ε α : Type} {ok : Bool} {out out' : α} (h : ok = false → out' = out) :
    Total (.ok (ok, out') : Except ε (Bool × α)) out :=
  ⟨ok, out', rfl, h⟩

/-- What throws only in its first part returns with it. -/
theorem total_bind_iff {ε α β : Type} {x : Except ε β} {f : β → Except ε (Bool × α)} {out : α}
    (hf : ∀ a, Total (f a) out) : Total (x >>= f) out ↔ ∃ a, x = .ok a := by
  cases x with
  | error e => simp [Total]
  | ok a => simpa using hf a

/-- The first word of a line. -/
def label (line : Bytes) : Bytes := (IStream.word (some line) []).2

/-- The number of a `cpu` is an `int`. -/
def CpuFits (line : Bytes) : Prop :=
  ∀ digits, label line = utf8 "cpu" ++ digits → (∀ c ∈ digits, isDigit c = true) → readDecimal digits < 2 ^ 31

/-- The words behind the address and the flags. -/
def nodeWords (line : Bytes) : List Bytes :=
  IStream.words ((IStream.word (some line) []).1.word []).1

/-- The digits behind the `N` are an `int`, and a number that is a `uint64_t` stands behind the `=`. -/
structure NodeFits (tok : Bytes) : Prop where
  node : readDecimal (tok.tail.takeWhile isDigit) < 2 ^ 31
  digits : (IStream.numeral (pagesText tok)).2 ≠ []
  pages : readDecimal (IStream.numeral (pagesText tok)).2 < 2 ^ 64

def NodesFit (line : Bytes) : Prop :=
  (∃ vaddr, parseAddress (label line) = some vaddr) → ∀ tok ∈ nodeWords line, namesNode tok = true → NodeFits tok

theorem converts_digits_iff {digits : Bytes} (hne : digits ≠ []) (h : ∀ c ∈ digits, isDigit c = true) :
    IStream.Converts (signedReading 31) digits ↔ readDecimal digits < 2 ^ 31 := by
  rw [IStream.Converts, IStream.numeral_digits hne h]
  simp only [ne_eq, hne, not_false_eq_true, true_and]
  exact signedReading_fits_iff

theorem converts_nodeText_iff {tok : Bytes} (h : namesNode tok = true) :
    IStream.Converts (signedReading 31) (nodeText tok) ↔ readDecimal (tok.tail.takeWhile isDigit) < 2 ^ 31 := by
  simp only [namesNode, Bool.and_eq_true, decide_eq_true_eq] at h
  obtain ⟨⟨⟨-, hhead⟩, hdigit⟩, -⟩ := h
  obtain ⟨rest, rfl⟩ : ∃ rest, tok = 78 :: rest := by
    cases tok with
    | nil => cases hhead
    | cons c rest => exact ⟨rest, by rw [Option.some.inj hhead]⟩
  obtain ⟨c, hc, hcdigit⟩ := (Option.any_eq_true ..).mp hdigit
  obtain ⟨t, rfl⟩ : ∃ t, rest = c :: t := by
    cases rest with
    | nil => cases hc
    | cons d t => exact ⟨t, by rw [Option.some.inj hc]⟩
  have hne : ∀ d, isDigit d = true → d ≠ 61 := by
    rintro d hd rfl
    exact absurd hd (by decide)
  have htext : nodeText (78 :: c :: t) = (c :: t).takeWhile (fun d => decide (d ≠ 61)) := by
    rw [nodeText, List.takeWhile_cons_of_pos (by decide), List.drop_succ_cons, List.drop_zero]
  have hstart : (nodeText (78 :: c :: t)).head?.any isDigit = true := by
    rw [htext]
    simp [hne c hcdigit, hcdigit]
  have hdigits : (nodeText (78 :: c :: t)).takeWhile isDigit = (c :: t).takeWhile isDigit := by
    rw [htext, List.takeWhile_takeWhile]
    congr 1
    funext d
    cases hd : isDigit d with
    | false => simp
    | true => simpa using hne d hd
  rw [IStream.Converts, IStream.numeral_of_digit hstart, hdigits, List.tail_cons]
  simp only [ne_eq]
  rw [and_iff_right (by simp [hcdigit])]
  exact signedReading_fits_iff

theorem converts_pagesText_iff {tok : Bytes} : IStream.Converts (unsignedReading 64) (pagesText tok) ↔
    (IStream.numeral (pagesText tok)).2 ≠ [] ∧ readDecimal (IStream.numeral (pagesText tok)).2 < 2 ^ 64 := by
  rw [IStream.Converts, unsignedReading_fits_iff]

/-- The scan throws at a word that does not fit, whatever it has found before. -/
theorem scanNode_total_iff (best : Int × Nat) (tok : Bytes) :
    (∃ best', scanNode best tok = .ok best') ↔ (namesNode tok = true → NodeFits tok) := by
  unfold scanNode
  by_cases hnames : namesNode tok = true
  · have hbest : ∀ (node : Int) (pages : Nat),
        (∃ best', (if best.2 < pages then .ok (node, pages) else .ok best : Except IStream.ConversionError _) =
          .ok best') ↔ True := by
      intro node pages
      split <;> simp
    have hpages : ∀ node : Int, (∃ best', (do
        let pages ← IStream.convert (unsignedReading 64) (pagesText tok)
        if best.2 < pages then .ok (node, pages) else .ok best : Except IStream.ConversionError _) = .ok best') ↔
          IStream.Converts (unsignedReading 64) (pagesText tok) := by
      intro node
      rw [exists_bind_ok_iff (hbest node), and_true, IStream.exists_convert_iff]
    rw [if_pos hnames, exists_bind_ok_iff hpages, IStream.exists_convert_iff, converts_nodeText_iff hnames,
      converts_pagesText_iff]
    constructor
    · rintro ⟨hnode, hdigits, hlt⟩ -
      exact ⟨hnode, hdigits, hlt⟩
    · intro h
      exact ⟨(h hnames).node, (h hnames).digits, (h hnames).pages⟩
  · simp [hnames]

theorem cpuFits_iff {line digits : Bytes} (hlabel : label line = utf8 "cpu" ++ digits) :
    CpuFits line ↔ ((∀ c ∈ digits, isDigit c = true) → readDecimal digits < 2 ^ 31) := by
  constructor
  · intro h hdigits
    exact h digits hlabel hdigits
  · intro h digits' hlabel' hdigits
    obtain rfl := List.append_cancel_left (hlabel.symm.trans hlabel')
    exact h hdigits

theorem parseSchedstatCpuLine_total_iff (line : Bytes) (out : RunqueueSample) :
    Total (parseSchedstatCpuLine line out) out ↔ CpuFits line := by
  have hlabel : label line = (IStream.word (some line) []).2 := rfl
  unfold parseSchedstatCpuLine
  dsimp only
  generalize IStream.word (some line) [] = first at hlabel ⊢
  obtain ⟨ss, word⟩ := first
  dsimp only at hlabel ⊢
  by_cases hprefix : (utf8 "cpu").isPrefixOf word = false
  · rw [if_pos hprefix]
    refine iff_of_true (total_ok fun _ => rfl) ?_
    intro digits heq _
    rw [← hlabel, heq, List.isPrefixOf_iff_prefix.mpr (List.prefix_append _ _)] at hprefix
    cases hprefix
  · rw [if_neg hprefix]
    obtain ⟨digits, rfl⟩ := List.isPrefixOf_iff_prefix.mp (Bool.not_eq_false _ ▸ hprefix)
    have hdrop : (utf8 "cpu" ++ digits).drop 3 = digits := by rfl
    rw [cpuFits_iff hlabel, hdrop]
    split
    next hnone =>
      refine iff_of_true (total_ok fun _ => rfl) ?_
      intro hdigits
      rcases hnone with rfl | hnone
      · decide
      · rw [List.all_eq_true.mpr hdigits] at hnone
        cases hnone
    next hsome =>
      rw [not_or, Bool.not_eq_false, List.all_eq_true] at hsome
      rw [total_bind_iff, IStream.exists_convert_iff, converts_digits_iff hsome.1 hsome.2]
      · exact ⟨fun h _ => h, fun h => h hsome.2⟩
      · intro cpu
        split
        · exact total_ok fun _ => rfl
        · exact total_ok (by simp)

theorem parseBuddyinfoLine_total (line : Bytes) (out : BuddyInfo) :
    Total (.ok (parseBuddyinfoLine line out) : Except IStream.ConversionError _) out := by
  unfold parseBuddyinfoLine
  dsimp only
  split
  · exact total_ok fun _ => rfl
  · split
    · exact total_ok fun _ => rfl
    · split
      · exact total_ok fun _ => rfl
      · exact total_ok (by simp)

theorem parseNumaMapsLine_total_iff (line : Bytes) (out : NumaMapEntry) :
    Total (parseNumaMapsLine line out) out ↔ NodesFit line := by
  unfold parseNumaMapsLine NodesFit nodeWords label
  dsimp only
  cases hfirst : IStream.word (some line) [] with
  | mk ss addr =>
  dsimp only
  split
  next hnil =>
    -- without an address the stream has failed, and holds no word
    cases ss with
    | some rest => exact absurd hnil (IStream.word_ne_nil hfirst)
    | none =>
      refine iff_of_true (total_ok fun _ => rfl) ?_
      intro _ tok htok
      cases htok
  next hsome =>
    split
    next hhex =>
      refine iff_of_true (total_ok fun _ => rfl) ?_
      rintro ⟨vaddr, hvaddr⟩
      rw [hhex] at hvaddr
      cases hvaddr
    next vaddr hhex =>
      rw [total_bind_iff, foldlM_total_iff scanNode_total_iff]
      · simp [hhex]
      · intro best
        exact total_ok (by simp)

/-- **The parsers return on a line** exactly when the numbers they convert fit. -/
theorem procLines_total_iff (line : Bytes) :
    ((∀ out, Total (parseSchedstatCpuLine line out) out) ∧
      (∀ out, Total (.ok (parseBuddyinfoLine line out) : Except IStream.ConversionError _) out) ∧
      ∀ out, Total (parseNumaMapsLine line out) out) ↔ CpuFits line ∧ NodesFit line := by
  constructor
  · rintro ⟨hcpu, -, hnodes⟩
    exact ⟨(parseSchedstatCpuLine_total_iff line {}).mp (hcpu {}), (parseNumaMapsLine_total_iff line {}).mp (hnodes {})⟩
  · rintro ⟨hcpu, hnodes⟩
    exact ⟨fun out => (parseSchedstatCpuLine_total_iff line out).mpr hcpu, parseBuddyinfoLine_total line,
      fun out => (parseNumaMapsLine_total_iff line out).mpr hnodes⟩

/-- A `cpu` past the last `int`, and a node without a number of pages. -/
theorem procLines_throw :
    ¬Total (parseSchedstatCpuLine (utf8 "cpu2147483648 0 0 0 0 0 0 0") {}) {} ∧
      ¬Total (parseNumaMapsLine (utf8 "00400000 default N0=") {}) {} := by
  have hcpu : parseSchedstatCpuLine (utf8 "cpu2147483648 0 0 0 0 0 0 0") {} = .error .outOfRange := rfl
  have hnuma : parseNumaMapsLine (utf8 "00400000 default N0=") {} = .error .invalidArgument := rfl
  rw [hcpu, hnuma]
  constructor
  · rintro ⟨ok, out, h, -⟩
    cases h
  · rintro ⟨ok, out, h, -⟩
    cases h

end Total

/-! ## `poll_hugepages` -/

structure HugePageState where
  total : Nat := 0
  free : Nat := 0
  sizeKb : Nat := 0
  label : Bytes := []

/-- An entry of `/sys/kernel/mm/hugepages`, with the files below it that can be opened. -/
structure HugePageDir where
  name : Bytes
  nrHugepages : Option Bytes
  freeHugepages : Option Bytes

/-- What `file >> v` leaves in a `uint64_t` that was zero. -/
def readCounter (file : Option Bytes) : Nat :=
  match file with
  | none => 0
  | some content => (IStream.number (unsignedReading 64) (some content) 0).2

/-- The digits of the size, from the thirteenth byte of the name on. -/
def sizeText (name : Bytes) : Bytes := (name.drop 12).takeWhile isDigit

def sizeKb (name : Bytes) : Except IStream.ConversionError Nat :=
  if sizeText name = [] then .ok 0 else IStream.convert (unsignedReading 64) (sizeText name)

def hugePageState (dir : HugePageDir) : Except IStream.ConversionError HugePageState := do
  let sizeKb ← sizeKb dir.name
  .ok { total := readCounter dir.nrHugepages, free := readCounter dir.freeHugepages, sizeKb := sizeKb,
        label := dir.name }

def isHugePageDir (dir : HugePageDir) : Bool :=
  decide (dir.name.head? ≠ some 46) && (utf8 "hugepages-").isPrefixOf dir.name

/-- `poll_hugepages` on the entries of the directory, if it can be opened. -/
def pollHugepages (entries : Option (List HugePageDir)) : Except IStream.ConversionError (List HugePageState) :=
  match entries with
  | none => .ok []
  | some entries => (entries.filter isHugePageDir).mapM hugePageState

/-- The name that the kernel prints for a size. -/
def printedName (n : Nat) : Bytes := utf8 "hugepages-" ++ (decimal n ++ utf8 "kB")

section HugePages

theorem sizeText_printedName (n : Nat) : sizeText (printedName n) = (decimal n).drop 2 := by
  have hdrop : (printedName n).drop 12 = (decimal n).drop 2 ++ (utf8 "kB").drop (2 - (decimal n).length) := by
    have hlen : (utf8 "hugepages-").length = 10 := by decide
    have hnil : (utf8 "hugepages-").drop 12 = [] := by decide
    rw [printedName, List.drop_append, List.drop_append, hlen, hnil, List.nil_append]
  rw [sizeText, hdrop]
  apply takeWhile_run
  · intro c hc
    exact isDigit_decimal (List.mem_of_mem_drop hc)
  · -- `kB`, `B` or nothing follows, as the number has more digits than one, one or none
    have hunit : (utf8 "kB").all (fun c => !isDigit c) = true := by decide
    intro c hc
    have hmem := List.mem_of_mem_drop (List.mem_of_mem_head? hc)
    simpa using List.all_eq_true.mp hunit c hmem

/-- Without its first two digits a number is smaller. -/
theorem readDecimal_drop_lt {n : Nat} (hn : n ≠ 0) : readDecimal ((decimal n).drop 2) < n := by
  have hlen := pow_length_decimal_le hn
  have hlt := readDecimal_lt (s := (decimal n).drop 2) (fun c hc => isDigit_decimal (List.mem_of_mem_drop hc))
  rw [List.length_drop] at hlt
  rcases Nat.lt_or_ge (decimal n).length 2 with hshort | hlong
  · rw [Nat.sub_eq_zero_of_le (by omega), pow_zero] at hlt
    omega
  · obtain ⟨k, hk⟩ := Nat.exists_eq_add_of_le hlong
    rw [hk, Nat.add_sub_cancel_left] at hlt
    rw [hk, pow_add] at hlen
    omega

theorem readDecimal_drop_eq_iff (n : Nat) : readDecimal ((decimal n).drop 2) = n ↔ n = 0 := by
  constructor
  · intro h
    by_contra hn
    have hlt := readDecimal_drop_lt hn
    omega
  · rintro rfl
    rfl

theorem hugePageState_label {dir : HugePageDir} {hp : HugePageState} (h : hugePageState dir = .ok hp) :
    hp.label = dir.name := by
  unfold hugePageState at h
  obtain ⟨sizeKb, -, hhp⟩ := bind_eq_ok.mp h
  rw [← Except.ok.inj hhp]

theorem hugePageState_printed {n : Nat} (hn : n < 2 ^ 64) {dir : HugePageDir} (hname : dir.name = printedName n) :
    ∃ hp, hugePageState dir = .ok hp ∧ hp.label = dir.name ∧ hp.sizeKb = readDecimal ((decimal n).drop 2) := by
  unfold hugePageState sizeKb
  rw [hname, sizeText_printedName]
  by_cases hnil : (decimal n).drop 2 = []
  · rw [if_pos hnil, ok_bind]
    exact ⟨_, rfl, rfl, by rw [hnil]; rfl⟩
  · have hdigits : ∀ c ∈ (decimal n).drop 2, isDigit c = true := fun c hc => isDigit_decimal (List.mem_of_mem_drop hc)
    have hlt : readDecimal ((decimal n).drop 2) < 2 ^ 64 := by
      rcases Nat.eq_zero_or_pos n with rfl | hpos
      · decide
      · have := readDecimal_drop_lt (Nat.pos_iff_ne_zero.mp hpos)
        omega
    have hconvert : IStream.convert (unsignedReading 64) ((decimal n).drop 2) =
        .ok (readDecimal ((decimal n).drop 2)) := by
      rw [IStream.convert_ok_iff, IStream.Converts, IStream.numeral_digits hnil hdigits, unsignedReading_fits_iff]
      exact ⟨⟨hnil, hlt⟩, by simp only [unsignedReading, if_pos hlt, Bool.false_eq_true, if_false]⟩
    rw [if_neg hnil, hconvert, ok_bind]
    exact ⟨_, rfl, rfl, rfl⟩

theorem isHugePageDir_printed {n : Nat} {dir : HugePageDir} (hname : dir.name = printedName n) :
    isHugePageDir dir = true := by
  have hhead : (printedName n).head? = some 104 := rfl
  have hprefix : (utf8 "hugepages-").isPrefixOf (printedName n) = true :=
    List.isPrefixOf_iff_prefix.mpr (List.prefix_append _ _)
  rw [isHugePageDir, hname, hhead, hprefix]
  rfl

/-- The size that is polled for a printed name is the printed one only for zero. -/
theorem pollHugepages_size_iff (n : Nat) (hn : n < 2 ^ 64) (dir : HugePageDir) (hname : dir.name = printedName n)
    (entries : List HugePageDir) (hmem : dir ∈ entries) (states : List HugePageState)
    (h : pollHugepages (some entries) = .ok states) :
    (∃ hp ∈ states, hp.label = dir.name ∧ hp.sizeKb = n) ↔ n = 0 := by
  have hall := mapM_eq_ok.mp h
  constructor
  · rintro ⟨hp, hstate, hlabel, hsize⟩
    obtain ⟨dir', -, hdir'⟩ := exists_of_forall₂ hall.flip hstate
    have hname' : dir'.name = printedName n := (hugePageState_label hdir').symm.trans (hlabel.trans hname)
    obtain ⟨hp', hok, -, hsize'⟩ := hugePageState_printed hn hname'
    obtain rfl : hp = hp' := Except.ok.inj (hdir'.symm.trans hok)
    exact (readDecimal_drop_eq_iff n).mp (hsize'.symm.trans hsize)
  · intro hzero
    have hkept : dir ∈ entries.filter isHugePageDir := List.mem_filter.mpr ⟨hmem, isHugePageDir_printed hname⟩
    obtain ⟨hp, hstate, hok⟩ := exists_of_forall₂ hall hkept
    obtain ⟨hp', hok', hlabel, hsize⟩ := hugePageState_printed hn hname
    obtain rfl : hp = hp' := Except.ok.inj (hok.symm.trans hok')
    exact ⟨hp, hstate, hlabel, hsize.trans ((readDecimal_drop_eq_iff n).mpr hzero)⟩

def twoSizes : List HugePageDir := [⟨printedName 2048, none, none⟩, ⟨printedName 0, some (utf8 "512"), none⟩]

theorem pollHugepages_size_iff_twoSizes :
    ∃ hp ∈ ([⟨0, 0, 48, printedName 2048⟩, ⟨512, 0, 0, printedName 0⟩] : List HugePageState),
      hp.label = printedName 0 ∧ hp.sizeKb = 0 :=
  (pollHugepages_size_iff 0 (by decide) ⟨printedName 0, some (utf8 "512"), none⟩ rfl twoSizes (by simp [twoSizes]) _
    rfl).mpr rfl

/-- The first two digits of a size are passed over. -/
theorem pollHugepages_misses_digits :
    ∃ states, pollHugepages (some [⟨printedName 2048, none, none⟩]) = .ok states ∧
      ¬∃ hp ∈ states, hp.label = printedName 2048 ∧ hp.sizeKb = 2048 := by
  refine ⟨[⟨0, 0, 48, printedName 2048⟩], rfl, ?_⟩
  rintro ⟨hp, hmem, -, hsize⟩
  obtain rfl := List.mem_singleton.mp hmem
  exact absurd hsize (by decide)

end HugePages

end Exasphere.Collectors

import Mathlib.Data.List.DropRight
import Exasphere.Lib.Sequence
import Exasphere.Py.Str

/-!
# Paths and files

`pathlib.Path` on a POSIX system: the slashes in front and the names behind them, without empty names and without `.`.
`asPosix` of a path parses to it again (`parse_asPosix`). A file system is a map from paths to bytes.
-/

namespace Exasphere.Py

open Exasphere.Lib

/-- What stands before the names: exactly two slashes are kept apart from one. -/
inductive Root
  | relative
  | slash
  | slashes
  deriving DecidableEq, Repr

def Root.text : Root → Str
  | .relative => []
  | .slash => [47]
  | .slashes => [47, 47]

/-- A component of a path. -/
def IsName (n : Str) : Prop := n ≠ [] ∧ n ≠ [46] ∧ 47 ∉ n

instance instDecidableIsName (n : Str) : Decidable (IsName n) :=
  inferInstanceAs (Decidable (n ≠ [] ∧ n ≠ [46] ∧ 47 ∉ n))

structure Path where
  root : Root
  names : List Str
  isName : ∀ n ∈ names, IsName n
  deriving DecidableEq

namespace Path

theorem ext_iff {p q : Path} : p = q ↔ p.root = q.root ∧ p.names = q.names := by
  obtain ⟨r, ns, h⟩ := p
  obtain ⟨r', ns', h'⟩ := q
  simp

def rootOf (s : Str) : Root :=
  if [47, 47].isPrefixOf s ∧ ¬ [47, 47, 47].isPrefixOf s then .slashes
  else if [47].isPrefixOf s then .slash
  else .relative

/-- The components of a text. -/
def namesOf (s : Str) : List Str := (s.splitOn 47).filter (fun n => decide (n ≠ [] ∧ n ≠ [46]))

theorem isName_namesOf {s n : Str} (h : n ∈ namesOf s) : IsName n := by
  obtain ⟨hmem, hn⟩ := List.mem_filter.mp h
  simp only [decide_eq_true_eq] at hn
  refine ⟨hn.1, hn.2, ?_⟩
  intro h47
  have hpiece := not_separator_of_mem_splitOnP hmem 47 h47
  simp at hpiece

/-- `Path(s)`. -/
def parse (s : Str) : Path := ⟨rootOf s, namesOf s, fun _ => isName_namesOf⟩

def isAbsolute (p : Path) : Bool := decide (p.root ≠ .relative)

def parts (p : Path) : List Str := if p.root = .relative then p.names else p.root.text :: p.names

/-- `as_posix()`, which is also `str(path)`. -/
def asPosix (p : Path) : Str :=
  if p.root = .relative ∧ p.names = [] then [46] else p.root.text ++ join [47] p.names

def name (p : Path) : Str := p.names.getLast?.getD []

/-- The part of a name from its last dot on; a dot at either end of the name does not count. -/
def suffixOf (n : Str) : Str :=
  let stem := n.rdropWhile (· ≠ 46)
  if stem.length ≤ 1 ∨ stem.length = n.length then [] else n.drop (stem.length - 1)

def suffix (p : Path) : Str := suffixOf p.name

/-- `path / other`. -/
def div (p : Path) (other : Str) : Path :=
  if rootOf other = .relative then
    ⟨p.root, p.names ++ namesOf other, fun n hn =>
      (List.mem_append.mp hn).elim (p.isName n) isName_namesOf⟩
  else parse other

/-- `Path(*parts)`. -/
def ofParts (parts : List Str) : Path := parts.foldl div (parse [])

def parent (p : Path) : Path := ⟨p.root, p.names.dropLast, fun n hn => p.isName n (List.mem_of_mem_dropLast hn)⟩

/-- The components `path` shares with `root` are all of `root`. -/
def isUnder (p root : Path) : Bool := decide (p = root) || decide (p.parts.take root.parts.length = root.parts)

/-- No component leads upwards. -/
def traverses (p : Path) : Bool := decide (str ".." ∈ p.parts)

/-! ## Round trip -/

section RoundTrip

theorem namesOf_join {ns : List Str} (h : ∀ n ∈ ns, IsName n) : namesOf (join [47] ns) = ns := by
  rcases eq_or_ne ns [] with rfl | hne
  · rfl
  · rw [namesOf, join, List.splitOn_intercalate 47 (fun n hn => (h n hn).2.2) hne, List.filter_eq_self]
    intro n hn
    simpa using ⟨(h n hn).1, (h n hn).2.1⟩

theorem namesOf_slash (s : Str) : namesOf (47 :: s) = namesOf s := by
  simp [namesOf, List.splitOn_cons_eq_if_modifyHead]

theorem head_join {n : Str} (hn : IsName n) (ns : List Str) : ∃ c t, join [47] (n :: ns) = c :: t ∧ c ≠ 47 := by
  obtain ⟨c, t, rfl⟩ := List.exists_cons_of_ne_nil hn.1
  have hc : c ≠ 47 := by
    rintro rfl
    exact hn.2.2 (by simp)
  cases ns with
  | nil => exact ⟨c, t, by simp [join, List.intercalate], hc⟩
  | cons m ns => exact ⟨c, _, by simp [join, List.intercalate, List.intersperse]; rfl, hc⟩

theorem rootOf_text {root : Root} {c : Nat} {t : Str} (hc : c ≠ 47) : rootOf (root.text ++ c :: t) = root := by
  have hc' : ¬ 47 = c := hc.symm
  cases root with
  | relative => simp [rootOf, Root.text, hc']
  | slash => simp [rootOf, Root.text, hc']
  | slashes => simp [rootOf, Root.text, hc']

theorem namesOf_text (root : Root) (s : Str) : namesOf (root.text ++ s) = namesOf s := by
  cases root with
  | relative => rfl
  | slash => exact namesOf_slash s
  | slashes => exact (namesOf_slash (47 :: s)).trans (namesOf_slash s)

/-- The text of a path is parsed to the path. -/
theorem parse_asPosix (p : Path) : parse p.asPosix = p := by
  obtain ⟨root, names, hnames⟩ := p
  rw [Path.ext_iff]
  cases names with
  | nil => cases root <;> exact ⟨by rfl, by rfl⟩
  | cons n ns =>
    obtain ⟨c, t, ht, hc⟩ := head_join (hnames n (by simp)) ns
    have htext : asPosix ⟨root, n :: ns, hnames⟩ = root.text ++ join [47] (n :: ns) := by simp [asPosix]
    rw [htext]
    refine ⟨?_, ?_⟩
    · show rootOf _ = root
      rw [ht, rootOf_text hc]
    · show namesOf _ = n :: ns
      rw [namesOf_text, namesOf_join hnames]

end RoundTrip

theorem namesOf_of_isName {n : Str} (h : IsName n) : namesOf n = [n] := by
  have hjoin : namesOf (join [47] [n]) = [n] := namesOf_join (by simpa using h)
  simpa [join, List.intercalate] using hjoin

/-- A name is put behind the others. -/
theorem div_names {p : Path} {n : Str} (h : IsName n) : (p.div n).root = p.root ∧ (p.div n).names = p.names ++ [n] := by
  have hroot : rootOf n = .relative := by
    obtain ⟨c, t, rfl⟩ := List.exists_cons_of_ne_nil h.1
    have hc : 47 ≠ c := by
      rintro rfl
      exact h.2.2 (by simp)
    simp [rootOf, hc]
  rw [div, if_pos hroot]
  exact ⟨rfl, congrArg (p.names ++ ·) (namesOf_of_isName h)⟩

theorem parts_relative {p : Path} (h : p.isAbsolute = false) : p.parts = p.names := by
  simp only [isAbsolute, ne_eq, decide_not, Bool.not_eq_eq_eq_not, Bool.not_false, decide_eq_true_eq] at h
  rw [parts, if_pos h]

/-- Names are put together to the path that has them. -/
theorem ofParts_names {ns : List Str} (h : ∀ n ∈ ns, IsName n) :
    (ofParts ns).root = .relative ∧ (ofParts ns).names = ns := by
  induction ns using List.reverseRecOn with
  | nil => exact ⟨rfl, rfl⟩
  | append_singleton ns n ih =>
    obtain ⟨hroot, hnames⟩ := ih (fun m hm => h m (by simp [hm]))
    obtain ⟨hroot', hnames'⟩ := div_names (p := ofParts ns) (h n (by simp))
    rw [ofParts, List.foldl_append]
    exact ⟨hroot'.trans hroot, hnames'.trans (by rw [hnames])⟩

/-- The components of the root stand first. -/
theorem isUnder_iff {p root : Path} : p.isUnder root = true ↔ root.parts <+: p.parts := by
  simp only [isUnder, Bool.or_eq_true, decide_eq_true_eq, List.prefix_iff_eq_take]
  constructor
  · rintro (rfl | h)
    · simp
    · exact h.symm
  · intro h
    exact Or.inr h.symm

end Path

/-! ## Files -/

/-- The regular files of a file system. -/
abbrev Files := Path → Option Bytes

namespace Files

/-- `path.read_bytes()`. -/
def readBytes (fs : Files) (p : Path) : Except Exn Bytes :=
  match fs p with
  | some data => .ok data
  | none => .error .fileNotFound

/-- `path.read_text()`. -/
def readText (fs : Files) (p : Path) : Except Exn Str := do
  let data ← fs.readBytes p
  let s ← decode data
  .ok (universalNewlines s)

/-- `path.write_text(s)`. -/
def writeText (fs : Files) (p : Path) (s : Str) : Except Exn Files := do
  let data ← encode s
  .ok (Function.update fs p (some data))

def isFile (fs : Files) (p : Path) : Bool := (fs p).isSome

end Files

end Exasphere.Py

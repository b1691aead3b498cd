import Exasphere.Lib.Bytes
import Exasphere.Lib.Sequence

/-!
# Confined paths (`src/safety/safety.cpp`)

`SafePath::under` accepts a relative path that stays under a root: a splitter on `/` and a stack of names. The stack
runs empty exactly where a prefix of the components has more `..` than names (`walk_isSome_iff`), and what it ends with
is what is left when every name before a `..` is cancelled with it (`walk_eq_some_iff`).
-/

namespace Exasphere.Core

open Exasphere.Lib

structure SafePathResult where
  ok : Bool
  resolved : Bytes
  reason : Bytes
  deriving DecidableEq, Repr

namespace SafePath

def slash : UInt8 := 47

def dot : Bytes := [46]

def dotDot : Bytes := [46, 46]

/-- One character of the splitter: the parts so far and the current one. -/
def splitStep (st : List Bytes × Bytes) (c : UInt8) : List Bytes × Bytes :=
  if c = slash then (if st.2.isEmpty then st else (st.1 ++ [st.2], []))
  else (st.1, st.2 ++ [c])

/-- The parts that are not empty. -/
def split (p : Bytes) : List Bytes :=
  let st := p.foldl splitStep ([], [])
  if st.2.isEmpty then st.1 else st.1 ++ [st.2]

/-- The loop over the parts; `none` where it returns that the path escapes. -/
def walk : List Bytes → List Bytes → Option (List Bytes)
  | stack, [] => some stack
  | stack, part :: parts =>
    if part = dot then walk stack parts
    else if part = dotDot then (if stack.isEmpty then none else walk stack.dropLast parts)
    else walk (stack ++ [part]) parts

/-- The root as it stands before the components. -/
def rootPart (root : Bytes) : Bytes :=
  if root ≠ [] ∧ root.getLast? ≠ some slash then root ++ [slash] else root

def join (stack : List Bytes) : Bytes :=
  [slash].intercalate stack

def under (root candidate : Bytes) : SafePathResult :=
  if candidate.isEmpty then ⟨false, [], utf8 "empty path"⟩
  else if candidate.head? = some slash then
    ⟨false, [], utf8 "absolute path not allowed; paths must be relative and under the state dir"⟩
  else match walk [] (split candidate) with
    | none => ⟨false, [], utf8 "path escapes the state dir via .."⟩
    | some stack => ⟨true, rootPart root ++ join stack, []⟩

/-! ## The splitter -/

/-- The components of a path, without the empty ones and `.`. -/
def components (candidate : Bytes) : List Bytes :=
  (candidate.splitOn slash).filter fun c => decide (c ≠ []) && decide (c ≠ dot)

/-- The loop from a state on: its current part goes into the first piece. -/
theorem foldl_splitStep (p : Bytes) (st : List Bytes × Bytes) :
    (let st' := p.foldl splitStep st
      if st'.2.isEmpty then st'.1 else st'.1 ++ [st'.2]) =
      st.1 ++ ((p.splitOn slash).modifyHead (st.2 ++ ·)).filter fun c => decide (c ≠ []) := by
  induction p generalizing st with
  | nil =>
    obtain ⟨parts, cur⟩ := st
    cases cur <;> simp
  | cons c p ih =>
    obtain ⟨first, more, hsplit⟩ := List.exists_cons_of_ne_nil (List.splitOn_ne_nil slash p)
    rw [List.foldl_cons, ih, List.splitOn_cons_eq_if_modifyHead, hsplit]
    unfold splitStep
    by_cases hc : c = slash
    · subst hc
      cases hcur : st.2 with
      | nil => simp [hcur]
      | cons a cur => simp
    · simp [hc]

theorem split_eq (p : Bytes) : split p = (p.splitOn slash).filter fun c => decide (c ≠ []) := by
  have h := foldl_splitStep p ([], [])
  obtain ⟨first, more, hsplit⟩ := List.exists_cons_of_ne_nil (List.splitOn_ne_nil slash p)
  rw [hsplit] at h ⊢
  simpa [split] using h

/-- A component is a name: not empty, not `.` or `..`, and without a slash. -/
structure IsName (part : Bytes) : Prop where
  ne_nil : part ≠ []
  ne_dot : part ≠ dot
  ne_dotDot : part ≠ dotDot
  no_slash : slash ∉ part

theorem mem_components {candidate part : Bytes} (h : part ∈ components candidate) :
    part ≠ [] ∧ part ≠ dot ∧ slash ∉ part := by
  obtain ⟨hmem, hpart⟩ := List.mem_filter.mp h
  simp only [Bool.and_eq_true, decide_eq_true_eq] at hpart
  refine ⟨hpart.1, hpart.2, ?_⟩
  intro hslash
  have := not_separator_of_mem_splitOnP hmem slash hslash
  simp at this

theorem split_filter_dot (candidate : Bytes) :
    (split candidate).filter (fun c => decide (c ≠ dot)) = components candidate := by
  rw [split_eq, List.filter_filter, components]
  apply List.filter_congr
  intro c _
  exact Bool.and_comm _ _

/-! ## The stack -/

/-- `.` does nothing. -/
theorem walk_filter_dot (stack parts : List Bytes) :
    walk stack (parts.filter fun c => decide (c ≠ dot)) = walk stack parts := by
  induction parts generalizing stack with
  | nil => rfl
  | cons part parts ih =>
    by_cases hdot : part = dot
    · rw [List.filter_cons_of_neg (by simpa using hdot), ih, walk, if_pos hdot]
    · rw [List.filter_cons_of_pos (by simpa using hdot), walk, walk, if_neg hdot, if_neg hdot, ih, ih]

theorem walk_split (candidate : Bytes) : walk [] (split candidate) = walk [] (components candidate) := by
  rw [← walk_filter_dot, split_filter_dot]

/-- `..` takes the last name away. -/
theorem walk_dotDot (stack : List Bytes) (name : Bytes) (parts : List Bytes) :
    walk (stack ++ [name]) (dotDot :: parts) = walk stack parts := by
  rw [walk, if_neg (by decide), if_pos rfl]
  simp

theorem walk_name {part : Bytes} (hdot : part ≠ dot) (hdotDot : part ≠ dotDot) (stack parts : List Bytes) :
    walk stack (part :: parts) = walk (stack ++ [part]) parts := by
  rw [walk, if_neg hdot, if_neg hdotDot]

theorem forall_prefix_cons {part : Bytes} {parts : List Bytes} {Q : List Bytes → Prop} :
    (∀ pre, pre <+: part :: parts → Q pre) ↔ Q [] ∧ ∀ pre, pre <+: parts → Q (part :: pre) := by
  constructor
  · intro h
    refine ⟨h [] List.nil_prefix, ?_⟩
    intro pre hpre
    exact h _ (List.cons_prefix_cons.mpr ⟨rfl, hpre⟩)
  · rintro ⟨hnil, hcons⟩ pre hpre
    cases pre with
    | nil => exact hnil
    | cons c pre =>
      obtain ⟨rfl, htail⟩ := List.cons_prefix_cons.mp hpre
      exact hcons pre htail

/-- The stack holds out exactly if no prefix of the components has more `..` than there are names. -/
theorem walk_isSome_iff {parts : List Bytes} (hparts : dot ∉ parts) (stack : List Bytes) :
    (∃ names, walk stack parts = some names) ↔
      ∀ pre, pre <+: parts → pre.count dotDot ≤ stack.length + pre.countP (fun c => decide (c ≠ dotDot)) := by
  induction parts generalizing stack with
  | nil =>
    simp only [walk, Option.some.injEq, exists_eq', List.prefix_nil, true_iff]
    rintro pre rfl
    simp
  | cons part parts ih =>
    have hrest : dot ∉ parts := fun h => hparts (List.mem_cons_of_mem part h)
    have hdot : part ≠ dot := fun h => hparts (h ▸ List.mem_cons_self)
    rw [forall_prefix_cons]
    by_cases hdd : part = dotDot
    · subst hdd
      rcases List.eq_nil_or_concat stack with rfl | ⟨init, top, rfl⟩
      · have hnone : walk [] (dotDot :: parts) = none := by
          rw [walk, if_neg (by decide), if_pos rfl]
          rfl
        simp only [hnone, reduceCtorEq, exists_false, false_iff, not_and, not_forall]
        intro _
        exact ⟨[], List.nil_prefix, by decide⟩
      · rw [List.concat_eq_append, walk_dotDot, ih hrest]
        simp only [List.count_cons_self, List.countP_cons_of_neg (p := fun c => decide (c ≠ dotDot)) (a := dotDot)
          (by simp), List.length_append, List.length_singleton, List.count_nil, Nat.zero_le, true_and]
        exact forall₂_congr fun pre _ => by omega
    · rw [walk_name hdot hdd, ih hrest]
      simp only [List.count_cons_of_ne hdd, List.countP_cons_of_pos (p := fun c => decide (c ≠ dotDot)) (a := part)
        (by simpa using hdd), List.length_append, List.length_singleton, List.count_nil, Nat.zero_le, true_and]
      exact forall₂_congr fun pre _ => by omega

/-- Cancels names with the `..` behind them. -/
inductive Cancels : List Bytes → List Bytes → Prop
  | refl (parts : List Bytes) : Cancels parts parts
  | step {before after parts : List Bytes} {name : Bytes} (hname : name ≠ dotDot)
      (h : Cancels (before ++ after) parts) : Cancels (before ++ name :: dotDot :: after) parts

theorem walk_append (stack before after : List Bytes) :
    walk stack (before ++ after) = (walk stack before).bind fun stack => walk stack after := by
  induction before generalizing stack with
  | nil => rfl
  | cons part before ih =>
    rw [List.cons_append, walk, walk]
    split
    · exact ih stack
    · split
      · split
        · rfl
        · exact ih stack.dropLast
      · exact ih (stack ++ [part])

theorem walk_names {names : List Bytes} (hdot : dot ∉ names) (hdd : dotDot ∉ names) (stack : List Bytes) :
    walk stack names = some (stack ++ names) := by
  induction names generalizing stack with
  | nil => simp [walk]
  | cons name names ih =>
    simp only [List.mem_cons, not_or] at hdot hdd
    rw [walk_name (Ne.symm hdot.1) (Ne.symm hdd.1), ih hdot.2 hdd.2]
    simp

theorem walk_cancels {stack parts names : List Bytes} (hdot : dot ∉ parts) (hstack : dotDot ∉ stack)
    (h : walk stack parts = some names) :
    Cancels (stack ++ parts) names ∧ dotDot ∉ names ∧ ∀ name ∈ names, name ∈ stack ∨ name ∈ parts := by
  induction parts generalizing stack with
  | nil =>
    obtain rfl := Option.some.inj h
    rw [List.append_nil]
    exact ⟨.refl stack, hstack, fun name hname => Or.inl hname⟩
  | cons part parts ih =>
    simp only [List.mem_cons, not_or] at hdot
    by_cases hdd : part = dotDot
    · subst hdd
      rcases List.eq_nil_or_concat stack with rfl | ⟨init, top, rfl⟩
      · rw [walk, if_neg (by decide), if_pos rfl] at h
        cases h
      · rw [List.concat_eq_append] at h hstack ⊢
        rw [walk_dotDot] at h
        simp only [List.mem_append, List.mem_singleton, not_or] at hstack
        obtain ⟨hcancel, hnames, hmem⟩ := ih hdot.2 hstack.1 h
        refine ⟨?_, hnames, ?_⟩
        · rw [List.append_assoc]
          exact .step (Ne.symm hstack.2) hcancel
        · intro name hname
          rcases hmem name hname with hin | hin
          · exact Or.inl (List.mem_append_left _ hin)
          · exact Or.inr (List.mem_cons_of_mem _ hin)
    · rw [walk_name (Ne.symm hdot.1) hdd] at h
      have hstack' : dotDot ∉ stack ++ [part] := by
        simp only [List.mem_append, List.mem_singleton, not_or]
        exact ⟨hstack, Ne.symm hdd⟩
      obtain ⟨hcancel, hnames, hmem⟩ := ih hdot.2 hstack' h
      refine ⟨by simpa using hcancel, hnames, ?_⟩
      intro name hname
      rcases hmem name hname with hin | hin
      · rcases List.mem_append.mp hin with hin | hin
        · exact Or.inl hin
        · rw [List.mem_singleton.mp hin]
          exact Or.inr List.mem_cons_self
      · exact Or.inr (List.mem_cons_of_mem part hin)

theorem Cancels.walk_eq {parts names : List Bytes} (h : Cancels parts names) (hdot : dot ∉ parts)
    (hdd : dotDot ∉ names) : walk [] parts = some names := by
  induction h with
  | refl parts => exact walk_names hdot hdd []
  | @step before after parts name hname h ih =>
    simp only [List.mem_append, List.mem_cons, not_or] at hdot
    have hrest := ih (by simp only [List.mem_append, not_or]; exact ⟨hdot.1, hdot.2.2.2⟩) hdd
    rw [walk_append] at hrest ⊢
    cases hwalk : walk [] before with
    | none => rw [hwalk] at hrest; cases hrest
    | some stack =>
      rw [hwalk] at hrest
      rw [Option.bind_some, walk_name (Ne.symm hdot.2.1) hname, walk_dotDot]
      exact hrest

/-- What the stack ends with is the only list of names that cancelling can leave. -/
theorem walk_eq_some_iff {parts names : List Bytes} (hdot : dot ∉ parts) :
    walk [] parts = some names ↔ Cancels parts names ∧ dotDot ∉ names := by
  constructor
  · intro h
    obtain ⟨hcancel, hnames, -⟩ := walk_cancels hdot (by simp) h
    exact ⟨hcancel, hnames⟩
  · rintro ⟨hcancel, hnames⟩
    exact hcancel.walk_eq hdot hnames

/-! ## Confinement -/

/-- What is accepted, and what it resolves to. -/
theorem under_ok_iff {root candidate : Bytes} : (under root candidate).ok = true ↔
    candidate ≠ [] ∧ candidate.head? ≠ some slash ∧ ∃ names, walk [] (components candidate) = some names := by
  rw [under, walk_split]
  by_cases hempty : candidate = []
  · simp [hempty]
  · by_cases habs : candidate.head? = some slash
    · simp [hempty, habs]
    · rw [if_neg (by simpa using hempty), if_neg habs]
      cases walk [] (components candidate) <;> simp [hempty, habs]

theorem under_eq (root : Bytes) {candidate : Bytes} {names : List Bytes} (hempty : candidate ≠ [])
    (habs : candidate.head? ≠ some slash) (h : walk [] (components candidate) = some names) :
    under root candidate = ⟨true, rootPart root ++ join names, []⟩ := by
  rw [under, walk_split, h, if_neg (by simpa using hempty), if_neg habs]

theorem components_join {names : List Bytes} (hnames : ∀ name ∈ names, IsName name) (hne : names ≠ []) :
    components (join names) = names := by
  rw [components, join, List.splitOn_intercalate slash (fun name h => (hnames name h).no_slash) hne,
    List.filter_eq_self]
  intro name h
  simp [(hnames name h).ne_nil, (hnames name h).ne_dot]

theorem dot_notMem_components (candidate : Bytes) : dot ∉ components candidate :=
  fun h => (mem_components h).2.1 rfl

/-- Names that are joined again give a relative path. -/
theorem join_relative {names : List Bytes} (hnames : ∀ name ∈ names, IsName name) (hne : names ≠ []) :
    join names ≠ [] ∧ (join names).head? ≠ some slash := by
  obtain ⟨name, rest, rfl⟩ := List.exists_cons_of_ne_nil hne
  have hname := hnames name List.mem_cons_self
  obtain ⟨c, tail, rfl⟩ := List.exists_cons_of_ne_nil hname.ne_nil
  obtain ⟨more, hjoin⟩ : ∃ more, join ((c :: tail) :: rest) = c :: more := by
    cases rest <;> exact ⟨_, rfl⟩
  have hc : slash ≠ c := fun h => hname.no_slash (h ▸ List.mem_cons_self)
  rw [hjoin, List.head?_cons]
  exact ⟨by simp, fun h => hc (Option.some.inj h).symm⟩

/-- A candidate is accepted exactly if it is relative and never climbs above the root; it resolves to the root and the
names that cancelling leaves, and where there are such names they resolve to the same path. -/
theorem under_exact (root candidate : Bytes) :
    ((under root candidate).ok = true ↔ candidate ≠ [] ∧ candidate.head? ≠ some slash ∧
      ∀ pre, pre <+: components candidate → pre.count dotDot ≤ pre.countP fun c => decide (c ≠ dotDot)) ∧
    ((under root candidate).ok = true → ∃ names, (under root candidate).resolved = rootPart root ++ join names ∧
      (∀ name ∈ names, IsName name) ∧ Cancels (components candidate) names ∧
      (names ≠ [] → under root (join names) = under root candidate)) := by
  have hdot := dot_notMem_components candidate
  refine ⟨?_, ?_⟩
  · rw [under_ok_iff, walk_isSome_iff hdot []]
    simp only [List.length_nil, Nat.zero_add]
  · intro hok
    obtain ⟨hempty, habs, names, hwalk⟩ := under_ok_iff.mp hok
    obtain ⟨hcancel, hdd, hmem⟩ := walk_cancels hdot (by simp) hwalk
    have hnames : ∀ name ∈ names, IsName name := by
      intro name hname
      have hin := (hmem name hname).resolve_left (by simp)
      obtain ⟨hne, hnd, hslash⟩ := mem_components hin
      exact ⟨hne, hnd, fun h => hdd (h ▸ hname), hslash⟩
    have hres := under_eq root hempty habs hwalk
    refine ⟨names, by rw [hres], hnames, hcancel, ?_⟩
    intro hne
    obtain ⟨hempty', habs'⟩ := join_relative hnames hne
    have hwalk' : walk [] (components (join names)) = some names := by
      rw [components_join hnames hne]
      exact walk_names (fun h => (hnames dot h).ne_dot rfl) hdd []
    rw [hres, under_eq root hempty' habs' hwalk']

/-- The relative part of a path to the root itself is empty, and an empty path is refused. -/
theorem under_dot_not_idempotent : (under (utf8 "/var") dot).ok = true ∧
    (under (utf8 "/var") dot).resolved = rootPart (utf8 "/var") ++ join [] ∧
    (under (utf8 "/var") (join [])).ok = false := by
  decide

end SafePath

end Exasphere.Core

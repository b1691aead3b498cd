import Mathlib.Algebra.BigOperators.Group.Finset.Piecewise
import Mathlib.Algebra.Order.BigOperators.Group.Finset
import Mathlib.Data.Nat.Count

/-!
# Schedules of one processor

Jobs have an arrival and a burst, and a schedule gives every tick to at most one job. A schedule is greedy for a
relation when every tick in which some job is active goes to an active job, to one that is related to all others.

- greedy for an order that respects arrival: the jobs run one after the other, each from its arrival or from the end of
  the job before it (`Jobs.Greedy.serial`);
- greedy for deadlines: every job is finished by its deadline if any schedule at all finishes the jobs with no later
  deadline by theirs (`Jobs.Greedy.on_time`).
-/

namespace Exasphere.Lib

variable {ι : Type*} [DecidableEq ι] {σ : ℕ → Option ι} {i j : ι} {a b t : ℕ}

/-! ## Ticks given to a job -/

section Served

/-- The number of ticks before `t` that go to job `i`. -/
def served (σ : ℕ → Option ι) (i : ι) (t : ℕ) : ℕ := Nat.count (fun τ => σ τ = some i) t

@[simp] theorem served_zero : served σ i 0 = 0 := Nat.count_zero _

theorem served_succ : served σ i (t + 1) = served σ i t + if σ t = some i then 1 else 0 := Nat.count_succ _ _

theorem served_mono (h : a ≤ b) : served σ i a ≤ served σ i b := Nat.count_monotone _ h

/-- Two ticks of a job with the same number of ticks before them are one. -/
theorem served_inj (ha : σ a = some i) (hb : σ b = some i) (h : served σ i a = served σ i b) : a = b :=
  Nat.count_injective ha hb h

/-- A job that gets none of the ticks from `a` on. -/
theorem served_none (hab : a ≤ b) (h : ∀ τ, a ≤ τ → τ < b → σ τ ≠ some i) : served σ i b = served σ i a := by
  induction b, hab using Nat.le_induction with
  | base => rfl
  | succ b hab ih =>
    rw [served_succ, if_neg (h b hab (Nat.lt_succ_self b)), Nat.add_zero, ih (fun τ h₁ h₂ => h τ h₁ (by omega))]

/-- The jobs of a set together get at most one tick a tick. -/
theorem sum_served_le (T : Finset ι) (hab : a ≤ b) :
    ∑ k ∈ T, served σ k b ≤ ∑ k ∈ T, served σ k a + (b - a) := by
  induction b, hab using Nat.le_induction with
  | base => simp
  | succ b hab ih =>
    have hone : ∑ k ∈ T, (if σ b = some k then 1 else 0) ≤ 1 := by
      cases hσ : σ b with
      | none => simp
      | some k =>
        have hcomm : ∀ l, (if some k = some l then 1 else 0) = if k = l then 1 else 0 := by simp
        simp only [hcomm, Finset.sum_ite_eq]
        split <;> omega
    simp only [served_succ, Finset.sum_add_distrib]
    omega

/-- They get every tick that goes to one of them. -/
theorem sum_served_all (T : Finset ι) (hab : a ≤ b) (h : ∀ τ, a ≤ τ → τ < b → ∃ k ∈ T, σ τ = some k) :
    ∑ k ∈ T, served σ k b = ∑ k ∈ T, served σ k a + (b - a) := by
  induction b, hab using Nat.le_induction with
  | base => simp
  | succ b hab ih =>
    have hone : ∑ k ∈ T, (if σ b = some k then 1 else 0) = 1 := by
      obtain ⟨k, hk, hσ⟩ := h b hab (Nat.lt_succ_self b)
      have hcomm : ∀ l, (if σ b = some l then 1 else 0) = if k = l then 1 else 0 := by simp [hσ]
      simp only [hcomm, Finset.sum_ite_eq, if_pos hk]
    have hrest := ih (fun τ h₁ h₂ => h τ h₁ (by omega))
    simp only [served_succ, Finset.sum_add_distrib]
    omega

end Served

/-! ## Greedy schedules -/

/-- Jobs with their first tick and their length. -/
structure Jobs (ι : Type*) where
  arrival : ι → ℕ
  burst : ι → ℕ

namespace Jobs

variable {J : Jobs ι} {r : ι → ι → Prop}

/-- The job has arrived and is not finished. -/
def Active (J : Jobs ι) (σ : ℕ → Option ι) (t : ℕ) (i : ι) : Prop := J.arrival i ≤ t ∧ served σ i t < J.burst i

/-- Every tick goes to an active job if there is one, and to one that is related to all other active jobs. -/
structure Greedy (J : Jobs ι) (r : ι → ι → Prop) (σ : ℕ → Option ι) : Prop where
  active : ∀ {t i}, σ t = some i → J.Active σ t i
  busy : ∀ {t i}, J.Active σ t i → σ t ≠ none
  first : ∀ {t i j}, σ t = some i → J.Active σ t j → j ≠ i → r i j

/-- No job gets more than its burst. -/
theorem Greedy.served_le (h : J.Greedy r σ) (i : ι) (t : ℕ) : served σ i t ≤ J.burst i := by
  induction t with
  | zero => simp
  | succ t ih =>
    rw [served_succ]
    split
    next hσ => exact (h.active hσ).2
    next => exact ih

/-! ## One after the other -/

section Serial

/-- The end of the last job of a list whose jobs run one after the other. -/
def finish (J : Jobs ι) (l : List ι) : ℕ := l.foldl (fun free i => max (J.arrival i) free + J.burst i) 0

/-- The first tick of job `i` behind the jobs of a list. -/
def start (J : Jobs ι) (l : List ι) (i : ι) : ℕ := max (J.arrival i) (J.finish l)

omit [DecidableEq ι] in
theorem finish_append (J : Jobs ι) (l : List ι) (i : ι) : J.finish (l ++ [i]) = J.start l i + J.burst i := by
  simp [finish, start]

omit [DecidableEq ι] in
theorem finish_le_append (J : Jobs ι) (l l' : List ι) : J.finish l ≤ J.finish (l ++ l') := by
  induction l' using List.reverseRecOn with
  | nil => simp
  | append_singleton l' i ih =>
    rw [← List.append_assoc, finish_append]
    exact (ih.trans (le_max_right _ _)).trans (Nat.le_add_right _ _)

/-- At the end of `done` its jobs are finished and no other has begun. -/
structure Halfway (J : Jobs ι) (σ : ℕ → Option ι) (done rest : List ι) : Prop where
  finished : ∀ k ∈ done, J.burst k ≤ served σ k (J.finish done)
  untouched : ∀ k ∈ rest, served σ k (J.finish done) = 0

variable {done rest : List ι}

/-- A job that is active at the end of `done` or later is one of the rest. -/
theorem Halfway.mem_rest (h : J.Halfway σ done rest) (hall : ∀ k, k ∈ done ++ rest) (ht : J.finish done ≤ t)
    {k : ι} (hk : J.Active σ t k) : k ∈ rest := by
  rcases List.mem_append.mp (hall k) with hd | hr
  · have hlate := (h.finished k hd).trans (served_mono ht)
    have hlt := hk.2
    omega
  · exact hr

/-- Until the next job arrives nothing runs. -/
theorem Halfway.idle (h : J.Halfway σ done (i :: rest)) (hg : J.Greedy r σ) (hall : ∀ k, k ∈ done ++ i :: rest)
    (harr : ∀ k ∈ rest, J.arrival i ≤ J.arrival k) {τ : ℕ} (h₁ : J.finish done ≤ τ) (h₂ : τ < J.start done i) :
    σ τ = none := by
  cases hσ : σ τ with
  | none => rfl
  | some k =>
    have hact := hg.active hσ
    have hle : J.arrival i ≤ J.arrival k := by
      rcases List.mem_cons.mp (h.mem_rest hall h₁ hact) with rfl | hk
      · exact le_refl _
      · exact harr k hk
    have hk := hact.1
    unfold start at h₂
    omega

/-- From then on it runs until it is finished. -/
theorem Halfway.runs (h : J.Halfway σ done (i :: rest)) (hg : J.Greedy r σ) (hall : ∀ k, k ∈ done ++ i :: rest)
    (harr : ∀ k ∈ rest, J.arrival i ≤ J.arrival k) (hlast : ∀ k ∈ rest, ¬r k i) (l : ℕ) (hl : l ≤ J.burst i) :
    (∀ τ, J.start done i ≤ τ → τ < J.start done i + l → σ τ = some i) ∧ served σ i (J.start done i + l) = l := by
  have hfin : J.finish done ≤ J.start done i := le_max_right _ _
  induction l with
  | zero =>
    refine ⟨fun τ h₁ h₂ => by omega, ?_⟩
    rw [Nat.add_zero, served_none hfin, h.untouched i (by simp)]
    intro τ h₁ h₂
    rw [h.idle hg hall harr h₁ h₂]
    exact (Option.some_ne_none _).symm
  | succ l ih =>
    obtain ⟨hrun, hserved⟩ := ih (by omega)
    have hact : J.Active σ (J.start done i + l) i :=
      ⟨(le_max_left (J.arrival i) (J.finish done)).trans (Nat.le_add_right (J.start done i) l), by omega⟩
    have hnow : σ (J.start done i + l) = some i := by
      obtain ⟨k, hk⟩ := Option.ne_none_iff_exists'.mp (hg.busy hact)
      rcases List.mem_cons.mp (h.mem_rest hall (by omega) (hg.active hk)) with hki | hmem
      · rw [hk, hki]
      · -- a later job would be related to `i`
        by_cases hki : i = k
        · rw [hk, hki]
        · exact absurd (hg.first hk hact hki) (hlast k hmem)
    refine ⟨fun τ h₁ h₂ => ?_, ?_⟩
    · rcases Nat.lt_or_ge τ (J.start done i + l) with hlt | hge
      · exact hrun τ h₁ hlt
      · obtain rfl : τ = J.start done i + l := by omega
        exact hnow
    · rw [← Nat.add_assoc, served_succ, if_pos hnow, hserved]

/-- The step of the induction along the list. -/
theorem Halfway.next (h : J.Halfway σ done (i :: rest)) (hg : J.Greedy r σ) (hall : ∀ k, k ∈ done ++ i :: rest)
    (hi : i ∉ rest) (harr : ∀ k ∈ rest, J.arrival i ≤ J.arrival k) (hlast : ∀ k ∈ rest, ¬r k i) :
    J.Halfway σ (done ++ [i]) rest := by
  obtain ⟨hrun, hserved⟩ := h.runs hg hall harr hlast (J.burst i) (le_refl _)
  have hfin : J.finish done ≤ J.start done i := le_max_right _ _
  constructor
  · intro k hk
    rw [finish_append]
    rcases List.mem_append.mp hk with hk | hk
    · exact (h.finished k hk).trans (served_mono (by omega))
    · obtain rfl := List.mem_singleton.mp hk
      exact hserved.ge
  · intro k hk
    rw [finish_append, served_none (a := J.finish done) (by omega), h.untouched k (by simp [hk])]
    intro τ h₁ h₂
    rcases Nat.lt_or_ge τ (J.start done i) with hlt | hge
    · rw [h.idle hg hall harr h₁ hlt]
      exact (Option.some_ne_none _).symm
    · rw [hrun τ hge h₂]
      intro hki
      exact hi (Option.some.inj hki ▸ hk)

theorem Greedy.halfway (hg : J.Greedy r σ) {l : List ι} (hall : ∀ k, k ∈ l) (hnd : l.Nodup)
    (harr : l.Pairwise (fun i j => J.arrival i ≤ J.arrival j)) (hlast : l.Pairwise (fun i j => ¬r j i)) :
    ∀ done rest, l = done ++ rest → J.Halfway σ done rest := by
  intro done
  induction done using List.reverseRecOn with
  | nil =>
    intro rest _
    exact ⟨by simp, fun k _ => by simp [finish]⟩
  | append_singleton done i ih =>
    intro rest hl
    have hl' : l = done ++ i :: rest := by simpa using hl
    rw [hl'] at hall hnd harr hlast
    have hi := (List.nodup_cons.mp (List.nodup_append.mp hnd).2.1).1
    have ha := (List.pairwise_cons.mp (List.pairwise_append.mp harr).2.1).1
    have hr := (List.pairwise_cons.mp (List.pairwise_append.mp hlast).2.1).1
    exact (ih (i :: rest) hl').next hg hall hi ha hr

/-- **One after the other.** In a schedule that is greedy for a relation that respects a list of all jobs, itself in
order of arrival, every job runs without a break from `start`. -/
theorem Greedy.serial (hg : J.Greedy r σ) {l : List ι} (hall : ∀ k, k ∈ l) (hnd : l.Nodup)
    (harr : l.Pairwise (fun i j => J.arrival i ≤ J.arrival j)) (hlast : l.Pairwise (fun i j => ¬r j i))
    (hl : l = done ++ i :: rest) (k : ℕ) (hk : k < J.burst i) :
    σ (J.start done i + k) = some i ∧ served σ i (J.start done i + k) = k := by
  have hhalf := hg.halfway hall hnd harr hlast done (i :: rest) hl
  rw [hl] at hall harr hlast
  have ha := (List.pairwise_cons.mp (List.pairwise_append.mp harr).2.1).1
  have hr := (List.pairwise_cons.mp (List.pairwise_append.mp hlast).2.1).1
  obtain ⟨hrun, -⟩ := hhalf.runs hg hall ha hr (k + 1) hk
  exact ⟨hrun _ (by omega) (by omega), (hhalf.runs hg hall ha hr k (by omega)).2⟩

end Serial

/-! ## Deadlines -/

section Deadlines

variable {d : ι → ℕ} {σ' : ℕ → Option ι}

/-- From tick `t` to tick `D` only jobs with deadlines up to `D` run. -/
def Urgent (d : ι → ℕ) (σ : ℕ → Option ι) (D t : ℕ) : Prop :=
  ∀ τ, t ≤ τ → τ < D → ∃ k, σ τ = some k ∧ d k ≤ D

/-- A job with an urgent deadline that is active somewhere in the longest urgent interval arrived in it. -/
theorem Greedy.arrival_ge (hg : J.Greedy (fun i j => d i ≤ d j) σ) {D t₀ : ℕ} (hu : Urgent d σ D t₀)
    (hmin : ∀ t, Urgent d σ D t → t₀ ≤ t) {k : ι} (hk : d k ≤ D) (ht : t₀ ≤ t) (hact : served σ k t < J.burst k) :
    t₀ ≤ J.arrival k := by
  by_contra hlt
  -- it is active one tick earlier, so that tick is urgent too
  have hbefore : J.Active σ (t₀ - 1) k := ⟨by omega, lt_of_le_of_lt (served_mono (by omega)) hact⟩
  obtain ⟨l, hl⟩ := Option.ne_none_iff_exists'.mp (hg.busy hbefore)
  have hdl : d l ≤ D := by
    by_cases hlk : k = l
    · rw [← hlk]
      exact hk
    · exact (hg.first hl hbefore hlk).trans hk
  have hlonger := hmin (t₀ - 1) (by
    intro τ h₁ h₂
    rcases Nat.lt_or_ge τ t₀ with hτ | hτ
    · obtain rfl : τ = t₀ - 1 := by omega
      exact ⟨l, hl, hdl⟩
    · exact hu τ hτ h₂)
  omega

/-- **Deadlines are met if they can be.** The processor demand: in the longest interval before a missed deadline in
which only jobs with deadlines up to it run, more work would be due than there are ticks. -/
theorem Greedy.on_time [Fintype ι] (hg : J.Greedy (fun i j => d i ≤ d j) σ)
    (hstart : ∀ t k, σ' t = some k → J.arrival k ≤ t) (hdue : ∀ k, d k ≤ d i → J.burst k ≤ served σ' k (d k)) :
    J.burst i ≤ served σ i (d i) := by
  classical
  by_contra hmiss
  rw [Nat.not_le] at hmiss
  have hex : ∃ t, Urgent d σ (d i) t := ⟨d i, fun τ h₁ h₂ => by omega⟩
  obtain ⟨t₀, hu, hmin⟩ : ∃ t₀, Urgent d σ (d i) t₀ ∧ ∀ t, Urgent d σ (d i) t → t₀ ≤ t :=
    ⟨Nat.find hex, Nat.find_spec hex, fun t ht => Nat.find_min' hex ht⟩
  have ht₀ : t₀ ≤ d i := hmin _ (fun τ h₁ h₂ => by omega)
  let T : Finset ι := Finset.univ.filter (fun k => d k ≤ d i ∧ t₀ ≤ J.arrival k)
  have hiT : i ∈ T := by
    have := hg.arrival_ge hu hmin (le_refl (d i)) ht₀ hmiss
    simp [T, this]
  have hsupply : ∑ k ∈ T, served σ k (d i) = ∑ k ∈ T, served σ k t₀ + (d i - t₀) := by
    refine sum_served_all T ht₀ (fun τ h₁ h₂ => ?_)
    obtain ⟨k, hk, hdk⟩ := hu τ h₁ h₂
    have := hg.arrival_ge hu hmin hdk h₁ (hg.active hk).2
    exact ⟨k, by simp [T, hdk, this], hk⟩
  have hdemand : ∑ k ∈ T, served σ k (d i) < ∑ k ∈ T, J.burst k :=
    Finset.sum_lt_sum (fun k _ => hg.served_le k (d i)) ⟨i, hiT, hmiss⟩
  have hother : ∑ k ∈ T, J.burst k ≤ ∑ k ∈ T, served σ' k (d i) := by
    refine Finset.sum_le_sum (fun k hk => ?_)
    have hdk : d k ≤ d i := (Finset.mem_filter.mp hk).2.1
    exact (hdue k hdk).trans (served_mono hdk)
  have hzero : ∑ k ∈ T, served σ' k t₀ = 0 := by
    refine Finset.sum_eq_zero (fun k hk => ?_)
    have hak : t₀ ≤ J.arrival k := (Finset.mem_filter.mp hk).2.2
    rw [served_none (Nat.zero_le t₀), served_zero]
    intro τ _ h₂ hσ
    have := hstart τ k hσ
    omega
  have hcap := sum_served_le (σ := σ') T ht₀
  omega

end Deadlines

end Jobs

end Exasphere.Lib

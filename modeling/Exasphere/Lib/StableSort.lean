import Mathlib.Data.List.Sort
import Mathlib.Order.Basic

/-!
# Stable sorting by rank

A stable sort puts the elements with the highest rank first and leaves elements of one rank in their order. So it is
made of the parts of the list of one rank each, from the highest one on (`mergeSort_eq_flatMap`).
-/

namespace Exasphere.Lib

variable {α ρ : Type*} [LinearOrder ρ] {rank : α → ρ} {l : List α}

/-- The order of the sort: no element comes before one of a higher rank. -/
def byRank (rank : α → ρ) (a b : α) : Bool := decide (rank b ≤ rank a)

theorem byRank_trans (a b c : α) (h : byRank rank a b = true) (h' : byRank rank b c = true) : byRank rank a c = true :=
  decide_eq_true ((of_decide_eq_true h').trans (of_decide_eq_true h))

theorem byRank_total (a b : α) : (byRank rank a b || byRank rank b a) = true := by
  simp [byRank, le_total]

/-- The sort keeps the elements of one rank in their order. -/
theorem filter_mergeSort (rank : α → ρ) (l : List α) (k : ρ) :
    (l.mergeSort (byRank rank)).filter (fun a => decide (rank a = k)) = l.filter (fun a => decide (rank a = k)) := by
  have hsorted : (l.filter (fun a => decide (rank a = k))).Pairwise (fun a b => byRank rank a b = true) := by
    refine List.pairwise_of_forall_mem_list fun a ha b hb => ?_
    have hak : rank a = k := by simpa using (List.mem_filter.mp ha).2
    have hbk : rank b = k := by simpa using (List.mem_filter.mp hb).2
    exact decide_eq_true (by rw [hak, hbk])
  have hsub := (List.sublist_mergeSort byRank_trans byRank_total hsorted List.filter_sublist).filter
    (fun a => decide (rank a = k))
  rw [List.filter_filter] at hsub
  simp only [Bool.and_self] at hsub
  have hperm := (List.mergeSort_perm l (byRank rank)).filter (fun a => decide (rank a = k))
  exact (hsub.eq_of_length hperm.length_eq.symm).symm

/-- A sorted list is made of its parts of one rank each. -/
theorem flatMap_filter_of_sorted {ks : List ρ} (hks : ks.Pairwise (· > ·))
    (hl : l.Pairwise (fun a b => rank b ≤ rank a))
    (hmem : ∀ a ∈ l, rank a ∈ ks) : ks.flatMap (fun k => l.filter (fun a => decide (rank a = k))) = l := by
  induction ks generalizing l with
  | nil =>
    cases l with
    | nil => rfl
    | cons a l => exact absurd (hmem a (by simp)) (by simp)
  | cons k ks ih =>
    obtain ⟨hk, hks⟩ := List.pairwise_cons.mp hks
    -- the elements of the highest rank stand at the start
    have hsplit : l.filter (fun a => decide (rank a = k)) ++ l.filter (fun a => decide (rank a ≠ k)) = l := by
      clear ih hks
      induction l with
      | nil => rfl
      | cons a l ihl =>
        obtain ⟨ha, hl⟩ := List.pairwise_cons.mp hl
        have ihl := ihl hl fun b hb => hmem b (by simp [hb])
        by_cases hak : rank a = k
        · rw [List.filter_cons_of_pos (by simpa using hak), List.filter_cons_of_neg (by simpa using hak),
            List.cons_append, ihl]
        · have hlow : ∀ b ∈ a :: l, rank b ≠ k := by
            intro b hb hbk
            have hak' : k > rank a := hk _ ((List.mem_cons.mp (hmem a (by simp))).resolve_left hak)
            rcases List.mem_cons.mp hb with rfl | hb
            · exact hak hbk
            · exact absurd (ha b hb) (not_le.mpr (hbk ▸ hak'))
          rw [List.filter_eq_nil_iff.mpr fun b hb => by simpa using hlow b hb,
            List.filter_eq_self.mpr fun b hb => by simpa using hlow b hb, List.nil_append]
    have hrest : ks.flatMap (fun j => l.filter (fun a => decide (rank a = j))) =
        l.filter (fun a => decide (rank a ≠ k)) := by
      refine Eq.trans ?_ (ih hks (hl.filter _) fun a ha => ?_)
      · refine List.flatMap_congr fun j hj => ?_
        rw [List.filter_filter]
        refine List.filter_congr fun a _ => ?_
        have hne : rank a = j → rank a ≠ k := fun h h' => absurd (hk j hj) (by rw [← h, h']; exact lt_irrefl _)
        by_cases h : rank a = j
        · simp [h, h ▸ hne h]
        · simp [h]
      · obtain ⟨ha, hak⟩ := List.mem_filter.mp ha
        exact (List.mem_cons.mp (hmem a ha)).resolve_left (by simpa using hak)
    rw [List.flatMap_cons, hrest, hsplit]

/-- **A stable sort**, rank by rank. -/
theorem mergeSort_eq_flatMap {ks : List ρ} (hks : ks.Pairwise (· > ·)) (hmem : ∀ a ∈ l, rank a ∈ ks) :
    l.mergeSort (byRank rank) = ks.flatMap fun k => l.filter (fun a => decide (rank a = k)) := by
  have hsorted : (l.mergeSort (byRank rank)).Pairwise (fun a b => rank b ≤ rank a) :=
    (List.pairwise_mergeSort byRank_trans byRank_total l).imp fun h => of_decide_eq_true h
  rw [← flatMap_filter_of_sorted hks hsorted fun a ha => hmem a (List.mem_mergeSort.mp ha)]
  exact List.flatMap_congr fun k _ => filter_mergeSort rank l k

end Exasphere.Lib

import Mathlib.Data.List.Basic
import Mathlib.Data.List.Sort
import Mathlib.Data.List.Nodup

/-! Sorting by a rank, where equal ranks keep their order: a sorted list is given by its parts of equal rank, and
sorting goes together with choosing entries. -/
namespace FleetEnergy
set_option autoImplicit false

variable {α : Type} (rank : α → Int)

def byRank (l : List α) : List α := l.mergeSort fun a b => decide (rank a ≤ rank b)

theorem byRank_perm (l : List α) : (byRank rank l).Perm l := List.mergeSort_perm _ _

theorem rank_trans (a b c : α) (hab : decide (rank a ≤ rank b) = true) (hbc : decide (rank b ≤ rank c) = true) :
    decide (rank a ≤ rank c) = true := by
  simp only [decide_eq_true_eq] at hab hbc ⊢
  exact hab.trans hbc

theorem rank_total (a b : α) : (decide (rank a ≤ rank b) || decide (rank b ≤ rank a)) = true := by
  simpa using le_total (rank a) (rank b)

theorem byRank_sorted (l : List α) : (byRank rank l).Pairwise (fun a b => rank a ≤ rank b) := by
  have h := List.pairwise_mergeSort (rank_trans rank) (rank_total rank) l
  exact h.imp fun h => by simpa using h

/-- Entries of one rank keep their order. -/
theorem filter_rank_byRank (l : List α) (r : Int) :
    (byRank rank l).filter (fun a => decide (rank a = r)) = l.filter (fun a => decide (rank a = r)) := by
  have hpair : (l.filter fun a => decide (rank a = r)).Pairwise (fun a b => decide (rank a ≤ rank b) = true) := by
    rw [List.pairwise_filter]
    refine List.pairwise_of_forall fun a b ha hb => ?_
    simp only [decide_eq_true_eq] at ha hb ⊢
    omega
  have hsub : (l.filter fun a => decide (rank a = r)).Sublist (byRank rank l) :=
    List.sublist_mergeSort (rank_trans rank) (rank_total rank) hpair List.filter_sublist
  have hsame : (l.filter fun a => decide (rank a = r)).Sublist
      ((byRank rank l).filter fun a => decide (rank a = r)) := by
    have := hsub.filter fun a => decide (rank a = r)
    simpa using this
  exact (hsame.eq_of_length ((byRank_perm rank l).filter _).length_eq.symm).symm

theorem mem_iff_of_filter_rank_eq {l l' : List α}
    (h : ∀ r, l.filter (fun a => decide (rank a = r)) = l'.filter (fun a => decide (rank a = r))) (a : α) :
    a ∈ l ↔ a ∈ l' := by
  have := congrArg (a ∈ ·) (h (rank a))
  simpa using this

/-- Sorted lists whose parts of equal rank are the same are the same. -/
theorem eq_of_filter_rank_eq {l l' : List α} (hl : l.Pairwise fun a b => rank a ≤ rank b)
    (hl' : l'.Pairwise fun a b => rank a ≤ rank b)
    (h : ∀ r, l.filter (fun a => decide (rank a = r)) = l'.filter (fun a => decide (rank a = r))) : l = l' := by
  induction l generalizing l' with
  | nil =>
    cases l' with
    | nil => rfl
    | cons b l' => exact absurd ((mem_iff_of_filter_rank_eq rank h b).2 List.mem_cons_self) List.not_mem_nil
  | cons a l ih =>
    have hmem := mem_iff_of_filter_rank_eq rank h
    cases l' with
    | nil => exact absurd ((hmem a).1 List.mem_cons_self) List.not_mem_nil
    | cons b l' =>
      obtain ⟨ha, htail⟩ := List.pairwise_cons.1 hl
      obtain ⟨hb, htail'⟩ := List.pairwise_cons.1 hl'
      -- Both lists begin with an entry of the least rank, and of that rank they have the same entries.
      have hle : rank a ≤ rank b := by
        rcases List.mem_cons.1 ((hmem b).2 List.mem_cons_self) with rfl | hin
        · exact le_refl _
        · exact ha b hin
      have hge : rank b ≤ rank a := by
        rcases List.mem_cons.1 ((hmem a).1 List.mem_cons_self) with rfl | hin
        · exact le_refl _
        · exact hb a hin
      have hrank : rank b = rank a := le_antisymm hge hle
      have hhead := h (rank a)
      rw [List.filter_cons_of_pos (by simp), List.filter_cons_of_pos (by simp [hrank])] at hhead
      obtain ⟨rfl, -⟩ := List.cons.inj hhead
      refine congrArg (a :: ·) (ih htail htail' fun r => ?_)
      have hr := h r
      by_cases har : rank a = r
      · rw [List.filter_cons_of_pos (by simpa using har), List.filter_cons_of_pos (by simpa using har)] at hr
        exact (List.cons.inj hr).2
      · rwa [List.filter_cons_of_neg (by simpa using har), List.filter_cons_of_neg (by simpa using har)] at hr

/-- The numbered entries in the order of rank and number are the sorted ones. -/
theorem exists_numbered (l : List α) :
    ∃ ordered : List (α × Nat), ordered.Perm l.zipIdx ∧
      ordered.Pairwise (fun a b => rank a.1 < rank b.1 ∨ rank a.1 = rank b.1 ∧ a.2 < b.2) ∧
      ordered.map Prod.fst = byRank rank l := by
  have hperm := List.mergeSort_perm l.zipIdx (List.zipIdxLE fun a b => decide (rank a ≤ rank b))
  refine ⟨_, hperm, ?_, List.mergeSort_zipIdx⟩
  have hle := List.pairwise_mergeSort (List.zipIdxLE_trans (rank_trans rank)) (List.zipIdxLE_total (rank_total rank))
    l.zipIdx
  have hnodup : ((l.zipIdx.mergeSort (List.zipIdxLE fun a b => decide (rank a ≤ rank b))).map Prod.snd).Nodup := by
    rw [(hperm.map Prod.snd).nodup_iff, List.zipIdx_map_snd]
    exact List.nodup_range'
  refine (hle.and (List.pairwise_map.1 hnodup)).imp fun {a b} h => ?_
  obtain ⟨h, hne⟩ := h
  unfold List.zipIdxLE at h
  by_cases hab : rank a.1 ≤ rank b.1 <;> by_cases hba : rank b.1 ≤ rank a.1 <;> simp [hab, hba] at h <;> omega

end FleetEnergy

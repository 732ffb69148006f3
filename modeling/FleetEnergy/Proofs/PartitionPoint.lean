import FleetEnergy.PartitionPoint
import Mathlib.Data.List.Basic

/-! Binary search finds the place where a property stops to hold. -/
namespace FleetEnergy
set_option autoImplicit false

variable {p : Nat → Bool} {n k : Nat}

/-- The window always holds the last place that has the property, or begins at zero if there is none. -/
theorem narrowWindow_eq (h : ∀ i < n, p i = true ↔ i < k) (base size fuel : Nat) (hn : base + size ≤ n)
    (hlo : base ≤ k - 1) (hhi : k ≤ base + size) (hfuel : size ≤ fuel + 1) :
    narrowWindow p base size fuel = k - 1 := by
  induction fuel generalizing base size with
  | zero =>
    rw [narrowWindow]
    omega
  | succ fuel ih =>
    rw [narrowWindow]
    split_ifs with hsize
    · omega
    · have hmid := h (base + size / 2) (by omega)
      by_cases hp : p (base + size / 2) = true
      · have := hmid.1 hp
        simp only [if_pos hp]
        exact ih (base + size / 2) (size - size / 2) (by omega) (by omega) (by omega) (by omega)
      · have := mt hmid.2 hp
        simp only [if_neg hp]
        exact ih base (size - size / 2) (by omega) hlo (by omega) (by omega)

theorem partitionPoint_eq (hk : k ≤ n) (h : ∀ i < n, p i = true ↔ i < k) : partitionPoint p n = k := by
  by_cases hn : n = 0
  · rw [partitionPoint, if_pos hn]
    omega
  · have hlast := h (k - 1) (by omega)
    rw [partitionPoint, if_neg hn, narrowWindow_eq h 0 n n (by omega) (Nat.zero_le _) (by omega) (by omega)]
    by_cases hp : p (k - 1) = true
    · have := hlast.1 hp
      simp only [if_pos hp]
      omega
    · have := mt hlast.2 hp
      simp only [if_neg hp]
      omega

/-! ## Searching a list -/

section
variable {α : Type} {q : α → Bool} {l : List α}

/-- Where what has the property comes first, it is a part from the beginning. -/
theorem filter_eq_take (h : l.Pairwise fun a b => q b = true → q a = true) :
    l.filter q = l.take (l.filter q).length := by
  induction l with
  | nil => rfl
  | cons a l ih =>
    obtain ⟨ha, hl⟩ := List.pairwise_cons.1 h
    by_cases hq : q a = true
    · rw [List.filter_cons_of_pos hq, List.length_cons, List.take_succ_cons, ← ih hl]
    · have hnone : l.filter q = [] := List.filter_eq_nil_iff.2 fun b hb hqb => hq (ha b hb hqb)
      rw [List.filter_cons_of_neg hq, hnone]
      rfl

theorem getElem?_any_iff (h : l.Pairwise fun a b => q b = true → q a = true) (i : Nat) :
    (l[i]?).any q = true ↔ i < (l.filter q).length := by
  induction l generalizing i with
  | nil => simp
  | cons a l ih =>
    obtain ⟨ha, hl⟩ := List.pairwise_cons.1 h
    by_cases hq : q a = true
    · cases i with
      | zero => simp [hq]
      | succ i => simpa [List.filter_cons_of_pos hq] using ih hl i
    · have hnone : ∀ b ∈ l, ¬q b = true := fun b hb hqb => hq (ha b hb hqb)
      cases i with
      | zero => simp [hq, List.filter_eq_nil_iff.2 hnone]
      | succ i =>
        rw [List.getElem?_cons_succ, ih hl, List.filter_cons_of_neg hq]
        simp [List.filter_eq_nil_iff.2 hnone]

/-- What the search finds on a list is how many of its entries have the property. -/
theorem partitionPoint_list (h : l.Pairwise fun a b => q b = true → q a = true) :
    partitionPoint (fun i => (l[i]?).any q) l.length = (l.filter q).length :=
  partitionPoint_eq (List.length_filter_le q l) fun i _ => getElem?_any_iff h i

theorem getElem?_last_filter (h : l.Pairwise fun a b => q b = true → q a = true) {i : Nat}
    (hi : (l.filter q).length = i + 1) : l[i]? = (l.filter q).getLast? := by
  rw [filter_eq_take h, hi, List.getLast?_take]
  have : i < l.length := by
    have := List.length_filter_le q l
    omega
  simp [this]

end

end FleetEnergy

import FleetEnergy.Proofs.Binary64.Difference
import FleetEnergy.Proofs.Clock
import FleetEnergy.UpdateLoop

/-! Whether recurring deliveries reach the end. A delivery is later than the one before if and only if the
interval can be told from nothing at the time of the clock; if it cannot, the clock stands still for good. -/
namespace FleetEnergy
open Binary64
set_option autoImplicit false

theorem normalizeInterval_pos (interval : Float) :
    0.0 < UpdateLoop.normalizeInterval interval ∧ (UpdateLoop.normalizeInterval interval).isFinite = true := by
  unfold UpdateLoop.normalizeInterval
  split_ifs with hpos hfin
  · exact ⟨hpos, hfin⟩
  · decide
  · decide

variable {interval endTime t : Float}

/-! ## One delivery -/

theorem le_add_interval (hi : 0.0 < interval) (ht : t.isFinite = true) :
    (t + interval).isNaN = false ∧ unitsOf t ≤ unitsOf (t + interval) := by
  obtain ⟨hin, hpos⟩ := pos_units hi
  exact le_add ht hin hpos.le

/-- An interval that does not lead away from a time vanishes against it. -/
theorem add_interval_eq (hi : 0.0 < interval) (ht : t.isFinite = true) (h : ¬t < t + interval) :
    t + interval = t ∧ unitsOf t ≠ 0 := by
  obtain ⟨hs, hle⟩ := le_add_interval hi ht
  have htn : t.isNaN = false := isNaN_of_isFinite ht
  rw [lt_iff_units htn hs] at h
  have heq : unitsOf t = unitsOf (t + interval) := by omega
  have hne : unitsOf t ≠ 0 := by
    intro h0
    -- From zero the sum is the interval itself.
    obtain ⟨-, hpos⟩ := pos_units hi
    obtain ⟨s, hs⟩ := reading_of_units_zero htn h0
    rw [zero_add hs (reading_ne_zero hpos.ne')] at heq
    omega
  exact ⟨(Instant.eq_of_units_eq htn hs heq hne).symm, hne⟩

theorem due_eq_self (hi : 0.0 < interval) (ht : t.isFinite = true) (h : ¬t < t + interval) :
    dueTime interval t = t := by
  obtain ⟨hsame, hne⟩ := add_interval_eq hi ht h
  have htn : t.isNaN = false := isNaN_of_isFinite ht
  have hz : (0.0 : Float).isFinite = true := by decide
  have hclamp : clamped (roundInt 0) = 0 := by
    have hl := limit_pos
    have h0 : roundInt 0 = 0 := rfl
    rw [h0, clamped]
    omega
  have hdiff : Scalar.positivePart (t - t) = 0.0 := by
    obtain ⟨hd, hu⟩ := sub_finite ht ht
    rw [Int.sub_self, hclamp] at hu
    refine if_neg ?_
    have h0 : unitsOf 0.0 = 0 := rfl
    rw [lt_iff_units rfl hd]
    omega
  rw [dueTime, hsame, hdiff]
  obtain ⟨hn, hu⟩ := add_finite ht hz
  have hzero : unitsOf t + unitsOf 0.0 = unitsOf t := Int.add_zero _
  have hround : clamped (roundInt (unitsOf t)) = unitsOf t := (inRange_reading t).clamped_roundInt ht
  rw [hzero, hround] at hu
  exact (Instant.eq_of_units_eq htn hn hu.symm hne).symm

theorem lt_due (ht : t.isFinite = true) (h : t < t + interval) : t < dueTime interval t := by
  obtain ⟨htn, hs⟩ := not_nan_of_lt h
  have hup := (lt_iff_units htn hs).1 h
  obtain ⟨hd, hpos, hlt⟩ := lt_add_sub ht hs hup
  have hz : (0.0 : Float).isNaN = false := rfl
  have hpart : Scalar.positivePart (t + interval - t) = t + interval - t :=
    if_pos ((lt_iff_units hz hd).2 hpos)
  rw [lt_iff_units htn (due_defined interval ht).1, dueTime, hpart]
  exact hlt

/-- Before the end, a delivery is later than its order if the interval leads on. -/
theorem lt_next (ht : t.isFinite = true) (hend : t < endTime) (h : t < t + interval) :
    t < nextTime interval endTime t := by
  obtain ⟨htn, he⟩ := not_nan_of_lt hend
  have hn := next_defined interval endTime htn
  by_cases hb : nextTime interval endTime t < endTime
  · rw [next_eq_due ht hb]
    exact lt_due ht h
  · have hlast := next_beq_end ht he hb
    rw [if_pos hend, beq_iff_units hn he] at hlast
    rw [lt_iff_units htn he] at hend
    rw [lt_iff_units htn hn]
    omega

/-- Before the end, a delivery is at the time of its order if the interval does not lead on. -/
theorem next_eq_self (hi : 0.0 < interval) (ht : t.isFinite = true) (hend : t < endTime) (h : ¬t < t + interval) :
    nextTime interval endTime t = t := by
  obtain ⟨htn, he⟩ := not_nan_of_lt hend
  have hnot : ¬endTime < t := by
    rw [lt_iff_units htn he] at hend
    rw [lt_iff_units he htn]
    omega
  have hn : ¬t.isNaN = true := Bool.eq_false_iff.1 htn
  rw [nextTime, due_eq_self hi ht h, earlier, if_neg hn, if_neg hnot, later, if_neg hn, if_neg (lt_irrefl t)]

/-! ## All deliveries -/

theorem roundTime_finite_of_lt (ht : t.isFinite = true) {k : Nat} (h : roundTime interval endTime t k < endTime) :
    (roundTime interval endTime t k).isFinite = true := by
  obtain ⟨hn, he⟩ := not_nan_of_lt h
  have htn : t.isNaN = false := isNaN_of_isFinite ht
  have hmono := units_roundTime_mono interval endTime htn (Nat.zero_le k)
  change unitsOf t ≤ _ at hmono
  have hlo := ((isFinite_iff_units htn).1 ht).1
  have hlt := (lt_iff_units hn he).1 h
  have hhi := (abs_unitsOf_le endTime).2
  exact (isFinite_iff_units hn).2 ⟨by omega, by omega⟩

theorem roundTime_lt_of_le (ht : t.isNaN = false) {j k : Nat} (hjk : j ≤ k)
    (h : roundTime interval endTime t k < endTime) : roundTime interval endTime t j < endTime := by
  obtain ⟨hk, he⟩ := not_nan_of_lt h
  have hmono := units_roundTime_mono interval endTime ht hjk
  have hlt := (lt_iff_units hk he).1 h
  exact (lt_iff_units (roundTime_defined interval endTime ht j) he).2 (by omega)

/-- Every delivery before the end finds an interval that leads on. -/
def ClockAdvances (interval endTime t : Float) : Prop :=
  ∀ k, roundTime interval endTime t k < endTime →
    roundTime interval endTime t k < roundTime interval endTime t k + interval

/-- As long as the end is not reached, every delivery of an advancing clock is at least one unit later. -/
theorem ClockAdvances.units_le (h : ClockAdvances interval endTime t) (ht : t.isFinite = true) {k : Nat}
    (hend : ∀ j < k, roundTime interval endTime t j < endTime) :
    unitsOf t + k ≤ unitsOf (roundTime interval endTime t k) := by
  have htn : t.isNaN = false := isNaN_of_isFinite ht
  induction k with
  | zero => exact (Int.add_zero _).le
  | succ k ih =>
    have hk := hend k (by omega)
    have hle := ih fun j hj => hend j (by omega)
    have hup := lt_next (roundTime_finite_of_lt ht hk) hk (h k hk)
    rw [← roundTime_succ, lt_iff_units (roundTime_defined _ _ htn _) (roundTime_defined _ _ htn _)] at hup
    push_cast
    omega

/-- There is a first delivery that is not before the end if and only if the clock advances up to there. -/
theorem exists_last_iff_advances (hi : 0.0 < interval) (ht : t.isFinite = true) :
    (∃ k, (∀ j < k, roundTime interval endTime t (j + 1) < endTime) ∧ ¬roundTime interval endTime t (k + 1) < endTime) ↔
      ClockAdvances interval endTime t := by
  have htn : t.isNaN = false := isNaN_of_isFinite ht
  constructor
  · rintro ⟨k, -, hge⟩ m hm
    by_contra hstill
    have hfix := next_eq_self hi (roundTime_finite_of_lt ht hm) hm hstill
    rw [← roundTime_succ] at hfix
    rcases Nat.le_total m (k + 1) with hmk | hkm
    · rw [roundTime_stuck hfix hmk] at hge
      exact hge hm
    · exact hge (roundTime_lt_of_le htn hkm hm)
  · intro h
    have hexists : ∃ k, ¬roundTime interval endTime t (k + 1) < endTime := by
      by_contra hall
      simp only [not_exists, not_not] at hall
      -- There are fewer units between the infinities than deliveries.
      have hup := h.units_le ht (k := 2 * limit + 1)
        fun j _ => roundTime_lt_of_le htn (Nat.le_succ j) (hall j)
      have hlo := (abs_unitsOf_le t).1
      have hhi := (abs_unitsOf_le (roundTime interval endTime t (2 * limit + 1))).2
      have hl := limit_pos
      omega
    classical
    exact ⟨Nat.find hexists, fun j hj => not_not.1 (Nat.find_min hexists hj), Nat.find_spec hexists⟩

end FleetEnergy

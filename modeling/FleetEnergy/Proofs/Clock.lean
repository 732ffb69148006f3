import FleetEnergy.Proofs.Binary64.Sum
import FleetEnergy.Proofs.Instant
import FleetEnergy.Scheduler

/-! The times at which a recurring firing is due and delivered. Orders are placed at the time of the clock,
deliveries move the clock, and a firing that orders the next one is therefore never ahead of it. -/
namespace FleetEnergy
open Binary64
set_option autoImplicit false

/-! ## Comparison of defined times -/

variable {x y : Float}

theorem lt_irrefl (x : Float) : ¬x < x := by
  intro h
  obtain ⟨hx, -⟩ := not_nan_of_lt h
  have := (lt_iff_units hx hx).1 h
  omega

/-! ## Bounds -/

theorem later_later (x t : Float) : later x (later x t) = later x t := by
  unfold later
  split_ifs with hn hlt hs
  · rfl
  · rfl
  · exact absurd hs (lt_irrefl x)
  · rfl

theorem later_defined {t : Float} (ht : t.isNaN = false) : (later x t).isNaN = false := by
  unfold later
  split_ifs with hn hlt
  · exact ht
  · exact ht
  · exact Bool.eq_false_iff.2 hn

theorem units_le_later {t : Float} (ht : t.isNaN = false) : unitsOf t ≤ unitsOf (later x t) := by
  unfold later
  split_ifs with hn hlt
  · exact le_refl _
  · exact le_refl _
  · rw [lt_iff_units (Bool.eq_false_iff.2 hn) ht] at hlt
    omega

theorem positivePart_defined (d : Float) :
    (Scalar.positivePart d).isNaN = false ∧ 0 ≤ unitsOf (Scalar.positivePart d) := by
  unfold Scalar.positivePart
  split_ifs with h
  · obtain ⟨hd, hpos⟩ := pos_units h
    exact ⟨hd, hpos.le⟩
  · exact ⟨rfl, le_refl 0⟩

theorem reading_positivePart (d : Float) : reading (Scalar.positivePart d) ≠ .zero .negative := by
  unfold Scalar.positivePart
  split_ifs with h
  · exact reading_ne_zero (pos_units h).2.ne' _
  · rw [reading_zero]
    exact nofun

/-! ## Orders and deliveries -/

/-- When a firing is due that is ordered at `t`, after the interval. -/
def dueTime (interval t : Float) : Float := t + Scalar.positivePart (t + interval - t)

/-- When the firing is delivered that was ordered at `t`, in a run that ends at `endTime`. -/
def nextTime (interval endTime t : Float) : Float := later (earlier (dueTime interval t) endTime) t

variable {interval endTime t : Float}

theorem due_defined (interval : Float) (ht : t.isFinite = true) :
    (dueTime interval t).isNaN = false ∧ unitsOf t ≤ unitsOf (dueTime interval t) :=
  le_add ht (positivePart_defined _).1 (positivePart_defined _).2

theorem next_defined (interval endTime : Float) (ht : t.isNaN = false) : (nextTime interval endTime t).isNaN = false :=
  later_defined ht

theorem units_le_next (interval endTime : Float) (ht : t.isNaN = false) : unitsOf t ≤ unitsOf (nextTime interval endTime t) :=
  units_le_later ht

/-- A delivery before the end is at the very time that was asked for. -/
theorem next_eq_due (ht : t.isFinite = true) (h : nextTime interval endTime t < endTime) :
    nextTime interval endTime t = dueTime interval t := by
  obtain ⟨hd, hle⟩ := due_defined interval ht
  have htn : t.isNaN = false := isNaN_of_isFinite ht
  have hearly : earlier (dueTime interval t) endTime =
      if endTime < dueTime interval t then endTime else dueTime interval t :=
    if_neg (Bool.eq_false_iff.1 hd)
  unfold nextTime at h ⊢
  rw [hearly] at h ⊢
  split_ifs at h ⊢ with he
  · -- Bounded by the end, the delivery is not before it.
    obtain ⟨-, hend⟩ := not_nan_of_lt h
    have := (lt_iff_units (later_defined htn) hend).1 h
    unfold later at this
    split_ifs at this with hn hlt
    · exact absurd hend (by rw [hn]; decide)
    · have := (lt_iff_units hend htn).1 hlt
      omega
    · omega
  · unfold later
    rw [if_neg (Bool.eq_false_iff.1 hd), if_neg]
    rw [lt_iff_units hd htn]
    omega

theorem next_finite (ht : t.isFinite = true) (h : nextTime interval endTime t < endTime) :
    (nextTime interval endTime t).isFinite = true := by
  obtain ⟨hn, he⟩ := not_nan_of_lt h
  have htn : t.isNaN = false := isNaN_of_isFinite ht
  have hlo := (isFinite_iff_units htn).1 ht
  have hle := units_le_next interval endTime htn
  have hlt := (lt_iff_units hn he).1 h
  have hub := (abs_unitsOf_le endTime).2
  rw [isFinite_iff_units hn]
  omega

/-- The last delivery is at the end, or at `t` if that is past the end already. -/
theorem next_beq_end (ht : t.isFinite = true) (he : endTime.isNaN = false)
    (h : ¬nextTime interval endTime t < endTime) :
    (nextTime interval endTime t == if t < endTime then endTime else t) = true := by
  obtain ⟨hd, hle⟩ := due_defined interval ht
  have htn : t.isNaN = false := isNaN_of_isFinite ht
  have hn := next_defined interval endTime htn
  have hearly : earlier (dueTime interval t) endTime =
      if endTime < dueTime interval t then endTime else dueTime interval t :=
    if_neg (Bool.eq_false_iff.1 hd)
  rw [lt_iff_units hn he] at h
  have hto : (if t < endTime then endTime else t).isNaN = false := by split_ifs <;> assumption
  rw [beq_iff_units hn hto]
  have hx : (earlier (dueTime interval t) endTime).isNaN = false := by
    rw [hearly]
    split_ifs <;> assumption
  have hxu : unitsOf (earlier (dueTime interval t) endTime) = min (unitsOf (dueTime interval t)) (unitsOf endTime) := by
    rw [hearly]
    split_ifs with hlt
    · rw [lt_iff_units he hd] at hlt
      omega
    · rw [lt_iff_units he hd] at hlt
      omega
  have hnu : unitsOf (nextTime interval endTime t) =
      max (unitsOf (earlier (dueTime interval t) endTime)) (unitsOf t) := by
    unfold nextTime later
    rw [if_neg (Bool.eq_false_iff.1 hx)]
    split_ifs with hlt
    · rw [lt_iff_units hx htn] at hlt
      omega
    · rw [lt_iff_units hx htn] at hlt
      omega
  split_ifs with hlt
  · rw [lt_iff_units htn he] at hlt
    omega
  · rw [lt_iff_units htn he] at hlt
    omega

/-! ## Ranks -/

theorem rank_of_zero {x : Float} {s : Float.Model.UnpackedFloat.Sign} (hx : reading x = .zero s) :
    (Instant.ofFloat x).rank ≤ (Instant.ofFloat 0.0).rank := by
  cases s with
  | positive => rw [eq_of_reading_eq (hx.trans reading_zero.symm)]
  | negative =>
    rw [eq_of_reading_eq (hx.trans reading_neg_zero.symm)]
    decide

/-- A sum with a positive part that is zero again is the positive zero. -/
theorem add_positivePart_zero {t d : Float} {s : Float.Model.UnpackedFloat.Sign} (ht : reading t = .zero s)
    (h : unitsOf (t + Scalar.positivePart d) = 0) : t + Scalar.positivePart d = 0.0 := by
  unfold Scalar.positivePart at h ⊢
  split_ifs at h ⊢ with hd
  · obtain ⟨-, hpos⟩ := pos_units hd
    rw [zero_add ht (reading_ne_zero hpos.ne')] at h
    omega
  · refine eq_of_reading_eq ((zero_add_zero ht reading_zero).trans ?_)
    cases s <;> rfl

/-- What is due is not before the clock, also among zeros. -/
theorem rank_le_due (interval : Float) (ht : t.isFinite = true) :
    (Instant.ofFloat t).rank ≤ (Instant.ofFloat (dueTime interval t)).rank := by
  obtain ⟨hd, hle⟩ := due_defined interval ht
  have htn : t.isNaN = false := isNaN_of_isFinite ht
  rcases hle.lt_or_eq with hlt | heq
  · exact (Instant.rank_lt_of_lt ((lt_iff_units htn hd).2 hlt)).le
  · by_cases h0 : unitsOf t = 0
    · obtain ⟨s, hs⟩ := reading_of_units_zero htn h0
      have hz : dueTime interval t = 0.0 := add_positivePart_zero hs (heq.symm.trans h0)
      rw [hz]
      exact rank_of_zero hs
    · have hsame := Instant.eq_of_units_eq htn hd heq h0
      exact (congrArg (fun x => (Instant.ofFloat x).rank) hsame).le

/-- Of two orders placed one delivery after the other, the second is not due first. -/
theorem rank_due_le_due_next (ht : t.isFinite = true) (h : nextTime interval endTime t < endTime) :
    (Instant.ofFloat (dueTime interval t)).rank ≤
      (Instant.ofFloat (dueTime interval (nextTime interval endTime t))).rank := by
  rw [← next_eq_due ht h]
  exact rank_le_due interval (next_finite ht h)

/-! ## Deliveries one after the other -/

/-- The `k`-th delivery after `t` of a firing that orders the next one. -/
def roundTime (interval endTime t : Float) (k : Nat) : Float := (nextTime interval endTime)^[k] t

theorem roundTime_succ (interval endTime t : Float) (k : Nat) :
    roundTime interval endTime t (k + 1) = nextTime interval endTime (roundTime interval endTime t k) :=
  Function.iterate_succ_apply' _ _ _

theorem roundTime_defined (interval endTime : Float) (ht : t.isNaN = false) (k : Nat) :
    (roundTime interval endTime t k).isNaN = false := by
  induction k with
  | zero => exact ht
  | succ k ih =>
    rw [roundTime_succ]
    exact next_defined interval endTime ih

theorem units_roundTime_mono (interval endTime : Float) (ht : t.isNaN = false) {j k : Nat} (h : j ≤ k) :
    unitsOf (roundTime interval endTime t j) ≤ unitsOf (roundTime interval endTime t k) := by
  induction k, h using Nat.le_induction with
  | base => exact le_refl _
  | succ k _ ih =>
    rw [roundTime_succ]
    exact ih.trans (units_le_next interval endTime (roundTime_defined interval endTime ht k))

theorem roundTime_finite (ht : t.isFinite = true) {k : Nat}
    (h : ∀ j < k, roundTime interval endTime t (j + 1) < endTime) :
    (roundTime interval endTime t k).isFinite = true := by
  induction k with
  | zero => exact ht
  | succ k ih =>
    have hk := ih fun j hj => h j (by omega)
    have hlt := h k (by omega)
    rw [roundTime_succ] at hlt ⊢
    exact next_finite hk hlt

/-- A delivery at the time of the one before is repeated for ever. -/
theorem roundTime_stuck {j : Nat} (h : roundTime interval endTime t (j + 1) = roundTime interval endTime t j)
    {k : Nat} (hk : j ≤ k) : roundTime interval endTime t k = roundTime interval endTime t j := by
  induction k, hk using Nat.le_induction with
  | base => rfl
  | succ k _ ih => rw [roundTime_succ, ih, ← roundTime_succ, h]

/-- There are fewer deliveries before the last one than there are floats. -/
theorem rounds_bounded (ht : t.isFinite = true) {k : Nat}
    (hlt : ∀ j < k, roundTime interval endTime t (j + 1) < endTime)
    (hge : ¬roundTime interval endTime t (k + 1) < endTime) : k < 2 ^ 64 := by
  have hstep (j : Nat) (hj : j ≤ k) :
      (Instant.ofFloat t).rank + j ≤ (Instant.ofFloat (roundTime interval endTime t j)).rank := by
    induction j with
    | zero =>
      rw [Nat.cast_zero, add_zero]
      exact le_refl _
    | succ j ih =>
      have hbefore := ih (by omega)
      have hj1 := hlt j (by omega)
      have hfin : (roundTime interval endTime t j).isFinite = true :=
        roundTime_finite ht fun i hi => hlt i (by omega)
      have hle := rank_le_due interval hfin
      rw [roundTime_succ] at hj1
      rw [← next_eq_due hfin hj1, ← roundTime_succ] at hle
      -- A repeated delivery would be repeated for ever, and none would be at the end.
      have hne : (Instant.ofFloat (roundTime interval endTime t j)).rank ≠
          (Instant.ofFloat (roundTime interval endTime t (j + 1))).rank := by
        intro heq
        have hsame := congrArg Instant.toFloat (Instant.rank_inj heq)
        rw [Instant.toFloat_ofFloat, Instant.toFloat_ofFloat] at hsame
        have hk := roundTime_stuck hsame.symm (by omega : j ≤ k + 1)
        rw [← roundTime_succ] at hj1
        rw [hk, hsame] at hge
        exact hge hj1
      push_cast
      omega
  have hlast := hstep k (le_refl k)
  have hlo := (Instant.ofFloat t).rank_bounds.1
  have hhi := (Instant.ofFloat (roundTime interval endTime t k)).rank_bounds.2
  omega

/-! ## The scheduler -/

theorem Instant.after_eq {now : Instant} {delay : Float} (hnow : now.toFloat.isNaN = false)
    (hsum : (now.toFloat + delay).isNaN = false) : now.after delay = .ofFloat (now.toFloat + delay) := by
  have hno : ¬((now.toFloat + delay).isNaN && !delay.isNaN) = true := by
    rw [hsum]
    exact Bool.false_ne_true
  unfold Instant.after
  simp only []
  rw [if_neg (Bool.eq_false_iff.1 hnow), if_neg hno]

namespace Scheduler

/-- What is ordered after the interval is queued at its due time. -/
theorem schedule_eq (s : Scheduler) (interval : Float) (v : VehicleId) (h : s.now.isFinite = true) :
    s.schedule (s.now + interval - s.now) v =
      { s with queue := s.queue.add (.ofFloat (dueTime interval s.now)) v } := by
  have ha := @Instant.after_eq s.clock _ (isNaN_of_isFinite h) (due_defined interval h).1
  rw [schedule]
  exact congrArg (fun t => { s with queue := s.queue.add t v }) ha

end Scheduler

end FleetEnergy

import FleetEnergy.Energy
import FleetEnergy.Proofs.Binary64.Monotone
import FleetEnergy.Proofs.Binary64.Spacing
import FleetEnergy.Proofs.Instant

/-! What becomes of an angle when a whole turn is taken off or added. From half a turn on that brings it nearer to zero,
exactly up to a whole turn and rounded beyond, until the floats lie so far apart that it makes no difference. -/
namespace FleetEnergy
open Binary64
set_option autoImplicit false

namespace Turning

/-! ## Angles in units -/

/-- The last place of `pi`, in units. -/
def grain : Int := 2 ^ 1023

theorem grain_pos : 0 < grain := pow_pos (by norm_num) _

theorem magnitude_grain (m j : Nat) : (magnitude m (j - 51) : Int) = m * 2 ^ j * grain := by
  have hexp : (j - 51 + 1074 : Int).toNat = j + 1023 := by omega
  rw [magnitude, hexp, pow_add, ← Nat.mul_assoc, Nat.cast_mul, Nat.cast_mul, Nat.cast_pow, Nat.cast_pow, Nat.cast_ofNat]
  rfl

theorem units_pi : unitsOf Scalar.pi = 7074237752028440 * grain := by
  have hread : reading Scalar.pi = .finite .positive 7074237752028440 (-51) (by decide) := by rfl
  rw [unitsOf, hread]
  exact magnitude_grain 7074237752028440 0

theorem reading_tau : reading Scalar.tau = .finite .positive 7074237752028440 (-50) (by decide) := by rfl

theorem isFinite_tau : (Scalar.tau : Float).isFinite = true := rfl

theorem units_tau : unitsOf Scalar.tau = 14148475504056880 * grain := by
  rw [unitsOf, reading_tau]
  exact magnitude_grain 7074237752028440 1

theorem oneUnits_grain : (oneUnits : Int) = 2 ^ 51 * grain := by
  have h := magnitude_grain 1 51
  rwa [Nat.cast_one, one_mul] at h

theorem two_pow_grain (j : Nat) : ((2 ^ (1023 + j) : Nat) : Int) = 2 ^ j * grain := by
  rw [pow_add, mul_comm, Nat.cast_mul, Nat.cast_pow, Nat.cast_pow, Nat.cast_ofNat]
  rfl

/-- Beyond this angle, in units, the floats are so far apart that a whole turn makes no difference. -/
def reach : Int := 2 ^ 107 * grain

theorem units_reach : unitsOf 72057594037927936.0 = reach := by
  have hread : reading 72057594037927936.0 = .finite .positive (2 ^ 52) 4 (by decide) := by rfl
  rw [unitsOf, hread]
  exact magnitude_grain (2 ^ 52) 55

theorem units_pi_pos : 0 < unitsOf Scalar.pi := by
  rw [units_pi]
  exact mul_pos (by norm_num) grain_pos

theorem units_tau_eq_two_pi : unitsOf Scalar.tau = unitsOf Scalar.pi + unitsOf Scalar.pi := by
  rw [units_tau, units_pi]
  omega

theorem oneUnits_lt_pi : oneUnits < unitsOf Scalar.pi := by
  have hg := grain_pos
  rw [units_pi, oneUnits_grain]
  omega

theorem units_tau_lt_reach : unitsOf Scalar.tau < reach := by
  have hg := grain_pos
  rw [units_tau, reach]
  omega

theorem reach_pos : 0 < reach := mul_pos (by norm_num) grain_pos

/-! ## One whole turn -/

/-- What a whole turn towards zero makes of an angle above zero, in units. -/
structure Turned (w w' : Int) : Prop where
  lower : w' + oneUnits ≤ w
  above : -unitsOf Scalar.pi ≤ w'
  strict : unitsOf Scalar.pi < w → -unitsOf Scalar.pi < w'
  exact : w ≤ unitsOf Scalar.tau → w' = w - unitsOf Scalar.tau

variable {w : Int}

theorem grain_dvd {j : Nat} (hs : Sharp w) (h : 2 ^ (j + 52) * grain ≤ w) : 2 ^ j * grain ∣ w := by
  rw [← two_pow_grain, ← Nat.add_assoc] at h
  rw [← two_pow_grain, Nat.cast_pow, Nat.cast_ofNat]
  exact hs.two_pow_dvd (by omega)

theorem lastPlace_grain {n j : Nat} (h : n < 2 ^ (j + 53) * grain) : lastPlace n ≤ 2 ^ j * grain := by
  rw [← two_pow_grain, ← Nat.add_assoc, Int.ofNat_lt] at h
  rw [← two_pow_grain, Int.ofNat_le]
  exact lastPlace_le h

theorem roundNat_sub_grain {m t j : Nat} (hm : Sharp m) (ht : 2 * t < 2 ^ j * grain)
    (h : 2 ^ (j + 52) * grain + t ≤ m) : roundNat (m - t) = m := by
  rw [← two_pow_grain] at ht
  rw [← two_pow_grain, ← Nat.add_assoc] at h
  exact roundNat_sub_of_lt (k := 1023 + j) hm (by omega) (by omega)

/-- From half a turn to a whole one the difference is exact. -/
theorem turned_exact (hs : Sharp w) (hlo : unitsOf Scalar.pi ≤ w) (hhi : w ≤ unitsOf Scalar.tau) :
    roundInt (w - unitsOf Scalar.tau) = w - unitsOf Scalar.tau := by
  have hg := grain_pos
  rw [units_pi] at hlo
  rw [units_tau] at hhi ⊢
  obtain ⟨a, rfl⟩ := grain_dvd (j := 0) hs (by omega)
  rw [pow_zero, one_mul] at *
  have ha : a ≤ 14148475504056880 := by nlinarith
  have ha' : 7074237752028440 ≤ a := by nlinarith
  have hexact := roundInt_mul_two_pow (a := a - 14148475504056880) (by omega) 1023
  rwa [← grain, sub_mul, mul_comm a] at hexact

/-- Above a whole turn the difference is rounded, by less than what was taken off. -/
theorem turned_rounded (hlo : unitsOf Scalar.tau ≤ w) (hhi : w ≤ reach) :
    0 ≤ roundInt (w - unitsOf Scalar.tau) ∧ roundInt (w - unitsOf Scalar.tau) + oneUnits ≤ w := by
  have hg := grain_pos
  obtain ⟨n, hn⟩ := Int.eq_ofNat_of_zero_le (Int.sub_nonneg_of_le hlo)
  rw [hn, roundInt_natCast, oneUnits_grain]
  rw [units_tau] at hn
  rw [reach] at hhi
  have hplace := lastPlace_grain (n := n) (j := 54) (by omega)
  have hup := (roundNat_close n).1
  exact ⟨Int.natCast_nonneg _, by omega⟩

theorem turned (hs : Sharp w) (hlo : unitsOf Scalar.pi ≤ w) (hhi : w ≤ reach) :
    Turned w (roundInt (w - unitsOf Scalar.tau)) := by
  have hpi := units_pi_pos
  have htau := units_tau_eq_two_pi
  have hone := oneUnits_lt_pi
  rcases le_total w (unitsOf Scalar.tau) with h | h
  · rw [turned_exact hs hlo h]
    exact ⟨by omega, by omega, fun _ => by omega, fun _ => rfl⟩
  · obtain ⟨hnonneg, hlower⟩ := turned_rounded h hhi
    exact ⟨hlower, by omega, fun _ => by omega, fun hle => turned_exact hs hlo hle⟩

/-- Beyond the reach the difference is rounded back. -/
theorem turned_stuck (hs : Sharp w) (h : reach < w) : roundInt (w - unitsOf Scalar.tau) = w := by
  have hg := grain_pos
  have ht := units_tau
  rw [reach] at h
  obtain ⟨a, ha⟩ := grain_dvd (j := 55) hs h.le
  -- The next float is sixteen further on.
  have hnext : 2 ^ 107 * grain + 2 ^ 55 * grain ≤ w := by
    have hunit : 0 < 2 ^ 55 * grain := by omega
    have hlt : 2 ^ 52 < a := lt_of_mul_lt_mul_left (a := 2 ^ 55 * grain) (by omega) hunit.le
    have hle := Int.mul_le_mul_of_nonneg_left (Int.add_one_le_of_lt hlt) hunit.le
    rw [← ha] at hle
    omega
  obtain ⟨m, rfl⟩ := Int.eq_ofNat_of_zero_le (h.le.trans' (by omega))
  obtain ⟨t, htau⟩ := Int.eq_ofNat_of_zero_le (show 0 ≤ unitsOf Scalar.tau by omega)
  have hle : t ≤ m := by omega
  rw [htau, ← Nat.cast_sub hle, roundInt_natCast, roundNat_sub_grain (j := 55) hs (by omega) (by omega)]

/-! ## One pass -/

theorem clamped_neg (z : Int) : clamped (-z) = -clamped z := by
  have hl := limit_pos
  rw [clamped, clamped]
  omega

section Units

variable {w' : Int} (hs : Sharp w) (hlim : w < limit) (h : w' = clamped (roundInt (w - unitsOf Scalar.tau)))
include hs hlim h

theorem turned_of_units (hlo : unitsOf Scalar.pi ≤ w) (hhi : w ≤ reach) : (-limit < w' ∧ w' < limit) ∧ Turned w w' := by
  have ht := turned hs hlo hhi
  have hlower := ht.lower
  have habove := ht.above
  have heq : w' = roundInt (w - unitsOf Scalar.tau) := by
    rw [h, clamped]
    omega
  rw [heq]
  exact ⟨by omega, ht⟩

theorem stuck_of_units (hfar : reach < w) : w' = w := by
  have hpos := reach_pos
  rw [turned_stuck hs hfar, clamped] at h
  omega

end Units

variable {d : Float}

theorem sharp_neg_unitsOf (hd : d.isFinite = true) : Sharp (-unitsOf d) := by
  rw [← unitsOf_neg]
  exact sharp_unitsOf ((float_isFinite_neg d).trans hd)

/-- To add a turn to an angle is to take it off the opposite angle. -/
theorem neg_units_add_tau (hd : d.isFinite = true) :
    -unitsOf (d + Scalar.tau) = clamped (roundInt (-unitsOf d - unitsOf Scalar.tau)) := by
  have hopposite : -unitsOf d - unitsOf Scalar.tau = -(unitsOf d + unitsOf Scalar.tau) := by omega
  rw [(add_finite hd isFinite_tau).2, hopposite, roundInt_neg, clamped_neg]

theorem sub_tau (hd : d.isFinite = true) (hlo : unitsOf Scalar.pi ≤ unitsOf d) (hhi : unitsOf d ≤ reach) :
    (d - Scalar.tau).isFinite = true ∧ Turned (unitsOf d) (unitsOf (d - Scalar.tau)) := by
  obtain ⟨hn, hu⟩ := sub_finite hd isFinite_tau
  obtain ⟨-, hlim⟩ := (isFinite_iff_units (isNaN_of_isFinite hd)).1 hd
  obtain ⟨hbounds, ht⟩ := turned_of_units (sharp_unitsOf hd) hlim hu hlo hhi
  exact ⟨(isFinite_iff_units hn).2 hbounds, ht⟩

theorem add_tau (hd : d.isFinite = true) (hlo : unitsOf Scalar.pi ≤ -unitsOf d) (hhi : -unitsOf d ≤ reach) :
    (d + Scalar.tau).isFinite = true ∧ Turned (-unitsOf d) (-unitsOf (d + Scalar.tau)) := by
  obtain ⟨hn, -⟩ := add_finite hd isFinite_tau
  obtain ⟨hlim, -⟩ := (isFinite_iff_units (isNaN_of_isFinite hd)).1 hd
  obtain ⟨hbounds, ht⟩ := turned_of_units (sharp_neg_unitsOf hd) (by omega) (neg_units_add_tau hd) hlo hhi
  exact ⟨(isFinite_iff_units hn).2 ⟨by omega, by omega⟩, ht⟩

theorem reading_of_neg_infinite (hd : d.isNaN = false) (hf : ¬d.isFinite = true) (h : 0 ≤ -unitsOf d) :
    reading d = .infinity .negative := by
  have hneg : reading (-d) = .infinity .positive := by
    refine reading_of_infinite ((isNaN_neg d).trans hd) ?_ ?_
    · rwa [float_isFinite_neg]
    · rwa [unitsOf_neg]
  rw [reading_neg] at hneg
  cases hr : reading d with
  | infinity s =>
    rw [hr] at hneg
    cases s with
    | positive => cases hneg
    | negative => rfl
  | _ =>
    rw [hr] at hneg
    cases hneg

/-- An angle beyond the reach stays where it is, an infinite one among them. -/
theorem sub_tau_stuck (hd : d.isNaN = false) (h : reach < unitsOf d) : d - Scalar.tau = d := by
  have hpos : 0 < unitsOf d := reach_pos.trans h
  by_cases hf : d.isFinite = true
  · obtain ⟨hn, hu⟩ := sub_finite hf isFinite_tau
    obtain ⟨-, hlim⟩ := (isFinite_iff_units hd).1 hf
    have hstuck := stuck_of_units (sharp_unitsOf hf) hlim hu h
    exact Instant.eq_of_units_eq hn hd hstuck (by omega)
  · have hinf := reading_of_infinite hd hf hpos.le
    exact eq_of_reading_eq ((reading_infinity_sub isFinite_tau hinf).trans hinf.symm)

theorem add_tau_stuck (hd : d.isNaN = false) (h : reach < -unitsOf d) : d + Scalar.tau = d := by
  have hpos : 0 < -unitsOf d := reach_pos.trans h
  by_cases hf : d.isFinite = true
  · obtain ⟨hn, -⟩ := add_finite hf isFinite_tau
    obtain ⟨hlim, -⟩ := (isFinite_iff_units hd).1 hf
    have hstuck := stuck_of_units (sharp_neg_unitsOf hf) (by omega) (neg_units_add_tau hf) h
    exact Instant.eq_of_units_eq hn hd (by omega) (by omega)
  · have hinf := reading_of_neg_infinite hd hf hpos.le
    refine eq_of_reading_eq ?_
    rw [reading_add, hinf, reading_tau]
    rfl

end Turning

end FleetEnergy

import FleetEnergy.Proofs.Binary64.Order
import FleetEnergy.TimeQueue

/-! The total order of instants against the order of floats: where two floats compare, the instants
stand in the same order, and only the two zeros differ as instants without differing as numbers. -/
namespace FleetEnergy
open Float.Model (Format UnpackedFloat)
open Float.Model.UnpackedFloat
open Binary64
set_option autoImplicit false

namespace Instant

/-! ## Instants and floats -/

theorem toFloat_ofFloat (x : Float) : (ofFloat x).toFloat = x := Float.ofBits_toBits x

/-- An instant that is defined is that of its float. -/
theorem ofFloat_toFloat (t : Instant) (ht : t.toFloat.isNaN = false) : ofFloat t.toFloat = t :=
  congrArg Instant.mk (toBits_ofBits t.bits ht)

/-! ## Rank -/

theorem rank_eq (t : Instant) :
    t.rank = if 2 ^ 63 ≤ t.bits.toNat then (2 ^ 63 - 1 - t.bits.toNat : Int) else t.bits.toNat := rfl

theorem rank_inj {s t : Instant} (h : s.rank = t.rank) : s = t := by
  have hs := s.bits.toNat_lt
  have ht := t.bits.toNat_lt
  rw [rank_eq, rank_eq] at h
  have hn : s.bits.toNat = t.bits.toNat := by split_ifs at h <;> omega
  cases s
  cases t
  exact congrArg Instant.mk (UInt64.toNat_inj.1 hn)

theorem rank_bounds (t : Instant) : -2 ^ 63 ≤ t.rank ∧ t.rank < 2 ^ 63 := by
  have ht := t.bits.toNat_lt
  rw [rank_eq]
  split_ifs <;> omega

/-- The units of exponent field and fraction. -/
def fieldSize (e m : Nat) : Nat := if e = 0 then magnitude m (-1074) else magnitude (2 ^ 52 + m) (e - 1075)

theorem fieldSize_lt {e m e' m' : Nat} (hm : m < 2 ^ 52) (h : e < e' ∨ e = e' ∧ m < m') :
    fieldSize e m < fieldSize e' m' := by
  unfold fieldSize
  by_cases he : e = 0
  · rw [if_pos he]
    by_cases he' : e' = 0
    · rw [if_pos he']
      exact Nat.mul_lt_mul_of_pos_right (by omega) (Nat.two_pow_pos _)
    · rw [if_neg he']
      by_cases h1 : e' = 1
      · rw [h1]
        exact Nat.mul_lt_mul_of_pos_right (by omega) (Nat.two_pow_pos _)
      · exact magnitude_lt_of_exponent_lt (by omega) (by omega) (by omega) (by omega)
  · rw [if_neg he, if_neg (by omega)]
    rcases h with h | ⟨rfl, h⟩
    · exact magnitude_lt_of_exponent_lt (by omega) (by omega) (by omega) (by omega)
    · exact Nat.mul_lt_mul_of_pos_right (by omega) (Nat.two_pow_pos _)

theorem units_decode (s : Sign) (e m : Nat) (hn : e = 2047 → m = 0) :
    units (decode s e m) = s.apply (fieldSize e m) := by
  unfold decode fieldSize
  split_ifs with h1 hz h0 h0 hp
  · omega
  · rw [h1, hz]
    rfl
  · exact absurd (hn h1) hz
  · exact absurd (hn h1) hz
  · rfl
  · have hm : m = 0 := by omega
    rw [hm, magnitude, Nat.zero_mul]
    cases s <;> rfl
  · rfl

theorem unitsOf_toFloat (t : Instant) (ht : t.toFloat.isNaN = false) :
    unitsOf t.toFloat =
      (signOf t.bits.toBitVec).apply (fieldSize (exponentField t.bits.toBitVec) (fraction t.bits.toBitVec)) := by
  change (reading (Float.ofBits t.bits)).isNaN = false at ht
  change units (reading (Float.ofBits t.bits)) = _
  rw [reading_ofBits, unpack_eq_decode] at ht ⊢
  refine units_decode _ _ _ fun h => ?_
  by_contra hz
  rw [decode, if_pos h, if_neg hz] at ht
  cases ht

theorem units_of_rank_lt {s t : Instant} (hs : s.toFloat.isNaN = false) (ht : t.toFloat.isNaN = false)
    (h : s.rank < t.rank) :
    unitsOf s.toFloat < unitsOf t.toFloat ∨ unitsOf s.toFloat = 0 ∧ unitsOf t.toFloat = 0 := by
  have hsl := s.bits.toNat_lt
  have htl := t.bits.toNat_lt
  have hsf : fraction s.bits.toBitVec < 2 ^ 52 := fraction_lt _
  have htf : fraction t.bits.toBitVec < 2 ^ 52 := fraction_lt _
  have up := @fieldSize_lt (exponentField s.bits.toBitVec) (fraction s.bits.toBitVec)
    (exponentField t.bits.toBitVec) (fraction t.bits.toBitVec) hsf
  have down := @fieldSize_lt (exponentField t.bits.toBitVec) (fraction t.bits.toBitVec)
    (exponentField s.bits.toBitVec) (fraction s.bits.toBitVec) htf
  rw [unitsOf_toFloat s hs, unitsOf_toFloat t ht]
  rw [rank_eq, rank_eq] at h
  generalize fieldSize (exponentField s.bits.toBitVec) (fraction s.bits.toBitVec) = p at up down ⊢
  generalize fieldSize (exponentField t.bits.toBitVec) (fraction t.bits.toBitVec) = q at up down ⊢
  simp only [exponentField, fraction, signOf, UInt64.toNat_toBitVec] at up down hsf htf ⊢
  split_ifs at h ⊢ <;> simp only [Sign.apply] <;> omega

/-- Instants stand in the order of their floats. -/
theorem rank_lt_of_lt {x y : Float} (h : x < y) : (ofFloat x).rank < (ofFloat y).rank := by
  obtain ⟨hx, hy⟩ := not_nan_of_lt h
  rw [lt_iff_units hx hy] at h
  by_contra hc
  rcases (not_lt.1 hc).lt_or_eq with hlt | heq
  · have := units_of_rank_lt (s := ofFloat y) (t := ofFloat x) (by rwa [toFloat_ofFloat])
      (by rwa [toFloat_ofFloat]) hlt
    rw [toFloat_ofFloat, toFloat_ofFloat] at this
    omega
  · have := congrArg toFloat (rank_inj heq)
    rw [toFloat_ofFloat, toFloat_ofFloat] at this
    rw [this] at h
    omega

/-- Floats of the same value are the same, zeros apart. -/
theorem eq_of_units_eq {x y : Float} (hx : x.isNaN = false) (hy : y.isNaN = false)
    (h : unitsOf x = unitsOf y) (h0 : unitsOf x ≠ 0) : x = y := by
  have hx' : (ofFloat x).toFloat.isNaN = false := by rwa [toFloat_ofFloat]
  have hy' : (ofFloat y).toFloat.isNaN = false := by rwa [toFloat_ofFloat]
  rcases lt_trichotomy (ofFloat x).rank (ofFloat y).rank with hr | hr | hr
  · have := units_of_rank_lt hx' hy' hr
    rw [toFloat_ofFloat, toFloat_ofFloat] at this
    omega
  · have := congrArg toFloat (rank_inj hr)
    rwa [toFloat_ofFloat, toFloat_ofFloat] at this
  · have := units_of_rank_lt hy' hx' hr
    rw [toFloat_ofFloat, toFloat_ofFloat] at this
    omega

end Instant

end FleetEnergy

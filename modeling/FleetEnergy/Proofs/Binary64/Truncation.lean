import FleetEnergy.Proofs.Binary64.Difference
import FleetEnergy.Proofs.Binary64.Product

/-! What is left of a float when its sign and its fraction are dropped. -/
namespace FleetEnergy.Binary64
open Float.Model (UnpackedFloat)
open Float.Model.UnpackedFloat
set_option autoImplicit false

/-! ## Without the sign -/

theorem abs_eq_or_neg (u : UnpackedFloat) : u.abs = u ∨ u.abs = u.neg := by
  cases u with
  | notANumber => exact .inl rfl
  | infinity s => cases s <;> first | exact .inl rfl | exact .inr rfl
  | zero s => cases s <;> first | exact .inl rfl | exact .inr rfl
  | finite s m e h => cases s <;> first | exact .inl rfl | exact .inr rfl

theorem reading_abs (x : Float) : reading x.abs = (reading x).abs := by
  have hrange : InRange (reading x).abs := by
    rcases abs_eq_or_neg (reading x) with h | h <;> rw [h]
    · exact inRange_reading x
    · exact (inRange_reading x).neg
  exact (unpack_pack _ hrange.canonical).trans hrange.saturated

theorem isFinite_abs (x : Float) : x.abs.isFinite = x.isFinite := by
  change (reading x.abs).isFinite = (reading x).isFinite
  rw [reading_abs]
  cases reading x <;> rfl

theorem units_abs_nonneg (u : UnpackedFloat) : 0 ≤ units u.abs := by
  cases u with
  | notANumber => exact le_refl 0
  | infinity s => exact Int.natCast_nonneg _
  | zero s => exact le_refl 0
  | finite s m e h => exact Int.natCast_nonneg _

theorem unitsOf_abs (x : Float) : unitsOf x.abs = |unitsOf x| := by
  have hpos := units_abs_nonneg (reading x)
  rw [unitsOf, unitsOf, reading_abs]
  rcases abs_eq_or_neg (reading x) with h | h <;> rw [h] at hpos ⊢
  · rw [abs_of_nonneg hpos]
  · rw [units_neg] at hpos ⊢
    rw [abs_of_nonpos (by omega)]

/-! ## Without the fraction -/

theorem mantissa_shiftRight (m k : Nat) :
    (ExtendedMantissa.ofMantissaAndAccuracy m .exact >>> k).mantissa = m / 2 ^ k := by
  cases k with
  | zero =>
    rw [pow_zero, Nat.div_one]
    rfl
  | succ k => rw [shiftRight_exact]

theorem roundToInt_eq (m : Nat) {e : Int} (he : -1074 ≤ e) :
    roundToInt .positive m e = (magnitude m e / oneUnits : Nat) := by
  have hmantissa : roundToInt .positive m e =
      ((m <<< (e - 0).toNat) / 2 ^ (0 - (e - (e - 0).toNat)).toNat : Nat) :=
    congrArg Nat.cast (mantissa_shiftRight _ _)
  have hone : oneUnits = 2 ^ (0 + 1074 : Int).toNat := Nat.one_mul _
  rw [hmantissa, Nat.shiftLeft_eq, magnitude, hone]
  rcases le_or_gt 0 e with hpos | hneg
  · have hshift : (0 - (e - (e - 0).toNat)).toNat = 0 := by omega
    have hexp : (e + 1074).toNat = (e - 0).toNat + (0 + 1074 : Int).toNat := by omega
    rw [hshift, pow_zero, Nat.div_one, hexp, pow_add, ← Nat.mul_assoc, Nat.mul_div_cancel _ (Nat.two_pow_pos _)]
  · have hshift : (e - 0).toNat = 0 := by omega
    have hexp : (0 + 1074 : Int).toNat = (0 - (e - (0 : Nat))).toNat + (e + 1074).toNat := by omega
    rw [hshift, pow_zero, Nat.mul_one, hexp, pow_add, Nat.mul_div_mul_right _ _ (Nat.two_pow_pos _)]

/-- The whole ones are counted, as far as 64 bits go. -/
theorem toNat_toUInt64 {x : Float} (hx : x.isFinite = true) (h0 : 0 ≤ unitsOf x) (h : unitsOf x < 2 ^ 64 * oneUnits) :
    (x.toUInt64.toNat : Int) = unitsOf x / oneUnits := by
  have hwhole : toInt 0 (UInt64.size - 1) (reading x) = unitsOf x / oneUnits := by
    rw [unitsOf]
    obtain ⟨s, hs⟩ | ⟨m, e, hm, hr⟩ := nonneg_cases hx h0
    · rw [hs]
      exact (Int.zero_ediv _).symm
    · have hc := canonical_reading x
      rw [hr] at hc ⊢
      exact roundToInt_eq m hc.2.1
  have hone : (0 : Int) < oneUnits := by exact_mod_cast oneUnits_pos
  have hlow : 0 ≤ unitsOf x / oneUnits := Int.ediv_nonneg h0 hone.le
  have hhigh : unitsOf x / oneUnits < 2 ^ 64 := Int.ediv_lt_of_lt_mul hone h
  have hfits : (toInt 0 (UInt64.size - 1) (reading x)).toNat < UInt64.size := by
    rw [hwhole]
    change _ < 2 ^ 64
    omega
  have hclamp : x.toUInt64 = UInt64.ofNatLT _ hfits := dif_pos hfits
  rw [hclamp, UInt64.toNat_ofNatLT, hwhole, Int.toNat_of_nonneg hlow]

end FleetEnergy.Binary64

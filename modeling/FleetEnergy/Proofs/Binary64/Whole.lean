import FleetEnergy.Proofs.Binary64.Difference

/-! Whole numbers among the floats. Up to 2⁵³ in size they are all there, and sums and differences of them are exact. -/
namespace FleetEnergy.Binary64
open Float.Model (Format UnpackedFloat)
set_option autoImplicit false

theorem oneUnits_eq : oneUnits = 2 ^ (0 + 1074 : Int).toNat := Nat.one_mul _

theorem magnitude_mul_two_pow (m j : Nat) {e : Int} (he : -1074 ≤ e) :
    magnitude (m * 2 ^ j) e = magnitude m (e + j) := by
  have hexp : (e + j + 1074).toNat = j + (e + 1074).toNat := by omega
  rw [magnitude, magnitude, hexp, pow_add, Nat.mul_assoc]

theorem two_pow_mul_one : 2 ^ 53 * oneUnits = magnitude 1 53 := by
  rw [Nat.mul_comm, oneUnits, magnitude, Nat.mul_right_comm]
  exact magnitude_mul_two_pow 1 53 (by norm_num)

theorem two_pow_mul_one_lt_limit : 2 ^ 53 * oneUnits < limit := by
  have h52 : magnitude (1 * 2 ^ 52) 1 = magnitude 1 53 := magnitude_mul_two_pow 1 52 (by norm_num)
  rw [two_pow_mul_one, ← h52]
  exact magnitude_lt_of_exponent_lt (by norm_num) (by norm_num) (le_refl _) (by norm_num)

/-- The float is the whole number `z`. -/
structure IsWhole (x : Float) (z : Int) : Prop where
  finite : x.isFinite = true
  units : unitsOf x = z * oneUnits

variable {x y : Float} {z w : Int}

theorem IsWhole.defined (h : IsWhole x z) : x.isNaN = false := isNaN_of_isFinite h.finite

theorem IsWhole.lt_iff (hx : IsWhole x z) (hy : IsWhole y w) : x < y ↔ z < w := by
  have hone : (0 : Int) < oneUnits := by exact_mod_cast oneUnits_pos
  rw [lt_iff_units hx.defined hy.defined, hx.units, hy.units]
  exact ⟨fun h => lt_of_mul_lt_mul_right h hone.le, fun h => mul_lt_mul_of_pos_right h hone⟩

theorem isWhole_zero : IsWhole 0.0 0 := ⟨rfl, (zero_mul _).symm⟩

theorem isWhole_one : IsWhole 1.0 1 := by
  have hunits : unitsOf 1.0 = magnitude (1 * 2 ^ 52) (-52) := rfl
  refine ⟨rfl, ?_⟩
  rw [hunits, magnitude_mul_two_pow 1 52 (by norm_num), one_mul]
  rfl

theorem isWhole_two_pow_53 : IsWhole 9007199254740992.0 (2 ^ 53) := by
  have hunits : unitsOf 9007199254740992.0 = magnitude (1 * 2 ^ 52) 1 := rfl
  have hone : magnitude (1 * 2 ^ 52) 1 = 2 ^ 53 * oneUnits :=
    (magnitude_mul_two_pow 1 52 (by norm_num)).trans two_pow_mul_one.symm
  refine ⟨rfl, ?_⟩
  rw [hunits, hone, Nat.cast_mul, Nat.cast_pow, Nat.cast_ofNat]

theorem abs_whole_lt_limit (h : z.natAbs ≤ 2 ^ 53) : -limit < z * oneUnits ∧ z * oneUnits < limit := by
  have hone : (0 : Int) ≤ oneUnits := Int.natCast_nonneg oneUnits
  have hlim : (2 : Int) ^ 53 * oneUnits < limit := by exact_mod_cast two_pow_mul_one_lt_limit
  have hlo : -2 ^ 53 * (oneUnits : Int) ≤ z * oneUnits := Int.mul_le_mul_of_nonneg_right (by omega) hone
  have hhi : z * oneUnits ≤ 2 ^ 53 * (oneUnits : Int) := Int.mul_le_mul_of_nonneg_right (by omega) hone
  rw [neg_mul] at hlo
  generalize z * (oneUnits : Int) = u at *
  generalize (2 : Int) ^ 53 * oneUnits = l at *
  omega

theorem roundInt_whole (h : z.natAbs ≤ 2 ^ 53) : roundInt (z * oneUnits) = z * oneUnits := by
  have hone : (oneUnits : Int) = 2 ^ (0 + 1074 : Int).toNat := by rw [oneUnits_eq, Nat.cast_pow, Nat.cast_ofNat]
  rw [hone, roundInt_mul_two_pow h]

/-- What is defined and comes from rounding a whole number is that number. -/
theorem isWhole_of_units (hn : x.isNaN = false) (h : z.natAbs ≤ 2 ^ 53)
    (hu : unitsOf x = clamped (roundInt (z * oneUnits))) : IsWhole x z := by
  obtain ⟨hlo, hhi⟩ := abs_whole_lt_limit h
  rw [roundInt_whole h, clamped] at hu
  have heq : unitsOf x = z * oneUnits := by omega
  exact ⟨(isFinite_iff_units hn).2 (by omega), heq⟩

theorem IsWhole.add (hx : IsWhole x z) (hy : IsWhole y w) (h : (z + w).natAbs ≤ 2 ^ 53) : IsWhole (x + y) (z + w) := by
  obtain ⟨hn, hu⟩ := add_finite hx.finite hy.finite
  refine isWhole_of_units hn h ?_
  rw [hu, hx.units, hy.units, add_mul]

theorem IsWhole.sub (hx : IsWhole x z) (hy : IsWhole y w) (h : (z - w).natAbs ≤ 2 ^ 53) : IsWhole (x - y) (z - w) := by
  obtain ⟨hn, hu⟩ := sub_finite hx.finite hy.finite
  refine isWhole_of_units hn h ?_
  rw [hu, hx.units, hy.units, sub_mul]

end FleetEnergy.Binary64

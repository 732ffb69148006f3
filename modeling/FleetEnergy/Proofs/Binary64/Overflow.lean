import FleetEnergy.Proofs.Binary64.Monotone
import FleetEnergy.Proofs.Binary64.Whole

/-! When a quotient of floats is too large for a float: from the middle between the greatest float and the power of two
that comes after it. -/
namespace FleetEnergy.Binary64
open Float.Model (UnpackedFloat)
set_option autoImplicit false

/-! ## The middle below a power of two -/

theorem nearestTo_le_of_lt {v : ℚ} {k : ℕ} (h : v < k + 1 / 2) : nearestTo v ≤ k := by
  have hfloor : ⌊v⌋₊ < k + 1 := by
    rw [Nat.floor_lt' (Nat.succ_ne_zero k)]
    push_cast
    linarith
  rcases (Nat.lt_succ_iff.1 hfloor).lt_or_eq with hlt | heq
  · exact (nearestTo_le_succ v).trans hlt
  · rw [nearestTo, heq, if_pos (by linarith)]

theorem roundNat_middle (j : ℕ) : roundNat ((2 ^ 54 - 1) * 2 ^ j) = 2 ^ 53 * 2 ^ (j + 1) := by
  have hlog : (2 ^ 54 - 1).log2 = 53 := by decide
  have hshift : ((2 ^ 54 - 1) * 2 ^ j).log2 - 52 = 1 + j := by
    rw [log2_mul_two_pow (by decide), hlog]
    omega
  have htie : nearest (2 ^ 54 - 1) 1 = 2 ^ 53 := by decide
  rw [roundNat, hshift, nearest_mul_two_pow, htie, Nat.add_comm]

/-- What is rounded to a power of two or above it lies above the float before or in the middle at least. -/
theorem roundRatio_lt_iff {v : ℚ} (hv : 0 ≤ v) (j : ℕ) :
    roundRatio v < 2 ^ 53 * 2 ^ (j + 1) ↔ v < ((2 ^ 54 - 1) * 2 ^ j : ℕ) := by
  constructor
  · intro h
    by_contra hge
    have hmono := roundRatio_mono (Nat.cast_nonneg _) (not_lt.1 hge)
    rw [roundRatio_natCast, roundNat_middle] at hmono
    exact h.not_ge hmono
  · intro h
    rcases Nat.lt_trichotomy (place v) (j + 1) with hlt | heq | hgt
    · calc roundRatio v ≤ 2 ^ (place v + 53) := roundRatio_le v
        _ < 2 ^ (53 + (j + 1)) := Nat.pow_lt_pow_right (by decide) (by omega)
        _ = 2 ^ 53 * 2 ^ (j + 1) := pow_add _ _ _
    · have hhalf : v / 2 ^ (j + 1) < (2 ^ 53 - 1 : ℕ) + 1 / 2 := by
        rw [div_lt_iff₀ (by positivity), pow_succ _ j]
        push_cast at h ⊢
        linarith
      have hnear := nearestTo_le_of_lt hhalf
      rw [roundRatio, heq]
      exact Nat.mul_lt_mul_of_pos_right (hnear.trans_lt (by decide)) (Nat.two_pow_pos _)
    · have hlow := two_pow_place_le hv (by omega)
      have hpow : (2 : ℚ) ^ (54 + j) ≤ 2 ^ (place v + 52) := pow_le_pow_right₀ (by norm_num) (by omega)
      have hp : (0 : ℚ) < 2 ^ j := by positivity
      rw [pow_add] at hpow
      push_cast at h
      linarith

/-! ## Quotients -/

/-- The least whole number that is rounded to infinity. -/
def leastOverflow : ℕ := (2 ^ 54 - 1) * 2 ^ 970

theorem leastOverflow_units : leastOverflow * oneUnits = (2 ^ 54 - 1) * 2 ^ (970 + 1074) := by
  have hexp : (0 + 1074 : Int).toNat = 1074 := rfl
  rw [leastOverflow, oneUnits_eq, hexp, Nat.mul_assoc, pow_add]

theorem limit_eq : limit = 2 ^ 53 * 2 ^ (970 + 1074 + 1) := by
  have hexp : (972 + 1074 : Int).toNat = 1 + (970 + 1074 + 1) := rfl
  have hdouble : 2 ^ 52 * 2 ^ 1 = 2 ^ 53 := rfl
  rw [limit, magnitude, hexp, pow_add 2 1, ← Nat.mul_assoc, hdouble]

theorem roundRatio_lt_limit_iff {v : ℚ} (hv : 0 ≤ v) : roundRatio v < limit ↔ v < (leastOverflow : ℚ) * oneUnits := by
  rw [limit_eq, roundRatio_lt_iff hv (970 + 1074), ← leastOverflow_units, Nat.cast_mul]

variable {x y : Float}

theorem div_isFinite_iff_of_nonneg (hx : x.isFinite = true) (hx0 : 0 ≤ unitsOf x) (hy : y.isFinite = true)
    (hy0 : 0 < unitsOf y) : (x / y).isFinite = true ↔ unitsOf x < leastOverflow * unitsOf y := by
  obtain ⟨hn, hu⟩ := div_finite hx hy hx0 hy0
  have hl := limit_pos
  have hx0' : (0 : ℚ) ≤ unitsOf x := by exact_mod_cast hx0
  have hy0' : (0 : ℚ) < unitsOf y := by exact_mod_cast hy0
  have hone : (0 : ℚ) < oneUnits := by exact_mod_cast oneUnits_pos
  have hround := roundRatio_lt_limit_iff ((le_div_iff₀ hy0').2 ((zero_mul _).trans_le (mul_nonneg hx0' hone.le)))
  have hratio : (unitsOf x : ℚ) * oneUnits / unitsOf y < leastOverflow * oneUnits ↔
      unitsOf x < leastOverflow * unitsOf y := by
    rw [div_lt_iff₀ hy0', mul_right_comm, mul_lt_mul_iff_left₀ hone, ← Int.cast_natCast leastOverflow,
      ← Int.cast_mul, Int.cast_lt]
  rw [isFinite_iff_units hn, hu, ← hratio, ← hround, clamped]
  omega

/-- A quotient by what is above zero is defined, and it is finite unless the exact quotient is too large. -/
theorem div_isFinite_iff (hx : x.isFinite = true) (hy : y.isFinite = true) (hy0 : 0 < unitsOf y) :
    (x / y).isNaN = false ∧ ((x / y).isFinite = true ↔ |unitsOf x| < leastOverflow * unitsOf y) := by
  rcases le_total 0 (unitsOf x) with h | h
  · rw [abs_of_nonneg h]
    exact ⟨(div_finite hx hy h hy0).1, div_isFinite_iff_of_nonneg hx h hy hy0⟩
  · have hneg : 0 ≤ unitsOf (-x) := by
      rw [unitsOf_neg]
      omega
    have hfinite : (-x).isFinite = true := (float_isFinite_neg x).trans hx
    have hquot := div_isFinite_iff_of_nonneg hfinite hneg hy hy0
    have hdef := (div_finite hfinite hy hneg hy0).1
    rw [float_neg_div, isNaN_neg] at hdef
    rw [float_neg_div, float_isFinite_neg, unitsOf_neg] at hquot
    rw [abs_of_nonpos h]
    exact ⟨hdef, hquot⟩

/-! ## Divisors -/

/-- The greatest float that is finite. -/
def greatest : Float := .ofBits 0x7fefffffffffffff

theorem reading_greatest : reading greatest = .finite .positive (2 ^ 53 - 1) 971 (by decide) := by
  rw [greatest, reading_ofBits, unpack_eq_decode]
  rfl

theorem greatest_isFinite : greatest.isFinite = true := congrArg UnpackedFloat.isFinite reading_greatest

theorem unitsOf_greatest : unitsOf greatest = (2 ^ 53 - 1 : Int) * 2 ^ (54 + 970 + 1021) := by
  have hexp : (971 + 1074 : Int).toNat = 54 + 970 + 1021 := rfl
  rw [unitsOf, reading_greatest, units, magnitude, hexp, Nat.cast_mul, Nat.cast_pow]
  rfl

/-- What is below one is at most the float before one. -/
theorem le_of_lt_one (hy : y.isFinite = true) (h : unitsOf y < oneUnits) :
    unitsOf y ≤ (2 ^ 53 - 1) * 2 ^ 1021 := by
  obtain ⟨a, j, hu, ha, hfull⟩ := sharp_unitsOf hy
  have hone : (oneUnits : Int) = 2 ^ 52 * 2 ^ 1022 := by
    have hexp : (0 + 1074 : Int).toNat = 52 + 1022 := rfl
    rw [oneUnits_eq, hexp, pow_add, Nat.cast_mul, Nat.cast_pow, Nat.cast_pow, Nat.cast_ofNat]
  have hle : a ≤ 2 ^ 53 - 1 := by omega
  have hp : (0 : Int) ≤ 2 ^ j := pow_nonneg (by norm_num) j
  rw [hone, hu] at h
  rw [hu]
  rcases Nat.lt_or_ge j 1022 with hj | hj
  · calc a * 2 ^ j ≤ (2 ^ 53 - 1) * 2 ^ j := Int.mul_le_mul_of_nonneg_right hle hp
      _ ≤ (2 ^ 53 - 1) * 2 ^ 1021 :=
        Int.mul_le_mul_of_nonneg_left (pow_le_pow_right₀ (by norm_num) (by omega)) (by norm_num)
  · -- With so long a last place a number above zero is one at least.
    have hneg : a < 2 ^ 52 := lt_of_not_ge fun hge =>
      h.not_ge (mul_le_mul hge (pow_le_pow_right₀ (by norm_num) hj) (pow_nonneg (by norm_num) _)
        (hge.trans' (by norm_num)))
    have ha0 : a ≤ 0 := by omega
    exact (mul_nonpos_of_nonpos_of_nonneg ha0 hp).trans
      (mul_nonneg (by norm_num) (pow_nonneg (by norm_num) _))

theorem abs_units_lt_leastOverflow (hx : x.isFinite = true) : |unitsOf x| < leastOverflow * oneUnits := by
  obtain ⟨a, j, hu, ha, -⟩ := sharp_unitsOf hx
  have hexact : roundNat (unitsOf x).natAbs = (unitsOf x).natAbs := by
    have hp : ((2 : Int) ^ j).natAbs = 2 ^ j := Int.natAbs_pow 2 j
    rw [hu, Int.natAbs_mul, hp, roundNat_mul_two_pow ha]
  have hlt : roundRatio ((unitsOf x).natAbs : ℚ) < limit := by
    rw [roundRatio_natCast, hexact]
    have := (isFinite_iff_units (isNaN_of_isFinite hx)).1 hx
    omega
  rw [roundRatio_lt_limit_iff (Nat.cast_nonneg _), ← Nat.cast_mul, Nat.cast_lt] at hlt
  rw [Int.abs_eq_natAbs, ← Nat.cast_mul]
  exact Int.ofNat_lt.2 hlt

/-- A divisor leaves all quotients of finite floats finite if it is one at least, and only then. -/
theorem forall_div_isFinite_iff (hy : y.isFinite = true) (hy0 : 0 < unitsOf y) :
    (∀ x : Float, x.isFinite = true → (x / y).isFinite = true) ↔ 1.0 ≤ y := by
  rw [le_iff_units rfl (isNaN_of_isFinite hy), isWhole_one.units, one_mul]
  constructor
  · intro h
    by_contra hlt
    have hbound := (div_isFinite_iff greatest_isFinite hy hy0).2.1 (h greatest greatest_isFinite)
    have hle := le_of_lt_one hy (not_le.1 hlt)
    have hcast : ((2 ^ 54 - 1 : ℕ) : Int) = 2 ^ 54 - 1 := rfl
    have hp : (0 : Int) < 2 ^ 970 := pow_pos (by norm_num) _
    have hq : (0 : Int) < 2 ^ 1021 := pow_pos (by norm_num) _
    rw [unitsOf_greatest, leastOverflow, pow_add, pow_add, Nat.cast_mul, hcast, Nat.cast_pow, Nat.cast_ofNat] at hbound
    generalize (2 : Int) ^ 970 = p at *
    generalize (2 : Int) ^ 1021 = q at *
    rw [abs_of_nonneg (by positivity)] at hbound
    have hpq := mul_pos hp hq
    have hmul := mul_le_mul_of_nonneg_left hle hp.le
    linarith
  · intro h x hx
    rw [(div_isFinite_iff hx hy hy0).2]
    exact (abs_units_lt_leastOverflow hx).trans_le (Int.mul_le_mul_of_nonneg_left h (Int.natCast_nonneg _))

end FleetEnergy.Binary64

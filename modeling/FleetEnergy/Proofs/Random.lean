import FleetEnergy.Proofs.Binary64.Difference
import FleetEnergy.Proofs.Binary64.Product
import FleetEnergy.Random

/-! Where random numbers lie. A number is drawn whenever the bounds are in order and a finite way apart, and rounding never
takes it past a bound. -/
namespace FleetEnergy
open Binary64
open Float.Model (Format UnpackedFloat)
open Float.Model.UnpackedFloat
set_option autoImplicit false

/-! ## The float that is scaled -/

namespace Random

theorem toNat_unitWord (u : UInt64) :
    ((u >>> 12) ||| 0x3FF0000000000000).toNat = 1023 * 2 ^ 52 + u.toNat / 2 ^ 12 := by
  have hu := u.toNat_lt
  have hlow : u.toNat / 2 ^ 12 < 2 ^ 52 := by omega
  have hshift : (u >>> 12).toNat = u.toNat / 2 ^ 12 := by
    rw [UInt64.toNat_shiftRight]
    exact Nat.shiftRight_eq_div_pow _ _
  have hconst : (0x3FF0000000000000 : UInt64).toNat = 1023 <<< 52 := rfl
  rw [UInt64.toNat_or, hshift, hconst, Nat.or_comm, ← Nat.shiftLeft_add_eq_or_of_lt hlow, Nat.shiftLeft_eq]

/-- The float before one is taken off lies between one and two. -/
theorem reading_unitWord (u : UInt64) :
    ∃ k, k < 2 ^ 52 ∧ reading (Float.ofBits ((u >>> 12) ||| 0x3FF0000000000000)) =
      .finite .positive (2 ^ 52 + k) (-52) (by positivity) := by
  have hw := toNat_unitWord u
  have hu := u.toNat_lt
  refine ⟨u.toNat / 2 ^ 12, by omega, ?_⟩
  rw [reading_ofBits, unpack_eq_decode]
  have hsign : signOf ((u >>> 12) ||| 0x3FF0000000000000).toBitVec = .positive := by
    rw [signOf, UInt64.toNat_toBitVec, hw, if_pos (by omega)]
  have hexp : exponentField ((u >>> 12) ||| 0x3FF0000000000000).toBitVec = 1023 := by
    rw [exponentField, UInt64.toNat_toBitVec, hw]
    omega
  have hfrac : fraction ((u >>> 12) ||| 0x3FF0000000000000).toBitVec = u.toNat / 2 ^ 12 := by
    rw [fraction, UInt64.toNat_toBitVec, hw]
    omega
  rw [hsign, hexp, hfrac]
  rfl

/-- The float that is scaled has 52 digits behind the point. -/
theorem units_unitFloat (u : UInt64) :
    ∃ k, k < 2 ^ 52 ∧ (unitFloat u).isFinite = true ∧ unitsOf (unitFloat u) = magnitude k (-52) := by
  obtain ⟨k, hk, hr⟩ := reading_unitWord u
  have hf : (Float.ofBits ((u >>> 12) ||| 0x3FF0000000000000)).isFinite = true := congrArg UnpackedFloat.isFinite hr
  have hu : unitsOf (Float.ofBits ((u >>> 12) ||| 0x3FF0000000000000)) = magnitude (2 ^ 52 + k) (-52) :=
    congrArg units hr
  have hone : unitsOf 1.0 = magnitude (2 ^ 52) (-52) := rfl
  obtain ⟨hn, hd⟩ := sub_finite (x := Float.ofBits ((u >>> 12) ||| 0x3FF0000000000000)) (y := 1.0) hf rfl
  have hdiff : (magnitude (2 ^ 52 + k) (-52) : Int) - magnitude (2 ^ 52) (-52) = magnitude k (-52) := by
    have hsum : magnitude (2 ^ 52 + k) (-52) = magnitude (2 ^ 52) (-52) + magnitude k (-52) := by
      rw [magnitude, magnitude, magnitude, Nat.add_mul]
    rw [hsum, Nat.cast_add]
    exact add_sub_cancel_left _ _
  have hexact : roundInt (magnitude k (-52)) = magnitude k (-52) := by
    rw [roundInt_natCast, magnitude, roundNat_mul_two_pow (by omega)]
  have hlt : magnitude k (-52) < limit :=
    magnitude_lt_of_exponent_lt (by omega) (by norm_num) (le_refl _) (by norm_num)
  have hnonneg : (0 : Int) ≤ magnitude k (-52) := Int.natCast_nonneg _
  have hltz : (magnitude k (-52) : Int) < limit := by exact_mod_cast hlt
  rw [hu, hone, hdiff, hexact, clamped_of_le hnonneg hltz.le] at hd
  refine ⟨k, hk, (isFinite_iff_units hn).2 ?_, hd⟩
  rw [hd]
  exact ⟨(neg_neg_of_pos (hnonneg.trans_lt hltz)).trans_le hnonneg, hltz⟩

/-! ## Scaling -/

/-- The last of `2 ^ 52` equal parts of a number of places is at least a place long. -/
theorem scaled_places {k n : ℕ} (hk : k < 2 ^ 52) (hn : 2 ^ 52 ≤ n) : (k : ℚ) / 2 ^ 52 * n ≤ (n - 1 : ℕ) := by
  have hk' : (k : ℚ) + 1 ≤ 2 ^ 52 := by exact_mod_cast hk
  have hfrac : (k : ℚ) / 2 ^ 52 ≤ 1 - 1 / 2 ^ 52 := by
    rw [div_le_iff₀ (by positivity)]
    norm_num
    linarith
  have hle := mul_le_mul_of_nonneg_right hfrac (Nat.cast_nonneg (α := ℚ) n)
  have hone : (1 : ℚ) ≤ 1 / 2 ^ 52 * n := by
    rw [one_div_mul_eq_div, one_le_div (by positivity)]
    exact_mod_cast hn
  rw [Nat.cast_sub (by omega), Nat.cast_one]
  linarith

theorem roundRatio_scaled_exact {k : ℕ} (hk : k < 2 ^ 52) {D : ℕ} (hD : roundNat D = D) :
    roundRatio ((k : ℚ) / 2 ^ 52 * D) ≤ D := by
  have hfrac : (k : ℚ) / 2 ^ 52 ≤ 1 := by
    rw [div_le_one (by positivity)]
    exact_mod_cast hk.le
  have hmono : roundRatio ((k : ℚ) / 2 ^ 52 * D) ≤ roundRatio D :=
    roundRatio_mono (by positivity) (mul_le_of_le_one_left (Nat.cast_nonneg D) hfrac)
  rwa [roundRatio_natCast, hD] at hmono

theorem roundNat_long {D j : ℕ} (hj : D.log2 = j + 52) : roundNat D = nearest D j * 2 ^ j := by
  rw [roundNat, hj, Nat.add_sub_cancel]

/-- A distance that was rounded loses a last place when it is scaled, which is as much as it may have grown. -/
theorem roundRatio_scaled_rounded {k : ℕ} (hk : k < 2 ^ 52) {D j : ℕ} (hD : D ≠ 0) (hj : D.log2 = j + 52) :
    roundRatio ((k : ℚ) / 2 ^ 52 * roundNat D) ≤ (nearest D j - 1) * 2 ^ j := by
  have hp := Nat.two_pow_pos j
  have hlow : 2 ^ 52 * 2 ^ j ≤ nearest D j * 2 ^ j := by
    rw [← roundNat_long hj, ← Nat.pow_add, Nat.add_comm, ← hj]
    exact two_pow_log2_le_roundNat hD
  have hhigh : nearest D j * 2 ^ j ≤ 2 ^ 53 * 2 ^ j := by
    have hexp : 53 + j = D.log2 + 1 := by omega
    rw [← roundNat_long hj, ← Nat.pow_add, hexp]
    exact roundNat_le_two_pow hD
  have hn := Nat.le_of_mul_le_mul_right hlow hp
  have hn' := Nat.le_of_mul_le_mul_right hhigh hp
  have hstep : (k : ℚ) / 2 ^ 52 * roundNat D ≤ ((nearest D j - 1) * 2 ^ j : ℕ) := by
    rw [roundNat_long hj, Nat.cast_mul, Nat.cast_mul, ← mul_assoc]
    exact mul_le_mul_of_nonneg_right (scaled_places hk hn) (Nat.cast_nonneg _)
  have hmono := roundRatio_mono (by positivity) hstep
  rwa [roundRatio_natCast, roundNat_mul_two_pow (by omega)] at hmono

/-- Scaling a distance that was rounded does not lead beyond the distance, nor beyond what it was rounded to. -/
theorem roundRatio_scaled {k : ℕ} (hk : k < 2 ^ 52) (D : ℕ) :
    roundRatio ((k : ℚ) / 2 ^ 52 * roundNat D) ≤ D ∧ roundRatio ((k : ℚ) / 2 ^ 52 * roundNat D) ≤ roundNat D := by
  by_cases hshort : D < 2 ^ 52
  · have hD : roundNat D = D := roundNat_of_lt (by omega)
    rw [hD]
    exact ⟨roundRatio_scaled_exact hk hD, roundRatio_scaled_exact hk hD⟩
  · have hD : D ≠ 0 := by omega
    have hlong : 52 ≤ D.log2 := (Nat.le_log2 hD).2 (by omega)
    obtain ⟨j, hj⟩ : ∃ j, D.log2 = j + 52 := ⟨D.log2 - 52, by omega⟩
    have hlost := roundRatio_scaled_rounded hk hD hj
    refine ⟨hlost.trans ?_, hlost.trans ?_⟩
    · calc (nearest D j - 1) * 2 ^ j ≤ D / 2 ^ j * 2 ^ j :=
            Nat.mul_le_mul_right _ (Nat.sub_le_of_le_add (nearest_le_succ D j))
        _ ≤ D := Nat.div_mul_le_self D _
    · rw [roundNat_long hj]
      exact Nat.mul_le_mul_right _ (Nat.sub_le _ _)

/-! ## Drawing -/

theorem between_isSome {low high : Float} (h : low ≤ high) (hf : (high - low).isFinite = true) (g : Generator) :
    ∃ x, between low high g = some (x, (next g).2) := by
  rw [between, if_pos h]
  exact ⟨_, if_pos hf⟩

theorem units_distance {low high : Float} (hf : (high - low).isFinite = true) (h : unitsOf low ≤ unitsOf high) :
    unitsOf (high - low) = roundNat (unitsOf high - unitsOf low).toNat := by
  obtain ⟨hhf, hlf⟩ := isFinite_of_sub hf
  obtain ⟨hn, hu⟩ := sub_finite hhf hlf
  obtain ⟨hlo, hhi⟩ := (isFinite_iff_units hn).1 hf
  have hD : unitsOf high - unitsOf low = (unitsOf high - unitsOf low).toNat := by omega
  rw [hD, roundInt_natCast] at hu
  rw [hu, clamped] at hlo hhi
  rw [hu, clamped]
  omega

theorem unit_ratio (k S : ℕ) : (magnitude k (-52) : ℚ) * S / oneUnits = k / 2 ^ 52 * S := by
  have hsplit : (2 : ℚ) ^ (-52 + 1074 : Int) = 2 ^ (1074 : Int) / 2 ^ 52 := by
    rw [zpow_add₀ (by norm_num), zpow_neg, ← inv_mul_eq_div]
    rfl
  have hone : (2 : ℚ) ^ (1074 : Int) ≠ 0 := zpow_ne_zero _ (by norm_num)
  -- The power is too large to be worked out.
  rw [magnitude_cast k (by norm_num), oneUnits_cast, hsplit]
  generalize (2 : ℚ) ^ (1074 : Int) = one at hone ⊢
  field_simp

/-- The scaled distance is not more than the distance. -/
theorem units_scaled {low high : Float} (hf : (high - low).isFinite = true) (h : unitsOf low ≤ unitsOf high)
    (u : UInt64) : ∃ r : ℕ, (unitFloat u * (high - low)).isFinite = true ∧ unitsOf (unitFloat u * (high - low)) = r ∧
      (r : Int) ≤ unitsOf high - unitsOf low := by
  obtain ⟨k, hk, huf, hu⟩ := units_unitFloat u
  have hS := units_distance hf h
  obtain ⟨D, hD⟩ : ∃ D, D = (unitsOf high - unitsOf low).toNat := ⟨_, rfl⟩
  rw [← hD] at hS
  have hu0 : 0 ≤ unitsOf (unitFloat u) := by
    rw [hu]
    exact Int.natCast_nonneg _
  have hS0 : 0 ≤ unitsOf (high - low) := by
    rw [hS]
    exact Int.natCast_nonneg _
  have hratio : (unitsOf (unitFloat u) : ℚ) * unitsOf (high - low) / oneUnits = k / 2 ^ 52 * roundNat D := by
    rw [hu, hS, Int.cast_natCast, Int.cast_natCast]
    exact unit_ratio k (roundNat D)
  obtain ⟨hPn, hP⟩ := mul_finite huf hf hu0 hS0
  obtain ⟨hrD, hrS⟩ := roundRatio_scaled hk D
  rw [hratio] at hP
  generalize roundRatio ((k : ℚ) / 2 ^ 52 * roundNat D) = r at hP hrD hrS
  have hr : (r : Int) < limit := by
    have hShi := ((isFinite_iff_units (isNaN_of_isFinite hf)).1 hf).2
    rw [hS] at hShi
    omega
  have hr0 : (0 : Int) ≤ r := Int.natCast_nonneg r
  rw [clamped_of_le hr0 hr.le] at hP
  refine ⟨r, (isFinite_iff_units hPn).2 ?_, hP, by omega⟩
  rw [hP]
  exact ⟨by omega, hr⟩

/-- The number that is drawn is between the bounds. -/
theorem scaled_bounds {low high : Float} (h : low ≤ high) (hf : (high - low).isFinite = true) (u : UInt64) :
    (unitFloat u * (high - low) + low).isNaN = false ∧ low ≤ unitFloat u * (high - low) + low ∧
      unitFloat u * (high - low) + low ≤ high := by
  obtain ⟨hhf, hlf⟩ := isFinite_of_sub hf
  have hln : low.isNaN = false := isNaN_of_isFinite hlf
  have hhn : high.isNaN = false := isNaN_of_isFinite hhf
  rw [le_iff_units hln hhn] at h
  obtain ⟨r, hPf, hP, hr⟩ := units_scaled hf h u
  obtain ⟨hsum, hsumu⟩ := add_finite hPf hlf
  rw [hP] at hsumu
  refine ⟨hsum, (le_iff_units hln hsum).2 ?_, (le_iff_units hsum hhn).2 ?_⟩
  · calc unitsOf low = clamped (roundInt (unitsOf low)) := ((inRange_reading low).clamped_roundInt hlf).symm
      _ ≤ clamped (roundInt (r + unitsOf low)) := clamped_mono (roundInt_mono (by omega))
      _ = _ := hsumu.symm
  · calc unitsOf (unitFloat u * (high - low) + low) = clamped (roundInt (r + unitsOf low)) := hsumu
      _ ≤ clamped (roundInt (unitsOf high)) := clamped_mono (roundInt_mono (by omega))
      _ = unitsOf high := (inRange_reading high).clamped_roundInt hhf

theorem between_bounds {low high x : Float} {g g' : Generator} (h : between low high g = some (x, g')) :
    x.isNaN = false ∧ low ≤ x ∧ x ≤ high := by
  by_cases hle : low ≤ high
  · rw [between, if_pos hle] at h
    change (if (high - low).isFinite = true then some (unitFloat (next g).1 * (high - low) + low, (next g).2)
      else none) = _ at h
    split_ifs at h with hf
    obtain ⟨hx, -⟩ := Prod.mk.inj (Option.some.inj h)
    rw [← hx]
    exact scaled_bounds hle hf (next g).1
  · rw [between, if_neg hle] at h
    cases h

end Random

end FleetEnergy

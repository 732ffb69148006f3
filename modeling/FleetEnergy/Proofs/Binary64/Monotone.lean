import FleetEnergy.Proofs.Binary64.Difference
import FleetEnergy.Proofs.Binary64.Scientific

/-! Arithmetic of floats keeps the order. Wherever the results are defined, greater operands do not give less, be they
finite or infinite, and the signs are those of exact arithmetic. -/
namespace FleetEnergy.Binary64
open Float.Model (Format UnpackedFloat)
open Float.Model.UnpackedFloat
set_option autoImplicit false

variable {x y x' y' : Float} {s : Sign}

/-! ## Operands of defined results -/

theorem defined_of_result {op : UnpackedFloat → UnpackedFloat → UnpackedFloat} {z : Float}
    (hr : reading z = saturate (op (reading x) (reading y))) (hleft : ∀ v, op .notANumber v = .notANumber)
    (hright : ∀ u, op u .notANumber = .notANumber) (hz : z.isNaN = false) :
    x.isNaN = false ∧ y.isNaN = false := by
  have hop : (op (reading x) (reading y)).isNaN = false := by
    rw [← isNaN_saturate, ← hr]
    exact hz
  change (reading x).isNaN = false ∧ (reading y).isNaN = false
  constructor
  · cases h : reading x with
    | notANumber =>
      rw [h, hleft] at hop
      cases hop
    | _ => rfl
  · cases h : reading y with
    | notANumber =>
      rw [h, hright] at hop
      cases hop
    | _ => rfl

theorem defined_of_add (h : (x + y).isNaN = false) : x.isNaN = false ∧ y.isNaN = false :=
  defined_of_result (reading_add x y) (fun _ => rfl) (fun u => by cases u <;> rfl) h

theorem defined_of_mul (h : (x * y).isNaN = false) : x.isNaN = false ∧ y.isNaN = false :=
  defined_of_result (reading_mul x y) (fun _ => rfl) (fun u => by cases u <;> rfl) h

theorem defined_of_div (h : (x / y).isNaN = false) : x.isNaN = false ∧ y.isNaN = false :=
  defined_of_result (reading_div x y) (fun _ => rfl) (fun u => by cases u <;> rfl) h

/-! ## Infinite values -/

theorem reading_of_limit (hn : x.isNaN = false) (h : unitsOf x = s.apply limit) : reading x = .infinity s := by
  have hl := limit_pos
  have hf : ¬x.isFinite = true := by
    rw [isFinite_iff_units hn, h]
    cases s <;> simp only [Sign.apply] <;> omega
  change (reading x).isNaN = false at hn
  change ¬(reading x).isFinite = true at hf
  unfold unitsOf at h
  cases hr : reading x with
  | notANumber => rw [hr] at hn; cases hn
  | zero t => rw [hr] at hf; exact absurd rfl hf
  | finite t m e hm => rw [hr] at hf; exact absurd rfl hf
  | infinity t =>
    rw [hr] at h
    cases s <;> cases t <;> simp only [units, Sign.apply] at h <;> first | rfl | omega

theorem isFinite_of_lt_limit (hn : x.isNaN = false) (h0 : 0 ≤ unitsOf x) (h : unitsOf x ≠ limit) :
    x.isFinite = true := by
  have hl := limit_pos
  have hle := (abs_unitsOf_le x).2
  exact (isFinite_iff_units hn).2 ⟨by omega, by omega⟩

/-! ## Sums -/

theorem units_add_of_limit (hn : (x + y).isNaN = false) (h : unitsOf x = s.apply limit ∨ unitsOf y = s.apply limit) :
    unitsOf (x + y) = s.apply limit := by
  obtain ⟨hx, hy⟩ := defined_of_add hn
  have hr := reading_add x y
  change (reading (x + y)).isNaN = false at hn
  rw [hr, isNaN_saturate] at hn
  have hleft {u : UnpackedFloat} (hu : (UnpackedFloat.add Format.binary64 (.infinity s) u).isNaN = false) :
      UnpackedFloat.add Format.binary64 (.infinity s) u = .infinity s := by
    cases u with
    | notANumber => cases hu
    | infinity t => cases s <;> cases t <;> first | rfl | cases hu
    | _ => rfl
  have hs : UnpackedFloat.add Format.binary64 (reading x) (reading y) = .infinity s := by
    obtain h | h := h
    · rw [reading_of_limit hx h] at hn ⊢
      exact hleft hn
    · rw [reading_of_limit hy h, unpacked_add_comm] at hn ⊢
      exact hleft hn
  rw [hs] at hr
  exact congrArg units hr

theorem add_mono (hn : (x + y).isNaN = false) (hn' : (x' + y').isNaN = false) (hx : unitsOf x ≤ unitsOf x')
    (hy : unitsOf y ≤ unitsOf y') : unitsOf (x + y) ≤ unitsOf (x' + y') := by
  obtain ⟨hxn, hyn⟩ := defined_of_add hn
  obtain ⟨hxn', hyn'⟩ := defined_of_add hn'
  -- A least summand makes the sum the least, and a greatest one makes it the greatest.
  by_cases hlow : unitsOf x = -limit ∨ unitsOf y = -limit
  · have hsum : unitsOf (x + y) = -limit := units_add_of_limit (s := .negative) hn hlow
    rw [hsum]
    exact (abs_unitsOf_le _).1
  · by_cases hhigh : unitsOf x' = limit ∨ unitsOf y' = limit
    · have hsum : unitsOf (x' + y') = limit := units_add_of_limit (s := .positive) hn' hhigh
      rw [hsum]
      exact (abs_unitsOf_le _).2
    · obtain ⟨hx0, -⟩ := abs_unitsOf_le x
      obtain ⟨hy0, -⟩ := abs_unitsOf_le y
      obtain ⟨-, hx1⟩ := abs_unitsOf_le x'
      obtain ⟨-, hy1⟩ := abs_unitsOf_le y'
      have hxf := (isFinite_iff_units hxn).2 ⟨by omega, by omega⟩
      have hyf := (isFinite_iff_units hyn).2 ⟨by omega, by omega⟩
      have hxf' := (isFinite_iff_units hxn').2 ⟨by omega, by omega⟩
      have hyf' := (isFinite_iff_units hyn').2 ⟨by omega, by omega⟩
      rw [(add_finite hxf hyf).2, (add_finite hxf' hyf').2]
      exact clamped_mono (roundInt_mono (by omega))

/-! ## Products -/

theorem units_mul_of_limit (hn : (x * y).isNaN = false) (hx : 0 ≤ unitsOf x) (hy : 0 ≤ unitsOf y)
    (h : unitsOf x = limit ∨ unitsOf y = limit) : unitsOf (x * y) = limit := by
  obtain ⟨hxn, hyn⟩ := defined_of_mul hn
  have hr := reading_mul x y
  change (reading (x * y)).isNaN = false at hn
  rw [hr, isNaN_saturate] at hn
  have hs : UnpackedFloat.mul Format.binary64 (reading x) (reading y) = .infinity .positive := by
    by_cases hxf : x.isFinite = true
    · obtain h | h := h
      · have hlt := ((isFinite_iff_units hxn).1 hxf).2
        omega
      · have hyr := reading_of_limit (s := .positive) hyn h
        obtain ⟨t, hxr⟩ | ⟨m, e, hm, hxr⟩ := nonneg_cases hxf hx
        · rw [hxr, hyr] at hn
          cases hn
        · rw [hxr, hyr]
          rfl
    · have hxr := reading_of_infinite hxn hxf hx
      by_cases hyf : y.isFinite = true
      · obtain ⟨t, hyr⟩ | ⟨m, e, hm, hyr⟩ := nonneg_cases hyf hy
        · rw [hxr, hyr] at hn
          cases hn
        · rw [hxr, hyr]
          rfl
      · rw [hxr, reading_of_infinite hyn hyf hy]
        rfl
  rw [hs] at hr
  exact congrArg units hr

theorem product_nonneg (hn : (x * y).isNaN = false) (hx : 0 ≤ unitsOf x) (hy : 0 ≤ unitsOf y) : 0 ≤ unitsOf (x * y) := by
  obtain ⟨hxn, hyn⟩ := defined_of_mul hn
  by_cases h : unitsOf x = limit ∨ unitsOf y = limit
  · rw [units_mul_of_limit hn hx hy h]
    exact Int.natCast_nonneg _
  · rw [not_or] at h
    rw [(mul_finite (isFinite_of_lt_limit hxn hx h.1) (isFinite_of_lt_limit hyn hy h.2) hx hy).2]
    exact clamped_nonneg (Int.natCast_nonneg _)

theorem mul_mono (hn : (x * y).isNaN = false) (hn' : (x' * y').isNaN = false) (hx0 : 0 ≤ unitsOf x)
    (hx : unitsOf x ≤ unitsOf x') (hy0 : 0 ≤ unitsOf y) (hy : unitsOf y ≤ unitsOf y') :
    unitsOf (x * y) ≤ unitsOf (x' * y') := by
  obtain ⟨hxn, hyn⟩ := defined_of_mul hn
  obtain ⟨hxn', hyn'⟩ := defined_of_mul hn'
  by_cases h : unitsOf x' = limit ∨ unitsOf y' = limit
  · rw [units_mul_of_limit hn' (hx0.trans hx) (hy0.trans hy) h]
    exact (abs_unitsOf_le _).2
  · rw [not_or] at h
    have hx1 := (abs_unitsOf_le x').2
    have hy1 := (abs_unitsOf_le y').2
    rw [(mul_finite (isFinite_of_lt_limit hxn hx0 (by omega)) (isFinite_of_lt_limit hyn hy0 (by omega)) hx0 hy0).2,
      (mul_finite (isFinite_of_lt_limit hxn' (hx0.trans hx) h.1) (isFinite_of_lt_limit hyn' (hy0.trans hy) h.2)
        (hx0.trans hx) (hy0.trans hy)).2]
    have hq0 : (0 : ℚ) ≤ unitsOf x := by exact_mod_cast hx0
    have hr0 : (0 : ℚ) ≤ unitsOf y := by exact_mod_cast hy0
    have hq : (unitsOf x : ℚ) ≤ unitsOf x' := by exact_mod_cast hx
    have hr : (unitsOf y : ℚ) ≤ unitsOf y' := by exact_mod_cast hy
    refine clamped_mono (Int.ofNat_le.2 (roundRatio_mono (by positivity) ?_))
    exact div_le_div_of_nonneg_right (mul_le_mul hq hr hr0 (hq0.trans hq)) (by positivity)

/-! ## Quotients -/

theorem units_div_of_limit (hn : (x / y).isNaN = false) (hx : unitsOf x = limit) (hy : 0 < unitsOf y) :
    unitsOf (x / y) = limit := by
  obtain ⟨hxn, hyn⟩ := defined_of_div hn
  have hr := reading_div x y
  change (reading (x / y)).isNaN = false at hn
  rw [hr, isNaN_saturate, reading_of_limit (s := .positive) hxn hx] at hn
  rw [reading_of_limit (s := .positive) hxn hx] at hr
  by_cases hyf : y.isFinite = true
  · obtain ⟨m, e, hm, hyr⟩ := pos_cases hyf hy
    rw [hyr] at hr
    exact congrArg units hr
  · rw [reading_of_infinite hyn hyf hy.le] at hn
    cases hn

theorem units_div_limit (hn : (x / y).isNaN = false) (hx : x.isFinite = true) (hx0 : 0 ≤ unitsOf x)
    (hy : unitsOf y = limit) : unitsOf (x / y) = 0 := by
  have hr := reading_div x y
  rw [reading_of_limit (s := .positive) (defined_of_div hn).2 hy] at hr
  obtain ⟨t, hxr⟩ | ⟨m, e, hm, hxr⟩ := nonneg_cases hx hx0
  · rw [hxr] at hr
    exact congrArg units hr
  · rw [hxr] at hr
    exact congrArg units hr

theorem quotient_nonneg (hn : (x / y).isNaN = false) (hx : 0 ≤ unitsOf x) (hy : 0 < unitsOf y) :
    0 ≤ unitsOf (x / y) := by
  obtain ⟨hxn, hyn⟩ := defined_of_div hn
  by_cases hxl : unitsOf x = limit
  · rw [units_div_of_limit hn hxl hy]
    exact Int.natCast_nonneg _
  · by_cases hyl : unitsOf y = limit
    · exact (units_div_limit hn (isFinite_of_lt_limit hxn hx hxl) hx hyl).ge
    · exact (div_nonneg hxn hx (isFinite_of_lt_limit hyn hy.le hyl) hy).2

theorem div_mono (hn : (x / y).isNaN = false) (hn' : (x' / y').isNaN = false) (hx0 : 0 ≤ unitsOf x)
    (hx : unitsOf x ≤ unitsOf x') (hy0 : 0 < unitsOf y') (hy : unitsOf y' ≤ unitsOf y) :
    unitsOf (x / y) ≤ unitsOf (x' / y') := by
  obtain ⟨hxn, hyn⟩ := defined_of_div hn
  obtain ⟨hxn', hyn'⟩ := defined_of_div hn'
  by_cases hxl : unitsOf x' = limit
  · rw [units_div_of_limit hn' hxl hy0]
    exact (abs_unitsOf_le _).2
  · have hx1 := (abs_unitsOf_le x').2
    have hxf := isFinite_of_lt_limit hxn hx0 (by omega)
    by_cases hyl : unitsOf y = limit
    · rw [units_div_limit hn hxf hx0 hyl]
      exact quotient_nonneg hn' (hx0.trans hx) hy0
    · have hy1 := (abs_unitsOf_le y).2
      rw [(div_finite hxf (isFinite_of_lt_limit hyn (by omega) hyl) hx0 (by omega)).2,
        (div_finite (isFinite_of_lt_limit hxn' (hx0.trans hx) hxl) (isFinite_of_lt_limit hyn' hy0.le (by omega))
          (hx0.trans hx) hy0).2]
      have hq0 : (0 : ℚ) ≤ unitsOf x := by exact_mod_cast hx0
      have hr0 : (0 : ℚ) < unitsOf y' := by exact_mod_cast hy0
      have hq : (unitsOf x : ℚ) ≤ unitsOf x' := by exact_mod_cast hx
      have hr : (unitsOf y' : ℚ) ≤ unitsOf y := by exact_mod_cast hy
      have hscaled : (unitsOf x : ℚ) * oneUnits ≤ unitsOf x' * oneUnits :=
        mul_le_mul_of_nonneg_right hq (by positivity)
      have hscaled0 : (0 : ℚ) ≤ unitsOf x' * oneUnits := hscaled.trans' (by positivity)
      refine clamped_mono (Int.ofNat_le.2 (roundRatio_mono ?_ (div_le_div₀ hscaled0 hscaled hr0 hr)))
      have hr1 := hr0.trans_le hr
      positivity

/-! ## Below zero -/

theorem unitsOf_neg (x : Float) : unitsOf (-x) = -unitsOf x := by
  rw [unitsOf, reading_neg, units_neg, unitsOf]

theorem isNaN_neg (x : Float) : (-x).isNaN = x.isNaN := by
  change (reading (-x)).isNaN = (reading x).isNaN
  rw [reading_neg]
  cases reading x <;> rfl

theorem float_isFinite_neg (x : Float) : (-x).isFinite = x.isFinite := by
  change (reading (-x)).isFinite = (reading x).isFinite
  rw [reading_neg, isFinite_neg]

theorem saturate_neg (u : UnpackedFloat) : saturate u.neg = (saturate u).neg := by
  cases u with
  | finite s m e h =>
    simp only [UnpackedFloat.neg, saturate]
    split_ifs <;> rfl
  | _ => rfl

theorem roundWithAccuracy_neg (s : Sign) (m : Nat) (e : Int) (a : Accuracy) :
    roundWithAccuracy Format.binary64 (-s) m e a = (roundWithAccuracy Format.binary64 s m e a).neg := by
  simp only [roundWithAccuracy]
  split_ifs <;> rfl

theorem sign_neg_mul (s s' : Sign) : -s * s' = -(s * s') := by cases s <;> cases s' <;> rfl

theorem sign_neg_div (s s' : Sign) : -s / s' = -(s / s') := by cases s <;> cases s' <;> rfl

theorem unpacked_neg_mul (u v : UnpackedFloat) :
    UnpackedFloat.mul Format.binary64 u.neg v = (UnpackedFloat.mul Format.binary64 u v).neg := by
  cases u <;> cases v <;> simp only [UnpackedFloat.mul, UnpackedFloat.neg, sign_neg_mul, roundWithAccuracy_neg]

theorem unpacked_neg_div (u v : UnpackedFloat) :
    UnpackedFloat.div Format.binary64 u.neg v = (UnpackedFloat.div Format.binary64 u v).neg := by
  cases u <;> cases v <;> simp only [UnpackedFloat.div, UnpackedFloat.neg, sign_neg_div, roundWithAccuracy_neg]

theorem float_neg_mul (x y : Float) : -x * y = -(x * y) := by
  refine eq_of_reading_eq ?_
  rw [reading_mul, reading_neg, reading_neg, reading_mul, unpacked_neg_mul, saturate_neg]

theorem float_neg_div (x y : Float) : -x / y = -(x / y) := by
  refine eq_of_reading_eq ?_
  rw [reading_div, reading_neg, reading_neg, reading_div, unpacked_neg_div, saturate_neg]

theorem product_nonpos (hn : (x * y).isNaN = false) (hx : unitsOf x ≤ 0) (hy : 0 ≤ unitsOf y) :
    unitsOf (x * y) ≤ 0 := by
  have hneg := @product_nonneg (-x) y
  rw [float_neg_mul, isNaN_neg, unitsOf_neg, unitsOf_neg] at hneg
  have := hneg hn (by omega) hy
  omega

/-- What is not above zero is less if it is multiplied by more. -/
theorem mul_mono_of_nonpos (hn : (x * y).isNaN = false) (hn' : (x' * y').isNaN = false) (hx : unitsOf x ≤ unitsOf x')
    (hx0 : unitsOf x' ≤ 0) (hy0 : 0 ≤ unitsOf y') (hy : unitsOf y' ≤ unitsOf y) :
    unitsOf (x * y) ≤ unitsOf (x' * y') := by
  have hneg := @mul_mono (-x') y' (-x) y
  rw [float_neg_mul, float_neg_mul, isNaN_neg, isNaN_neg, unitsOf_neg, unitsOf_neg, unitsOf_neg, unitsOf_neg] at hneg
  have := hneg hn' hn (by omega) (by omega) hy0 hy
  omega

/-- Division by what is above zero keeps the order on both sides of zero. -/
theorem div_mono_left (hn : (x / y).isNaN = false) (hn' : (x' / y).isNaN = false) (hx : unitsOf x ≤ unitsOf x')
    (hy : 0 < unitsOf y) : unitsOf (x / y) ≤ unitsOf (x' / y) := by
  by_cases hx0 : 0 ≤ unitsOf x
  · exact div_mono hn hn' hx0 hx hy le_rfl
  · have hneg := float_neg_div x y
    have hneg' := float_neg_div x' y
    by_cases hx1 : 0 ≤ unitsOf x'
    · have hleft := @quotient_nonneg (-x) y
      rw [hneg, isNaN_neg, unitsOf_neg, unitsOf_neg] at hleft
      have := hleft hn (by omega) hy
      have := quotient_nonneg hn' hx1 hy
      omega
    · have hmono := @div_mono (-x') y (-x) y
      rw [hneg, hneg', isNaN_neg, isNaN_neg, unitsOf_neg, unitsOf_neg, unitsOf_neg, unitsOf_neg] at hmono
      have := hmono hn' hn (by omega) (by omega) hy le_rfl
      omega

/-! ## Roots and literals -/

theorem units_decode_nonneg (e m : Nat) : 0 ≤ units (decode .positive e m) := by
  unfold decode
  split_ifs <;> exact Int.natCast_nonneg _

/-- What is packed with a positive sign is not read as less than zero, whatever is lost of it. -/
theorem units_packed_nonneg (m : Nat) (e : Int) (h : 0 < m) :
    0 ≤ units (unpack Format.binary64 (pack Format.binary64 (.finite .positive m e h))) := by
  have hcomponents (E : BitVec Format.binary64.exponentBits)
      (M : BitVec Format.binary64.mantissaBitsWithoutImplicit) :
      0 ≤ units (unpack Format.binary64 (packComponents Format.binary64 .positive E M)) := by
    have hdecode := unpack_packComponents .positive E.toNat M.toNat E.isLt M.isLt
    rw [BitVec.ofNat_toNat, BitVec.setWidth_eq, BitVec.ofNat_toNat, BitVec.setWidth_eq] at hdecode
    rw [hdecode]
    exact units_decode_nonneg _ _
  simp only [pack]
  split_ifs
  · exact hcomponents _ _
  · exact hcomponents _ _
  · exact hcomponents _ _

theorem sqrt_nonneg (x : Float) : 0 ≤ unitsOf x.sqrt := by
  change 0 ≤ units (unpack Format.binary64 (pack Format.binary64 (UnpackedFloat.sqrt Format.binary64 (reading x))))
  cases reading x with
  | notANumber => exact (congrArg units unpack_packedNaN).ge
  | zero s => exact (congrArg units unpack_packedZero).ge
  | infinity s =>
    cases s with
    | positive =>
      have hunpack := congrArg units (unpack_packedInfinity .positive)
      exact hunpack.symm ▸ Int.natCast_nonneg _
    | negative => exact (congrArg units unpack_packedNaN).ge
  | finite s m e h =>
    cases s with
    | negative => exact (congrArg units unpack_packedNaN).ge
    | positive =>
      simp only [UnpackedFloat.sqrt, roundWithAccuracy]
      split_ifs
      · exact (congrArg units unpack_packedZero).ge
      · exact units_packed_nonneg _ _ _

/-- A decimal above zero of few places is a float above zero. -/
theorem ofScientific_pos {m n : ℕ} (hm : 0 < m) (hn0 : 0 < n) (hn : n ≤ 20) :
    (Float.ofScientific m true n).isNaN = false ∧ 0 < unitsOf (Float.ofScientific m true n) := by
  obtain ⟨hdef, hunits⟩ := nearest_ofScientific_neg hm hn0 (by omega)
  refine ⟨hdef, ?_⟩
  have hone : (1 : ℚ) ≤ decimalUnits m (-n) := by
    have hten : (10 : ℚ) ^ n ≤ oneUnits := by
      rw [oneUnits_cast]
      calc (10 : ℚ) ^ n ≤ 10 ^ 20 := pow_le_pow_right₀ (by norm_num) hn
        _ ≤ 2 ^ (67 : Int) := by norm_num
        _ ≤ 2 ^ (1074 : Int) := zpow_le_zpow_right₀ (by norm_num) (by norm_num)
    have hm1 : (1 : ℚ) ≤ m := by exact_mod_cast hm
    rw [decimalUnits, zpow_neg, zpow_natCast, mul_assoc, inv_mul_eq_div]
    exact one_le_mul_of_one_le_of_one_le hm1 ((one_le_div (by positivity)).2 hten)
  have hround : 1 ≤ roundRatio (decimalUnits m (-n)) := by
    have hleast := roundRatio_mono zero_le_one hone
    have h1 : roundRatio 1 = 1 := by
      have hnat := roundRatio_natCast 1
      rw [Nat.cast_one] at hnat
      exact hnat.trans (roundNat_of_lt (by norm_num))
    rwa [h1] at hleast
  have hl := limit_pos
  rw [hunits, clamped]
  omega

end FleetEnergy.Binary64

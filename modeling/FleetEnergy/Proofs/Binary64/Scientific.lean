import FleetEnergy.Decimal.Numeral
import FleetEnergy.Proofs.Binary64.Product
import FleetEnergy.Proofs.Binary64.Whole

/-! The float of a mantissa and a power of ten is the one nearest to their product, whichever way it is computed, and
also where the computation is cut short. -/
namespace FleetEnergy.Binary64
open Float.Model (Format UnpackedFloat)
open Float.Model.UnpackedFloat
set_option autoImplicit false

/-- The units of `m · 10 ^ e`. -/
def decimalUnits (m : ℕ) (e : Int) : ℚ := m * 10 ^ e * oneUnits

theorem decimalUnits_nonneg (m : ℕ) (e : Int) : 0 ≤ decimalUnits m e := by
  unfold decimalUnits
  positivity

/-! ## Small factors -/

theorem isWhole_toFloat {w : UInt64} (h : w.toNat < 2 ^ 53) : IsWhole w.toFloat w.toNat := by
  obtain ⟨hc, hf, hu⟩ := Binary64.normalize_eq w.toNat 0 .positive (by norm_num)
  obtain ⟨hn, hunits⟩ := defined_of_saturate (x := w.toFloat) (unpack_pack _ hc) hc hf
  refine isWhole_of_units hn (by omega) ?_
  change unitsOf w.toFloat = clamped (units (normalize Format.binary64 w.toNat 0 .positive)) at hunits
  rw [hunits, hu, oneUnits_eq, Nat.cast_pow, Nat.cast_ofNat]

theorem IsWhole.nonneg {x : Float} {m : ℕ} (h : IsWhole x m) : 0 ≤ unitsOf x := by
  rw [h.units]
  exact Int.mul_nonneg (Int.natCast_nonneg m) (Int.natCast_nonneg _)

theorem IsWhole.pos {x : Float} {m : ℕ} (h : IsWhole x m) (hm : 0 < m) : 0 < unitsOf x := by
  rw [h.units]
  exact Int.mul_pos (Int.natCast_pos.2 hm) (Int.natCast_pos.2 oneUnits_pos)

/-- Whether a number of the table is a power of ten: a mantissa that is not shifted by more than its own places. -/
def isTenPower (k : Fin 23) : Bool :=
  match reading Float.exactlyRepresentablePowersOfTen[k] with
  | .finite .positive m e _ => decide (-52 ≤ e) && m * 2 ^ (e + 52).toNat == 10 ^ k.val * 2 ^ 52
  | _ => false

theorem isTenPower_all : ∀ k, isTenPower k = true := by decide +kernel

theorem isWhole_tenPower (k : Fin 23) : IsWhole Float.exactlyRepresentablePowersOfTen[k] (10 ^ k.val : ℕ) := by
  have h := isTenPower_all k
  unfold isTenPower at h
  generalize Float.exactlyRepresentablePowersOfTen[k] = x at h ⊢
  split at h
  · rename_i m e hm hr
    rw [Bool.and_eq_true, decide_eq_true_eq, beq_iff_eq] at h
    obtain ⟨he, hval⟩ := h
    have hexp : (e + 1074).toNat = (e + 52).toNat + 1022 := by omega
    have hone : (0 + 1074 : Int).toNat = 52 + 1022 := rfl
    have hmag : magnitude m e = 10 ^ k.val * oneUnits := by
      rw [magnitude, oneUnits_eq, hexp, hone, pow_add, pow_add, ← Nat.mul_assoc, hval, Nat.mul_assoc]
    refine ⟨congrArg UnpackedFloat.isFinite hr, ?_⟩
    rw [unitsOf, hr, units, hmag, Nat.cast_mul]
    rfl
  · cases h

/-! ## Any decimal -/

/-- What is defined and has the units of a decimal rounded. -/
structure Nearest (x : Float) (m : ℕ) (e : Int) : Prop where
  defined : x.isNaN = false
  units : unitsOf x = clamped (roundRatio (decimalUnits m e))

theorem nearest_ofReading {u : UnpackedFloat} {m : ℕ} {e : Int} (hc : Canonical u) (hf : u.isFinite = true)
    (hu : units u = roundRatio (decimalUnits m e)) : Nearest (ofReading u) m e := by
  obtain ⟨hn, hunits⟩ := defined_of_saturate (x := ofReading u) (unpack_pack _ hc) hc hf
  exact ⟨hn, hunits.trans (congrArg clamped hu)⟩

section Scientific

variable {m n : ℕ}

theorem nearest_table_mul (hm : m < 2 ^ 53) (hn : n < 23) :
    Nearest (m.toUInt64.toFloat * Float.exactlyRepresentablePowersOfTen[(⟨n, hn⟩ : Fin 23)]) m n := by
  have hnat : m.toUInt64.toNat = m := UInt64.toNat_ofNat_of_lt' (hm.trans (by norm_num))
  have hx := isWhole_toFloat (hnat.trans_lt hm)
  have hy := isWhole_tenPower ⟨n, hn⟩
  obtain ⟨hd, hu⟩ := mul_finite hx.finite hy.finite hx.nonneg hy.nonneg
  refine ⟨hd, hu.trans (congrArg (fun v => clamped (roundRatio v)) ?_)⟩
  have hone : (oneUnits : ℚ) ≠ 0 := by exact_mod_cast oneUnits_pos.ne'
  rw [hx.units, hy.units, hnat, decimalUnits, zpow_natCast]
  push_cast
  field_simp

theorem nearest_table_div (hm : m < 2 ^ 53) (hn : n < 23) :
    Nearest (m.toUInt64.toFloat / Float.exactlyRepresentablePowersOfTen[(⟨n, hn⟩ : Fin 23)]) m (-n) := by
  have hnat : m.toUInt64.toNat = m := UInt64.toNat_ofNat_of_lt' (hm.trans (by norm_num))
  have hx := isWhole_toFloat (hnat.trans_lt hm)
  have hy := isWhole_tenPower ⟨n, hn⟩
  obtain ⟨hd, hu⟩ := div_finite hx.finite hy.finite hx.nonneg (hy.pos (Nat.pow_pos (by norm_num)))
  refine ⟨hd, hu.trans (congrArg (fun v => clamped (roundRatio v)) ?_)⟩
  have hone : (oneUnits : ℚ) ≠ 0 := by exact_mod_cast oneUnits_pos.ne'
  rw [hx.units, hy.units, hnat, decimalUnits, zpow_neg, zpow_natCast]
  push_cast
  field_simp

theorem nearest_mul (hm : 0 < m) (n : ℕ) :
    Nearest (ofReading (UnpackedFloat.mul Format.binary64
      (.finite .positive (m <<< Format.binary64.mantissaBits) (-Format.binary64.mantissaBits)
        (by rw [Nat.shiftLeft_eq]; positivity)) (.finite .positive (10 ^ n) 0 (by positivity)))) m n := by
  have hshift : m <<< Format.binary64.mantissaBits = m * 2 ^ 53 := Nat.shiftLeft_eq m 53
  have hready : -(Format.binary64.mantissaBits : Int) + 0 ≤
      target (m <<< Format.binary64.mantissaBits * 10 ^ n) (-(Format.binary64.mantissaBits : Int) + 0) := by
    have hbits : 53 ≤ (m * 2 ^ 53 * 10 ^ n).log2 := by
      rw [Nat.le_log2 (by positivity)]
      calc 2 ^ 53 ≤ m * 2 ^ 53 := Nat.le_mul_of_pos_left _ hm
        _ ≤ m * 2 ^ 53 * 10 ^ n := Nat.le_mul_of_pos_right _ (by positivity)
    have h53 : (Format.binary64.mantissaBits : Int) = 53 := rfl
    rw [hshift, h53]
    unfold target
    omega
  obtain ⟨hc, hf, hu⟩ := mul_mantissas .positive .positive (by rw [Nat.shiftLeft_eq]; positivity)
    (by positivity) hready
  refine nearest_ofReading hc hf (hu.trans ?_)
  have hval : ((m <<< Format.binary64.mantissaBits : ℕ) : ℚ) * (10 ^ n : ℕ) *
      2 ^ (-(Format.binary64.mantissaBits : Int) + 0 + 1074) = decimalUnits m n := by
    have h53 : -(Format.binary64.mantissaBits : Int) + 0 + 1074 = 1074 - 53 := rfl
    rw [hshift, h53, decimalUnits, oneUnits_cast, zpow_natCast, zpow_sub₀ (by norm_num)]
    generalize (2 : ℚ) ^ (1074 : Int) = u
    push_cast
    ring
  rw [hval]
  rfl

theorem nearest_div (hm : 0 < m) (n : ℕ) :
    Nearest (ofReading (UnpackedFloat.div Format.binary64 (.finite .positive m 0 hm)
      (.finite .positive (10 ^ n) 0 (by positivity)))) m (-n) := by
  have hp : 0 < 10 ^ n := by positivity
  obtain ⟨hc, hf, hu⟩ := div_mantissas .positive .positive hm hp 0 0
  refine nearest_ofReading hc hf (hu.trans ?_)
  have hval : (m : ℚ) / (10 ^ n : ℕ) * 2 ^ (0 - 0 + 1074 : Int) = decimalUnits m (-n) := by
    have hexp : (0 - 0 + 1074 : Int) = 1074 := rfl
    rw [hexp, decimalUnits, oneUnits_cast, zpow_neg, zpow_natCast, div_eq_mul_inv, Nat.cast_pow, Nat.cast_ofNat]
  rw [hval]
  rfl

theorem nearest_ofScientific (hm : 0 < m) (hn : n ≤ 2048) : Nearest (Float.ofScientific m false n) m n := by
  unfold Float.ofScientific
  by_cases hsmall : m < 2 ^ 53 ∧ n ≤ 22
  · rw [dif_pos hsmall]
    exact nearest_table_mul hsmall.1 (Nat.lt_succ_of_le hsmall.2)
  · rw [dif_neg hsmall]
    have hpow : (2 : Int) ^ Format.binary64.exponentBits = 2048 := rfl
    have hu : UnpackedFloat.ofScientific Format.binary64 m n = UnpackedFloat.mul Format.binary64
        (.finite .positive (m <<< Format.binary64.mantissaBits) (-Format.binary64.mantissaBits)
          (by rw [Nat.shiftLeft_eq]; positivity)) (.finite .positive (10 ^ n) 0 (by positivity)) := by
      unfold UnpackedFloat.ofScientific
      rw [dif_neg hm.ne', if_neg (by omega), if_neg (by omega), if_pos (Int.natCast_nonneg n)]
      rfl
    have hnear := nearest_mul hm n
    rw [← hu] at hnear
    exact hnear

theorem nearest_ofScientific_neg (hm : 0 < m) (hn0 : 0 < n) (hn : n ≤ 2048 + m.log2) :
    Nearest (Float.ofScientific m true n) m (-n) := by
  unfold Float.ofScientific
  by_cases hsmall : m < 2 ^ 53 ∧ n ≤ 22
  · rw [dif_pos hsmall]
    exact nearest_table_div hsmall.1 (Nat.lt_succ_of_le hsmall.2)
  · rw [dif_neg hsmall]
    have hpow : (2 : Int) ^ Format.binary64.exponentBits = 2048 := rfl
    have hneg : Int.negOfNat n = -n := Int.negOfNat_eq
    have hu : UnpackedFloat.ofScientific Format.binary64 m (Int.negOfNat n) = UnpackedFloat.div Format.binary64
        (.finite .positive m 0 hm) (.finite .positive (10 ^ n) 0 (by positivity)) := by
      have hnat : (- -(n : Int)).toNat = n := by omega
      unfold UnpackedFloat.ofScientific
      rw [hneg, dif_neg hm.ne', if_neg (by omega), if_neg (by omega), if_neg (by omega)]
      simp only [hnat]
    have hnear := nearest_div hm n
    rw [← hu] at hnear
    exact hnear

end Scientific

/-! ## Powers of two and of ten -/

theorem ten_pow_le_two_pow {a b : ℕ} (h : 10 * a ≤ 3 * b) : 10 ^ a ≤ 2 ^ b := by
  rw [← Nat.pow_le_pow_iff_left (n := 10) (by norm_num)]
  calc (10 ^ a) ^ 10 = 10 ^ (10 * a) := by rw [← pow_mul, Nat.mul_comm]
    _ ≤ 10 ^ (3 * b) := Nat.pow_le_pow_right (by norm_num) h
    _ = (10 ^ 3) ^ b := pow_mul _ _ _
    _ ≤ (2 ^ 10) ^ b := Nat.pow_le_pow_left (by norm_num) b
    _ = (2 ^ b) ^ 10 := by rw [← pow_mul, ← pow_mul, Nat.mul_comm]

theorem two_pow_le_ten_pow {a b : ℕ} (h : 16 * a ≤ 53 * b) : 2 ^ a ≤ 10 ^ b := by
  rw [← Nat.pow_le_pow_iff_left (n := 16) (by norm_num)]
  calc (2 ^ a) ^ 16 = 2 ^ (16 * a) := by rw [← pow_mul, Nat.mul_comm]
    _ ≤ 2 ^ (53 * b) := Nat.pow_le_pow_right (by norm_num) h
    _ = (2 ^ 53) ^ b := pow_mul _ _ _
    _ ≤ (10 ^ 16) ^ b := Nat.pow_le_pow_left (by norm_num) b
    _ = (10 ^ b) ^ 16 := by rw [← pow_mul, ← pow_mul, Nat.mul_comm]

/-- Between three and ten times as many: the logarithm of two lies between 3 / 10 and 16 / 53. -/
theorem ten_zpow_le_two_zpow {a b : Int} (h : 10 * a ≤ 3 * b) (h' : 53 * a ≤ 16 * b) : (10 : ℚ) ^ a ≤ 2 ^ b := by
  rcases le_or_gt 0 b with hb | hb
  · rcases le_or_gt a 0 with ha | ha
    · exact (zpow_le_one_of_nonpos₀ (by norm_num) ha).trans (one_le_zpow₀ (by norm_num) hb)
    · obtain ⟨n, rfl⟩ := Int.eq_ofNat_of_zero_le ha.le
      obtain ⟨k, rfl⟩ := Int.eq_ofNat_of_zero_le hb
      rw [zpow_natCast, zpow_natCast]
      exact_mod_cast ten_pow_le_two_pow (by omega)
  · obtain ⟨n, hn⟩ := Int.eq_ofNat_of_zero_le (a := -a) (by omega)
    obtain ⟨k, hk⟩ := Int.eq_ofNat_of_zero_le (a := -b) (by omega)
    have hle : (2 : ℚ) ^ k ≤ 10 ^ n := by exact_mod_cast two_pow_le_ten_pow (by omega)
    have hinv : ((10 : ℚ) ^ n)⁻¹ ≤ (2 ^ k)⁻¹ := inv_anti₀ (by positivity) hle
    have ha' : a = -(n : Int) := by omega
    have hb' : b = -(k : Int) := by omega
    rwa [ha', hb', zpow_neg, zpow_neg, zpow_natCast, zpow_natCast]

/-! ## Where the computation is cut short -/

theorem clamped_of_limit_le {v : ℚ} (h : (limit : ℚ) ≤ v) : clamped (roundRatio v) = limit := by
  have hlimit : roundNat limit = limit := roundNat_mul_two_pow (by norm_num) _
  have hmono : (limit : Int) ≤ roundRatio v := by
    have hround := roundRatio_mono (Nat.cast_nonneg limit) h
    rw [roundRatio_natCast, hlimit] at hround
    exact_mod_cast hround
  have hl := limit_pos
  unfold clamped
  omega

theorem roundRatio_of_lt_half {v : ℚ} (h0 : 0 ≤ v) (h : v < 1 / 2) : roundRatio v = 0 := by
  have hfloor : ⌊v⌋₊ = 0 := Nat.floor_eq_zero.2 (by linarith)
  have hplace : place v = 0 := by
    rw [place, hfloor]
    rfl
  have hnear : nearestTo v = 0 := nearestTo_eq h0 (by push_cast; linarith) (by push_cast; linarith) fun _ => rfl
  rw [roundRatio, hplace, pow_zero, div_one, hnear, Nat.zero_mul]

theorem limit_cast : (limit : ℚ) = 2 ^ (1024 : Int) * oneUnits := by
  have hexp : (972 + 1074 : Int) = 1024 + 1074 - 52 := rfl
  rw [limit, magnitude_cast _ (by norm_num), oneUnits_cast, hexp, zpow_sub₀ (by norm_num), zpow_add₀ (by norm_num)]
  have hunit : (2 : ℚ) ^ (52 : Int) = (2 ^ 52 : ℕ) := by norm_num
  rw [hunit, mul_div_cancel₀ _ (by norm_num)]

theorem limit_le_decimalUnits {m : ℕ} {e : Int} (hm : 0 < m) (h : 400 < e + (m.log2 * 3 / 10 : ℕ)) :
    (limit : ℚ) ≤ decimalUnits m e := by
  have hone : (0 : ℚ) ≤ oneUnits := Nat.cast_nonneg _
  rw [limit_cast, decimalUnits]
  refine mul_le_mul_of_nonneg_right ?_ hone
  have hbits : (10 : ℚ) ^ ((m.log2 * 3 / 10 : ℕ) : Int) ≤ m := by
    have hlog := Nat.log2_self_le hm.ne'
    have hten := ten_pow_le_two_pow (a := m.log2 * 3 / 10) (b := m.log2) (by omega)
    rw [zpow_natCast]
    exact_mod_cast hten.trans hlog
  have hlarge : (2 : ℚ) ^ (1024 : Int) ≤ 10 ^ (401 : Int) := by
    have hnat := two_pow_le_ten_pow (a := 1024) (b := 401) (by norm_num)
    have hrat : (2 : ℚ) ^ 1024 ≤ 10 ^ 401 := by exact_mod_cast hnat
    exact hrat
  calc (2 : ℚ) ^ (1024 : Int) ≤ 10 ^ (401 : Int) := hlarge
    _ ≤ 10 ^ (((m.log2 * 3 / 10 : ℕ) : Int) + e) := zpow_le_zpow_right₀ (by norm_num) (by omega)
    _ = 10 ^ ((m.log2 * 3 / 10 : ℕ) : Int) * 10 ^ e := zpow_add₀ (by norm_num) _ _
    _ ≤ m * 10 ^ e := mul_le_mul_of_nonneg_right hbits (by positivity)

theorem decimalUnits_lt_half {m : ℕ} {e : Int} (h : e + (m.log2 : ℕ) < -800) : decimalUnits m e < 1 / 2 := by
  have hbits : (m : ℚ) < 2 ^ ((m.log2 : Int) + 1) := by
    have hlog : m < 2 ^ (m.log2 + 1) := Nat.lt_log2_self
    have hrat : (m : ℚ) < ((2 ^ (m.log2 + 1) : ℕ) : ℚ) := by exact_mod_cast hlog
    rw [Nat.cast_pow, Nat.cast_ofNat, ← zpow_natCast] at hrat
    exact_mod_cast hrat
  have hten : (10 : ℚ) ^ e ≤ 2 ^ (3 * e) := ten_zpow_le_two_zpow (by omega) (by omega)
  have htwo : (2 : ℚ) ≠ 0 := by norm_num
  calc decimalUnits m e = m * (10 ^ e * 2 ^ (1074 : Int)) := by rw [decimalUnits, oneUnits_cast, mul_assoc]
    _ < 2 ^ ((m.log2 : Int) + 1) * (10 ^ e * 2 ^ (1074 : Int)) := mul_lt_mul_of_pos_right hbits (by positivity)
    _ ≤ 2 ^ ((m.log2 : Int) + 1) * (2 ^ (3 * e) * 2 ^ (1074 : Int)) :=
      mul_le_mul_of_nonneg_left (mul_le_mul_of_nonneg_right hten (by positivity)) (by positivity)
    _ = 2 ^ ((m.log2 : Int) + 1 + (3 * e + 1074)) := by rw [zpow_add₀ htwo _ (3 * e + 1074), zpow_add₀ htwo (3 * e)]
    _ ≤ 2 ^ (-1 : Int) := zpow_le_zpow_right₀ (by norm_num) (by omega)
    _ = 1 / 2 := by norm_num

/-- The float that is read for a decimal is the one nearest to it. -/
theorem nearest_decimal {m : ℕ} (hm : 0 < m) (e : Int) : Nearest (Decimal.nearest m e) m e := by
  unfold Decimal.nearest
  rw [if_neg hm.ne']
  split_ifs with hover hunder hneg
  · exact ⟨rfl, (clamped_of_limit_le (limit_le_decimalUnits hm hover)).symm⟩
  · refine ⟨rfl, ?_⟩
    rw [roundRatio_of_lt_half (decimalUnits_nonneg m e) (decimalUnits_lt_half hunder)]
    exact (clamped_of_le (le_refl _) (Int.natCast_nonneg _)).symm
  · have hnear := nearest_ofScientific_neg (n := e.natAbs) hm (by omega) (by omega)
    have he : -(e.natAbs : Int) = e := by omega
    rwa [he] at hnear
  · have hnear := nearest_ofScientific (n := e.natAbs) hm (by omega)
    have he : (e.natAbs : Int) = e := by omega
    rwa [he] at hnear

end FleetEnergy.Binary64

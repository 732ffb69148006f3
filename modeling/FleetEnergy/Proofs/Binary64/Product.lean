import FleetEnergy.Proofs.Binary64.Ratio

/-! Products and quotients of floats: the exact ones, rounded. -/
namespace FleetEnergy.Binary64
open Float.Model (Format UnpackedFloat totalExponent)
open Float.Model.UnpackedFloat
set_option autoImplicit false

/-! ## Mantissas of which something was cut off -/

theorem shiftRight_add (em : ExtendedMantissa) (j k : Nat) : em >>> j >>> k = em >>> (j + k) := by
  induction k with
  | zero => rfl
  | succ k ih => rw [shiftRight_succ, ih, ← Nat.add_assoc, shiftRight_succ]

/-- Quarters that round as what was cut off. -/
def quarters : Accuracy → Nat
  | .exact => 0
  | .inexact .lt => 1
  | .inexact .eq => 2
  | .inexact .gt => 3

theorem quarters_lt (a : Accuracy) : quarters a < 4 := by
  cases a with
  | exact => decide
  | inexact o => cases o <;> decide

theorem ofMantissaAndAccuracy_eq (m : Nat) (a : Accuracy) :
    ExtendedMantissa.ofMantissaAndAccuracy m a =
      ExtendedMantissa.ofMantissaAndAccuracy (4 * m + quarters a) .exact >>> 2 := by
  have hdiv : (4 * m + quarters a) / 2 ^ (1 + 1) = m := by
    have := quarters_lt a
    omega
  rw [shiftRight_exact _ 1, hdiv]
  have hmod : (4 * m + quarters a) % 2 ^ (1 + 1) = quarters a := by
    have := quarters_lt a
    omega
  have hlow : (4 * m + quarters a) % 2 ^ 1 = quarters a % 2 := by omega
  rw [hmod, hlow]
  cases a with
  | exact => rfl
  | inexact o => cases o <;> rfl

theorem roundedMantissa_accuracy (m : Nat) (a : Accuracy) (k : Nat) :
    (ExtendedMantissa.ofMantissaAndAccuracy m a >>> k).roundedMantissa = nearest (4 * m + quarters a) (k + 2) := by
  rw [ofMantissaAndAccuracy_eq, shiftRight_add, roundedMantissa_shiftRight, Nat.add_comm 2 k]

/-- The quarters lie on the same side of a half as the fraction, and are none just if the fraction is. -/
def Stands (c : ℕ) (f : ℚ) : Prop :=
  (c = 0 ∧ f = 0) ∨ (c = 1 ∧ 0 < f ∧ 2 * f < 1) ∨ (c = 2 ∧ 2 * f = 1) ∨ (c = 3 ∧ 1 < 2 * f ∧ f < 1)

theorem stands_quarters {r d : ℕ} (h : r < d) : Stands (quarters (accuracyOfFraction r d)) (r / d) := by
  have hd : (0 : ℚ) < d := by exact_mod_cast Nat.zero_lt_of_lt h
  have htwice : 2 * ((r : ℚ) / d) = ((2 * r : ℕ) : ℚ) / d := by
    push_cast
    ring
  unfold accuracyOfFraction
  split_ifs with h0
  · exact .inl ⟨rfl, by rw [h0, Nat.cast_zero, zero_div]⟩
  · have hpos : (0 : ℚ) < r / d := div_pos (by exact_mod_cast Nat.pos_of_ne_zero h0) hd
    have hlt : (r : ℚ) / d < 1 := (div_lt_one hd).2 (by exact_mod_cast h)
    right
    rcases lt_trichotomy (2 * r) d with hc | hc | hc
    · rw [compare_lt_iff_lt.2 hc]
      exact .inl ⟨rfl, hpos, by rw [htwice, div_lt_one hd]; exact_mod_cast hc⟩
    · rw [compare_eq_iff_eq.2 hc]
      exact .inr (.inl ⟨rfl, by rw [htwice, hc, div_self hd.ne']⟩)
    · rw [compare_gt_iff_gt.2 hc]
      exact .inr (.inr ⟨rfl, by rw [htwice, one_lt_div hd]; exact_mod_cast hc, hlt⟩)

theorem Stands.bounds {c : ℕ} {f : ℚ} (h : Stands c f) : c < 4 ∧ 0 ≤ f ∧ f < 1 := by
  rcases h with ⟨rfl, rfl⟩ | ⟨rfl, h1, h2⟩ | ⟨rfl, h1⟩ | ⟨rfl, h1, h2⟩ <;>
    refine ⟨by decide, ?_, ?_⟩ <;> linarith

/-- Seen from a whole number, twice the number with the fraction lies where it lies with the quarters. -/
theorem Stands.compare {c : ℕ} {f : ℚ} (h : Stands c f) (M P : ℕ) :
    (2 * (4 * M + c) < 4 * P ↔ 2 * ((M : ℚ) + f) < P) ∧ (2 * (4 * M + c) = 4 * P ↔ 2 * ((M : ℚ) + f) = P) := by
  have hcast : (2 * (4 * M + c) < 4 * P ↔ 2 * (M + (c : ℚ) / 4) < P) ∧
      (2 * (4 * M + c) = 4 * P ↔ 2 * (M + (c : ℚ) / 4) = P) := by
    rw [← Nat.cast_lt (α := ℚ), ← Nat.cast_inj (R := ℚ)]
    push_cast
    constructor <;> constructor <;> intro h <;> linarith
  rw [hcast.1, hcast.2]
  -- No number of halves lies between the two fractions.
  have hside : (P : ℚ) ≤ 2 * M ∨ (P : ℚ) = 2 * M + 1 ∨ (2 * M + 2 : ℚ) ≤ P := by
    have hcases : P ≤ 2 * M ∨ P = 2 * M + 1 ∨ 2 * M + 2 ≤ P := by omega
    exact_mod_cast hcases
  rcases h with ⟨rfl, rfl⟩ | ⟨rfl, h1, h2⟩ | ⟨rfl, h1⟩ | ⟨rfl, h1, h2⟩
  · rw [Nat.cast_zero, zero_div]
    exact ⟨Iff.rfl, Iff.rfl⟩
  all_goals
    push_cast
    rcases hside with hs | hs | hs <;> constructor <;> constructor <;> intro h <;> linarith

/-- Rounding a mantissa with what was cut off is rounding the whole. -/
theorem nearest_quarters (m k : ℕ) {r d : ℕ} (h : r < d) :
    nearest (4 * m + quarters (accuracyOfFraction r d)) (k + 2) = nearestTo (((m : ℚ) + r / d) / 2 ^ k) := by
  have hs := stands_quarters h
  obtain ⟨hc, hf0, hf1⟩ := hs.bounds
  obtain ⟨hlt, htie⟩ := hs.compare (m % 2 ^ k) (2 ^ k)
  generalize quarters (accuracyOfFraction r d) = c at *
  generalize (r : ℚ) / d = f at *
  have hp : (0 : ℚ) < 2 ^ k := by positivity
  have hpow : 2 ^ (k + 2) = 4 * 2 ^ k := by ring
  have hquot : (4 * m + c) / 4 = m := by omega
  have hdiv : (4 * m + c) / (4 * 2 ^ k) = m / 2 ^ k := by rw [← Nat.div_div_eq_div_mul, hquot]
  have hmod : (4 * m + c) % (4 * 2 ^ k) = 4 * (m % 2 ^ k) + c := by
    rw [Nat.mod_mul, hquot]
    omega
  have hbelow : (((m % 2 ^ k : ℕ) : ℚ) + f) / 2 ^ k < 1 := by
    have hle : ((m % 2 ^ k : ℕ) : ℚ) + 1 ≤ 2 ^ k := by exact_mod_cast Nat.mod_lt m (Nat.two_pow_pos k)
    rw [div_lt_one hp]
    linarith
  have hlt' : 2 * ((((m % 2 ^ k : ℕ) : ℚ) + f) / 2 ^ k) < 1 ↔ 2 * (4 * (m % 2 ^ k) + c) < 4 * 2 ^ k := by
    rw [hlt, ← mul_div_assoc, div_lt_one hp]
    push_cast
    rfl
  have htie' : 2 * ((((m % 2 ^ k : ℕ) : ℚ) + f) / 2 ^ k) = 1 ↔ 2 * (4 * (m % 2 ^ k) + c) = 4 * 2 ^ k := by
    rw [htie, ← mul_div_assoc, div_eq_one_iff_eq hp.ne']
    push_cast
    rfl
  rw [add_div_two_pow, nearestTo_add _ (by positivity) hbelow, nearest, hpow, hdiv, hmod]
  simp only [hlt', htie']

/-! ## Rounding of unpacked numbers -/

theorem shiftToTarget_accuracy (m : Nat) (e : Int) (a : Accuracy) :
    shiftToTargetExponent Format.binary64 m e a =
      (ExtendedMantissa.ofMantissaAndAccuracy m a >>> (target m e - e).toNat, e + (target m e - e).toNat) := by
  rw [shiftToTargetExponent, targetExponent_eq]
  rfl

section Shifted

variable {m : ℕ} {e : Int} {f : ℚ} (ht : e ≤ target m e)
include ht

theorem ratio_eq : ((m : ℚ) + f) * 2 ^ (e + 1074) / 2 ^ (target m e + 1074).toNat =
    (m + f) / 2 ^ (target m e - e).toNat := by
  have hmin : -1074 ≤ target m e := le_max_right _ _
  have hexp : e + 1074 = ((target m e + 1074).toNat : Int) - ((target m e - e).toNat : Int) := by omega
  have hp : (2 : ℚ) ^ (target m e + 1074).toNat ≠ 0 := by positivity
  rw [hexp, zpow_sub₀ (by norm_num), zpow_natCast, zpow_natCast]
  field_simp

/-- A mantissa with a fraction, in units, has its last place at the exponent that it is rounded to. -/
theorem place_ratio (hf0 : 0 ≤ f) (hf1 : f < 1) :
    place (((m : ℚ) + f) * 2 ^ (e + 1074)) = (target m e + 1074).toNat := by
  have hquot := ratio_eq (f := f) ht
  have hp : (0 : ℚ) < 2 ^ (target m e + 1074).toNat := by positivity
  have hk : (0 : ℚ) < 2 ^ (target m e - e).toNat := by positivity
  refine place_eq (by positivity) ?_ ?_
  · have hbits : m + 1 ≤ 2 ^ (m.log2 + 1) := Nat.lt_log2_self
    have hexp : m.log2 + 1 ≤ 53 + (target m e - e).toNat := by
      unfold target
      omega
    have hnat : m + 1 ≤ 2 ^ 53 * 2 ^ (target m e - e).toNat := by
      rw [← pow_add]
      exact hbits.trans (Nat.pow_le_pow_right (by norm_num) hexp)
    have hrat : (m : ℚ) + 1 ≤ 2 ^ 53 * 2 ^ (target m e - e).toNat := by exact_mod_cast hnat
    rw [pow_add, mul_comm ((2 : ℚ) ^ _), ← div_lt_iff₀ hp, hquot, div_lt_iff₀ hk]
    linarith
  · by_cases h0 : (target m e + 1074).toNat = 0
    · exact .inl h0
    · have hm : m ≠ 0 := by
        rintro rfl
        have hlog : (0 : Nat).log2 = 0 := rfl
        unfold target at ht h0
        omega
      have hbits : 2 ^ m.log2 ≤ m := Nat.log2_self_le hm
      have hexp : 52 + (target m e - e).toNat = m.log2 := by
        unfold target at ht h0 ⊢
        omega
      have hrat : (2 : ℚ) ^ 52 * 2 ^ (target m e - e).toNat ≤ m := by
        rw [← pow_add, hexp]
        exact_mod_cast hbits
      right
      rw [pow_add, mul_comm ((2 : ℚ) ^ _), ← le_div_iff₀ hp, hquot, le_div_iff₀ hk]
      linarith

end Shifted

/-- A mantissa that has bits to lose, with what was cut off before, is rounded to the nearest float. -/
theorem roundWithAccuracy_ratio (s : Sign) {m : Nat} {e : Int} {r d : Nat} (hr : r < d) (ht : e ≤ target m e) :
    let u := roundWithAccuracy Format.binary64 s m e (accuracyOfFraction r d)
    Canonical u ∧ u.isFinite = true ∧ units u = s.apply (roundRatio (((m : ℚ) + r / d) * 2 ^ (e + 1074))) := by
  intro u
  obtain ⟨-, hf0, hf1⟩ := (stands_quarters hr).bounds
  have hmin : -1074 ≤ target m e := le_max_right _ _
  have hplace := place_ratio ht hf0 hf1
  have hV : (0 : ℚ) ≤ ((m : ℚ) + r / d) * 2 ^ (e + 1074) := by positivity
  have hround : roundRatio (((m : ℚ) + r / d) * 2 ^ (e + 1074)) =
      nearestTo (((m : ℚ) + r / d) / 2 ^ (target m e - e).toNat) * 2 ^ (target m e + 1074).toNat := by
    rw [roundRatio, hplace, ratio_eq ht]
  have hle := roundRatio_le (((m : ℚ) + r / d) * 2 ^ (e + 1074))
  have hge := le_roundRatio hV
  have hp := Nat.two_pow_pos (target m e + 1074).toNat
  rw [hround, hplace, pow_add, Nat.mul_comm (2 ^ _)] at hle hge
  have hn := Nat.le_of_mul_le_mul_right hle hp
  have hl (h : target m e ≠ -1074) := Nat.le_of_mul_le_mul_right (hge (by omega)) hp
  rw [← nearest_quarters m _ hr] at hn hl hround
  have hsum : e + (target m e - e).toNat = target m e := by omega
  obtain ⟨em, hs, hb, hc⟩ := shift_rounded _ _ hn hmin
  have hu : u = if h : em.1.mantissa = 0 then .zero s else .finite s em.1.mantissa em.2 (Nat.pos_of_ne_zero h) := by
    simp only [u, roundWithAccuracy, shiftToTarget_accuracy m e, roundedMantissa_accuracy, hsum, hs]
  rw [hu, hround]
  split_ifs with h0
  · have hzero : nearest (4 * m + quarters (accuracyOfFraction r d)) ((target m e - e).toNat + 2) = 0 := by omega
    rw [hzero, Nat.zero_mul]
    exact ⟨trivial, rfl, by cases s <;> rfl⟩
  · refine ⟨⟨hb, by omega, by omega⟩, rfl, ?_⟩
    rcases hc with ⟨h, h'⟩ | ⟨h, hr', h'⟩
    · rw [units, magnitude, h, h']
    · have hexp : (target m e + 1 + 1074).toNat = (target m e + 1074).toNat + 1 := by omega
      have hsame : 2 ^ 52 * 2 ^ ((target m e + 1074).toNat + 1) = 2 ^ 53 * 2 ^ (target m e + 1074).toNat := by ring
      rw [units, magnitude, h, h', hr', hexp, hsame]

/-! ## Products and quotients of unpacked numbers -/

section Operands

variable {s s' : Sign} {m m' : Nat} {e e' : Int} {h : 0 < m} {h' : 0 < m'}

theorem magnitude_cast (m : Nat) {e : Int} (he : -1074 ≤ e) : (magnitude m e : ℚ) = m * 2 ^ (e + 1074) := by
  have hexp : ((e + 1074).toNat : Int) = e + 1074 := by omega
  rw [magnitude, Nat.cast_mul, Nat.cast_pow, Nat.cast_ofNat, ← zpow_natCast, hexp]

theorem oneUnits_cast : (oneUnits : ℚ) = 2 ^ (1074 : Int) := by
  rw [oneUnits, magnitude_cast 1 (by norm_num), Nat.cast_one, one_mul, Int.zero_add]

/-- The product is rounded if it has bits to lose. -/
theorem mul_mantissas (s s' : Sign) (h : 0 < m) (h' : 0 < m') (hready : e + e' ≤ target (m * m') (e + e')) :
    let u := UnpackedFloat.mul Format.binary64 (.finite s m e h) (.finite s' m' e' h')
    Canonical u ∧ u.isFinite = true ∧ units u = (s * s').apply (roundRatio ((m : ℚ) * m' * 2 ^ (e + e' + 1074))) := by
  have hval : ((m * m' : ℕ) + (0 : ℕ) / (1 : ℕ) : ℚ) = m * m' := by
    rw [Nat.cast_mul, Nat.cast_zero, zero_div, Rat.add_zero]
  have hround := roundWithAccuracy_ratio (s * s') (r := 0) (d := 1) Nat.one_pos hready
  rw [hval] at hround
  exact hround

theorem mul_finite_finite (hc : Canonical (.finite s m e h)) (hc' : Canonical (.finite s' m' e' h')) :
    let u := UnpackedFloat.mul Format.binary64 (.finite s m e h) (.finite s' m' e' h')
    Canonical u ∧ u.isFinite = true ∧
      units u = (s * s').apply (roundRatio ((magnitude m e : ℚ) * magnitude m' e' / oneUnits)) := by
  obtain ⟨hm, he, hn⟩ := hc
  obtain ⟨hm', he', hn'⟩ := hc'
  have hready : e + e' ≤ target (m * m') (e + e') := by
    have hbits (hlarge : 2 ^ 52 ≤ m ∨ 2 ^ 52 ≤ m') : 52 ≤ (m * m').log2 := by
      rw [Nat.le_log2 (Nat.mul_pos h h').ne']
      rcases hlarge with hl | hl
      · exact hl.trans (Nat.le_mul_of_pos_right m h')
      · exact hl.trans (Nat.le_mul_of_pos_left m' h)
    unfold target
    omega
  have hval : (magnitude m e : ℚ) * magnitude m' e' / oneUnits = m * m' * 2 ^ (e + e' + 1074) := by
    have htwo : (2 : ℚ) ≠ 0 := by norm_num
    have hexp : e + e' + 1074 = e + 1074 + (e' + 1074) - 1074 := by ring
    rw [magnitude_cast m he, magnitude_cast m' he', oneUnits_cast, hexp, zpow_sub₀ htwo,
      zpow_add₀ htwo (e + 1074) (e' + 1074)]
    generalize (2 : ℚ) ^ (1074 : Int) = u
    ring
  rw [hval]
  exact mul_mantissas s s' h h' hready

/-- A quotient of mantissas with its remainder, at a shifted place. -/
theorem quotient_split (m k : ℕ) (h' : 0 < m') :
    ((m <<< k / m' : ℕ) : ℚ) + (m <<< k % m' : ℕ) / (m' : ℕ) = m * 2 ^ k / m' := by
  have hpos : (0 : ℚ) < m' := by exact_mod_cast h'
  have hdm : (m : ℚ) * 2 ^ k = m' * (m <<< k / m' : ℕ) + (m <<< k % m' : ℕ) := by
    have hnat := Nat.div_add_mod (m <<< k) m'
    generalize m <<< k / m' = q at hnat ⊢
    generalize m <<< k % m' = r at hnat ⊢
    rw [Nat.shiftLeft_eq] at hnat
    exact_mod_cast hnat.symm
  rw [hdm]
  field_simp

/-- A quotient that is shifted far enough has at least 53 bits. -/
theorem log2_quotient {k : ℕ} (h : 0 < m) (h' : 0 < m') (hk : 53 + m'.log2 ≤ m.log2 + k) :
    52 ≤ (m <<< k / m').log2 := by
  have hquot : 2 ^ 52 ≤ m <<< k / m' := by
    have hm := Nat.log2_self_le h.ne'
    have hm' : m' < 2 ^ (m'.log2 + 1) := Nat.lt_log2_self
    rw [Nat.le_div_iff_mul_le h', Nat.shiftLeft_eq]
    calc 2 ^ 52 * m' ≤ 2 ^ 52 * 2 ^ (m'.log2 + 1) := Nat.mul_le_mul_left _ hm'.le
      _ ≤ 2 ^ m.log2 * 2 ^ k := by
        rw [← pow_add, ← pow_add]
        exact Nat.pow_le_pow_right (by norm_num) (by omega)
      _ ≤ m * 2 ^ k := Nat.mul_le_mul_right _ hm
  exact (Nat.le_log2 (by omega)).2 hquot

theorem div_mantissas (s s' : Sign) (h : 0 < m) (h' : 0 < m') (e e' : Int) :
    let u := UnpackedFloat.div Format.binary64 (.finite s m e h) (.finite s' m' e' h')
    Canonical u ∧ u.isFinite = true ∧ units u = (s / s').apply (roundRatio ((m : ℚ) / m' * 2 ^ (e - e' + 1074))) := by
  obtain ⟨T, hT⟩ : ∃ T, T = min (e - e')
      (Format.binary64.targetExponent (totalExponent m e - totalExponent m' e')) := ⟨_, rfl⟩
  obtain ⟨k, hk⟩ : ∃ k, k = (e - e' - T).toNat := ⟨_, rfl⟩
  have hsum : e - e' = T + k := by omega
  -- The quotient is as fine as floats can be, or it has the bits of a mantissa.
  have hready : T ≤ target (m <<< k / m') T := by
    by_cases hlow : T ≤ -1074
    · exact hlow.trans (le_max_right _ _)
    · have htarget : T ≤ Format.binary64.targetExponent (totalExponent m e - totalExponent m' e') := by omega
      have h1 : (Format.binary64.mantissaBits : Int) = 53 := rfl
      have h2 : Format.binary64.minExponent = -1074 := rfl
      rw [Format.targetExponent, totalExponent, totalExponent, h1, h2] at htarget
      have hlog := log2_quotient (k := k) h h' (by omega)
      unfold target
      omega
  have hval : ((m <<< k / m' : ℕ) + (m <<< k % m' : ℕ) / (m' : ℕ) : ℚ) * 2 ^ (T + 1074) =
      m / m' * 2 ^ (e - e' + 1074) := by
    have hexp : e - e' + 1074 = k + (T + 1074) := by omega
    rw [quotient_split m k h', hexp, zpow_add₀ (by norm_num) (k : Int) (T + 1074), zpow_natCast]
    ring
  have hround := roundWithAccuracy_ratio (s / s') (Nat.mod_lt (m <<< k) h') hready
  rw [hval, hk, hT] at hround
  exact hround

theorem div_finite_finite (hc : Canonical (.finite s m e h)) (hc' : Canonical (.finite s' m' e' h')) :
    let u := UnpackedFloat.div Format.binary64 (.finite s m e h) (.finite s' m' e' h')
    Canonical u ∧ u.isFinite = true ∧
      units u = (s / s').apply (roundRatio ((magnitude m e : ℚ) * oneUnits / magnitude m' e')) := by
  obtain ⟨-, he, -⟩ := hc
  obtain ⟨-, he', -⟩ := hc'
  have hval : (magnitude m e : ℚ) * oneUnits / magnitude m' e' = m / m' * 2 ^ (e - e' + 1074) := by
    have htwo : (2 : ℚ) ≠ 0 := by norm_num
    have hexp : e - e' + 1074 = e + 1074 + 1074 - (e' + 1074) := by ring
    have hlast : (2 : ℚ) ^ (e' + 1074) ≠ 0 := zpow_ne_zero _ htwo
    rw [magnitude_cast m he, magnitude_cast m' he', oneUnits_cast, hexp, zpow_sub₀ htwo, zpow_add₀ htwo (e + 1074)]
    generalize (2 : ℚ) ^ (1074 : Int) = u
    generalize (2 : ℚ) ^ (e' + 1074) = b at hlast ⊢
    field_simp
  rw [hval]
  exact div_mantissas s s' h h' e e'

end Operands

theorem canonical_mul {u v : UnpackedFloat} (hu : Canonical u) (hv : Canonical v) :
    Canonical (UnpackedFloat.mul Format.binary64 u v) := by
  cases u with
  | finite s m e h =>
    cases v with
    | finite s' m' e' h' => exact (mul_finite_finite hu hv).1
    | _ => trivial
  | _ => cases v <;> trivial

theorem canonical_div {u v : UnpackedFloat} (hu : Canonical u) (hv : Canonical v) :
    Canonical (UnpackedFloat.div Format.binary64 u v) := by
  cases u with
  | finite s m e h =>
    cases v with
    | finite s' m' e' h' => exact (div_finite_finite hu hv).1
    | _ => trivial
  | _ => cases v <;> trivial

/-! ## Floats -/

variable {x y : Float}

theorem reading_mul (x y : Float) :
    reading (x * y) = saturate (UnpackedFloat.mul Format.binary64 (reading x) (reading y)) :=
  unpack_pack _ (canonical_mul (canonical_reading x) (canonical_reading y))

theorem reading_div (x y : Float) :
    reading (x / y) = saturate (UnpackedFloat.div Format.binary64 (reading x) (reading y)) :=
  unpack_pack _ (canonical_div (canonical_reading x) (canonical_reading y))

/-- A finite float that is not below zero is zero or has a positive mantissa. -/
theorem nonneg_cases (hf : x.isFinite = true) (h : 0 ≤ unitsOf x) :
    (∃ s, reading x = .zero s) ∨ ∃ m e hm, reading x = .finite .positive m e hm := by
  obtain ⟨s, hr⟩ | ⟨s, m, e, hm, hr⟩ := @finite_cases (reading x) hf
  · exact .inl ⟨s, hr⟩
  · cases s with
    | positive => exact .inr ⟨m, e, hm, hr⟩
    | negative =>
      have hpos := magnitude_pos m e hm
      rw [unitsOf, hr] at h
      simp only [units, Sign.apply] at h
      omega

theorem pos_cases (hf : x.isFinite = true) (h : 0 < unitsOf x) : ∃ m e hm, reading x = .finite .positive m e hm := by
  obtain ⟨s, hr⟩ | hr := nonneg_cases hf h.le
  · exact absurd hr (reading_ne_zero h.ne' s)
  · exact hr

theorem roundRatio_zero : roundRatio 0 = 0 := by
  have h := roundRatio_natCast 0
  rwa [Nat.cast_zero] at h

section Finite

variable (hx : x.isFinite = true) (hy : y.isFinite = true) (hx0 : 0 ≤ unitsOf x)
include hx hy hx0

theorem mul_finite (hy0 : 0 ≤ unitsOf y) :
    (x * y).isNaN = false ∧ unitsOf (x * y) = clamped (roundRatio ((unitsOf x : ℚ) * unitsOf y / oneUnits)) := by
  have hmul : Canonical (UnpackedFloat.mul Format.binary64 (reading x) (reading y)) ∧
      (UnpackedFloat.mul Format.binary64 (reading x) (reading y)).isFinite = true ∧
      units (UnpackedFloat.mul Format.binary64 (reading x) (reading y)) =
        roundRatio ((unitsOf x : ℚ) * unitsOf y / oneUnits) := by
    have hcx := canonical_reading x
    have hcy := canonical_reading y
    unfold unitsOf
    obtain ⟨s, hr⟩ | ⟨m, e, hm, hr⟩ := nonneg_cases hx hx0
    · obtain ⟨s', hr'⟩ | ⟨m', e', hm', hr'⟩ := nonneg_cases hy hy0 <;>
        rw [hr, hr', units.eq_def (.zero s), Int.cast_zero, zero_mul, zero_div, roundRatio_zero] <;>
        exact ⟨trivial, rfl, rfl⟩
    · obtain ⟨s', hr'⟩ | ⟨m', e', hm', hr'⟩ := nonneg_cases hy hy0
      · rw [hr, hr', units.eq_def (.zero s'), Int.cast_zero, mul_zero, zero_div, roundRatio_zero]
        exact ⟨trivial, rfl, rfl⟩
      · rw [hr] at hcx
        rw [hr'] at hcy
        rw [hr, hr']
        exact mul_finite_finite hcx hcy
  obtain ⟨hc, hf, hu⟩ := hmul
  rw [← hu]
  exact defined_of_saturate (reading_mul x y) hc hf

theorem div_finite (hy0 : 0 < unitsOf y) :
    (x / y).isNaN = false ∧ unitsOf (x / y) = clamped (roundRatio ((unitsOf x : ℚ) * oneUnits / unitsOf y)) := by
  have hdiv : Canonical (UnpackedFloat.div Format.binary64 (reading x) (reading y)) ∧
      (UnpackedFloat.div Format.binary64 (reading x) (reading y)).isFinite = true ∧
      units (UnpackedFloat.div Format.binary64 (reading x) (reading y)) =
        roundRatio ((unitsOf x : ℚ) * oneUnits / unitsOf y) := by
    have hcx := canonical_reading x
    have hcy := canonical_reading y
    unfold unitsOf
    obtain ⟨m', e', hm', hr'⟩ := pos_cases hy hy0
    obtain ⟨s, hr⟩ | ⟨m, e, hm, hr⟩ := nonneg_cases hx hx0
    · rw [hr, hr', units.eq_def (.zero s), Int.cast_zero, zero_mul, zero_div, roundRatio_zero]
      exact ⟨trivial, rfl, rfl⟩
    · rw [hr] at hcx
      rw [hr'] at hcy
      rw [hr, hr']
      exact div_finite_finite hcx hcy
  obtain ⟨hc, hf, hu⟩ := hdiv
  rw [← hu]
  exact defined_of_saturate (reading_div x y) hc hf

end Finite

theorem clamped_nonneg {z : Int} (h : 0 ≤ z) : 0 ≤ clamped z := by
  have hl := limit_pos
  unfold clamped
  omega

theorem clamped_of_le {z : Int} (h0 : 0 ≤ z) (h : z ≤ limit) : clamped z = z := by
  unfold clamped
  omega

/-- A quotient of what is not below zero by what is finite and above zero is defined and not below zero. -/
theorem div_nonneg (hx : x.isNaN = false) (hx0 : 0 ≤ unitsOf x) (hy : y.isFinite = true) (hy0 : 0 < unitsOf y) :
    (x / y).isNaN = false ∧ 0 ≤ unitsOf (x / y) := by
  by_cases hf : x.isFinite = true
  · obtain ⟨hn, hu⟩ := div_finite hf hy hx0 hy0
    rw [hu]
    exact ⟨hn, clamped_nonneg (Int.natCast_nonneg _)⟩
  · have hs : UnpackedFloat.div Format.binary64 (reading x) (reading y) = .infinity .positive := by
      obtain ⟨m', e', hm', hr'⟩ := pos_cases hy hy0
      rw [reading_of_infinite hx hf hx0, hr']
      rfl
    have hr := reading_div x y
    rw [hs] at hr
    have hlim : unitsOf (x / y) = limit := congrArg units hr
    rw [hlim]
    exact ⟨congrArg UnpackedFloat.isNaN hr, Int.natCast_nonneg _⟩

end FleetEnergy.Binary64

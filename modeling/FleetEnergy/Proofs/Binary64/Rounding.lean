import FleetEnergy.Proofs.Binary64.Order

/-! Rounding to the nearest float, ties to even, on whole numbers of units. -/
namespace FleetEnergy.Binary64
open Float.Model (Format UnpackedFloat totalExponent)
open Float.Model.UnpackedFloat
set_option autoImplicit false

/-! ## Quotients by powers of two -/

/-- The integer nearest to `n / 2 ^ k`; of two, the even one. -/
def nearest (n k : Nat) : Nat :=
  if 2 * (n % 2 ^ k) < 2 ^ k then n / 2 ^ k
  else if 2 * (n % 2 ^ k) = 2 ^ k then n / 2 ^ k + n / 2 ^ k % 2
  else n / 2 ^ k + 1

theorem shiftRight_succ (em : ExtendedMantissa) (k : Nat) : em >>> (k + 1) = (em >>> k).shiftRightOne := rfl

theorem mod_two_pow_succ (n k : Nat) : n % 2 ^ (k + 1) = n % 2 ^ k + 2 ^ k * (n / 2 ^ k % 2) := by
  rw [pow_succ, Nat.mod_mul]

theorem shiftRight_exact (m k : Nat) :
    ExtendedMantissa.ofMantissaAndAccuracy m .exact >>> (k + 1) =
      ⟨m / 2 ^ (k + 1), decide (2 ^ k ≤ m % 2 ^ (k + 1)), decide (m % 2 ^ k ≠ 0)⟩ := by
  induction k with
  | zero =>
    change ExtendedMantissa.mk (m / 2) (m % 2 != 0) false = _
    rw [ExtendedMantissa.mk.injEq]
    refine ⟨rfl, ?_, ?_⟩
    · rw [Bool.eq_iff_iff, bne_iff_ne, decide_eq_true_iff, zero_add, pow_zero, pow_one]
      omega
    · simp [Nat.mod_one]
  | succ k ih =>
    rw [shiftRight_succ, ih, ExtendedMantissa.shiftRightOne, ExtendedMantissa.mk.injEq]
    refine ⟨?_, ?_, ?_⟩
    · rw [Nat.div_div_eq_div_mul, ← pow_succ]
    · rw [Bool.eq_iff_iff, bne_iff_ne, decide_eq_true_iff, mod_two_pow_succ m (k + 1)]
      have hm : m % 2 ^ (k + 1) < 2 ^ (k + 1) := Nat.mod_lt _ (Nat.two_pow_pos _)
      rcases Nat.mod_two_eq_zero_or_one (m / 2 ^ (k + 1)) with h | h <;> rw [h] <;> omega
    · rw [Bool.eq_iff_iff, Bool.or_eq_true, decide_eq_true_iff, decide_eq_true_iff, decide_eq_true_iff,
        mod_two_pow_succ m k]
      have hm : m % 2 ^ k < 2 ^ k := Nat.mod_lt _ (Nat.two_pow_pos _)
      rcases Nat.mod_two_eq_zero_or_one (m / 2 ^ k) with h | h <;> rw [h] <;> omega

/-- Shifting and rounding as the float model does it is rounding of the quotient. -/
theorem roundedMantissa_shiftRight (m k : Nat) :
    (ExtendedMantissa.ofMantissaAndAccuracy m .exact >>> k).roundedMantissa = nearest m k := by
  cases k with
  | zero =>
    change m = nearest m 0
    simp [nearest, Nat.mod_one]
  | succ k =>
    have hp : 2 ^ (k + 1) = 2 * 2 ^ k := Nat.pow_succ'
    have hr := mod_two_pow_succ m k
    have hm : m % 2 ^ k < 2 ^ k := Nat.mod_lt _ (Nat.two_pow_pos _)
    rw [shiftRight_exact, nearest]
    by_cases h1 : 2 ^ k ≤ m % 2 ^ (k + 1)
    · rw [if_neg (by omega), decide_eq_true h1]
      by_cases h2 : m % 2 ^ k = 0
      · have h3 : 2 * (m % 2 ^ (k + 1)) = 2 ^ (k + 1) := by
          rcases Nat.mod_two_eq_zero_or_one (m / 2 ^ k) with h | h <;> rw [h] at hr <;> omega
        rw [if_pos h3, decide_eq_false (not_not.2 h2)]
        rfl
      · have h3 : 2 * (m % 2 ^ (k + 1)) ≠ 2 ^ (k + 1) := by
          rcases Nat.mod_two_eq_zero_or_one (m / 2 ^ k) with h | h <;> rw [h] at hr <;> omega
        rw [if_neg h3, decide_eq_true h2]
        rfl
    · rw [if_pos (by omega), decide_eq_false h1]
      by_cases h2 : m % 2 ^ k = 0
      · rw [decide_eq_false (not_not.2 h2)]
        rfl
      · rw [decide_eq_true h2]
        rfl

theorem nearest_zero_shift (n : Nat) : nearest n 0 = n := by
  simp [nearest, Nat.mod_one]

theorem div_le_nearest (n k : Nat) : n / 2 ^ k ≤ nearest n k := by
  unfold nearest
  split_ifs <;> omega

theorem nearest_le_succ (n k : Nat) : nearest n k ≤ n / 2 ^ k + 1 := by
  unfold nearest
  split_ifs <;> omega

theorem nearest_mono {n n' : Nat} (k : Nat) (h : n ≤ n') : nearest n k ≤ nearest n' k := by
  rcases (Nat.div_le_div_right h : n / 2 ^ k ≤ n' / 2 ^ k).lt_or_eq with hlt | heq
  · exact (nearest_le_succ n k).trans (hlt.trans_le (div_le_nearest n' k))
  · have hd := Nat.div_add_mod n (2 ^ k)
    have hd' := Nat.div_add_mod n' (2 ^ k)
    rw [heq] at hd
    unfold nearest
    rw [heq]
    split_ifs <;> omega

/-- A factor that is shifted out does not matter. -/
theorem nearest_mul_two_pow (n k j : Nat) : nearest (n * 2 ^ j) (k + j) = nearest n k := by
  have hj := Nat.two_pow_pos j
  unfold nearest
  rw [pow_add, Nat.mul_mod_mul_right, Nat.mul_div_mul_right _ _ hj, ← mul_assoc]
  simp only [Nat.mul_lt_mul_right hj, Nat.mul_left_inj hj.ne']

/-! ## Whole numbers -/

/-- The whole number of 53 significant bits that is nearest to `n`; of two, the even one. -/
def roundNat (n : Nat) : Nat := nearest n (n.log2 - 52) * 2 ^ (n.log2 - 52)

theorem roundNat_of_lt {n : Nat} (h : n < 2 ^ 53) : roundNat n = n := by
  have hl : n.log2 - 52 = 0 := by
    by_cases hn : n = 0
    · rw [hn]
      rfl
    · have := (Nat.log2_lt hn).2 h
      omega
  rw [roundNat, hl, nearest_zero_shift, pow_zero, mul_one]

theorem log2_mul_two_pow {m : Nat} (hm : m ≠ 0) (j : Nat) : (m * 2 ^ j).log2 = m.log2 + j := by
  have hj := Nat.two_pow_pos j
  rw [Nat.log2_eq_iff (Nat.mul_ne_zero hm hj.ne')]
  have h := (Nat.log2_eq_iff hm).1 rfl
  constructor
  · rw [pow_add]
    exact Nat.mul_le_mul_right _ h.1
  · rw [show m.log2 + j + 1 = m.log2 + 1 + j by omega, pow_add]
    exact Nat.mul_lt_mul_of_pos_right h.2 hj

/-- What has no more than 53 significant bits is kept. -/
theorem roundNat_mul_two_pow {m : Nat} (h : m < 2 ^ 53) (j : Nat) : roundNat (m * 2 ^ j) = m * 2 ^ j := by
  by_cases hm : m = 0
  · rw [hm, Nat.zero_mul]
    rfl
  have hl := log2_mul_two_pow hm j
  have hb := (Nat.log2_lt hm).2 h
  by_cases hs : m.log2 + j ≤ 52
  · rw [roundNat, hl, Nat.sub_eq_zero_of_le hs, nearest_zero_shift, pow_zero, mul_one]
  · obtain ⟨i, hi⟩ : ∃ i, j = (m.log2 + j - 52) + i := ⟨52 - m.log2, by omega⟩
    rw [roundNat, hl]
    generalize m.log2 + j - 52 = k at hi
    subst hi
    have hq := nearest_mul_two_pow (m * 2 ^ i) 0 k
    rw [zero_add, nearest_zero_shift, mul_assoc, ← pow_add, add_comm i k] at hq
    rw [hq, mul_assoc, ← pow_add, add_comm i k]

theorem two_pow_log2_le_roundNat {n : Nat} (hn : n ≠ 0) : 2 ^ n.log2 ≤ roundNat n := by
  have h := ((Nat.log2_eq_iff hn).1 rfl).1
  by_cases hs : n.log2 ≤ 52
  · rw [roundNat_of_lt ((Nat.log2_lt hn).1 (by omega))]
    exact h
  · have hq : 2 ^ 52 ≤ n / 2 ^ (n.log2 - 52) := by
      rw [Nat.le_div_iff_mul_le (Nat.two_pow_pos _), ← pow_add]
      exact (Nat.pow_le_pow_right (by norm_num) (by omega)).trans h
    calc 2 ^ n.log2 = 2 ^ 52 * 2 ^ (n.log2 - 52) := by rw [← pow_add]; congr 1; omega
      _ ≤ roundNat n := Nat.mul_le_mul_right _ (hq.trans (div_le_nearest _ _))

theorem roundNat_le_two_pow {n : Nat} (hn : n ≠ 0) : roundNat n ≤ 2 ^ (n.log2 + 1) := by
  have h := ((Nat.log2_eq_iff hn).1 rfl).2
  by_cases hs : n.log2 ≤ 52
  · rw [roundNat_of_lt ((Nat.log2_lt hn).1 (by omega))]
    exact h.le
  · have hq : n / 2 ^ (n.log2 - 52) < 2 ^ 53 := by
      rw [Nat.div_lt_iff_lt_mul (Nat.two_pow_pos _), ← pow_add]
      exact h.trans_le (Nat.pow_le_pow_right (by norm_num) (by omega))
    calc roundNat n ≤ 2 ^ 53 * 2 ^ (n.log2 - 52) :=
          Nat.mul_le_mul_right _ ((nearest_le_succ _ _).trans hq)
      _ = 2 ^ (n.log2 + 1) := by rw [← pow_add]; congr 1; omega

theorem log2_mono {n n' : Nat} (hn : n ≠ 0) (h : n ≤ n') : n.log2 ≤ n'.log2 :=
  (Nat.le_log2 (by omega)).2 (((Nat.log2_eq_iff hn).1 rfl).1.trans h)

theorem roundNat_mono {n n' : Nat} (h : n ≤ n') : roundNat n ≤ roundNat n' := by
  by_cases hn : n = 0
  · rw [hn]
    exact Nat.zero_le _
  rcases (log2_mono hn h).lt_or_eq with hlt | heq
  · calc roundNat n ≤ 2 ^ (n.log2 + 1) := roundNat_le_two_pow hn
      _ ≤ 2 ^ n'.log2 := Nat.pow_le_pow_right (by norm_num) hlt
      _ ≤ roundNat n' := two_pow_log2_le_roundNat (by omega)
  · rw [roundNat, roundNat, heq]
    exact Nat.mul_le_mul_right _ (nearest_mono _ h)

/-! ## Rounding of unpacked numbers -/

/-- The exponent that a number with this mantissa and exponent is rounded to. -/
def target (m : Nat) (e : Int) : Int := max (m.log2 + e - 52) (-1074)

theorem targetExponent_eq (m : Nat) (e : Int) :
    Format.binary64.targetExponent (totalExponent m e) = target m e := by
  have h1 : (Format.binary64.mantissaBits : Int) = 53 := rfl
  have h2 : Format.binary64.minExponent = -1074 := rfl
  rw [Format.targetExponent, totalExponent, h1, h2, target]
  congr 1
  omega

theorem shiftToTarget (m : Nat) (e : Int) :
    shiftToTargetExponent Format.binary64 m e .exact =
      (ExtendedMantissa.ofMantissaAndAccuracy m .exact >>> (target m e - e).toNat,
        e + (target m e - e).toNat) := by
  rw [shiftToTargetExponent, targetExponent_eq]
  rfl

/-- A mantissa that rounding has made one bit too long loses a zero. -/
theorem shift_rounded (r : Nat) (t : Int) (hr : r ≤ 2 ^ 53) (ht : -1074 ≤ t) :
    ∃ em, shiftToTargetExponent Format.binary64 r t .exact = em ∧
      em.1.mantissa < 2 ^ 53 ∧ (em.1.mantissa = r ∧ em.2 = t ∨ em.1.mantissa = 2 ^ 52 ∧ r = 2 ^ 53 ∧ em.2 = t + 1) := by
  refine ⟨_, shiftToTarget r t, ?_⟩
  rcases hr.lt_or_eq with h | rfl
  · have hl : r.log2 ≤ 52 := by
      by_cases hz : r = 0
      · rw [hz]
        exact Nat.zero_le _
      · have := (Nat.log2_lt hz).2 h
        omega
    have hs : (target r t - t).toNat = 0 := by
      unfold target
      omega
    rw [hs]
    exact ⟨h, .inl ⟨rfl, Int.add_zero t⟩⟩
  · have hs : (target (2 ^ 53) t - t).toNat = 1 := by
      unfold target
      rw [Nat.log2_two_pow]
      omega
    have hm : (ExtendedMantissa.ofMantissaAndAccuracy (2 ^ 53) .exact >>> 1).mantissa = 2 ^ 52 := rfl
    rw [hs]
    exact ⟨hm.trans_lt (by norm_num), .inr ⟨hm, rfl, rfl⟩⟩

theorem target_mul_two_pow {m : Nat} (hm : m ≠ 0) (j : Nat) (e : Int) :
    target (m * 2 ^ j) (e - j) = target m e := by
  unfold target
  rw [log2_mul_two_pow hm]
  congr 1
  push_cast
  omega

theorem log2_magnitude {m : Nat} (hm : m ≠ 0) (e : Int) : (magnitude m e).log2 = m.log2 + (e + 1074).toNat :=
  log2_mul_two_pow hm _

section Shifted

variable {m : Nat} {e : Int} (hm : 0 < m) (ht : e ≤ target m e)

include hm ht

theorem nearest_target_le : nearest m (target m e - e).toNat ≤ 2 ^ 53 := by
  have hbits := ((Nat.log2_eq_iff hm.ne').1 rfl).2
  have hdiv : m / 2 ^ (target m e - e).toNat < 2 ^ 53 := by
    rw [Nat.div_lt_iff_lt_mul (Nat.two_pow_pos _), ← pow_add]
    refine hbits.trans_le (Nat.pow_le_pow_right (by norm_num) ?_)
    unfold target at ht ⊢
    omega
  exact (nearest_le_succ _ _).trans hdiv

theorem le_nearest_target (hmin : target m e ≠ -1074) : 2 ^ 52 ≤ nearest m (target m e - e).toNat := by
  have hbits := ((Nat.log2_eq_iff hm.ne').1 rfl).1
  have hdiv : 2 ^ 52 ≤ m / 2 ^ (target m e - e).toNat := by
    rw [Nat.le_div_iff_mul_le (Nat.two_pow_pos _), ← pow_add]
    refine (Nat.pow_le_pow_right (by norm_num) ?_).trans hbits
    unfold target at ht hmin ⊢
    omega
  exact hdiv.trans (div_le_nearest _ _)

/-- The units of a rounded quotient. -/
theorem magnitude_nearest (he : -1074 ≤ e) :
    magnitude (nearest m (target m e - e).toNat) (target m e) = roundNat (magnitude m e) := by
  have hk : (magnitude m e).log2 - 52 = (target m e - e).toNat + (e + 1074).toNat := by
    rw [log2_magnitude hm.ne']
    unfold target at ht ⊢
    omega
  have ht' : (target m e + 1074).toNat = (target m e - e).toNat + (e + 1074).toNat := by omega
  rw [roundNat, hk, magnitude, magnitude, nearest_mul_two_pow, ht']

/-- What rounding makes of a mantissa that has bits to lose. -/
theorem roundWithAccuracy_eq (s : Sign) (he : -1074 ≤ e) :
    ∃ m' e' h', roundWithAccuracy Format.binary64 s m e .exact = .finite s m' e' h' ∧
      Canonical (.finite s m' e' h') ∧ magnitude m' e' = roundNat (magnitude m e) := by
  have hr := nearest_target_le hm ht
  have hl := le_nearest_target hm ht
  have hn := magnitude_nearest hm ht he
  have hmin : -1074 ≤ target m e := le_max_right _ _
  have hsum : e + (target m e - e).toNat = target m e := by omega
  have hpos : 0 < roundNat (magnitude m e) :=
    (Nat.two_pow_pos _).trans_le (two_pow_log2_le_roundNat (magnitude_pos m e hm).ne')
  have hpos' : 0 < nearest m (target m e - e).toNat := by
    rw [← hn] at hpos
    exact Nat.pos_of_mul_pos_right hpos
  obtain ⟨em, hs, hb, hc⟩ := shift_rounded _ _ hr hmin
  unfold roundWithAccuracy
  simp only [shiftToTarget m e, roundedMantissa_shiftRight, hsum, hs]
  have h0 : em.1.mantissa ≠ 0 := by omega
  rw [dif_neg h0]
  refine ⟨em.1.mantissa, em.2, Nat.pos_of_ne_zero h0, rfl, ⟨hb, by omega, by omega⟩, ?_⟩
  rw [← hn]
  rcases hc with ⟨h, h'⟩ | ⟨h, hr', h'⟩
  · rw [h, h']
  · have hexp : (target m e + 1 + 1074).toNat = (target m e + 1074).toNat + 1 := by omega
    rw [h, h', hr', magnitude, magnitude, hexp]
    ring

end Shifted

/-- Rounding a number of units gives the canonical number of the rounded units. -/
theorem round_eq (s : Sign) (m : Nat) (e : Int) (hm : 0 < m) (he : -1074 ≤ e) :
    ∃ m' e' h', UnpackedFloat.round Format.binary64 s m e = .finite s m' e' h' ∧
      Canonical (.finite s m' e' h') ∧ magnitude m' e' = roundNat (magnitude m e) := by
  have hmin : -1074 ≤ target m e := le_max_right _ _
  obtain ⟨j, hj⟩ : ∃ j, j = (e - target m e).toNat := ⟨_, rfl⟩
  -- `j` zeros are appended to the mantissa, where it is short of bits
  have htar : target (m * 2 ^ j) (e - j) = target m e := target_mul_two_pow hm.ne' j e
  have hmag : magnitude (m * 2 ^ j) (e - j) = magnitude m e := by
    rw [magnitude, magnitude, mul_assoc, ← pow_add]
    congr 2
    omega
  rw [UnpackedFloat.round, targetExponent_eq, decreaseExponent, ← hj, Nat.shiftLeft_eq, ← hmag]
  exact roundWithAccuracy_eq (Nat.mul_pos hm (Nat.two_pow_pos j)) (by rw [htar]; omega) s (by omega)

end FleetEnergy.Binary64

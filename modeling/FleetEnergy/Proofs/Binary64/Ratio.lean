import Mathlib.Algebra.Order.Floor.Semiring
import Mathlib.Data.Rat.Floor
import Mathlib.Tactic.FieldSimp
import Mathlib.Tactic.Linarith
import Mathlib.Tactic.Positivity
import FleetEnergy.Proofs.Binary64.Sum

/-! Rounding to the nearest float, ties to even, of any ratio of units that is not below zero. -/
namespace FleetEnergy.Binary64
open Float.Model (Format UnpackedFloat)
open Float.Model.UnpackedFloat
set_option autoImplicit false

/-! ## The nearest whole number -/

/-- The whole number nearest to a ratio; of two, the even one. -/
def nearestTo (v : ℚ) : ℕ :=
  if 2 * (v - ⌊v⌋₊) < 1 then ⌊v⌋₊ else if 2 * (v - ⌊v⌋₊) = 1 then ⌊v⌋₊ + ⌊v⌋₊ % 2 else ⌊v⌋₊ + 1

variable {v w : ℚ}

theorem nearestTo_add (q : ℕ) {x : ℚ} (h0 : 0 ≤ x) (h1 : x < 1) :
    nearestTo (q + x) = if 2 * x < 1 then q else if 2 * x = 1 then q + q % 2 else q + 1 := by
  have hfloor : ⌊(q : ℚ) + x⌋₊ = q := by
    rw [Nat.floor_eq_iff (by positivity)]
    constructor <;> linarith
  have hrest : (q : ℚ) + x - q = x := by ring
  rw [nearestTo, hfloor, hrest]

theorem nearestTo_natCast (n : ℕ) : nearestTo n = n := by
  have h := nearestTo_add n (le_refl (0 : ℚ)) one_pos
  rw [Rat.add_zero, mul_zero] at h
  exact h.trans (if_pos one_pos)

theorem floor_le_nearestTo (v : ℚ) : ⌊v⌋₊ ≤ nearestTo v := by
  unfold nearestTo
  split_ifs <;> omega

theorem nearestTo_le_succ (v : ℚ) : nearestTo v ≤ ⌊v⌋₊ + 1 := by
  unfold nearestTo
  split_ifs <;> omega

theorem nearestTo_mono (h : v ≤ w) : nearestTo v ≤ nearestTo w := by
  rcases (Nat.floor_mono h).lt_or_eq with hlt | heq
  · exact (nearestTo_le_succ v).trans (hlt.trans_le (floor_le_nearestTo w))
  · have hle : 2 * (v - ⌊v⌋₊) ≤ 2 * (w - ⌊w⌋₊) := by
      rw [heq]
      linarith
    by_cases hlt : 2 * (w - ⌊w⌋₊) < 1
    · rw [nearestTo, nearestTo, if_pos hlt, if_pos (hle.trans_lt hlt)]
      exact heq.le
    · by_cases htie : 2 * (w - ⌊w⌋₊) = 1
      · rw [nearestTo, nearestTo, if_neg hlt, if_pos htie]
        rw [htie] at hle
        split_ifs with h1 h2
        · omega
        · omega
        · exact absurd (hle.lt_or_eq) (not_or.2 ⟨h1, h2⟩)
      · rw [nearestTo.eq_def w, if_neg hlt, if_neg htie, ← heq]
        exact nearestTo_le_succ v

/-- What is less than a half away is the nearest, and of what is a half away, the even one. -/
theorem nearestTo_eq {k : ℕ} (hv : 0 ≤ v) (hlo : (k : ℚ) - 1 / 2 ≤ v) (hhi : v ≤ k + 1 / 2)
    (heven : v = k - 1 / 2 ∨ v = k + 1 / 2 → k % 2 = 0) : nearestTo v = k := by
  rcases le_or_gt (k : ℚ) v with hk | hk
  · obtain ⟨x, hx⟩ : ∃ x, x = v - k := ⟨_, rfl⟩
    have hsum : v = k + x := by linarith
    rw [hsum, nearestTo_add k (by linarith) (by linarith)]
    split_ifs with h1 h2
    · rfl
    · rw [heven (.inr (by linarith)), Nat.add_zero]
    · exact absurd (lt_or_eq_of_le (by linarith : 2 * x ≤ 1)) (not_or.2 ⟨h1, h2⟩)
  · obtain ⟨q, rfl⟩ : ∃ q, k = q + 1 := by
      refine Nat.exists_eq_succ_of_ne_zero ?_
      rintro rfl
      rw [Nat.cast_zero] at hk
      linarith
    obtain ⟨x, hx⟩ : ∃ x, x = v - q := ⟨_, rfl⟩
    have hsum : v = q + x := by linarith
    push_cast at hlo hk heven
    rw [hsum, nearestTo_add q (by linarith) (by linarith)]
    split_ifs with h1 h2
    · linarith
    · have := heven (.inl (by linarith))
      omega
    · rfl

/-! ## The nearest float -/

/-- How many places of a ratio are below the 53 that a float keeps. -/
def place (v : ℚ) : ℕ := ⌊v⌋₊.log2 - 52

/-- The units of the float nearest to a ratio of units; of two, the one that ends on an even digit. -/
def roundRatio (v : ℚ) : ℕ := nearestTo (v / 2 ^ place v) * 2 ^ place v

theorem lt_two_pow_place (v : ℚ) : v < 2 ^ (place v + 53) := by
  have hlog : ⌊v⌋₊ < 2 ^ (⌊v⌋₊.log2 + 1) := Nat.lt_log2_self
  have hpow : 2 ^ (⌊v⌋₊.log2 + 1) ≤ 2 ^ (place v + 53) := Nat.pow_le_pow_right (by norm_num) (by unfold place; omega)
  have hnat : ⌊v⌋₊ + 1 ≤ 2 ^ (place v + 53) := by omega
  calc v < ⌊v⌋₊ + 1 := Nat.lt_floor_add_one v
    _ ≤ 2 ^ (place v + 53) := by exact_mod_cast hnat

theorem two_pow_place_le (hv : 0 ≤ v) (h : place v ≠ 0) : 2 ^ (place v + 52) ≤ v := by
  have hne : ⌊v⌋₊ ≠ 0 := by
    intro h0
    rw [place, h0] at h
    exact h rfl
  have hlog : 2 ^ ⌊v⌋₊.log2 ≤ ⌊v⌋₊ := Nat.log2_self_le hne
  have hexp : place v + 52 = ⌊v⌋₊.log2 := by
    unfold place at h ⊢
    omega
  calc (2 : ℚ) ^ (place v + 52) = ((2 ^ ⌊v⌋₊.log2 : ℕ) : ℚ) := by rw [hexp]; push_cast; rfl
    _ ≤ ⌊v⌋₊ := by exact_mod_cast hlog
    _ ≤ v := Nat.floor_le hv

/-- The place is the only one that leaves 53 digits, or fewer if no place is below them. -/
theorem place_eq {j : ℕ} (hv : 0 ≤ v) (hlt : v < 2 ^ (j + 53)) (hle : j = 0 ∨ 2 ^ (j + 52) ≤ v) : place v = j := by
  have hone : (1 : ℚ) < 2 := by norm_num
  have hup : place v ≤ j := by
    by_cases h0 : place v = 0
    · omega
    · have := (two_pow_place_le hv h0).trans_lt hlt
      have := (pow_lt_pow_iff_right₀ hone).1 this
      omega
  rcases hle with rfl | hle
  · omega
  · have := hle.trans_lt (lt_two_pow_place v)
    have := (pow_lt_pow_iff_right₀ hone).1 this
    omega

theorem add_div_two_pow (n k : ℕ) (x : ℚ) :
    ((n : ℚ) + x) / 2 ^ k = ((n / 2 ^ k : ℕ) : ℚ) + (((n % 2 ^ k : ℕ) : ℚ) + x) / 2 ^ k := by
  have hp : (0 : ℚ) < 2 ^ k := by positivity
  have hdm : (n : ℚ) = 2 ^ k * ((n / 2 ^ k : ℕ) : ℚ) + ((n % 2 ^ k : ℕ) : ℚ) := by
    exact_mod_cast (Nat.div_add_mod n (2 ^ k)).symm
  rw [div_eq_iff hp.ne', add_mul, div_mul_cancel₀ _ hp.ne']
  linarith

theorem nearestTo_div_two_pow (n k : ℕ) : nearestTo (n / 2 ^ k) = nearest n k := by
  have hp : (0 : ℚ) < 2 ^ k := by positivity
  have hsplit := add_div_two_pow n k 0
  rw [Rat.add_zero, Rat.add_zero] at hsplit
  have hlt : ((n % 2 ^ k : ℕ) : ℚ) / 2 ^ k < 1 := by
    rw [div_lt_one hp]
    exact_mod_cast Nat.mod_lt n (Nat.two_pow_pos k)
  rw [hsplit, nearestTo_add _ (by positivity) hlt, nearest]
  have hiff1 : 2 * (((n % 2 ^ k : ℕ) : ℚ) / 2 ^ k) < 1 ↔ 2 * (n % 2 ^ k) < 2 ^ k := by
    rw [← mul_div_assoc, div_lt_one hp]
    exact_mod_cast Iff.rfl
  have hiff2 : 2 * (((n % 2 ^ k : ℕ) : ℚ) / 2 ^ k) = 1 ↔ 2 * (n % 2 ^ k) = 2 ^ k := by
    rw [← mul_div_assoc, div_eq_one_iff_eq hp.ne']
    exact_mod_cast Iff.rfl
  simp only [hiff1, hiff2]

theorem roundRatio_natCast (n : ℕ) : roundRatio n = roundNat n := by
  have hplace : place n = n.log2 - 52 := by rw [place, Nat.floor_natCast]
  rw [roundRatio, hplace, nearestTo_div_two_pow, roundNat]

theorem place_mono (h : v ≤ w) : place v ≤ place w := by
  have hfloor := Nat.floor_mono h
  unfold place
  by_cases h0 : ⌊v⌋₊ = 0
  · rw [h0]
    exact Nat.zero_le _
  · have := log2_mono h0 hfloor
    omega

theorem roundRatio_le (v : ℚ) : roundRatio v ≤ 2 ^ (place v + 53) := by
  have hp : (0 : ℚ) < 2 ^ place v := by positivity
  have hquot : v / 2 ^ place v ≤ ((2 ^ 53 : ℕ) : ℚ) := by
    rw [div_le_iff₀ hp]
    have := (lt_two_pow_place v).le
    rw [pow_add, mul_comm] at this
    exact_mod_cast this
  have hn := nearestTo_mono hquot
  rw [nearestTo_natCast] at hn
  rw [pow_add, mul_comm]
  exact Nat.mul_le_mul_right _ hn

theorem le_roundRatio (hv : 0 ≤ v) (h : place v ≠ 0) : 2 ^ (place v + 52) ≤ roundRatio v := by
  have hp : (0 : ℚ) < 2 ^ place v := by positivity
  have hquot : ((2 ^ 52 : ℕ) : ℚ) ≤ v / 2 ^ place v := by
    rw [le_div_iff₀ hp]
    have := two_pow_place_le hv h
    rw [pow_add, mul_comm] at this
    exact_mod_cast this
  have hn := nearestTo_mono hquot
  rw [nearestTo_natCast] at hn
  rw [pow_add, mul_comm]
  exact Nat.mul_le_mul_right _ hn

theorem roundRatio_mono (hv : 0 ≤ v) (h : v ≤ w) : roundRatio v ≤ roundRatio w := by
  rcases (place_mono h).lt_or_eq with hlt | heq
  · calc roundRatio v ≤ 2 ^ (place v + 53) := roundRatio_le v
      _ ≤ 2 ^ (place w + 52) := Nat.pow_le_pow_right (by norm_num) (by omega)
      _ ≤ roundRatio w := le_roundRatio (hv.trans h) (by omega)
  · have hp : (0 : ℚ) ≤ 2 ^ place w := by positivity
    rw [roundRatio, roundRatio, heq]
    exact Nat.mul_le_mul_right _ (nearestTo_mono (div_le_div_of_nonneg_right h hp))

end FleetEnergy.Binary64

import FleetEnergy.Proofs.Binary64.Difference

/-! How far rounding moves a number, and how far floats of some size lie apart: a small step from a large float leads
nowhere. -/
namespace FleetEnergy.Binary64
set_option autoImplicit false

/-! ## Half of the last place -/

theorem nearest_close (n k : Nat) :
    2 * (nearest n k * 2 ^ k) ≤ 2 * n + 2 ^ k ∧ 2 * n ≤ 2 * (nearest n k * 2 ^ k) + 2 ^ k := by
  have hdiv := Nat.div_add_mod' n (2 ^ k)
  have hmod : n % 2 ^ k < 2 ^ k := Nat.mod_lt _ (Nat.two_pow_pos _)
  have hnext : (n / 2 ^ k + 1) * 2 ^ k = n / 2 ^ k * 2 ^ k + 2 ^ k := Nat.succ_mul _ _
  unfold nearest
  split_ifs with hlow htie
  · omega
  · rcases Nat.mod_two_eq_zero_or_one (n / 2 ^ k) with heven | hodd
    · rw [heven, Nat.add_zero]
      omega
    · rw [hodd, hnext]
      omega
  · rw [hnext]
    omega

/-- The last place of a number that is rounded. -/
def lastPlace (n : Nat) : Nat := 2 ^ (n.log2 - 52)

theorem lastPlace_dvd_roundNat (n : Nat) : lastPlace n ∣ roundNat n := Dvd.intro_left _ rfl

theorem roundNat_close (n : Nat) : 2 * roundNat n ≤ 2 * n + lastPlace n ∧ 2 * n ≤ 2 * roundNat n + lastPlace n :=
  nearest_close n _

theorem lastPlace_le {n k : Nat} (h : n < 2 ^ (k + 53)) : lastPlace n ≤ 2 ^ k := by
  refine Nat.pow_le_pow_right (by decide) ?_
  by_cases hn : n = 0
  · rw [hn]
    exact Nat.zero_le k
  · have := (Nat.log2_lt hn).2 h
    omega

/-! ## Large floats -/

/-- A float of some size is a multiple of a power of two. -/
theorem Sharp.two_pow_dvd {z : Int} (hz : Sharp z) {k : Nat} (h : 2 ^ (k + 52) ≤ z.natAbs) : (2 : Int) ^ k ∣ z := by
  obtain ⟨a, j, rfl, ha, -⟩ := hz
  have hp : ((2 : Int) ^ j).natAbs = 2 ^ j := Int.natAbs_pow 2 j
  have hle : k ≤ j := by
    by_contra hlt
    refine h.not_gt ?_
    calc (a * 2 ^ j).natAbs = a.natAbs * 2 ^ j := by rw [Int.natAbs_mul, hp]
      _ < 2 ^ 53 * 2 ^ j := Nat.mul_lt_mul_of_pos_right ha (Nat.two_pow_pos j)
      _ = 2 ^ (j + 1 + 52) := by rw [← pow_add]; congr 1; omega
      _ ≤ 2 ^ (k + 52) := Nat.pow_le_pow_right (by decide) (by omega)
  exact Dvd.dvd.mul_left (pow_dvd_pow 2 hle) a

theorem Sharp.roundInt_eq {z : Int} (hz : Sharp z) : roundInt z = z := by
  obtain ⟨a, j, rfl, ha, -⟩ := hz
  exact roundInt_mul_two_pow ha.le j

/-- What is less than half of the last place below a float is rounded back to it. -/
theorem roundNat_sub_of_lt {m t k : Nat} (hm : Sharp m) (ht : 2 * t < 2 ^ k) (h : 2 ^ (k + 52) + t ≤ m) :
    roundNat (m - t) = m := by
  have hpos : m - t ≠ 0 := by
    have := Nat.two_pow_pos (k + 52)
    omega
  have hlog : k + 52 ≤ (m - t).log2 := (Nat.le_log2 hpos).2 (by omega)
  have hsize : 2 ^ ((m - t).log2 - 52 + 52) ≤ m := by
    rw [Nat.sub_add_cancel (by omega)]
    exact (Nat.log2_self_le hpos).trans (Nat.sub_le m t)
  have hplace : 2 ^ k ≤ lastPlace (m - t) := Nat.pow_le_pow_right (by decide) (by omega)
  have hdvd : (lastPlace (m - t) : Int) ∣ m := by
    rw [lastPlace, Nat.cast_pow, Nat.cast_ofNat]
    exact hm.two_pow_dvd hsize
  obtain ⟨hup, hdown⟩ := roundNat_close (m - t)
  -- Both are multiples of the last place, and they are less than one apart.
  have hzero : (roundNat (m - t) - m : Int) = 0 := by
    refine Int.eq_zero_of_abs_lt_dvd (dvd_sub (Int.natCast_dvd_natCast.2 (lastPlace_dvd_roundNat _)) hdvd) ?_
    rw [abs_lt]
    omega
  omega

end FleetEnergy.Binary64

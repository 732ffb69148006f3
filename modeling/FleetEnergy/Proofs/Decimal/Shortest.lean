import FleetEnergy.Decimal.Shortest
import FleetEnergy.Proofs.Binary64.Scientific

/-! The shortest decimal of a float lies in its rounding interval, so that the float nearest to the decimal is the float
it was made for. The search comes to a grid that is fine enough. -/
namespace FleetEnergy.Decimal
open Binary64
set_option autoImplicit false

variable {m : ℕ} {e : Int} {v : ℚ}

/-! ## Rounding intervals -/

/-- A mantissa and an exponent of a positive float. -/
structure Legal (m : ℕ) (e : Int) : Prop where
  pos : 0 < m
  bits : m < 2 ^ 53
  least : -1074 ≤ e
  greatest : e ≤ 971
  full : 2 ^ 52 ≤ m ∨ e = -1074

/-- Half the distance to the float below, in places of the mantissa. -/
def halfBelow (m : ℕ) (e : Int) : ℚ := if narrowBelow m e then 1 / 4 else 1 / 2

theorem halfBelow_bounds (m : ℕ) (e : Int) : 1 / 4 ≤ halfBelow m e ∧ halfBelow m e ≤ 1 / 2 := by
  unfold halfBelow
  split_ifs <;> norm_num

/-- What rounds to the float; the ends belong to the interval where the mantissa is even. -/
structure Within (m : ℕ) (e : Int) (v : ℚ) : Prop where
  lower : (m - halfBelow m e) * 2 ^ e ≤ v
  upper : v ≤ (m + 1 / 2) * 2 ^ e
  odd : m % 2 ≠ 0 → (m - halfBelow m e) * 2 ^ e < v ∧ v < (m + 1 / 2) * 2 ^ e

/-- A number of units in a rounding interval, where the last place of the mantissa is `2 ^ k` units. -/
structure Near (m k : ℕ) (half V : ℚ) : Prop where
  lower : (m - half) * 2 ^ k ≤ V
  upper : V ≤ (m + 1 / 2) * 2 ^ k
  odd : m % 2 ≠ 0 → (m - half) * 2 ^ k < V ∧ V < (m + 1 / 2) * 2 ^ k

theorem Within.near (hl : Legal m e) (h : Within m e v) :
    Near m (e + 1074).toNat (halfBelow m e) (v * oneUnits) := by
  have hplaces : ((e + 1074).toNat : Int) = e + 1074 := Int.toNat_of_nonneg (by have := hl.least; omega)
  have hscale : (2 : ℚ) ^ e * oneUnits = 2 ^ (e + 1074).toNat := by
    rw [oneUnits_cast, ← zpow_add₀ (by norm_num), ← zpow_natCast, hplaces]
  have hone : (0 : ℚ) < oneUnits := by exact_mod_cast oneUnits_pos
  refine ⟨?_, ?_, fun hm2 => ?_⟩
  · rw [← hscale, ← mul_assoc]
    exact mul_le_mul_of_nonneg_right h.lower hone.le
  · rw [← hscale, ← mul_assoc]
    exact mul_le_mul_of_nonneg_right h.upper hone.le
  · obtain ⟨h1, h2⟩ := h.odd hm2
    rw [← hscale, ← mul_assoc, ← mul_assoc]
    exact ⟨mul_lt_mul_of_pos_right h1 hone, mul_lt_mul_of_pos_right h2 hone⟩

namespace Near

variable {k j : ℕ} {half V : ℚ}

theorem nonneg (h : Near m k half V) (hm : 0 < m) (hhalf : half ≤ 1 / 2) : 0 ≤ V := by
  have hm1 : (1 : ℚ) ≤ m := by exact_mod_cast hm
  exact (mul_nonneg (by linarith) (by positivity)).trans h.lower

/-- Counted in last places of the mantissa it is nearest to the mantissa. -/
theorem nearest_eq (h : Near m k half V) (hm : 0 < m) (hhalf : half ≤ 1 / 2) : nearestTo (V / 2 ^ k) = m := by
  have hp : (0 : ℚ) < 2 ^ k := by positivity
  refine nearestTo_eq (Rat.div_nonneg (h.nonneg hm hhalf) hp.le) ?_ ?_ fun htie => ?_
  · rw [le_div_iff₀ hp]
    exact (mul_le_mul_of_nonneg_right (by linarith) hp.le).trans h.lower
  · rw [div_le_iff₀ hp]
    exact h.upper
  · by_contra hm2
    obtain ⟨h1, h2⟩ := h.odd hm2
    rw [← lt_div_iff₀ hp] at h1
    rw [← div_lt_iff₀ hp] at h2
    rcases htie with htie | htie <;> linarith

theorem rounds_full (h : Near m k half V) (hm : 0 < m) (hbits : m < 2 ^ 53) (hhalf : half ≤ 1 / 2)
    (hfull : k = 0 ∨ 2 ^ (k + 52) ≤ V) : roundRatio V = m * 2 ^ k := by
  have hlt : V < 2 ^ (k + 53) := by
    have hm' : (m : ℚ) + 1 ≤ 2 ^ 53 := by exact_mod_cast hbits
    rw [pow_add, mul_comm]
    exact h.upper.trans_lt (mul_lt_mul_of_pos_right (by linarith) (by positivity))
  rw [roundRatio, place_eq (h.nonneg hm hhalf) hlt hfull, h.nearest_eq hm hhalf]

/-- What lies below the least full mantissa belongs to it. -/
theorem eq_least (h : Near m k half V) (hhalf : half ≤ 1 / 2) (hm : 2 ^ 52 ≤ m) (hlt : V < 2 ^ (k + 52)) :
    m = 2 ^ 52 := by
  have hprod := h.lower.trans_lt hlt
  rw [pow_add 2 k 52, mul_comm (2 ^ k)] at hprod
  have hcancel := lt_of_mul_lt_mul_right hprod (by positivity)
  have hle : (m : ℚ) < 2 ^ 52 + 1 := by linarith
  have hnat : m < 2 ^ 52 + 1 := by exact_mod_cast hle
  omega

/-- The places below the least full mantissa are half as wide, and so is the interval there. -/
theorem rounds_below (h : Near (2 ^ 52) (j + 1) (1 / 4) V) (hlt : V < 2 ^ (j + 53)) :
    roundRatio V = 2 ^ 52 * 2 ^ (j + 1) := by
  have hq : (0 : ℚ) < 2 ^ j := by positivity
  have hlo := h.lower
  rw [pow_succ 2 j, Nat.cast_pow, Nat.cast_ofNat] at hlo
  have hge : (2 : ℚ) ^ (j + 52) ≤ V := by
    rw [pow_add]
    linarith
  have hV : 0 ≤ V := (by positivity : (0 : ℚ) ≤ 2 ^ (j + 52)).trans hge
  have hnear : nearestTo (V / 2 ^ j) = 2 ^ 53 := by
    refine nearestTo_eq (Rat.div_nonneg hV hq.le) ?_ ?_ fun _ => by norm_num
    · rw [le_div_iff₀ hq, Nat.cast_pow, Nat.cast_ofNat]
      linarith
    · rw [pow_add] at hlt
      rw [div_le_iff₀ hq, Nat.cast_pow, Nat.cast_ofNat]
      linarith
  rw [roundRatio, place_eq hV hlt (.inr hge), hnear, Nat.pow_succ]
  ring

end Near

/-- What lies in the rounding interval of a float is rounded to it. -/
theorem Within.rounds (hl : Legal m e) (h : Within m e v) : roundRatio (v * oneUnits) = magnitude m e := by
  have hnear := h.near hl
  obtain ⟨-, hhalf⟩ := halfBelow_bounds m e
  rw [magnitude]
  obtain ⟨k, hk⟩ : ∃ k, k = (e + 1074).toNat := ⟨_, rfl⟩
  rw [← hk] at hnear ⊢
  by_cases hfull : k = 0 ∨ 2 ^ (k + 52) ≤ v * oneUnits
  · exact hnear.rounds_full hl.pos hl.bits hhalf hfull
  · -- Only the least full mantissa has an interval that reaches below it into places half as wide.
    rw [not_or, not_le] at hfull
    obtain ⟨hk0, hlt⟩ := hfull
    have hne : e ≠ -1074 := by omega
    obtain ⟨j, rfl⟩ : ∃ j, k = j + 1 := ⟨k - 1, by omega⟩
    obtain rfl := hnear.eq_least hhalf (hl.full.resolve_right hne) hlt
    have hquarter : halfBelow (2 ^ 52) e = 1 / 4 := if_pos (by simpa [narrowBelow] using hne)
    have hexp : j + 1 + 52 = j + 53 := by omega
    rw [hquarter] at hnear
    rw [hexp] at hlt
    exact hnear.rounds_below hlt

/-! ## Grids -/

theorem tenPower_ratio (g : Int) : 0 < (tenPower g).1 ∧ 0 < (tenPower g).2 ∧
    ((tenPower g).1 : ℚ) = 10 ^ g * (tenPower g).2 := by
  unfold tenPower
  split_ifs with hg
  · obtain ⟨n, rfl⟩ := Int.eq_ofNat_of_zero_le hg
    refine ⟨Nat.pow_pos (by norm_num), Nat.one_pos, ?_⟩
    rw [zpow_natCast, Nat.cast_one, mul_one]
    exact Nat.cast_pow 10 n
  · obtain ⟨n, hn⟩ := Int.eq_ofNat_of_zero_le (a := -g) (by omega)
    obtain rfl : g = -(n : Int) := by omega
    refine ⟨Nat.one_pos, Nat.pow_pos (by norm_num), ?_⟩
    have hpow : ((Nat.pow 10 n : ℕ) : ℚ) = 10 ^ n := Nat.cast_pow 10 n
    rw [zpow_neg, zpow_natCast, neg_neg, Int.toNat_natCast, Nat.cast_one, hpow, inv_mul_cancel₀ (by positivity)]

theorem roundingInterval_ratio (hm : 0 < m) (e : Int) :
    ∃ low value high den : ℕ, roundingInterval m e = (low, value, high, den) ∧ 0 < den ∧
      (low : ℚ) = (m - halfBelow m e) * 2 ^ e * den ∧ (value : ℚ) = m * 2 ^ e * den ∧
      (high : ℚ) = (m + 1 / 2) * 2 ^ e * den := by
  obtain ⟨up, down, hdown, hscale, hint⟩ : ∃ up down : ℕ, 0 < down ∧ (up : ℚ) = 2 ^ e * down ∧ roundingInterval m e =
      ((4 * m - (if narrowBelow m e then 1 else 2)) * up, 4 * m * up, (4 * m + 2) * up, 4 * down) := by
    by_cases he : 0 ≤ e
    · refine ⟨2 ^ e.toNat, 1, Nat.one_pos, ?_, by simp only [roundingInterval, if_pos he]; rfl⟩
      obtain ⟨n, rfl⟩ := Int.eq_ofNat_of_zero_le he
      rw [zpow_natCast, Int.toNat_natCast, Nat.cast_one, mul_one, Nat.cast_pow, Nat.cast_ofNat]
    · refine ⟨1, 2 ^ (-e).toNat, by positivity, ?_, by simp only [roundingInterval, if_neg he]; rfl⟩
      obtain ⟨n, hn⟩ := Int.eq_ofNat_of_zero_le (a := -e) (by omega)
      obtain rfl : e = -(n : Int) := by omega
      rw [zpow_neg, zpow_natCast, neg_neg, Int.toNat_natCast, Nat.cast_one, Nat.cast_pow, Nat.cast_ofNat,
        inv_mul_cancel₀ (by positivity)]
  refine ⟨_, _, _, _, hint, by omega, ?_, ?_, ?_⟩
  · rw [halfBelow]
    split_ifs
    · rw [Nat.cast_mul, Nat.cast_sub (by omega), hscale]
      push_cast
      ring
    · rw [Nat.cast_mul, Nat.cast_sub (by omega), hscale]
      push_cast
      ring
  · push_cast
    rw [hscale]
    ring
  · push_cast
    rw [hscale]
    ring

section Grid

variable {g : Int} {low value high den tn td : ℕ}

/-- A multiple of `10 ^ g` in the rounding interval. -/
def OnGrid (m : ℕ) (e g : Int) (k : ℕ) : Prop := 0 < k ∧ Within m e (k * 10 ^ g)

/-- Whether a multiple of a unit lies between two ends. -/
def isBetween (even : Bool) (low high unit k : ℕ) : Bool :=
  0 < k && (if even then low ≤ k * unit && k * unit ≤ high else low < k * unit && k * unit < high)

/-- Ratios over two denominators, compared over their product. -/
theorem compare_cross {a : ℕ} {x : ℚ} (ha : (a : ℚ) = x * den) (ht : (tn : ℚ) = 10 ^ g * td) (hden : 0 < den)
    (htd : 0 < td) (k : ℕ) :
    (a * td ≤ k * (tn * den) ↔ x ≤ k * 10 ^ g) ∧ (k * (tn * den) ≤ a * td ↔ k * 10 ^ g ≤ x) := by
  have hpos : (0 : ℚ) < den * td := by exact_mod_cast Nat.mul_pos hden htd
  have hleft : ((a * td : ℕ) : ℚ) = x * (den * td) := by
    push_cast
    rw [ha]
    ring
  have hright : ((k * (tn * den) : ℕ) : ℚ) = k * 10 ^ g * (den * td) := by
    push_cast
    rw [ht]
    ring
  constructor
  · rw [← Nat.cast_le (α := ℚ), hleft, hright, mul_le_mul_iff_of_pos_right hpos]
  · rw [← Nat.cast_le (α := ℚ), hleft, hright, mul_le_mul_iff_of_pos_right hpos]

theorem isBetween_iff (hlow : (low : ℚ) = (m - halfBelow m e) * 2 ^ e * den)
    (hhigh : (high : ℚ) = (m + 1 / 2) * 2 ^ e * den)
    (ht : (tn : ℚ) = 10 ^ g * td) (hden : 0 < den) (htd : 0 < td) (k : ℕ) :
    isBetween (decide (m % 2 = 0)) (low * td) (high * td) (tn * den) k = true ↔ OnGrid m e g k := by
  obtain ⟨h1, h2⟩ := compare_cross hlow ht hden htd k
  obtain ⟨h3, h4⟩ := compare_cross hhigh ht hden htd k
  have h1' := not_congr h2
  have h4' := not_congr h3
  rw [not_le, not_le] at h1' h4'
  unfold isBetween OnGrid
  by_cases hm : m % 2 = 0
  · simp only [hm, decide_true, if_true, Bool.and_eq_true, decide_eq_true_eq, h1, h4]
    exact and_congr_right fun _ => ⟨fun h => ⟨h.1, h.2, fun hodd => absurd hm hodd⟩, fun h => ⟨h.lower, h.upper⟩⟩
  · simp only [hm, decide_false, Bool.false_eq_true, if_false, Bool.and_eq_true, decide_eq_true_eq, h1', h4']
    exact and_congr_right fun _ => ⟨fun h => ⟨h.1.le, h.2.le, fun _ => h⟩, fun h => h.odd hm⟩

/-- What is found on a grid is one of the two neighbours of the value, and lies between the ends. -/
theorem onGrid_between (tie : Tie) (g : Int) (hint : roundingInterval m e = (low, value, high, den)) :
    let unit := (tenPower g).1 * den
    let inside := isBetween (decide (m % 2 = 0)) (low * (tenPower g).2) (high * (tenPower g).2) unit
    (onGrid tie m e g = none → inside (value * (tenPower g).2 / unit) = false) ∧
      ∀ c, onGrid tie m e g = some c → inside c = true := by
  unfold onGrid
  rw [hint]
  generalize tenPower g = t
  obtain ⟨tn, td⟩ := t
  intro unit inside
  have hfun (k : ℕ) : (decide (0 < k) &&
      if m % 2 = 0 then decide (low * td ≤ k * (tn * den)) && decide (k * (tn * den) ≤ high * td)
      else decide (low * td < k * (tn * den)) && decide (k * (tn * den) < high * td)) = inside k := by
    simp only [inside, unit, isBetween, decide_eq_true_eq]
  simp only [hfun]
  generalize value * td / (tn * den) = k
  -- Of two neighbours it does not matter which one is taken.
  have hone (hk : inside k = true) (hk' : inside (k + 1) = true) : ∀ r : Option ℕ, r = some k ∨ r = some (k + 1) →
      (r = none → true = false) ∧ ∀ c, r = some c → inside c = true := by
    rintro r (rfl | rfl)
    · exact ⟨nofun, fun c hc => Option.some.inj hc ▸ hk⟩
    · exact ⟨nofun, fun c hc => Option.some.inj hc ▸ hk'⟩
  cases hk : inside k <;> cases hk' : inside (k + 1)
  · exact ⟨fun _ => rfl, nofun⟩
  · exact ⟨nofun, fun c hc => Option.some.inj hc ▸ hk'⟩
  · exact ⟨nofun, fun c hc => Option.some.inj hc ▸ hk⟩
  · refine hone hk hk' _ ?_
    cases tie <;> dsimp only <;> split_ifs <;> simp

end Grid

theorem onGrid_of_some {tie : Tie} (hm : 0 < m) {g : Int} {c : ℕ} (h : onGrid tie m e g = some c) : OnGrid m e g c := by
  obtain ⟨low, value, high, den, hint, hden, hlow, -, hhigh⟩ := roundingInterval_ratio hm e
  obtain ⟨-, htd, ht⟩ := tenPower_ratio g
  exact (isBetween_iff hlow hhigh ht hden htd c).1 ((onGrid_between tie g hint).2 c h)

/-- A grid that is at least four times as fine as the places of the mantissa has a point in the interval. -/
theorem onGrid_isSome (tie : Tie) (hm : 0 < m) {g : Int} (hfine : (10 : ℚ) ^ g ≤ 2 ^ (e - 2)) :
    ∃ c, onGrid tie m e g = some c := by
  obtain ⟨low, value, high, den, hint, hden, hlow, hvalue, hhigh⟩ := roundingInterval_ratio hm e
  obtain ⟨htn, htd, ht⟩ := tenPower_ratio g
  refine Option.ne_none_iff_exists'.1 fun hnone => ?_
  have hout := (onGrid_between tie g hint).1 hnone
  rw [Bool.eq_false_iff, ne_eq, isBetween_iff hlow hhigh ht hden htd] at hout
  -- The multiple below the value is less than one step away from it.
  obtain ⟨k, hk⟩ : ∃ k, k = value * (tenPower g).2 / ((tenPower g).1 * den) := ⟨_, rfl⟩
  have hunit : 0 < (tenPower g).1 * den := Nat.mul_pos htn hden
  have hle : (k : ℚ) * 10 ^ g ≤ m * 2 ^ e :=
    (compare_cross hvalue ht hden htd k).2.1 (hk ▸ Nat.div_mul_le_self _ _)
  have hlt : (m : ℚ) * 2 ^ e < (k + 1 : ℕ) * 10 ^ g := by
    rw [← not_le, ← (compare_cross hvalue ht hden htd (k + 1)).2, not_le, hk]
    exact Nat.lt_mul_of_div_lt (Nat.lt_succ_self _) hunit
  have hp : (0 : ℚ) < 2 ^ e := by positivity
  have hg : (0 : ℚ) < 10 ^ g := by positivity
  have hquarter : (2 : ℚ) ^ (e - 2) = 2 ^ e / 4 := by
    rw [zpow_sub₀ (by norm_num)]
    norm_num
  obtain ⟨hh0, hh1⟩ := halfBelow_bounds m e
  have hm1 : (1 : ℚ) ≤ m := by exact_mod_cast hm
  rw [hquarter] at hfine
  rw [Nat.cast_succ, add_one_mul] at hlt
  have hlower : (m - halfBelow m e) * 2 ^ e < k * 10 ^ g := by
    have hgap := mul_le_mul_of_nonneg_right hh0 hp.le
    rw [sub_mul]
    linarith
  have hk0 : 0 < k := by
    rw [Nat.pos_iff_ne_zero]
    rintro h0
    rw [h0, Nat.cast_zero, zero_mul] at hlower
    exact absurd hlower (not_lt.2 (mul_nonneg (by linarith) hp.le))
  have hupper : (k : ℚ) * 10 ^ g < (m + 1 / 2) * 2 ^ e := by
    rw [add_mul]
    linarith
  rw [← hk] at hout
  exact hout ⟨hk0, hlower.le, hupper.le, fun _ => ⟨hlower, hupper⟩⟩

/-! ## The search -/

theorem firstGrid_onGrid {tie : Tie} (hm : 0 < m) {g : Int} {fuel : ℕ} {d : Digits}
    (h : firstGrid tie m e g fuel = some d) : OnGrid m e d.exponent d.coefficient := by
  induction fuel generalizing g with
  | zero => cases h
  | succ fuel ih =>
    rw [firstGrid] at h
    split at h
    · rename_i k hk
      cases h
      exact onGrid_of_some hm hk
    · exact ih h

theorem firstGrid_isSome {tie : Tie} {g : Int} {fuel : ℕ} {k c : ℕ} (hk : k < fuel)
    (h : onGrid tie m e (g - k) = some c) :
    ∃ d, firstGrid tie m e g fuel = some d := by
  induction fuel generalizing g k with
  | zero => omega
  | succ fuel ih =>
    rw [firstGrid]
    split
    · exact ⟨_, rfl⟩
    · rename_i hnone
      cases k with
      | zero =>
        rw [Nat.cast_zero, Int.sub_zero, hnone] at h
        cases h
      | succ k =>
        have hg : g - (k + 1 : ℕ) = g - 1 - k := by omega
        rw [hg] at h
        exact ih (by omega) h

theorem last_grid_fine (hl : Legal m e) : (10 : ℚ) ^ (leadingExponent m e - (21 : ℕ)) ≤ 2 ^ (e - 2) := by
  have hlog : m.log2 < 53 := (Nat.log2_lt hl.pos.ne').2 hl.bits
  have hlo := hl.least
  have hhi := hl.greatest
  refine ten_zpow_le_two_zpow ?_ ?_ <;> unfold leadingExponent <;> omega

theorem dropZeros_value (d : Digits) (fuel : ℕ) :
    (dropZeros d fuel).coefficient * (10 : ℚ) ^ (dropZeros d fuel).exponent =
      d.coefficient * (10 : ℚ) ^ d.exponent := by
  induction fuel generalizing d with
  | zero => rfl
  | succ fuel ih =>
    rw [dropZeros]
    split_ifs with hten
    · rw [ih]
      dsimp only
      have hcast : (d.coefficient : ℚ) = ((d.coefficient / 10 : ℕ) : ℚ) * 10 := by
        exact_mod_cast (Nat.div_mul_cancel (Nat.dvd_of_mod_eq_zero hten)).symm
      rw [hcast, zpow_add_one₀ (by norm_num)]
      ring
    · rfl

/-- The shortest decimal of a float lies in its rounding interval. -/
theorem shortest_within (tie : Tie) (hl : Legal m e) :
    0 < (shortest tie m e).coefficient ∧
      Within m e ((shortest tie m e).coefficient * 10 ^ (shortest tie m e).exponent) := by
  obtain ⟨c, hc⟩ := onGrid_isSome tie hl.pos (last_grid_fine hl)
  obtain ⟨d, hd⟩ : ∃ d, firstGrid tie m e (leadingExponent m e) 22 = some d := firstGrid_isSome (by norm_num) hc
  obtain ⟨hpos, hwithin⟩ := firstGrid_onGrid hl.pos hd
  have hshort : shortest tie m e = dropZeros d 400 := by rw [shortest, hd]
  rw [hshort, dropZeros_value]
  refine ⟨?_, hwithin⟩
  rw [Nat.pos_iff_ne_zero]
  intro h0
  have hvalue := dropZeros_value d 400
  rw [h0, Nat.cast_zero, zero_mul] at hvalue
  have hgt : (0 : ℚ) < d.coefficient * 10 ^ d.exponent := mul_pos (by exact_mod_cast hpos) (by positivity)
  exact hgt.ne hvalue

/-- The float nearest to the shortest decimal of a float has the same units. -/
theorem units_nearest_shortest (tie : Tie) (hl : Legal m e) {x : Float}
    (hx : Nearest x (shortest tie m e).coefficient (shortest tie m e).exponent) :
    x.isNaN = false ∧ unitsOf x = magnitude m e := by
  obtain ⟨-, hwithin⟩ := shortest_within tie hl
  refine ⟨hx.defined, ?_⟩
  rw [hx.units, decimalUnits, hwithin.rounds hl]
  have hlt : magnitude m e < limit :=
    magnitude_lt_of_exponent_lt hl.bits hl.least le_rfl (by have := hl.greatest; omega)
  exact clamped_of_le (Int.natCast_nonneg _) (by exact_mod_cast hlt.le)

end FleetEnergy.Decimal

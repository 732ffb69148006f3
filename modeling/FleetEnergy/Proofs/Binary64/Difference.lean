import FleetEnergy.Proofs.Binary64.Sum

/-! Differences of floats, and that a float above another is not missed on the way back: adding the difference of
the two to the lower one leads up, even where the difference had to be rounded. -/
namespace FleetEnergy.Binary64
open Float.Model (Format UnpackedFloat)
open Float.Model.UnpackedFloat
set_option autoImplicit false

/-! ## Differences -/

theorem apply_neg (s : Sign) (z : Int) : (-s).apply z = -s.apply z := by
  cases s
  · exact (Int.neg_neg z).symm
  · rfl

theorem units_neg (u : UnpackedFloat) : units u.neg = -units u := by
  cases u with
  | infinity s => exact apply_neg s limit
  | finite s m e h => exact apply_neg s (magnitude m e)
  | _ => rfl

theorem isFinite_neg (u : UnpackedFloat) : u.neg.isFinite = u.isFinite := by cases u <;> rfl

theorem InRange.neg {u : UnpackedFloat} (hu : InRange u) : InRange u.neg := by
  obtain ⟨hc, hs⟩ := hu
  cases u with
  | finite s m e h =>
    refine ⟨hc, ?_⟩
    rw [saturate] at hs
    split_ifs at hs with he
    exact if_neg he
  | _ => exact ⟨trivial, rfl⟩

theorem reading_neg (x : Float) : reading (-x) = (reading x).neg := by
  have hrange := (inRange_reading x).neg
  exact (unpack_pack _ hrange.canonical).trans hrange.saturated

theorem sub_eq_add_neg (u v : UnpackedFloat) :
    UnpackedFloat.sub Format.binary64 u v = UnpackedFloat.add Format.binary64 u v.neg := by
  cases u with
  | finite s m e h =>
    cases v with
    | finite s' m' e' h' => simp only [UnpackedFloat.sub, UnpackedFloat.add, UnpackedFloat.neg, apply_neg, Int.sub_eq_add_neg]
    | _ => rfl
  | _ => cases v <;> rfl

theorem reading_sub (x y : Float) :
    reading (x - y) = saturate (UnpackedFloat.sub Format.binary64 (reading x) (reading y)) := by
  refine unpack_pack _ ?_
  rw [sub_eq_add_neg]
  exact canonical_add (inRange_reading x) (inRange_reading y).neg

variable {x y : Float}

/-- The difference of finite floats is defined, and it is the exact difference rounded. -/
theorem sub_finite (hx : x.isFinite = true) (hy : y.isFinite = true) :
    (x - y).isNaN = false ∧ unitsOf (x - y) = clamped (roundInt (unitsOf x - unitsOf y)) := by
  obtain ⟨hc, hf, hu⟩ := add_eq (inRange_reading x) (inRange_reading y).neg hx ((isFinite_neg _).trans hy)
  rw [← sub_eq_add_neg] at hc hf hu
  obtain ⟨hn, hunits⟩ := defined_of_saturate (reading_sub x y) hc hf
  rw [hunits, hu, units_neg]
  exact ⟨hn, rfl⟩

theorem reading_infinity_sub (hx : x.isFinite = true) (hy : reading y = .infinity .positive) :
    reading (y - x) = .infinity .positive := by
  have hs : UnpackedFloat.sub Format.binary64 (reading y) (reading x) = .infinity .positive := by
    obtain ⟨s, hr⟩ | ⟨s, m, e, hm, hr⟩ := @finite_cases (reading x) hx <;> rw [hr, hy] <;> rfl
  have hr := reading_sub y x
  rwa [hs] at hr

/-- A difference is finite only between finite floats. -/
theorem isFinite_of_sub (h : (x - y).isFinite = true) : x.isFinite = true ∧ y.isFinite = true := by
  by_contra hn
  have hs : (UnpackedFloat.sub Format.binary64 (reading x) (reading y)).isFinite = false := by
    change ¬((reading x).isFinite = true ∧ (reading y).isFinite = true) at hn
    cases hx : reading x with
    | notANumber => rfl
    | infinity s =>
      cases hy : reading y with
      | infinity s' => cases s <;> cases s' <;> rfl
      | _ => rfl
    | _ =>
      cases hy : reading y with
      | notANumber => rfl
      | infinity s' => rfl
      | _ => rw [hx, hy] at hn; exact absurd ⟨rfl, rfl⟩ hn
  have hr := reading_sub x y
  have hf : (reading (x - y)).isFinite = false := by
    rw [hr]
    cases hu : UnpackedFloat.sub Format.binary64 (reading x) (reading y) with
    | finite s m e hm => rw [hu] at hs; cases hs
    | zero s => rw [hu] at hs; cases hs
    | _ => rfl
  change (reading (x - y)).isFinite = true at h
  rw [hf] at h
  cases h

/-! ## Gaps between floats -/

/-- At most 53 significant bits, and all of them unless the last one stands for a unit. -/
def Sharp (z : Int) : Prop := ∃ (a : Int) (j : Nat), z = a * 2 ^ j ∧ a.natAbs < 2 ^ 53 ∧ (2 ^ 52 ≤ a.natAbs ∨ j = 0)

theorem sharp_units {u : UnpackedFloat} (hu : Canonical u) (hf : u.isFinite = true) : Sharp (units u) := by
  cases u with
  | notANumber => cases hf
  | infinity s => cases hf
  | zero s => exact ⟨0, 0, rfl, by norm_num, .inr rfl⟩
  | finite s m e h =>
    obtain ⟨hm, he, hn⟩ := hu
    refine ⟨s.apply m, (e + 1074).toNat, ?_, ?_, ?_⟩
    · cases s <;> simp only [units, magnitude, Sign.apply] <;> push_cast <;> ring
    · cases s <;> simp only [Sign.apply] <;> omega
    · cases s <;> simp only [Sign.apply] <;> omega

theorem sharp_unitsOf {x : Float} (hx : x.isFinite = true) : Sharp (unitsOf x) := sharp_units (canonical_reading x) hx

theorem roundInt_mul_two_pow {a : Int} (ha : a.natAbs ≤ 2 ^ 53) (j : Nat) : roundInt (a * 2 ^ j) = a * 2 ^ j := by
  have hp : ((2 : Int) ^ j).natAbs = 2 ^ j := Int.natAbs_pow 2 j
  have hr : roundNat (a.natAbs * 2 ^ j) = a.natAbs * 2 ^ j := by
    rcases ha.lt_or_eq with h | h
    · exact roundNat_mul_two_pow h j
    · have hs : 2 ^ 53 * 2 ^ j = 2 ^ 52 * 2 ^ (j + 1) := by ring
      rw [h, hs]
      exact roundNat_mul_two_pow (by norm_num) (j + 1)
  rw [roundInt, Int.natAbs_mul, hp, hr, ← hp, ← Int.natAbs_mul, Int.sign_mul_natAbs]

/-- Between a float and one above it there is room for a step that is a float itself and leads to a float. -/
theorem exists_gap {y z : Int} (hy : Sharp y) (hz : Sharp z) (h : y < z) :
    ∃ g, 0 < g ∧ g ≤ z - y ∧ roundInt g = g ∧ roundInt (y + g) = y + g := by
  obtain ⟨a, j, rfl, ha, han⟩ := hy
  obtain ⟨b, k, rfl, hb, -⟩ := hz
  have hone (i : Nat) : roundInt ((2 : Int) ^ i) = 2 ^ i := by
    have := roundInt_mul_two_pow (a := 1) (by norm_num) i
    rwa [one_mul] at this
  have hstep (i : Nat) (c : Int) (hc : (c + 1).natAbs ≤ 2 ^ 53) : roundInt (c * 2 ^ i + 2 ^ i) = c * 2 ^ i + 2 ^ i := by
    have := roundInt_mul_two_pow hc i
    rwa [add_mul, one_mul] at this
  rcases le_or_gt j k with hjk | hjk
  · -- Both are multiples of the last place of the lower one.
    obtain ⟨i, rfl⟩ := Nat.exists_eq_add_of_le hjk
    have hp : (0 : Int) < 2 ^ j := by positivity
    have hz : b * 2 ^ (j + i) = b * 2 ^ i * 2 ^ j := by ring
    rw [hz] at h ⊢
    have hab : a < b * 2 ^ i := lt_of_mul_lt_mul_right h hp.le
    refine ⟨2 ^ j, hp, ?_, hone j, hstep j a (by omega)⟩
    nlinarith
  · -- The lower one has the longer last place, so it is negative and the larger one in size.
    obtain ⟨i, rfl⟩ := Nat.exists_eq_add_of_lt hjk
    have hp : (0 : Int) < 2 ^ (k + i) := by positivity
    have hk : (2 : Int) ^ k ≤ 2 ^ (k + i) := pow_le_pow_right₀ (by norm_num) (by omega)
    have hy : a * 2 ^ (k + i + 1) = 2 * a * 2 ^ (k + i) := by ring
    have hb' : -(2 ^ 53 - 1) * 2 ^ (k + i) ≤ b * 2 ^ k ∧ b * 2 ^ k ≤ (2 ^ 53 - 1) * 2 ^ (k + i) := by
      have hpk : (0 : Int) ≤ 2 ^ k := by positivity
      obtain ⟨hlo, hhi⟩ : -(2 ^ 53 - 1) ≤ b ∧ b ≤ 2 ^ 53 - 1 := by omega
      have hle := Int.mul_le_mul_of_nonneg_right hlo hpk
      have hge := Int.mul_le_mul_of_nonneg_right hhi hpk
      constructor <;> omega
    rw [hy] at h ⊢
    have hneg : a ≤ -2 ^ 52 := by
      by_contra hc
      have : (2 : Int) ^ 52 ≤ a := by omega
      nlinarith
    rcases hneg.lt_or_eq with hlt | rfl
    · refine ⟨2 ^ (k + i + 1), by positivity, ?_, hone _, ?_⟩
      · rw [pow_succ]
        nlinarith
      · rw [← hy]
        exact hstep _ a (by omega)
    · refine ⟨2 ^ (k + i), hp, ?_, hone _, hstep _ _ (by norm_num)⟩
      nlinarith

/-- The rounded difference leads up from the lower float, also when the sum is rounded again. -/
theorem lt_roundInt_add_sub {y z : Int} (hy : Sharp y) (hz : Sharp z) (h : y < z) :
    0 < roundInt (z - y) ∧ y < roundInt (y + roundInt (z - y)) := by
  obtain ⟨g, hg, hle, hexact, hsum⟩ := exists_gap hy hz h
  have hd : g ≤ roundInt (z - y) := hexact ▸ roundInt_mono hle
  have hs : y + g ≤ roundInt (y + roundInt (z - y)) := hsum ▸ roundInt_mono (by omega)
  omega

theorem lt_infinity (hx : x.isFinite = true) (hy : reading y = .infinity .positive) : unitsOf x < unitsOf y := by
  have hlim : unitsOf y = limit := congrArg units hy
  rw [hlim]
  exact ((isFinite_iff_units (isNaN_of_isFinite hx)).1 hx).2

/-- The way from a finite float to one above it is above zero, and it leads up. -/
theorem lt_add_sub (hx : x.isFinite = true) (hy : y.isNaN = false) (h : unitsOf x < unitsOf y) :
    (y - x).isNaN = false ∧ 0 < unitsOf (y - x) ∧ unitsOf x < unitsOf (x + (y - x)) := by
  have hl := limit_pos
  have hxn : x.isNaN = false := isNaN_of_isFinite hx
  obtain ⟨hxlo, hxhi⟩ := (isFinite_iff_units hxn).1 hx
  by_cases hyf : y.isFinite = true
  · obtain ⟨hd, hdu⟩ := sub_finite hyf hx
    obtain ⟨hpos, hup⟩ := lt_roundInt_add_sub (sharp_units (canonical_reading x) hx)
      (sharp_units (canonical_reading y) hyf) h
    change 0 < roundInt (unitsOf y - unitsOf x) at hpos
    change unitsOf x < roundInt (unitsOf x + roundInt (unitsOf y - unitsOf x)) at hup
    have hdpos : 0 < unitsOf (y - x) := by
      rw [hdu, clamped]
      omega
    refine ⟨hd, hdpos, ?_⟩
    by_cases hdf : (y - x).isFinite = true
    · -- The difference is not cut off, and the sum is what the rounded integers give.
      have hexact : unitsOf (y - x) = roundInt (unitsOf y - unitsOf x) := by
        have hlt := ((isFinite_iff_units hd).1 hdf).2
        rw [hdu, clamped] at hlt ⊢
        omega
      rw [(add_finite hx hdf).2, hexact, clamped]
      omega
    · exact lt_infinity hx (reading_add_infinity hx (reading_of_infinite hd hdf hdpos.le))
  · have hinf : reading y = .infinity .positive := by
      by_cases h0 : 0 ≤ unitsOf y
      · exact reading_of_infinite hy hyf h0
      · exact absurd ((isFinite_iff_units hy).2 ⟨by omega, by omega⟩) hyf
    have hd := reading_infinity_sub hx hinf
    have hlim : unitsOf (y - x) = limit := congrArg units hd
    refine ⟨congrArg UnpackedFloat.isNaN hd, by omega, ?_⟩
    exact lt_infinity hx (reading_add_infinity hx hd)

/-! ## No way ahead -/

/-- Something taken from itself leaves nothing, or is not defined. -/
theorem unpacked_sub_self (u : UnpackedFloat) :
    UnpackedFloat.sub Format.binary64 u u = .zero .positive ∨ UnpackedFloat.sub Format.binary64 u u = .notANumber := by
  cases u with
  | notANumber => exact .inr rfl
  | infinity s => exact .inr (by cases s <;> rfl)
  | zero s => exact .inl (by cases s <;> rfl)
  | finite s m e h => exact .inl (by simp only [UnpackedFloat.sub, Int.sub_self]; rfl)

theorem not_pos_sub_self (x : Float) : ¬(0.0 : Float) < x - x := by
  intro h
  obtain ⟨hn, hpos⟩ := pos_units h
  change (reading (x - x)).isNaN = false at hn
  change 0 < units (reading (x - x)) at hpos
  obtain hs | hs := unpacked_sub_self (reading x)
  · rw [reading_sub x x, hs] at hpos
    cases hpos
  · rw [reading_sub x x, hs] at hn
    cases hn

theorem reading_sub_of_infinite (h : x < y) (hf : ¬(x.isFinite = true ∧ y.isFinite = true)) :
    reading (x - y) = .infinity .negative := by
  obtain ⟨hx, hy⟩ := not_nan_of_lt h
  have hlt := (lt_iff_units hx hy).1 h
  have hs : UnpackedFloat.sub Format.binary64 (reading x) (reading y) = .infinity .negative := by
    have hxb := abs_unitsOf_le x
    have hyb := abs_unitsOf_le y
    change (reading x).isNaN = false at hx
    change (reading y).isNaN = false at hy
    change ¬((reading x).isFinite = true ∧ (reading y).isFinite = true) at hf
    unfold unitsOf at hlt hxb hyb
    have htop : units (.infinity .positive) = limit := rfl
    have hbot : units (.infinity .negative) = -limit := rfl
    cases hrx : reading x with
    | notANumber => rw [hrx] at hx; cases hx
    | infinity s =>
      cases s with
      | positive => rw [hrx, htop] at hlt; omega
      | negative =>
        cases hry : reading y with
        | notANumber => rw [hry] at hy; cases hy
        | infinity s' =>
          cases s' with
          | positive => rfl
          | negative => rw [hrx, hry] at hlt; omega
        | _ => rfl
    | _ =>
      cases hry : reading y with
      | notANumber => rw [hry] at hy; cases hy
      | infinity s' =>
        cases s' with
        | positive => rfl
        | negative => rw [hry, hbot] at hlt; omega
      | _ => rw [hrx, hry] at hf; exact absurd ⟨rfl, rfl⟩ hf
  have hr := reading_sub x y
  rwa [hs] at hr

/-- From a float to one below it the way is not above zero. -/
theorem not_pos_sub (h : x < y) : ¬(0.0 : Float) < x - y := by
  intro hd
  obtain ⟨hx, hy⟩ := not_nan_of_lt h
  have hlt := (lt_iff_units hx hy).1 h
  have hpos := (pos_units hd).2
  have hl := limit_pos
  by_cases hf : x.isFinite = true ∧ y.isFinite = true
  · have h0 : roundInt (unitsOf x - unitsOf y) ≤ roundInt 0 := roundInt_mono (by omega)
    have hz : roundInt 0 = 0 := rfl
    rw [(sub_finite hf.1 hf.2).2, clamped] at hpos
    omega
  · rw [unitsOf, reading_sub_of_infinite h hf] at hpos
    simp only [units, Sign.apply] at hpos
    omega

end FleetEnergy.Binary64

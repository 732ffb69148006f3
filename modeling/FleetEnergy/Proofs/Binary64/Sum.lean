import FleetEnergy.Proofs.Binary64.Rounding

/-! Sums of floats: the sum of two finite floats is the sum of their units, rounded and kept between the
infinities. Adding what is not negative therefore never leads back. -/
namespace FleetEnergy.Binary64
open Float.Model (Format UnpackedFloat)
open Float.Model.UnpackedFloat
set_option autoImplicit false

/-! ## Rounded integers -/

/-- The integer of 53 significant bits that is nearest to `z`; of two, the even one. -/
def roundInt (z : Int) : Int := z.sign * roundNat z.natAbs

theorem roundInt_natCast (n : Nat) : roundInt n = roundNat n := by
  rcases Nat.eq_zero_or_pos n with rfl | h
  · rfl
  · rw [roundInt, Int.sign_natCast_of_ne_zero h.ne', one_mul, Int.natAbs_natCast]

theorem roundInt_neg (z : Int) : roundInt (-z) = -roundInt z := by
  rw [roundInt, roundInt, Int.sign_neg, Int.natAbs_neg, neg_mul]

theorem roundInt_apply (s : Sign) (n : Nat) : roundInt (s.apply n) = s.apply (roundNat n) := by
  cases s
  · exact (roundInt_neg n).trans (congrArg Neg.neg (roundInt_natCast n))
  · exact roundInt_natCast n

theorem roundInt_mono {y z : Int} (h : y ≤ z) : roundInt y ≤ roundInt z := by
  have hp (n : Nat) : 0 ≤ roundInt n := by
    rw [roundInt_natCast]
    exact Int.natCast_nonneg _
  obtain ⟨a, rfl | rfl⟩ := y.eq_nat_or_neg <;> obtain ⟨b, rfl | rfl⟩ := z.eq_nat_or_neg
  · rw [roundInt_natCast, roundInt_natCast]
    exact_mod_cast roundNat_mono (by omega : a ≤ b)
  · have ha : a = 0 := by omega
    have hb : b = 0 := by omega
    rw [ha, hb]
    rfl
  · have ha := hp a
    have hb := hp b
    rw [roundInt_neg]
    omega
  · rw [roundInt_neg, roundInt_neg, roundInt_natCast, roundInt_natCast]
    have := roundNat_mono (by omega : b ≤ a)
    omega

theorem roundInt_magnitude (s : Sign) {m : Nat} (e : Int) (hm : m < 2 ^ 53) :
    roundInt (s.apply (magnitude m e)) = s.apply (magnitude m e) := by
  rw [roundInt_apply, magnitude, roundNat_mul_two_pow hm]

theorem normalize_eq (z e : Int) (s : Sign) (he : -1074 ≤ e) :
    let u := UnpackedFloat.normalize Format.binary64 z e s
    Canonical u ∧ u.isFinite = true ∧ units u = roundInt (z * 2 ^ (e + 1074).toNat) := by
  intro u
  rcases lt_trichotomy z 0 with h | h | h
  · obtain ⟨m', e', h', heq, hc, hmag⟩ := round_eq .negative (-z).toNat e (by omega) he
    have hu : u = .finite .negative m' e' h' := by
      simp only [u, UnpackedFloat.normalize, compare_lt_iff_lt.2 h, heq]
    have hz : z * 2 ^ (e + 1074).toNat = Sign.negative.apply (magnitude (-z).toNat e) := by
      rw [magnitude, Sign.apply]
      push_cast
      rw [Int.toNat_of_nonneg (by omega)]
      ring
    rw [hu, hz, roundInt_apply, ← hmag]
    exact ⟨hc, rfl, rfl⟩
  · have hu : u = .zero s := by
      simp only [u, UnpackedFloat.normalize, compare_eq_iff_eq.2 h]
    rw [hu, h, zero_mul]
    exact ⟨trivial, rfl, rfl⟩
  · obtain ⟨m', e', h', heq, hc, hmag⟩ := round_eq .positive z.toNat e (by omega) he
    have hu : u = .finite .positive m' e' h' := by
      simp only [u, UnpackedFloat.normalize, compare_gt_iff_gt.2 h, heq]
    have hz : z * 2 ^ (e + 1074).toNat = Sign.positive.apply (magnitude z.toNat e) := by
      rw [magnitude, Sign.apply]
      push_cast
      rw [Int.toNat_of_nonneg (by omega)]
    rw [hu, hz, roundInt_apply, ← hmag]
    exact ⟨hc, rfl, rfl⟩

/-! ## Between the infinities -/

def clamped (z : Int) : Int := max (-limit) (min limit z)

theorem clamped_mono {y z : Int} (h : y ≤ z) : clamped y ≤ clamped z := by
  unfold clamped
  omega

theorem units_saturate {u : UnpackedFloat} (hu : Canonical u) (hf : u.isFinite = true) :
    units (saturate u) = clamped (units u) := by
  have hl := limit_pos
  cases u with
  | notANumber => cases hf
  | infinity s => cases hf
  | zero s =>
    change (0 : Int) = clamped 0
    unfold clamped
    omega
  | finite s m e h =>
    rw [saturate]
    split_ifs with he
    · have hm := limit_le_magnitude m e (hu.2.2.resolve_right (by omega)) he
      cases s <;> simp only [units, Sign.apply, clamped] <;> omega
    · have hm := InRange.magnitude_lt (s := s) (h := h) ⟨hu, if_neg he⟩
      cases s <;> simp only [units, Sign.apply, clamped] <;> omega

theorem InRange.clamped_roundInt {u : UnpackedFloat} (hu : InRange u) (hf : u.isFinite = true) :
    clamped (roundInt (units u)) = units u := by
  have hs := units_saturate hu.canonical hf
  rw [hu.saturated] at hs
  cases u with
  | notANumber => cases hf
  | infinity s => cases hf
  | zero s => exact (congrArg clamped (rfl : roundInt 0 = 0)).trans hs.symm
  | finite s m e h =>
    rw [units, roundInt_magnitude s e hu.canonical.1]
    exact hs.symm

/-! ## Sums -/

theorem apply_decreaseExponent (s : Sign) (m : Nat) {e t : Int} (ht : -1074 ≤ t) (h : t ≤ e) :
    s.apply (decreaseExponent m e t).1 * 2 ^ (t + 1074).toNat = s.apply (magnitude m e) := by
  have he : (e + 1074).toNat = (e - t).toNat + (t + 1074).toNat := by omega
  rw [decreaseExponent, magnitude, he, pow_add, Nat.shiftLeft_eq]
  cases s <;> simp only [Sign.apply] <;> push_cast <;> ring

theorem add_eq {u v : UnpackedFloat} (hu : InRange u) (hv : InRange v) (hfu : u.isFinite = true)
    (hfv : v.isFinite = true) :
    let w := UnpackedFloat.add Format.binary64 u v
    Canonical w ∧ w.isFinite = true ∧ clamped (units w) = clamped (roundInt (units u + units v)) := by
  intro w
  cases u with
  | notANumber => cases hfu
  | infinity s => cases hfu
  | zero s =>
    cases v with
    | notANumber => cases hfv
    | infinity s' => cases hfv
    | zero s' =>
      have hw : ∃ s'', w = .zero s'' := by
        simp only [w, UnpackedFloat.add]
        split_ifs
        · exact ⟨_, rfl⟩
        · exact ⟨_, rfl⟩
      obtain ⟨s'', hw⟩ := hw
      have hz : units (.zero s) + units (.zero s') = 0 := rfl
      rw [hw, hz]
      exact ⟨trivial, rfl, congrArg clamped (rfl : (0 : Int) = roundInt 0)⟩
    | finite s' m' e' h' =>
      have hz : units (.zero s) = 0 := rfl
      rw [hz, zero_add, hv.clamped_roundInt rfl]
      refine ⟨hv.canonical, rfl, ?_⟩
      change clamped (units (.finite s' m' e' h')) = _
      rw [← units_saturate hv.canonical rfl]
      exact congrArg units hv.saturated
  | finite s m e h =>
    cases v with
    | notANumber => cases hfv
    | infinity s' => cases hfv
    | zero s' =>
      have hz : units (.zero s') = 0 := rfl
      rw [hz, add_zero, hu.clamped_roundInt rfl]
      refine ⟨hu.canonical, rfl, ?_⟩
      change clamped (units (.finite s m e h)) = _
      rw [← units_saturate hu.canonical rfl]
      exact congrArg units hu.saturated
    | finite s' m' e' h' =>
      have hmin : -1074 ≤ min e e' := le_min hu.canonical.2.1 hv.canonical.2.1
      obtain ⟨hc, hf, hn⟩ := normalize_eq
        (s.apply (decreaseExponent m e (min e e')).1 + s'.apply (decreaseExponent m' e' (min e e')).1)
        (min e e') .positive hmin
      refine ⟨hc, hf, ?_⟩
      rw [add_mul, apply_decreaseExponent s m hmin (min_le_left _ _),
        apply_decreaseExponent s' m' hmin (min_le_right _ _)] at hn
      exact congrArg clamped hn

theorem canonical_add {u v : UnpackedFloat} (hu : InRange u) (hv : InRange v) :
    Canonical (UnpackedFloat.add Format.binary64 u v) := by
  by_cases hfu : u.isFinite = true
  · by_cases hfv : v.isFinite = true
    · exact (add_eq hu hv hfu hfv).1
    · cases v with
      | notANumber => cases u <;> trivial
      | infinity s => cases u <;> trivial
      | zero s => exact absurd rfl hfv
      | finite s m e h => exact absurd rfl hfv
  · cases u with
    | notANumber => trivial
    | infinity s =>
      cases v with
      | infinity s' =>
        simp only [UnpackedFloat.add]
        split_ifs <;> trivial
      | _ => trivial
    | zero s => exact absurd rfl hfu
    | finite s m e h => exact absurd rfl hfu

/-! ## Floats -/

theorem isNaN_saturate (u : UnpackedFloat) : (saturate u).isNaN = u.isNaN := by
  unfold saturate
  split
  · split_ifs <;> rfl
  · rfl

theorem reading_add (x y : Float) :
    reading (x + y) = saturate (UnpackedFloat.add Format.binary64 (reading x) (reading y)) :=
  unpack_pack _ (canonical_add (inRange_reading x) (inRange_reading y))

variable {x y : Float}

theorem defined_of_saturate {u : UnpackedFloat} (hr : reading x = saturate u) (hc : Canonical u)
    (hf : u.isFinite = true) :
    x.isNaN = false ∧ unitsOf x = clamped (units u) := by
  constructor
  · change (reading x).isNaN = false
    rw [hr, isNaN_saturate]
    exact isNaN_of_isFinite hf
  · rw [unitsOf, hr, units_saturate hc hf]

/-- The sum of finite floats is defined, and it is the exact sum rounded. -/
theorem add_finite (hx : x.isFinite = true) (hy : y.isFinite = true) :
    (x + y).isNaN = false ∧ unitsOf (x + y) = clamped (roundInt (unitsOf x + unitsOf y)) := by
  obtain ⟨hc, hf, hu⟩ := add_eq (inRange_reading x) (inRange_reading y) hx hy
  obtain ⟨hn, hunits⟩ := defined_of_saturate (reading_add x y) hc hf
  exact ⟨hn, hunits.trans hu⟩

theorem reading_of_infinite (hx : x.isNaN = false) (hf : ¬x.isFinite = true) (h : 0 ≤ unitsOf x) :
    reading x = .infinity .positive := by
  change (reading x).isNaN = false at hx
  change ¬(reading x).isFinite = true at hf
  unfold unitsOf at h
  have hl := limit_pos
  cases hr : reading x with
  | notANumber => rw [hr] at hx; cases hx
  | zero s => rw [hr] at hf; exact absurd rfl hf
  | finite s m e hm => rw [hr] at hf; exact absurd rfl hf
  | infinity s =>
    cases s with
    | positive => rfl
    | negative =>
      rw [hr] at h
      simp only [units, Sign.apply] at h
      omega

theorem finite_cases {u : UnpackedFloat} (h : u.isFinite = true) :
    (∃ s, u = .zero s) ∨ ∃ s m e hm, u = .finite s m e hm := by
  cases u with
  | notANumber => cases h
  | infinity s => cases h
  | zero s => exact .inl ⟨s, rfl⟩
  | finite s m e hm => exact .inr ⟨s, m, e, hm, rfl⟩

theorem reading_add_infinity (hx : x.isFinite = true) (hy : reading y = .infinity .positive) :
    reading (x + y) = .infinity .positive := by
  have hs : UnpackedFloat.add Format.binary64 (reading x) (reading y) = .infinity .positive := by
    obtain ⟨s, hr⟩ | ⟨s, m, e, hm, hr⟩ := @finite_cases (reading x) hx <;> rw [hr, hy] <;> rfl
  have hr := reading_add x y
  rwa [hs] at hr

theorem reading_infinity_add (hx : reading x = .infinity .positive) (hy : y.isNaN = false) (h : 0 ≤ unitsOf y) :
    reading (x + y) = .infinity .positive := by
  have hs : UnpackedFloat.add Format.binary64 (reading x) (reading y) = .infinity .positive := by
    by_cases hf : y.isFinite = true
    · obtain ⟨s, hr⟩ | ⟨s, m, e, hm, hr⟩ := @finite_cases (reading y) hf <;> rw [hr, hx] <;> rfl
    · rw [hx, reading_of_infinite hy hf h]
      rfl
  have hr := reading_add x y
  rwa [hs] at hr

/-- Adding what is not below zero does not lead back. -/
theorem le_add (hx : x.isFinite = true) (hy : y.isNaN = false) (h : 0 ≤ unitsOf y) :
    (x + y).isNaN = false ∧ unitsOf x ≤ unitsOf (x + y) := by
  by_cases hf : y.isFinite = true
  · obtain ⟨hn, hu⟩ := add_finite hx hf
    refine ⟨hn, ?_⟩
    rw [hu]
    calc unitsOf x = clamped (roundInt (unitsOf x)) := ((inRange_reading x).clamped_roundInt hx).symm
      _ ≤ _ := clamped_mono (roundInt_mono (by omega))
  · have hr := reading_add_infinity hx (reading_of_infinite hy hf h)
    constructor
    · exact congrArg UnpackedFloat.isNaN hr
    · have hlim : unitsOf (x + y) = limit := congrArg units hr
      rw [hlim]
      exact (abs_unitsOf_le x).2

/-- What is not below zero does not shrink when something is added that is not below zero either. -/
theorem le_add_of_nonneg (hx : x.isNaN = false) (hx0 : 0 ≤ unitsOf x) (hy : y.isNaN = false) (hy0 : 0 ≤ unitsOf y) :
    (x + y).isNaN = false ∧ unitsOf x ≤ unitsOf (x + y) := by
  by_cases hf : x.isFinite = true
  · exact le_add hf hy hy0
  · have hinf := reading_of_infinite hx hf hx0
    have hr := reading_infinity_add hinf hy hy0
    exact ⟨congrArg UnpackedFloat.isNaN hr, (congrArg units (hinf.trans hr.symm)).le⟩

/-! ## Zeros -/

theorem reading_zero : reading 0.0 = .zero .positive := rfl

theorem reading_neg_zero : reading (-0.0) = .zero .negative := rfl

theorem sub_zero (x : Float) : x - 0.0 = x := by
  have hs : UnpackedFloat.sub Format.binary64 (reading x) (reading 0.0) = reading x := by
    rw [reading_zero]
    cases reading x with
    | zero s => cases s <;> rfl
    | _ => rfl
  have hc : Canonical (UnpackedFloat.sub Format.binary64 (reading x) (reading 0.0)) := by
    rw [hs]
    exact canonical_reading x
  have hr : reading (x - 0.0) = saturate (UnpackedFloat.sub Format.binary64 (reading x) (reading 0.0)) :=
    unpack_pack _ hc
  rw [hs, (inRange_reading x).saturated] at hr
  exact eq_of_reading_eq hr

/-- Adding to a zero gives what is added, unless that is a zero too. -/
theorem zero_add {s : Sign} (hx : reading x = .zero s) (hy : ∀ s', reading y ≠ .zero s') : x + y = y := by
  have hs : UnpackedFloat.add Format.binary64 (reading x) (reading y) = reading y := by
    rw [hx]
    cases h : reading y with
    | zero s' => exact absurd h (hy s')
    | _ => rfl
  have hr := reading_add x y
  rw [hs, (inRange_reading y).saturated] at hr
  exact eq_of_reading_eq hr

theorem zero_add_zero {s s' : Sign} (hx : reading x = .zero s) (hy : reading y = .zero s') :
    reading (x + y) = .zero (if s == s' then s else .positive) := by
  have hs : UnpackedFloat.add Format.binary64 (reading x) (reading y) = .zero (if s == s' then s else .positive) := by
    rw [hx, hy]
    cases s <;> cases s' <;> rfl
  have hr := reading_add x y
  rw [hs] at hr
  exact hr

theorem normalize_ne_neg_zero (z e : Int) (he : -1074 ≤ e) :
    UnpackedFloat.normalize Format.binary64 z e .positive ≠ .zero .negative := by
  rcases lt_trichotomy z 0 with h | h | h
  · obtain ⟨m', e', h', heq, -⟩ := round_eq .negative (-z).toNat e (by omega) he
    simp only [UnpackedFloat.normalize, compare_lt_iff_lt.2 h, heq]
    exact nofun
  · simp only [UnpackedFloat.normalize, compare_eq_iff_eq.2 h]
    exact nofun
  · obtain ⟨m', e', h', heq, -⟩ := round_eq .positive z.toNat e (by omega) he
    simp only [UnpackedFloat.normalize, compare_gt_iff_gt.2 h, heq]
    exact nofun

theorem add_ne_neg_zero {u v : UnpackedFloat} (hu : Canonical u) (hv : Canonical v) (hn : v ≠ .zero .negative) :
    UnpackedFloat.add Format.binary64 u v ≠ .zero .negative := by
  cases u with
  | notANumber => exact nofun
  | infinity s =>
    cases v with
    | infinity s' =>
      simp only [UnpackedFloat.add]
      split_ifs <;> exact nofun
    | _ => exact nofun
  | zero s =>
    cases v with
    | zero s' =>
      cases s' with
      | positive => cases s <;> exact nofun
      | negative => exact absurd rfl hn
    | _ => exact nofun
  | finite s m e h =>
    cases v with
    | finite s' m' e' h' => exact normalize_ne_neg_zero _ _ (le_min hu.2.1 hv.2.1)
    | _ => exact nofun

theorem saturate_ne_neg_zero {w : UnpackedFloat} (h : w ≠ .zero .negative) : saturate w ≠ .zero .negative := by
  cases w with
  | finite s m e hm =>
    rw [saturate]
    split_ifs <;> simp
  | _ => exact h

/-- A sum is the negative zero only if what is added is. -/
theorem reading_add_ne_neg_zero (hx : x.isFinite = true) (hy : y.isFinite = true)
    (hn : reading y ≠ .zero .negative) : reading (x + y) ≠ .zero .negative := by
  obtain ⟨hc, -, -⟩ := add_eq (inRange_reading x) (inRange_reading y) hx hy
  rw [reading_add x y]
  exact saturate_ne_neg_zero (add_ne_neg_zero (canonical_reading x) (canonical_reading y) hn)

/-- The same float, or two zeros. -/
def SameUpToZero (x y : Float) : Prop := x = y ∨ ∃ s s', reading x = .zero s ∧ reading y = .zero s'

theorem SameUpToZero.add {x y : Float} (h : SameUpToZero x y) (z : Float) : SameUpToZero (x + z) (y + z) := by
  obtain rfl | ⟨s, s', hx, hy⟩ := h
  · exact .inl rfl
  · by_cases hz : ∃ t, reading z = .zero t
    · obtain ⟨t, hz⟩ := hz
      exact .inr ⟨_, _, zero_add_zero hx hz, zero_add_zero hy hz⟩
    · have hn : ∀ t, reading z ≠ .zero t := fun t ht => hz ⟨t, ht⟩
      left
      rw [zero_add hx hn, zero_add hy hn]

theorem SameUpToZero.beq_or_nan {x y : Float} (h : SameUpToZero x y) :
    (x == y) = true ∨ x.isNaN = true ∧ y.isNaN = true := by
  obtain rfl | ⟨s, s', hx, hy⟩ := h
  · cases hn : x.isNaN with
    | true => exact .inr ⟨rfl, rfl⟩
    | false => exact .inl ((beq_iff_units hn hn).2 rfl)
  · have hxn : x.isNaN = false := congrArg UnpackedFloat.isNaN hx
    have hyn : y.isNaN = false := congrArg UnpackedFloat.isNaN hy
    left
    rw [beq_iff_units hxn hyn, unitsOf, unitsOf, hx, hy]
    rfl

/-! ## Any summands -/

theorem unpacked_add_comm (u v : UnpackedFloat) :
    UnpackedFloat.add Format.binary64 u v = UnpackedFloat.add Format.binary64 v u := by
  cases u with
  | notANumber => cases v <;> rfl
  | infinity s =>
    cases v with
    | infinity s' => cases s <;> cases s' <;> rfl
    | _ => rfl
  | zero s =>
    cases v with
    | zero s' => cases s <;> cases s' <;> rfl
    | _ => rfl
  | finite s m e h =>
    cases v with
    | finite s' m' e' h' => simp only [UnpackedFloat.add, min_comm e e', Int.add_comm]
    | _ => rfl

/-- What is not the negative zero does not become it by adding to it. -/
theorem add_stays_ne_neg_zero (hn : reading x ≠ .zero .negative) (y : Float) :
    reading (x + y) ≠ .zero .negative := by
  rw [reading_add x y, unpacked_add_comm]
  exact saturate_ne_neg_zero (add_ne_neg_zero (canonical_reading y) (canonical_reading x) hn)

theorem add_positive_zero (hn : reading x ≠ .zero .negative) : x + 0.0 = x := by
  by_cases hz : ∃ s, reading x = .zero s
  · obtain ⟨s, hs⟩ := hz
    cases s with
    | negative => exact absurd hs hn
    | positive => exact eq_of_reading_eq ((zero_add_zero hs reading_zero).trans hs.symm)
  · have hs : UnpackedFloat.add Format.binary64 (reading 0.0) (reading x) = reading x := by
      rw [reading_zero]
      cases h : reading x with
      | zero s => exact absurd ⟨s, h⟩ hz
      | _ => rfl
    have hr := reading_add x 0.0
    rw [unpacked_add_comm, hs, (inRange_reading x).saturated] at hr
    exact eq_of_reading_eq hr

end FleetEnergy.Binary64

import FleetEnergy.Proofs.Binary64.Packing

/-! Comparison of floats is comparison of integers: every float counts as a whole number of units, the
unit being the least positive float. -/
namespace FleetEnergy.Binary64
open Float.Model (Format UnpackedFloat)
open Float.Model.UnpackedFloat
set_option autoImplicit false

/-! ## Units -/

/-- The units of a mantissa with an exponent. -/
def magnitude (m : Nat) (e : Int) : Nat := m * 2 ^ (e + 1074).toNat

/-- The units of infinity: those of the power of two that comes after the last exponent. -/
def limit : Nat := magnitude (2 ^ 52) 972

/-- The units of the number one. -/
def oneUnits : Nat := magnitude 1 0

/-- A number in units; an undefined one counts as zero. -/
def units : UnpackedFloat → Int
  | .finite s m e _ => s.apply (magnitude m e)
  | .infinity s => s.apply limit
  | _ => 0

theorem magnitude_pos (m : Nat) (e : Int) (hm : 0 < m) : 0 < magnitude m e :=
  Nat.mul_pos hm (Nat.two_pow_pos _)

theorem oneUnits_pos : 0 < oneUnits := magnitude_pos 1 0 Nat.one_pos

theorem limit_pos : 0 < limit := magnitude_pos _ _ (by norm_num)

theorem magnitude_lt_of_exponent_lt {m m' : Nat} {e e' : Int} (hm : m < 2 ^ 53) (he : -1074 ≤ e)
    (hm' : 2 ^ 52 ≤ m') (h : e < e') : magnitude m e < magnitude m' e' := by
  have hp : 2 ^ ((e + 1074).toNat + 1) ≤ 2 ^ (e' + 1074).toNat :=
    Nat.pow_le_pow_right (by norm_num) (by omega)
  calc magnitude m e < 2 ^ 53 * 2 ^ (e + 1074).toNat := Nat.mul_lt_mul_of_pos_right hm (Nat.two_pow_pos _)
    _ = 2 ^ 52 * 2 ^ ((e + 1074).toNat + 1) := by ring
    _ ≤ magnitude m' e' := Nat.mul_le_mul hm' hp

theorem limit_le_magnitude (m : Nat) (e : Int) (hm : 2 ^ 52 ≤ m) (he : 971 < e) : limit ≤ magnitude m e :=
  Nat.mul_le_mul hm (Nat.pow_le_pow_right (by norm_num) (by omega))

/-- Canonical numbers are compared by their exponents first. -/
theorem compare_magnitude {m m' : Nat} {e e' : Int}
    (hc : m < 2 ^ 53 ∧ -1074 ≤ e ∧ (2 ^ 52 ≤ m ∨ e = -1074))
    (hc' : m' < 2 ^ 53 ∧ -1074 ≤ e' ∧ (2 ^ 52 ≤ m' ∨ e' = -1074)) :
    (compare e e').then (compare m m') = compare (magnitude m e) (magnitude m' e') := by
  obtain ⟨hm, he, hn⟩ := hc
  obtain ⟨hm', he', hn'⟩ := hc'
  rcases lt_trichotomy e e' with h | rfl | h
  · rw [compare_lt_iff_lt.2 h, compare_lt_iff_lt.2
      (magnitude_lt_of_exponent_lt hm he (hn'.resolve_right (by omega)) h)]
    rfl
  · rw [compare_eq_iff_eq.2 rfl, Ordering.eq_then]
    unfold magnitude
    have hp := Nat.two_pow_pos (e + 1074).toNat
    rcases lt_trichotomy m m' with h | rfl | h
    · rw [compare_lt_iff_lt.2 h, compare_lt_iff_lt.2 (Nat.mul_lt_mul_of_pos_right h hp)]
    · rw [compare_eq_iff_eq.2 rfl, compare_eq_iff_eq.2 rfl]
    · rw [compare_gt_iff_gt.2 h, compare_gt_iff_gt.2 (Nat.mul_lt_mul_of_pos_right h hp)]
  · rw [compare_gt_iff_gt.2 h, compare_gt_iff_gt.2
      (magnitude_lt_of_exponent_lt hm' he' (hn.resolve_right (by omega)) h)]
    rfl

/-! ## Comparison -/

/-- In range: canonical, and not beyond the last exponent. -/
structure InRange (u : UnpackedFloat) : Prop where
  canonical : Canonical u
  saturated : saturate u = u

theorem InRange.magnitude_lt {s : Sign} {m : Nat} {e : Int} {h : 0 < m} (hu : InRange (.finite s m e h)) :
    magnitude m e < limit := by
  refine magnitude_lt_of_exponent_lt hu.canonical.1 hu.canonical.2.1 (le_refl _) ?_
  by_contra hc
  have := hu.saturated
  rw [saturate, if_pos (by omega)] at this
  cases this

theorem some_compare {a b : Int} :
    (a < b → some Ordering.lt = some (compare a b)) ∧ (a = b → some Ordering.eq = some (compare a b)) ∧
      (b < a → some Ordering.gt = some (compare a b)) :=
  ⟨fun h => congrArg some (compare_lt_iff_lt.2 h).symm, fun h => congrArg some (compare_eq_iff_eq.2 h).symm,
    fun h => congrArg some (compare_gt_iff_gt.2 h).symm⟩

/-- The comparison of two defined numbers is that of their units. -/
theorem compare_eq_units {u v : UnpackedFloat} (hu : InRange u) (hv : InRange v)
    (hun : u.isNaN = false) (hvn : v.isNaN = false) : u.compare v = some (compare (units u) (units v)) := by
  have hl : (0 : Int) < limit := by exact_mod_cast limit_pos
  cases u with
  | notANumber => cases hun
  | infinity s =>
    cases v with
    | notANumber => cases hvn
    | infinity s' =>
      cases s <;> cases s' <;> simp only [UnpackedFloat.compare, units, Sign.apply]
      · exact some_compare.2.1 rfl
      · exact some_compare.1 (by omega)
      · exact some_compare.2.2 (by omega)
      · exact some_compare.2.1 rfl
    | zero s' =>
      cases s <;> simp only [UnpackedFloat.compare, units, Sign.apply]
      · exact some_compare.1 (by omega)
      · exact some_compare.2.2 (by omega)
    | finite s' m' e' h' =>
      have hm' := hv.magnitude_lt
      cases s <;> cases s' <;> simp only [UnpackedFloat.compare, units, Sign.apply]
      · exact some_compare.1 (by omega)
      · exact some_compare.1 (by omega)
      · exact some_compare.2.2 (by omega)
      · exact some_compare.2.2 (by omega)
  | zero s =>
    cases v with
    | notANumber => cases hvn
    | infinity s' =>
      cases s' <;> simp only [UnpackedFloat.compare, units, Sign.apply]
      · exact some_compare.2.2 (by omega)
      · exact some_compare.1 (by omega)
    | zero s' => exact some_compare.2.1 rfl
    | finite s' m' e' h' =>
      have hp' := magnitude_pos m' e' h'
      cases s' <;> simp only [UnpackedFloat.compare, units, Sign.apply]
      · exact some_compare.2.2 (by omega)
      · exact some_compare.1 (by omega)
  | finite s m e h =>
    have hp := magnitude_pos m e h
    have hm := hu.magnitude_lt
    cases v with
    | notANumber => cases hvn
    | infinity s' =>
      cases s <;> cases s' <;> simp only [UnpackedFloat.compare, units, Sign.apply]
      · exact some_compare.2.2 (by omega)
      · exact some_compare.1 (by omega)
      · exact some_compare.2.2 (by omega)
      · exact some_compare.1 (by omega)
    | zero s' =>
      cases s <;> simp only [UnpackedFloat.compare, units, Sign.apply]
      · exact some_compare.1 (by omega)
      · exact some_compare.2.2 (by omega)
    | finite s' m' e' h' =>
      have hp' := magnitude_pos m' e' h'
      have hc := compare_magnitude hu.canonical hv.canonical
      cases s <;> cases s' <;> simp only [UnpackedFloat.compare, units, Sign.apply]
      · rw [hc]
        rcases lt_trichotomy (magnitude m e) (magnitude m' e') with h | h | h
        · rw [compare_lt_iff_lt.2 h]
          exact some_compare.2.2 (by omega)
        · rw [compare_eq_iff_eq.2 h]
          exact some_compare.2.1 (by omega)
        · rw [compare_gt_iff_gt.2 h]
          exact some_compare.1 (by omega)
      · exact some_compare.1 (by omega)
      · exact some_compare.2.2 (by omega)
      · rw [hc]
        rcases lt_trichotomy (magnitude m e) (magnitude m' e') with h | h | h
        · rw [compare_lt_iff_lt.2 h]
          exact some_compare.1 (by omega)
        · rw [compare_eq_iff_eq.2 h]
          exact some_compare.2.1 (by omega)
        · rw [compare_gt_iff_gt.2 h]
          exact some_compare.2.2 (by omega)

/-! ## Floats -/

theorem inRange_reading (x : Float) : InRange (reading x) :=
  ⟨canonical_reading x, saturate_unpack _⟩

/-- A float in units. -/
def unitsOf (x : Float) : Int := units (reading x)

variable {x y : Float}

theorem compare_reading (hx : x.isNaN = false) (hy : y.isNaN = false) :
    (reading x).compare (reading y) = some (compare (unitsOf x) (unitsOf y)) :=
  compare_eq_units (inRange_reading x) (inRange_reading y) hx hy

theorem compare_reading_nan (h : x.isNaN = true ∨ y.isNaN = true) :
    (reading x).compare (reading y) = none := by
  change (reading x).isNaN = true ∨ (reading y).isNaN = true at h
  cases hx : reading x <;> cases hy : reading y <;> simp_all [UnpackedFloat.isNaN] <;> rfl

theorem lt_iff_units (hx : x.isNaN = false) (hy : y.isNaN = false) : x < y ↔ unitsOf x < unitsOf y := by
  change decide (((reading x).compare (reading y) == some .lt) = true) = true ↔ _
  rw [decide_eq_true_iff, compare_reading hx hy, beq_iff_eq, Option.some.injEq, compare_lt_iff_lt]

theorem le_iff_units (hx : x.isNaN = false) (hy : y.isNaN = false) : x ≤ y ↔ unitsOf x ≤ unitsOf y := by
  change decide (((reading x).compare (reading y)).any (·.isLE) = true) = true ↔ _
  rw [decide_eq_true_iff, compare_reading hx hy, Option.any_some, Ordering.isLE_iff_ne_gt]
  exact compare_gt_iff_gt.not.trans not_lt

theorem beq_iff_units (hx : x.isNaN = false) (hy : y.isNaN = false) : (x == y) = true ↔ unitsOf x = unitsOf y := by
  change ((reading x).compare (reading y) == some .eq) = true ↔ _
  rw [compare_reading hx hy, beq_iff_eq, Option.some.injEq, compare_eq_iff_eq]

theorem not_lt_iff_le (hx : x.isNaN = false) (hy : y.isNaN = false) : ¬x < y ↔ y ≤ x := by
  rw [lt_iff_units hx hy, le_iff_units hy hx]
  omega

theorem not_le_iff_lt (hx : x.isNaN = false) (hy : y.isNaN = false) : ¬x ≤ y ↔ y < x := by
  rw [le_iff_units hx hy, lt_iff_units hy hx]
  omega

theorem not_nan_of_lt (h : x < y) : x.isNaN = false ∧ y.isNaN = false := by
  change decide (((reading x).compare (reading y) == some .lt) = true) = true at h
  rw [decide_eq_true_iff, beq_iff_eq] at h
  constructor <;> rw [← Bool.not_eq_true] <;> intro hn
  · rw [compare_reading_nan (.inl hn)] at h
    cases h
  · rw [compare_reading_nan (.inr hn)] at h
    cases h

theorem not_nan_of_le (h : x ≤ y) : x.isNaN = false ∧ y.isNaN = false := by
  change decide (((reading x).compare (reading y)).any (·.isLE) = true) = true at h
  rw [decide_eq_true_iff] at h
  constructor <;> rw [← Bool.not_eq_true] <;> intro hn
  · rw [compare_reading_nan (.inl hn)] at h
    cases h
  · rw [compare_reading_nan (.inr hn)] at h
    cases h

theorem pos_units (h : 0.0 < x) : x.isNaN = false ∧ 0 < unitsOf x := by
  obtain ⟨hz, hx⟩ := not_nan_of_lt h
  have hpos := (lt_iff_units hz hx).1 h
  have h0 : unitsOf 0.0 = 0 := rfl
  exact ⟨hx, by omega⟩

theorem reading_ne_zero (h : unitsOf x ≠ 0) (s : Sign) : reading x ≠ .zero s := fun hs => h (congrArg units hs)

/-! ## Bounds -/

theorem isNaN_of_isFinite {u : UnpackedFloat} (h : u.isFinite = true) : u.isNaN = false := by
  cases u <;> first | rfl | cases h

theorem abs_unitsOf_le (x : Float) : -limit ≤ unitsOf x ∧ unitsOf x ≤ limit := by
  have hr := inRange_reading x
  have hl := limit_pos
  unfold unitsOf
  cases h : reading x with
  | notANumber => simp only [units]; omega
  | infinity s => cases s <;> simp only [units, Sign.apply] <;> omega
  | zero s => simp only [units]; omega
  | finite s m e hm =>
    rw [h] at hr
    have := hr.magnitude_lt
    cases s <;> simp only [units, Sign.apply] <;> omega

/-- The finite floats are those strictly between the infinities. -/
theorem isFinite_iff_units (hx : x.isNaN = false) :
    x.isFinite = true ↔ -limit < unitsOf x ∧ unitsOf x < limit := by
  have hr := inRange_reading x
  have hl := limit_pos
  change (reading x).isNaN = false at hx
  change (reading x).isFinite = true ↔ _
  unfold unitsOf
  cases h : reading x with
  | notANumber => rw [h] at hx; cases hx
  | infinity s =>
    cases s <;> simp only [units, Sign.apply, UnpackedFloat.isFinite, Bool.false_eq_true, false_iff] <;> omega
  | zero s =>
    simp only [units, UnpackedFloat.isFinite, true_iff]
    omega
  | finite s m e hm =>
    rw [h] at hr
    have := hr.magnitude_lt
    cases s <;> simp only [units, Sign.apply, UnpackedFloat.isFinite, true_iff] <;> omega

theorem reading_of_units_zero (hx : x.isNaN = false) (h : unitsOf x = 0) : ∃ s, reading x = .zero s := by
  have hl := limit_pos
  change (reading x).isNaN = false at hx
  unfold unitsOf at h
  cases hr : reading x with
  | notANumber => rw [hr] at hx; cases hx
  | zero s => exact ⟨s, rfl⟩
  | infinity s =>
    rw [hr] at h
    cases s <;> simp only [units, Sign.apply] at h <;> omega
  | finite s m e hm =>
    rw [hr] at h
    have := magnitude_pos m e hm
    cases s <;> simp only [units, Sign.apply] at h <;> omega

end FleetEnergy.Binary64

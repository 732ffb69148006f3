import FleetEnergy.Proofs.Binary64.Monotone
import FleetEnergy.Proofs.OrderedScalar

/-! Arithmetic that keeps the order. Where the results are defined, greater operands do not give less; two calculations
by one formula are compared term by term, whether they are exact or rounded. -/
namespace FleetEnergy
open OrderedScalar
set_option autoImplicit false

class MonotoneScalar (α : Type) [Scalar α] extends OrderedScalar α where
  le_refl {a : α} : Defined a → a ≤ a
  le_of_lt {a b : α} : a < b → a ≤ b
  defined_of_le {a b : α} : a ≤ b → Defined a ∧ Defined b
  defined_of_add {a b : α} : Defined (a + b) → Defined a ∧ Defined b
  defined_of_mul {a b : α} : Defined (a * b) → Defined a ∧ Defined b
  defined_of_div {a b : α} : Defined (a / b) → Defined a ∧ Defined b
  add_mono {a b c d : α} : Defined (a + c) → Defined (b + d) → a ≤ b → c ≤ d → a + c ≤ b + d
  mul_nonneg {a b : α} : Defined (a * b) → 0.0 ≤ a → 0.0 ≤ b → 0.0 ≤ a * b
  mul_mono {a b c d : α} : Defined (a * c) → Defined (b * d) → 0.0 ≤ a → a ≤ b → 0.0 ≤ c → c ≤ d → a * c ≤ b * d
  mul_nonpos {a b : α} : Defined (a * b) → a ≤ 0.0 → 0.0 ≤ b → a * b ≤ 0.0
  mul_mono_of_nonpos {a b c d : α} :
    Defined (a * c) → Defined (b * d) → a ≤ b → b ≤ 0.0 → 0.0 ≤ d → d ≤ c → a * c ≤ b * d
  div_nonneg {a b : α} : Defined (a / b) → 0.0 ≤ a → 0.0 < b → 0.0 ≤ a / b
  div_mono {a b c d : α} : Defined (a / c) → Defined (b / d) → 0.0 ≤ a → a ≤ b → 0.0 < d → d ≤ c → a / c ≤ b / d
  div_mono_left {a b c : α} : Defined (a / c) → Defined (b / c) → a ≤ b → 0.0 < c → a / c ≤ b / c
  sqrt_nonneg {a : α} : Defined (Scalar.sqrt a) → 0.0 ≤ Scalar.sqrt a
  /-- A literal above zero stands for a number above zero. -/
  literal_pos {m n : ℕ} : 0 < m → 0 < n → n ≤ 20 → (0.0 : α) < OfScientific.ofScientific m true n

section Float
open Binary64

theorem le_of_units {x y : Float} (hx : x.isNaN = false) (hy : y.isNaN = false) (h : unitsOf x ≤ unitsOf y) : x ≤ y :=
  (le_iff_units hx hy).2 h

theorem units_of_le {x y : Float} (h : x ≤ y) : unitsOf x ≤ unitsOf y := by
  obtain ⟨hx, hy⟩ := not_nan_of_le h
  exact (le_iff_units hx hy).1 h

instance : MonotoneScalar Float where
  le_refl h := le_of_units h h le_rfl
  le_of_lt h := by
    obtain ⟨hx, hy⟩ := not_nan_of_lt h
    exact le_of_units hx hy ((lt_iff_units hx hy).1 h).le
  defined_of_le := not_nan_of_le
  defined_of_add := Binary64.defined_of_add
  defined_of_mul := Binary64.defined_of_mul
  defined_of_div := Binary64.defined_of_div
  add_mono h h' hac hbd := le_of_units h h' (Binary64.add_mono h h' (units_of_le hac) (units_of_le hbd))
  mul_nonneg h ha hb := le_of_units rfl h (product_nonneg h (units_of_le ha) (units_of_le hb))
  mul_mono h h' ha hab hc hcd := le_of_units h h'
    (Binary64.mul_mono h h' (units_of_le ha) (units_of_le hab) (units_of_le hc) (units_of_le hcd))
  mul_nonpos h ha hb := le_of_units h rfl (product_nonpos h (units_of_le ha) (units_of_le hb))
  mul_mono_of_nonpos h h' hab hb hd hdc := le_of_units h h'
    (Binary64.mul_mono_of_nonpos h h' (units_of_le hab) (units_of_le hb) (units_of_le hd) (units_of_le hdc))
  div_nonneg h ha hb := le_of_units rfl h (quotient_nonneg h (units_of_le ha) (pos_units hb).2)
  div_mono h h' ha hab hd hdc := le_of_units h h'
    (Binary64.div_mono h h' (units_of_le ha) (units_of_le hab) (pos_units hd).2 (units_of_le hdc))
  div_mono_left h h' hab hc := le_of_units h h' (Binary64.div_mono_left h h' (units_of_le hab) (pos_units hc).2)
  sqrt_nonneg h := le_of_units rfl h (Binary64.sqrt_nonneg _)
  literal_pos hm hn0 hn := by
    obtain ⟨hdef, hpos⟩ := ofScientific_pos hm hn0 hn
    exact (lt_iff_units rfl hdef).2 hpos

end Float

/-! ## Calculations side by side -/

section Compare

variable {α : Type} [Scalar α] [MonotoneScalar α] {a b c d : α}
open MonotoneScalar

/-- The first value is not above the second one, if both are defined. -/
def Rises (a b : α) : Prop := Defined a → Defined b → a ≤ b

/-- The first value is neither below zero nor above the second one, if both are defined. -/
def Grows (a b : α) : Prop := Defined a → Defined b → 0.0 ≤ a ∧ a ≤ b

theorem MonotoneScalar.lt_of_lt_of_le (h : a < b) (h' : b ≤ c) : a < c := by
  obtain ⟨ha, hb⟩ := defined_of_lt h
  obtain ⟨-, hc⟩ := defined_of_le h'
  by_contra hn
  exact (not_lt ha hb).2 (le_trans hb hc ha h' ((not_lt ha hc).1 hn)) h

theorem Rises.refl (a : α) : Rises a a := fun ha _ => le_refl ha

theorem Grows.rises (h : Grows a b) : Rises a b := fun ha hb => (h ha hb).2

theorem Grows.of_le (h0 : 0.0 ≤ a) (h : a ≤ b) : Grows a b := fun _ _ => ⟨h0, h⟩

theorem Grows.refl (h0 : Defined a → 0.0 ≤ a) : Grows a a := fun ha _ => ⟨h0 ha, le_refl ha⟩

theorem Rises.add (h : Rises a b) (h' : Rises c d) : Rises (a + c) (b + d) := fun hac hbd => by
  obtain ⟨ha, hc⟩ := defined_of_add hac
  obtain ⟨hb, hd⟩ := defined_of_add hbd
  exact add_mono hac hbd (h ha hb) (h' hc hd)

theorem Grows.mul (h : Grows a b) (h' : Grows c d) : Grows (a * c) (b * d) := fun hac hbd => by
  obtain ⟨ha, hc⟩ := defined_of_mul hac
  obtain ⟨hb, hd⟩ := defined_of_mul hbd
  obtain ⟨ha0, hab⟩ := h ha hb
  obtain ⟨hc0, hcd⟩ := h' hc hd
  exact ⟨mul_nonneg hac ha0 hc0, mul_mono hac hbd ha0 hab hc0 hcd⟩

theorem Grows.div (h : Grows a b) (hc : Defined c → 0.0 < c) : Grows (a / c) (b / c) := fun hac hbc => by
  obtain ⟨ha, hcd⟩ := defined_of_div hac
  obtain ⟨ha0, hab⟩ := h ha (defined_of_div hbc).1
  exact ⟨div_nonneg hac ha0 (hc hcd), div_mono_left hac hbc hab (hc hcd)⟩

theorem Rises.div (h : Rises a b) (hc : 0.0 < c) : Rises (a / c) (b / c) := fun hac hbc =>
  div_mono_left hac hbc (h (defined_of_div hac).1 (defined_of_div hbc).1) hc

end Compare

end FleetEnergy

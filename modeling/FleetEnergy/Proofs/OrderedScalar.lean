import FleetEnergy.Proofs.Binary64.Order
import FleetEnergy.Scalar

/-! Numbers of which the defined ones are in a total order. -/
namespace FleetEnergy
set_option autoImplicit false

class OrderedScalar (α : Type) [Scalar α] where
  Defined : α → Prop
  le_trans {a b c : α} : Defined a → Defined b → Defined c → a ≤ b → b ≤ c → a ≤ c
  not_lt {a b : α} : Defined a → Defined b → (¬a < b ↔ b ≤ a)
  defined_of_lt {a b : α} : a < b → Defined a ∧ Defined b

open Binary64 in
/-- The floats that are numbers, the infinities among them. -/
instance : OrderedScalar Float where
  Defined x := x.isNaN = false
  le_trans ha hb hc hab hbc :=
    (le_iff_units ha hc).2 (((le_iff_units ha hb).1 hab).trans ((le_iff_units hb hc).1 hbc))
  not_lt := not_lt_iff_le
  defined_of_lt := not_nan_of_lt

end FleetEnergy

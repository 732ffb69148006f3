/-! The numbers that the energy model is computed with. Every formula of the library is written once,
over a type of class `Scalar`: with `Float` it is the program that runs, with another instance the
same formula in exact arithmetic. -/
namespace FleetEnergy
set_option autoImplicit false

/-- Arithmetic, order and the few functions that the energy model needs. -/
class Scalar (α : Type) extends Add α, Sub α, Mul α, Div α, Neg α, LT α, LE α, BEq α,
    OfScientific α where
  /-- Square root. -/
  sqrt : α → α
  /-- The angle of the point `(x, y)`, given as `atan2 y x`. -/
  atan2 : α → α → α
  /-- Absolute value. -/
  abs : α → α
  /-- Neither infinite nor undefined. -/
  isFinite : α → Bool
  /-- Half a turn. -/
  pi : α
  /-- A whole turn. -/
  tau : α
  /-- More turns than fit into an angle. -/
  turnBound : α → Nat
  decLt : ∀ a b : α, Decidable (a < b)
  decLe : ∀ a b : α, Decidable (a ≤ b)

namespace Scalar

variable {α : Type} [Scalar α]

instance (a b : α) : Decidable (a < b) := decLt a b

instance (a b : α) : Decidable (a ≤ b) := decLe a b

/-- The value where it is above zero, and zero where it is not above zero or not comparable. -/
@[specialize] def positivePart (a : α) : α := if 0.0 < a then a else 0.0

/-- Keeps a value within bounds; one that compares with neither bound is left alone. -/
@[specialize] def clamp (lo hi a : α) : α := if a < lo then lo else if hi < a then hi else a

end Scalar

/-! ## Binary floating point -/

instance : Scalar Float where
  sqrt := Float.sqrt
  atan2 := Float.atan2
  abs := Float.abs
  isFinite := Float.isFinite
  pi := 3.141592653589793
  tau := 6.283185307179586
  turnBound a := a.abs.toUInt64.toNat + 1
  decLt := inferInstance
  decLe := inferInstance

end FleetEnergy

import Mathlib.Analysis.SpecialFunctions.Complex.Arg
import FleetEnergy.Proofs.OrderedScalar
import FleetEnergy.Vec3

/-! Exact arithmetic: the formulas of the library over the real numbers. -/
namespace FleetEnergy
set_option autoImplicit false

noncomputable instance : Scalar ℝ where
  sqrt := Real.sqrt
  atan2 y x := Complex.arg ⟨x, y⟩
  abs a := |a|
  isFinite _ := true
  pi := Real.pi
  tau := 2 * Real.pi
  turnBound a := ⌈|a|⌉₊ + 1
  decLt _ _ := inferInstance
  decLe _ _ := inferInstance

instance : OrderedScalar ℝ where
  Defined _ := True
  le_trans _ _ _ h h' := h.trans h'
  not_lt _ _ := not_lt
  defined_of_lt _ := ⟨trivial, trivial⟩

namespace Exact

theorem zero_lit : (0.0 : ℝ) = 0 := by norm_num

theorem one_lit : (1.0 : ℝ) = 1 := by norm_num

/-! ## Lengths -/

theorem length_nonneg (a : Vec3 ℝ) : 0 ≤ a.length := Real.sqrt_nonneg _

theorem length_sq (a : Vec3 ℝ) : a.length * a.length = a.x * a.x + a.y * a.y + a.z * a.z :=
  Real.mul_self_sqrt (add_nonneg (add_nonneg (mul_self_nonneg _) (mul_self_nonneg _)) (mul_self_nonneg _))

theorem length_eq_zero_iff (a : Vec3 ℝ) : a.length = 0 ↔ a.x = 0 ∧ a.y = 0 ∧ a.z = 0 := by
  rw [← mul_self_eq_zero, length_sq]
  constructor
  · intro h
    have hx := mul_self_nonneg a.x
    have hy := mul_self_nonneg a.y
    have hz := mul_self_nonneg a.z
    exact ⟨mul_self_eq_zero.1 (by linarith), mul_self_eq_zero.1 (by linarith), mul_self_eq_zero.1 (by linarith)⟩
  · rintro ⟨hx, hy, hz⟩
    rw [hx, hy, hz]
    norm_num

end Exact

end FleetEnergy

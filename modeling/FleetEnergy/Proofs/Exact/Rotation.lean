import FleetEnergy.Proofs.Exact.Scalar
import FleetEnergy.UpdateLoop

/-! Rotations about the vertical axis. Lengths and heights stay as they are, and a heading moves by the angle of the
rotation, up to whole turns, if there is something on the ground that it is the heading of. -/
namespace FleetEnergy
set_option autoImplicit false

noncomputable def Vec3.rotate (φ : ℝ) (a : Vec3 ℝ) : Vec3 ℝ :=
  ⟨Real.cos φ * a.x - Real.sin φ * a.y, Real.sin φ * a.x + Real.cos φ * a.y, a.z⟩

/-- Nothing of the vector lies in the ground plane. -/
def Vec3.Vertical (a : Vec3 ℝ) : Prop := a.x = 0 ∧ a.y = 0

noncomputable def Snapshot.rotate (φ : ℝ) (s : Snapshot ℝ) : Snapshot ℝ := ⟨s.position.rotate φ, s.velocity.rotate φ⟩

noncomputable def MovementModel.rotate (φ : ℝ) (m : MovementModel ℝ) : MovementModel ℝ :=
  ⟨fun t => (m.position t).rotate φ, fun t => (m.velocity t).rotate φ⟩

namespace Exact

/-! ## Unwinding an angle -/

theorem coe_unwindDown (d : ℝ) (n : Nat) : ((unwindDown d n : ℝ) : Real.Angle) = d := by
  induction n generalizing d with
  | zero => rfl
  | succ n ih =>
    rw [unwindDown]
    split_ifs
    · change ((unwindDown (d - 2 * Real.pi) n : ℝ) : Real.Angle) = d
      rw [ih, Real.Angle.coe_sub, Real.Angle.coe_two_pi, sub_zero]
    · rfl

theorem coe_unwindUp (d : ℝ) (n : Nat) : ((unwindUp d n : ℝ) : Real.Angle) = d := by
  induction n generalizing d with
  | zero => rfl
  | succ n ih =>
    rw [unwindUp]
    split_ifs
    · change ((unwindUp (d + 2 * Real.pi) n : ℝ) : Real.Angle) = d
      rw [ih, Real.Angle.coe_add, Real.Angle.coe_two_pi, add_zero]
    · rfl

theorem unwindDown_le {d : ℝ} {n : Nat} (h : d ≤ Real.pi + n * (2 * Real.pi)) : unwindDown d n ≤ Real.pi := by
  induction n generalizing d with
  | zero => simpa [unwindDown] using h
  | succ n ih =>
    rw [unwindDown]
    split_ifs with hd
    · refine ih (d := d - 2 * Real.pi) ?_
      push_cast at h
      linarith
    · exact not_lt.1 hd

theorem unwindUp_le {d : ℝ} (h : d ≤ Real.pi) (n : Nat) : unwindUp d n ≤ Real.pi := by
  induction n generalizing d with
  | zero => exact h
  | succ n ih =>
    rw [unwindUp]
    split_ifs with hd
    · refine ih (d := d + 2 * Real.pi) ?_
      change d ≤ -Real.pi at hd
      linarith
    · exact h

theorem lt_unwindUp {d : ℝ} {n : Nat} (h : -Real.pi < d + n * (2 * Real.pi)) : -Real.pi < unwindUp d n := by
  induction n generalizing d with
  | zero => simpa [unwindUp] using h
  | succ n ih =>
    rw [unwindUp]
    split_ifs with hd
    · refine ih (d := d + 2 * Real.pi) ?_
      push_cast at h
      linarith
    · exact not_le.1 hd

theorem abs_le_turnBound (d : ℝ) : |d| ≤ (Scalar.turnBound d : ℕ) * (2 * Real.pi) := by
  have hceil : |d| ≤ (⌈|d|⌉₊ : ℝ) := Nat.le_ceil |d|
  have hpi := Real.two_le_pi
  change |d| ≤ ((⌈|d|⌉₊ + 1 : ℕ) : ℝ) * (2 * Real.pi)
  push_cast
  nlinarith [abs_nonneg d]

/-- The way from one angle to another is the angle between them, above minus half a turn and up to half a turn. -/
theorem angleDifference_eq (a b : ℝ) : angleDifference a b = ((b - a : ℝ) : Real.Angle).toReal := by
  have hpi := Real.pi_pos
  have hdown : unwindDown (b - a) (Scalar.turnBound (b - a)) ≤ Real.pi :=
    unwindDown_le (by linarith [le_abs_self (b - a), abs_le_turnBound (b - a)])
  have hcoe : ((angleDifference a b : ℝ) : Real.Angle) = ((b - a : ℝ) : Real.Angle) := by
    rw [angleDifference, coe_unwindUp, coe_unwindDown]
  rw [← hcoe, eq_comm, Real.Angle.toReal_coe_eq_self_iff]
  refine ⟨lt_unwindUp ?_, unwindUp_le hdown _⟩
  linarith [neg_abs_le (unwindDown (b - a) (Scalar.turnBound (b - a))),
    abs_le_turnBound (unwindDown (b - a) (Scalar.turnBound (b - a)))]

theorem angleDifference_eq_zero_iff (a b : ℝ) : angleDifference a b = 0 ↔ (b : Real.Angle) - a = 0 := by
  rw [angleDifference_eq, Real.Angle.toReal_eq_zero_iff, Real.Angle.coe_sub]

theorem angleDifference_self (a : ℝ) : angleDifference a a = 0 := by
  rw [angleDifference_eq_zero_iff, sub_self]

/-! ## Vectors -/

theorem length_rotate (φ : ℝ) (a : Vec3 ℝ) : (a.rotate φ).length = a.length := by
  have hcircle := Real.sin_sq_add_cos_sq φ
  unfold Vec3.length Vec3.rotate
  congr 1
  dsimp only
  linear_combination (a.x ^ 2 + a.y ^ 2) * hcircle

theorem z_rotate (φ : ℝ) (a : Vec3 ℝ) : (a.rotate φ).z = a.z := rfl

theorem vertical_rotate_iff (φ : ℝ) (a : Vec3 ℝ) : (a.rotate φ).Vertical ↔ a.Vertical := by
  have hcircle := Real.sin_sq_add_cos_sq φ
  constructor
  · rintro ⟨hx, hy⟩
    dsimp only [Vec3.rotate] at hx hy
    constructor
    · linear_combination Real.cos φ * hx + Real.sin φ * hy - a.x * hcircle
    · linear_combination Real.cos φ * hy - Real.sin φ * hx - a.y * hcircle
  · rintro ⟨hx, hy⟩
    simp [Vec3.Vertical, Vec3.rotate, hx, hy]

theorem heading_of_vertical {a : Vec3 ℝ} (h : a.Vertical) : a.heading = 0 := by
  change Complex.arg ⟨a.x, a.y⟩ = 0
  rw [h.1, h.2]
  exact Complex.arg_zero

theorem coe_heading_rotate (φ : ℝ) {a : Vec3 ℝ} (h : ¬a.Vertical) :
    ((a.rotate φ).heading : Real.Angle) = a.heading + φ := by
  have hne : (⟨a.x, a.y⟩ : ℂ) ≠ 0 := fun h0 => h ⟨congrArg Complex.re h0, congrArg Complex.im h0⟩
  have hunit : (⟨Real.cos φ, Real.sin φ⟩ : ℂ) = Real.Angle.cos φ + Real.Angle.sin φ * Complex.I := by
    rw [Real.Angle.cos_coe, Real.Angle.sin_coe, Complex.mk_eq_add_mul_I]
  have hunit0 : (⟨Real.cos φ, Real.sin φ⟩ : ℂ) ≠ 0 := by
    rw [Complex.mk_eq_add_mul_I, Complex.ofReal_cos, Complex.ofReal_sin, ← Complex.exp_mul_I]
    exact Complex.exp_ne_zero _
  have hmul : (⟨(a.rotate φ).x, (a.rotate φ).y⟩ : ℂ) = ⟨Real.cos φ, Real.sin φ⟩ * ⟨a.x, a.y⟩ :=
    Complex.ext rfl (add_comm _ _)
  change ((Complex.arg ⟨(a.rotate φ).x, (a.rotate φ).y⟩ : ℝ) : Real.Angle) = (Complex.arg ⟨a.x, a.y⟩ : ℝ) + φ
  rw [hmul, Complex.arg_mul_coe_angle hunit0 hne, hunit, Complex.arg_cos_add_sin_mul_I_coe_angle, add_comm]

/-- The turn between two vectors that both lie on the ground, or both do not, is the same after a rotation. -/
theorem angleDifference_rotate (φ : ℝ) {a b : Vec3 ℝ} (h : a.Vertical ↔ b.Vertical) :
    angleDifference (a.rotate φ).heading (b.rotate φ).heading = angleDifference a.heading b.heading := by
  by_cases ha : a.Vertical
  · have hb := h.1 ha
    rw [heading_of_vertical ha, heading_of_vertical hb, heading_of_vertical ((vertical_rotate_iff φ a).2 ha),
      heading_of_vertical ((vertical_rotate_iff φ b).2 hb)]
  · have hb := fun hb => ha (h.2 hb)
    rw [angleDifference_eq, angleDifference_eq, Real.Angle.coe_sub, Real.Angle.coe_sub, coe_heading_rotate φ ha,
      coe_heading_rotate φ hb, add_sub_add_right_eq_sub]

end Exact

end FleetEnergy

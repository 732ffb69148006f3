import FleetEnergy.Mobility.Statement
import FleetEnergy.Vec3

/-! Vectors by their coordinates. -/
namespace FleetEnergy.Vec3
set_option autoImplicit false

variable {α : Type}

def coordinate (axis : Axis) (p : Vec3 α) : α :=
  match axis with
  | .x => p.x
  | .y => p.y
  | .z => p.z

theorem ext_coordinates {p q : Vec3 α} (h : ∀ axis, p.coordinate axis = q.coordinate axis) : p = q := by
  obtain ⟨px, py, pz⟩ := p
  obtain ⟨qx, qy, qz⟩ := q
  obtain rfl : px = qx := h .x
  obtain rfl : py = qy := h .y
  obtain rfl : pz = qz := h .z
  rfl

variable [Scalar α]

theorem coordinate_add (p q : Vec3 α) (axis : Axis) :
    (p + q).coordinate axis = p.coordinate axis + q.coordinate axis := by
  cases axis <;> rfl

theorem coordinate_sub (p q : Vec3 α) (axis : Axis) :
    (p - q).coordinate axis = p.coordinate axis - q.coordinate axis := by
  cases axis <;> rfl

theorem coordinate_scale (p : Vec3 α) (k : α) (axis : Axis) :
    (p.scale k).coordinate axis = p.coordinate axis * k := by
  cases axis <;> rfl

theorem coordinate_zero (axis : Axis) : (zero : Vec3 α).coordinate axis = 0.0 := by cases axis <;> rfl

end FleetEnergy.Vec3

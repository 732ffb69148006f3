import FleetEnergy.Scalar

/-! Positions in metres and velocities in metres per second. The x and y axes span the ground, z is
the height. -/
namespace FleetEnergy
set_option autoImplicit false

structure Vec3 (α : Type) where
  x : α
  y : α
  z : α
deriving BEq

namespace Vec3

variable {α : Type} [Scalar α]

def zero : Vec3 α := ⟨0.0, 0.0, 0.0⟩

instance : Add (Vec3 α) := ⟨fun a b => ⟨a.x + b.x, a.y + b.y, a.z + b.z⟩⟩

instance : Sub (Vec3 α) := ⟨fun a b => ⟨a.x - b.x, a.y - b.y, a.z - b.z⟩⟩

/-- Every component times `k`. -/
def scale (a : Vec3 α) (k : α) : Vec3 α := ⟨a.x * k, a.y * k, a.z * k⟩

/-- The Euclidean norm over all three components. -/
@[specialize] def length (a : Vec3 α) : α := Scalar.sqrt (a.x * a.x + a.y * a.y + a.z * a.z)

def distance (a b : Vec3 α) : α := (a - b).length

/-- The compass direction of the vector in the ground plane; the height has no part in it. -/
def heading (a : Vec3 α) : α := Scalar.atan2 a.y a.x

def isFinite (a : Vec3 α) : Bool := Scalar.isFinite a.x && Scalar.isFinite a.y && Scalar.isFinite a.z

end Vec3

end FleetEnergy

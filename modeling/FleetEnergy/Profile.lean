import FleetEnergy.Decimal.Layout
import FleetEnergy.Notice
import FleetEnergy.Scalar

/-! The physical parameters of a vehicle, and which values of them are accepted. -/
namespace FleetEnergy
set_option autoImplicit false

/-- The parameters of a vehicle, which stay the same for a whole run. Mass in kg, area in m², moment
of inertia in kg·m², power in W, energies in Wh; the efficiencies are shares of one. -/
structure Profile (α : Type) where
  vehicleMass : α
  frontSurfaceArea : α
  airDragCoefficient : α
  internalMomentOfInertia : α
  radialDragCoefficient : α
  rollDragCoefficient : α
  constantPowerIntake : α
  propulsionEfficiency : α
  recuperationEfficiency : α
  maximumBatteryCapacity : α
  initialEnergy : α

namespace Profile

variable {α : Type} [Scalar α]

/-- A vehicle without any properties, from which records are filled in. -/
def blank : Profile α := ⟨0.0, 0.0, 0.0, 0.0, 0.0, 0.0, 0.0, 0.0, 0.0, 0.0, 0.0⟩

/-- The parameters in the order in which they are declared, under the names that they have in
records and messages. -/
def fields (p : Profile α) : List (String × α) :=
  [("vehicleMass", p.vehicleMass),
   ("frontSurfaceArea", p.frontSurfaceArea),
   ("airDragCoefficient", p.airDragCoefficient),
   ("internalMomentOfInertia", p.internalMomentOfInertia),
   ("radialDragCoefficient", p.radialDragCoefficient),
   ("rollDragCoefficient", p.rollDragCoefficient),
   ("constantPowerIntake", p.constantPowerIntake),
   ("propulsionEfficiency", p.propulsionEfficiency),
   ("recuperationEfficiency", p.recuperationEfficiency),
   ("maximumBatteryCapacity", p.maximumBatteryCapacity),
   ("initialEnergy", p.initialEnergy)]

/-- Sets the parameter of a name; `none` if no parameter has it. -/
def set? (p : Profile α) (name : String) (value : α) : Option (Profile α) :=
  match name with
  | "vehicleMass" => some { p with vehicleMass := value }
  | "frontSurfaceArea" => some { p with frontSurfaceArea := value }
  | "airDragCoefficient" => some { p with airDragCoefficient := value }
  | "internalMomentOfInertia" => some { p with internalMomentOfInertia := value }
  | "radialDragCoefficient" => some { p with radialDragCoefficient := value }
  | "rollDragCoefficient" => some { p with rollDragCoefficient := value }
  | "constantPowerIntake" => some { p with constantPowerIntake := value }
  | "propulsionEfficiency" => some { p with propulsionEfficiency := value }
  | "recuperationEfficiency" => some { p with recuperationEfficiency := value }
  | "maximumBatteryCapacity" => some { p with maximumBatteryCapacity := value }
  | "initialEnergy" => some { p with initialEnergy := value }
  | _ => none

/-! ## Accepted profiles -/

/-- Why a profile is refused: the kind of fault, the parameter and its value. -/
inductive Violation (α : Type)
  | notFinite (field : String) (value : α)
  | negative (field : String) (value : α)
  | notPositive (field : String) (value : α)
  | efficiencyOutOfRange (field : String) (value : α)

def Violation.message : Violation Float → String
  | .notFinite field value => field ++ " must be a finite number, but was " ++ plainText value
  | .negative field value => field ++ " must not be negative, but was " ++ plainText value
  | .notPositive field value => field ++ " must be greater than zero, but was " ++ plainText value
  | .efficiencyOutOfRange field value => field ++ " must be in (0, 1], but was " ++ plainText value

/-- Finite and not below zero. -/
def checkMagnitude (field : String × α) : Except (Violation α) Unit :=
  if Scalar.isFinite field.2 then
    if field.2 < 0.0 then .error (.negative field.1 field.2) else .ok ()
  else .error (.notFinite field.1 field.2)

def checkPositive (field : String × α) : Except (Violation α) Unit :=
  if field.2 ≤ 0.0 then .error (.notPositive field.1 field.2) else .ok ()

def checkEfficiency (field : String × α) : Except (Violation α) Unit :=
  if field.2 ≤ 0.0 then .error (.efficiencyOutOfRange field.1 field.2)
  else if 1.0 < field.2 then .error (.efficiencyOutOfRange field.1 field.2)
  else .ok ()

/-- Accepts a profile, or names its first fault: all parameters are finite and not negative, mass and
capacity are above zero, the efficiencies are above zero and at most one. -/
def validate (p : Profile α) : Except (Violation α) Unit := do
  p.fields.forM checkMagnitude
  [("vehicleMass", p.vehicleMass), ("maximumBatteryCapacity", p.maximumBatteryCapacity)].forM
    checkPositive
  [("propulsionEfficiency", p.propulsionEfficiency),
    ("recuperationEfficiency", p.recuperationEfficiency)].forM checkEfficiency

/-- What is said of an accepted profile: a battery that starts with more than it can hold. -/
def remarks (p : Profile Float) : List Notice :=
  if p.maximumBatteryCapacity < p.initialEnergy then
    [.warning ("Initial energy of " ++ plainText p.initialEnergy
      ++ " Wh exceeds the battery capacity of " ++ plainText p.maximumBatteryCapacity ++ " Wh.")]
  else []

/-- The verdict on a profile and what there is to say about it. -/
def review (p : Profile Float) : Except (Violation Float) Unit × List Notice :=
  match p.validate with
  | .ok () => (.ok (), p.remarks)
  | .error v => (.error v, [])

end Profile

end FleetEnergy

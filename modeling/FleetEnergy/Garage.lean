import FleetEnergy.UpdateLoop
import FleetEnergy.VehicleId

/-! The electric vehicles of a run: each with its profile, its account and its update loop. -/
namespace FleetEnergy
set_option autoImplicit false

structure Vehicle where
  id : VehicleId
  profile : Profile Float
  ledger : Ledger Float
  loop : UpdateLoop Float

namespace Vehicle

/-- A vehicle that is not armed yet. -/
def new (id : VehicleId) (profile : Profile Float) (interval : Float) : Vehicle :=
  ⟨id, profile, .new profile.initialEnergy 0.0, .new interval⟩

/-- A vehicle whose loop is armed and whose account is opened, and the time of its first firing. -/
def start (id : VehicleId) (profile : Profile Float) (interval now : Float)
    (baseline : Option (Snapshot Float)) : Vehicle × Float :=
  let (loop, ledger, nextFire) := (UpdateLoop.new interval).start now profile baseline
  (⟨id, profile, ledger, loop⟩, nextFire)

/-- Arms the loop and opens the account: the vehicle and the time of its first firing. -/
def arm (v : Vehicle) (now : Float) (baseline : Option (Snapshot Float)) :
    Except LoopFault (Vehicle × Float) :=
  match v.loop.arm now v.profile baseline with
  | .error e => .error e
  | .ok (loop, ledger, nextFire) => .ok ({ v with loop := loop, ledger := ledger }, nextFire)

def fire (v : Vehicle) (now : Float) (finished : Bool) (m : MovementModel Float)
    (rule : Recuperation) : Except LoopFault (Vehicle × Transition Float) :=
  match v.loop.fire v.ledger now finished m v.profile rule with
  | .error e => .error e
  | .ok (loop, ledger, t) => .ok ({ v with loop := loop, ledger := ledger }, t)

/-- What is left, as a share of the capacity. -/
def energyFraction (v : Vehicle) : Float := v.ledger.fraction v.profile.maximumBatteryCapacity

def setRemaining (v : Vehicle) (energy : Float) : Vehicle :=
  { v with ledger := v.ledger.setRemaining energy }

end Vehicle

/-! ## Admission -/

/-- Why a vehicle is not admitted. -/
inductive AdmissionFault
  | invalidProfile (vehicle : VehicleId) (cause : Profile.Violation Float)
  | noMobility (vehicle : VehicleId)
  | duplicate (vehicle : VehicleId)

def AdmissionFault.message : AdmissionFault → String
  | .invalidProfile id cause => "Vehicle " ++ id.text ++ " has an invalid profile: " ++ cause.message
  | .noMobility id => "Vehicle " ++ id.text ++ " has no mobility model"
  | .duplicate id => "Vehicle " ++ id.text ++ " was already admitted"

/-- The vehicles by their ids. -/
structure Garage where
  vehicles : VehicleMap Vehicle

namespace Garage

def empty : Garage := ⟨∅⟩

def get? (g : Garage) (id : VehicleId) : Option Vehicle := g.vehicles[id]?

def contains (g : Garage) (id : VehicleId) : Bool := g.vehicles.contains id

/-- Takes in a vehicle whose id is new. -/
def add (g : Garage) (v : Vehicle) : Except AdmissionFault Garage :=
  if g.contains v.id then .error (.duplicate v.id) else .ok ⟨g.vehicles.insert v.id v⟩

/-- Puts back a vehicle under its id. -/
def put (g : Garage) (v : Vehicle) : Garage := ⟨g.vehicles.insert v.id v⟩

/-- The vehicles in ascending order of their ids. -/
def toList (g : Garage) : List Vehicle := g.vehicles.toList.map (·.2)

def size (g : Garage) : Nat := g.vehicles.size

def isEmpty (g : Garage) : Bool := g.vehicles.isEmpty

end Garage

end FleetEnergy

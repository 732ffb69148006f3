import Std.Data.TreeMap.Basic
import FleetEnergy.Decimal.Numeral
import FleetEnergy.Text.Blank

/-! A vehicle is identified by the number of its node in the movement trace and in the vehicle
records. What is kept for each vehicle is a map in the order of these numbers. -/
namespace FleetEnergy
set_option autoImplicit false

structure VehicleId where
  node : UInt32
deriving DecidableEq

namespace VehicleId

instance : Ord VehicleId := ⟨fun a b => compare a.node b.node⟩

def text (id : VehicleId) : String := toString id.node.toNat

/-- Reads a node number; blanks around it do not count. -/
def read (s : List Char) : Except Decimal.WholeError VehicleId :=
  (Decimal.readWhole UInt32.size (Text.trim s)).map fun n => ⟨n.toUInt32⟩

end VehicleId

/-- A value for each of some vehicles. -/
abbrev VehicleMap (α : Type) : Type := Std.TreeMap VehicleId α

end FleetEnergy

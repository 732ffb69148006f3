import FleetEnergy.Text.Json
import FleetEnergy.Text.Quoted
import FleetEnergy.Vec3
import FleetEnergy.VehicleId

/-! What is published about the vehicles of a run. -/
namespace FleetEnergy
set_option autoImplicit false

/-- The state of a vehicle right after a tick of its update loop; energies in Wh. -/
structure Tick where
  vehicle : VehicleId
  position : Vec3 Float
  speed : Float
  energyFraction : Float
  previousRemaining : Float
  remaining : Float
  consumed : Float
  totalConsumed : Float

inductive Event
  | admitted (vehicle : VehicleId) (initialEnergy : Float)
  | rejected (vehicle : VehicleId) (reason : String)
  | tick (t : Tick)
  | stopped (vehicle : VehicleId) (remaining totalConsumed : Float)

/-! ## Ticks put together piece by piece -/

/-- A tick of which some parts may still be missing. -/
structure TickDraft where
  vehicle : Option VehicleId := none
  position : Option (Vec3 Float) := none
  speed : Option Float := none
  energyFraction : Option Float := none
  previousRemaining : Option Float := none
  remaining : Option Float := none
  consumed : Option Float := none
  totalConsumed : Option Float := none

/-- A part that a draft lacks, by its published name. -/
structure MissingPart where
  name : String

def MissingPart.message (p : MissingPart) : String := "`" ++ p.name ++ "` must be initialized"

/-- A part of a draft, or the complaint that it is missing. -/
def TickDraft.part {α : Type} (name : String) : Option α → Except MissingPart α
  | some a => .ok a
  | none => .error ⟨name⟩

/-- The complete tick, or the first part that is missing. -/
def TickDraft.complete (d : TickDraft) : Except MissingPart Tick := do
  return {
    vehicle := ← part "vehicle" d.vehicle
    position := ← part "position" d.position
    speed := ← part "speed" d.speed
    energyFraction := ← part "energy_fraction" d.energyFraction
    previousRemaining := ← part "previous_remaining_wh" d.previousRemaining
    remaining := ← part "remaining_wh" d.remaining
    consumed := ← part "consumed_wh" d.consumed
    totalConsumed := ← part "total_consumed_wh" d.totalConsumed }

/-! ## Written forms -/

namespace Event

open Text (Json record)

/-- The name of an event and its parts. -/
def jsonFields : Event → String × List (String × Json)
  | .admitted id energy =>
    ("Admitted", [("vehicle", .whole id.node.toNat), ("initial_energy_wh", .number energy)])
  | .rejected id reason => ("Rejected", [("vehicle", .whole id.node.toNat), ("reason", .text reason)])
  | .tick t =>
    ("Tick",
      [("vehicle", .whole t.vehicle.node.toNat),
       ("position", .object [("x", .number t.position.x), ("y", .number t.position.y),
         ("z", .number t.position.z)]),
       ("speed", .number t.speed),
       ("energy_fraction", .number t.energyFraction),
       ("previous_remaining_wh", .number t.previousRemaining),
       ("remaining_wh", .number t.remaining),
       ("consumed_wh", .number t.consumed),
       ("total_consumed_wh", .number t.totalConsumed)])
  | .stopped id remaining total =>
    ("Stopped",
      [("vehicle", .whole id.node.toNat), ("remaining_wh", .number remaining),
       ("total_consumed_wh", .number total)])

def json (e : Event) : Json :=
  let (name, fields) := e.jsonFields
  .object [(name, .object fields)]

/-- A float in a structure written out for inspection. -/
def shown (x : Float) : String := Decimal.Layout.inspection.write x

def shownId (id : VehicleId) : String := "VehicleId(" ++ id.text ++ ")"

def shownVec (v : Vec3 Float) : String :=
  record "Vector3" [("x", shown v.x), ("y", shown v.y), ("z", shown v.z)]

/-- The event as a line for inspection. -/
def inspect : Event → String
  | .admitted id energy =>
    record "Admitted" [("vehicle", shownId id), ("initial_energy_wh", shown energy)]
  | .rejected id reason =>
    record "Rejected" [("vehicle", shownId id), ("reason", Text.quoted reason)]
  | .tick t =>
    "Tick(" ++ record "TickEvent"
      [("vehicle", shownId t.vehicle), ("position", shownVec t.position), ("speed", shown t.speed),
       ("energy_fraction", shown t.energyFraction),
       ("previous_remaining_wh", shown t.previousRemaining), ("remaining_wh", shown t.remaining),
       ("consumed_wh", shown t.consumed), ("total_consumed_wh", shown t.totalConsumed)] ++ ")"
  | .stopped id remaining total =>
    record "Stopped"
      [("vehicle", shownId id), ("remaining_wh", shown remaining), ("total_consumed_wh", shown total)]

end Event

end FleetEnergy

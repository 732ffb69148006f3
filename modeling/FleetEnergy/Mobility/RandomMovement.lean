import FleetEnergy.Mobility.Trace
import FleetEnergy.Random

/-! Random movement in a rectangle. Each vehicle draws a destination and a speed, drives there, pauses
and starts over, until the end of the scenario is covered. -/
namespace FleetEnergy
set_option autoImplicit false

structure RandomMovement where
  vehicles : UInt32
  width : Float
  height : Float
  minSpeed : Float
  maxSpeed : Float
  pauseTime : Float
  seed : UInt64

namespace RandomMovement

/-! ## What is refused -/

inductive Fault
  | badArea (width height : Float)
  | badSpeeds (low high : Float)
  | badPause (pause : Float)
  | unboundedEnd (endTime : Float)
  /-- A number was asked for from bounds that hold none. -/
  | emptyRange
  /-- The clock of a vehicle does not reach the end. -/
  | endless

def Fault.message : Fault → String
  | .badArea w h => "area must be positive and finite, but was " ++ plainText w ++ " x " ++ plainText h
  | .badSpeeds a b =>
    "speeds must satisfy 0 < min_speed <= max_speed, but were " ++ plainText a ++ " and " ++ plainText b
  | .badPause p => "pause time must be finite and not negative, but was " ++ plainText p
  | .unboundedEnd t => "end time must be finite, but was " ++ plainText t
  | .emptyRange => "numbers can only be drawn from finite bounds in order"
  | .endless => "the movement does not reach the end time"

def positiveFinite (x : Float) : Bool := 0.0 < x && x.isFinite

/-- Width, height and speeds are above zero, the speeds in order; the pause is not negative; all are
finite. -/
def validate (c : RandomMovement) : Except Fault Unit :=
  if !(positiveFinite c.width) || !(positiveFinite c.height) then .error (.badArea c.width c.height)
  else if !(decide (0.0 < c.minSpeed)) || !(decide (c.minSpeed ≤ c.maxSpeed)) || !c.maxSpeed.isFinite then
    .error (.badSpeeds c.minSpeed c.maxSpeed)
  else if !(decide (0.0 ≤ c.pauseTime)) || !c.pauseTime.isFinite then .error (.badPause c.pauseTime)
  else .ok ()

/-! ## Drawing -/

/-- A point of the rectangle. -/
def drawPoint (c : RandomMovement) (g : Random.Generator) : Option ((Float × Float) × Random.Generator) :=
  match Random.between 0.0 c.width g with
  | none => none
  | some (x, g) =>
    match Random.between 0.0 c.height g with
    | none => none
    | some (y, g) => some ((x, y), g)

/-- The movement of a vehicle up to a time. -/
structure Journey where
  itinerary : Itinerary Float
  time : Float
  generator : Random.Generator

/-- The time of the next departure. A leg that takes no time counts as one second. -/
def departure (it : Itinerary Float) (time pause : Float) : Float :=
  let arrival := it.restTime.getD time
  (if time < arrival then arrival else time + 1.0) + pause

/-- Draws a destination and a speed and drives there. -/
def nextLeg (c : RandomMovement) (j : Journey) : Option Journey :=
  match drawPoint c j.generator with
  | none => none
  | some ((x, y), g) =>
    match Random.between c.minSpeed c.maxSpeed g with
    | none => none
    | some (speed, g) =>
      let it := j.itinerary.setDestination j.time x y speed
      some ⟨it, departure it j.time c.pauseTime, g⟩

/-- Adds legs until the end is covered, at most `fuel` of them. -/
def travel (c : RandomMovement) (endTime : Float) : Journey → Nat → Except Fault (Itinerary Float)
  | j, 0 => if j.time < endTime then .error .endless else .ok j.itinerary
  | j, fuel + 1 =>
    if j.time < endTime then
      match nextLeg c j with
      | none => .error .emptyRange
      | some j => travel c endTime j fuel
    else .ok j.itinerary

/-- More legs than there are moments for them to start at. -/
def legBound : Nat := Nat.pow 2 64

/-- The movement of one vehicle until the end time. -/
def journey (c : RandomMovement) (endTime : Float) (id : VehicleId) : Except Fault (Itinerary Float) :=
  match drawPoint c (Random.forVehicle c.seed id) with
  | none => .error .emptyRange
  | some ((x, y), g) => travel c endTime ⟨.stay ⟨x, y, 0.0⟩, 0.0, g⟩ legBound

/-- Adds the movement of vehicle `n`. -/
def addJourney (c : RandomMovement) (endTime : Float) (t : Itineraries) (n : Nat) :
    Except Fault Itineraries := do
  let id : VehicleId := ⟨n.toUInt32⟩
  return t.insert id (← journey c endTime id)

/-- The movement of all vehicles, which are numbered from zero. -/
def generate (c : RandomMovement) (endTime : Float) : Except Fault Itineraries := do
  c.validate
  if endTime.isFinite then (List.range c.vehicles.toNat).foldlM (c.addJourney endTime) ∅
  else .error (.unboundedEnd endTime)

end RandomMovement

end FleetEnergy

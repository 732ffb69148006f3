import FleetEnergy.Notice
import FleetEnergy.PartitionPoint
import FleetEnergy.UpdateLoop

/-! Movement along straight legs. A leg starts at the place where the vehicle is, ends when the
destination is reached, and is followed by rest; a later command replaces what is left of it. Commands
come in the order of time; one that comes late is ignored. -/
namespace FleetEnergy
set_option autoImplicit false

/-- A straight movement with constant velocity; a leg of zero velocity is a rest. -/
structure Leg (α : Type) where
  startTime : α
  start : Vec3 α
  finish : Vec3 α
  velocity : Vec3 α
  arrivalTime : α

structure Itinerary (α : Type) where
  initial : Vec3 α
  legs : Array (Leg α)

/-- What can be ordered of a vehicle. -/
inductive MoveCommand (α : Type)
  /-- It is there from the beginning. -/
  | setInitial (position : Vec3 α)
  /-- It is there from the given time on, and keeps its movement. -/
  | setPosition (time : α) (position : Vec3 α)
  /-- It drives to a point of the ground with the given speed. -/
  | setDestination (time : α) (x y : α) (speed : α)

namespace Itinerary

variable {α : Type} [Scalar α]

def stay (initial : Vec3 α) : Itinerary α := ⟨initial, #[]⟩

/-! ## Looking up -/

/-- The leg that counts at a time: the last one that has started. -/
def legAt (it : Itinerary α) (now : α) : Option (Leg α) :=
  let started (i : Nat) : Bool :=
    match it.legs[i]? with
    | some leg => leg.startTime ≤ now
    | none => false
  match partitionPoint started it.legs.size with
  | 0 => none
  | i + 1 => it.legs[i]?

/-- Where a leg has brought the vehicle. -/
def Leg.positionAt (leg : Leg α) (now : α) : Vec3 α :=
  if leg.arrivalTime ≤ now then leg.finish
  else leg.start + leg.velocity.scale (now - leg.startTime)

def Leg.velocityAt (leg : Leg α) (now : α) : Vec3 α :=
  if now < leg.arrivalTime then leg.velocity else .zero

def position (it : Itinerary α) (now : α) : Vec3 α :=
  match it.legAt now with
  | none => it.initial
  | some leg => Leg.positionAt leg now

def velocity (it : Itinerary α) (now : α) : Vec3 α :=
  match it.legAt now with
  | none => .zero
  | some leg => Leg.velocityAt leg now

def model (it : Itinerary α) : MovementModel α := ⟨it.position, it.velocity⟩

/-- The time of the last command. -/
def lastCommandTime (it : Itinerary α) : Option α := it.legs.back?.map (·.startTime)

/-- When the vehicle comes to rest for good. -/
def restTime (it : Itinerary α) : Option α := it.legs.back?.map (·.arrivalTime)

/-! ## Commands -/

/-- A command is late if one of a later time came before it. -/
def isLate (it : Itinerary α) (time : α) : Bool :=
  match it.lastCommandTime with
  | none => false
  | some last => time < last

/-- The leg that starts with a change of place: it keeps the velocity and the arrival time of a leg
under way, and rests otherwise. -/
def placeLeg (it : Itinerary α) (time : α) (position : Vec3 α) : Leg α :=
  let rest : Vec3 α × α := (.zero, time)
  let (velocity, arrival) := match it.legAt time with
    | none => rest
    | some leg => if time < leg.arrivalTime then (leg.velocity, leg.arrivalTime) else rest
  ⟨time, position, position + velocity.scale (arrival - time), velocity, arrival⟩

/-- The leg towards a destination at the height that the vehicle has; without speed or without
distance it is a rest. -/
def driveLeg (it : Itinerary α) (time x y speed : α) : Leg α :=
  let start := it.position time
  let finish : Vec3 α := ⟨x, y, start.z⟩
  let distance := start.distance finish
  let moving : Bool := if 0.0 < speed then decide (0.0 < distance) else false
  if moving then
    ⟨time, start, finish, (finish - start).scale (speed / distance), time + distance / speed⟩
  else ⟨time, start, start, .zero, time⟩

def addLeg (it : Itinerary α) (leg : Leg α) : Itinerary α := { it with legs := it.legs.push leg }

def setPosition (it : Itinerary α) (time : α) (position : Vec3 α) : Itinerary α :=
  if it.isLate time then it else it.addLeg (it.placeLeg time position)

def setDestination (it : Itinerary α) (time x y speed : α) : Itinerary α :=
  if it.isLate time then it else it.addLeg (it.driveLeg time x y speed)

def apply (it : Itinerary α) : MoveCommand α → Itinerary α
  | .setInitial position => { it with initial := position }
  | .setPosition time position => it.setPosition time position
  | .setDestination time x y speed => it.setDestination time x y speed

/-! ## What is said of a late command -/

def lateness (it : Itinerary Float) (time : Float) : List Notice :=
  match it.lastCommandTime with
  | none => []
  | some last =>
    if time < last then
      [.warning ("Ignoring movement command at " ++ plainText time
        ++ ", which is before the last command at " ++ plainText last ++ ".")]
    else []

def remarks (it : Itinerary Float) : MoveCommand Float → List Notice
  | .setInitial _ => []
  | .setPosition time _ => it.lateness time
  | .setDestination time .. => it.lateness time

end Itinerary

end FleetEnergy

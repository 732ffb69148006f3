import FleetEnergy.Profile
import FleetEnergy.Vec3

/-! The energy that an electric vehicle draws from its battery between two moments. Seven terms are
added up: height, speed, turning masses, air, rolling, cornering and the constant consumers. A sum
above zero is paid for with the efficiency of the motor; what is not above zero flows back. -/
namespace FleetEnergy
set_option autoImplicit false

variable {α : Type} [Scalar α]

/-! ## Where a vehicle is and was -/

/-- Position and velocity at one moment. -/
structure Snapshot (α : Type) where
  position : Vec3 α
  velocity : Vec3 α

namespace Snapshot

def zero : Snapshot α := ⟨.zero, .zero⟩

def speed (s : Snapshot α) : α := s.velocity.length

def heading (s : Snapshot α) : α := s.velocity.heading

end Snapshot

/-- What is remembered of the moment before; before the first one there is no heading. -/
structure PreviousState (α : Type) where
  position : Vec3 α
  velocity : Vec3 α
  heading : Option α

namespace PreviousState

/-- At rest in the origin, without a heading. -/
def unknown : PreviousState α := ⟨.zero, .zero, none⟩

def ofSnapshot (s : Snapshot α) : PreviousState α := ⟨s.position, s.velocity, some s.heading⟩

end PreviousState

/-! ## Turning -/

/-- Subtracts a whole turn as long as the angle is above half a turn. -/
@[specialize] def unwindDown : α → Nat → α
  | d, 0 => d
  | d, n + 1 => if Scalar.pi < d then unwindDown (d - Scalar.tau) n else d

/-- Adds a whole turn as long as the angle is not above minus half a turn. -/
@[specialize] def unwindUp : α → Nat → α
  | d, 0 => d
  | d, n + 1 => if d ≤ -Scalar.pi then unwindUp (d + Scalar.tau) n else d

/-- The turn from one heading to another, brought above `-pi` and to at most `pi`. -/
@[specialize] def angleDifference (start stop : α) : α :=
  let d := unwindDown (stop - start) (Scalar.turnBound (stop - start))
  unwindUp d (Scalar.turnBound d)

/-- The radius of the curve driven over `distance`, between a tenth of a millimetre and ten
kilometres. -/
def corneringRadius (distance angle : α) : α :=
  Scalar.clamp 0.0001 10000.0 (distance / Scalar.abs angle)

/-! ## The energy of one step -/

/-- How the recuperation efficiency enters when a vehicle gains energy: as a factor, or as joules
added to what was gained. -/
inductive Recuperation
  | multiplicative
  | additive
deriving DecidableEq, Repr

def Recuperation.apply (rule : Recuperation) (joules efficiency : α) : α :=
  match rule with
  | .multiplicative => joules * efficiency
  | .additive => joules + efficiency

/-- Acceleration of free fall in m/s². -/
def standardGravity : α := 9.80665

/-- Density of air at 20 °C in kg/m³. -/
def airDensity : α := 1.2041

def joulesPerWattHour : α := 3600.0

/-- The terms in joules, and what the battery gives (above zero) or takes back. -/
structure Breakdown (α : Type) where
  potential : α
  kinetic : α
  rotational : α
  airDrag : α
  rollDrag : α
  cornering : α
  constantLoad : α
  battery : α

namespace Breakdown

def zero : Breakdown α := ⟨0.0, 0.0, 0.0, 0.0, 0.0, 0.0, 0.0, 0.0⟩

/-- The sum of the terms, from left to right. -/
def raw (b : Breakdown α) : α :=
  b.potential + b.kinetic + b.rotational + b.airDrag + b.rollDrag + b.cornering + b.constantLoad

def totalWattHours (b : Breakdown α) : α := b.battery / joulesPerWattHour

end Breakdown

/-- What a curve costs: nothing without a former heading or without a turn. -/
def corneringEnergy (p : Profile α) (previous : PreviousState α) (current : Snapshot α)
    (speed distance : α) : α :=
  match previous.heading with
  | none => 0.0
  | some last =>
    let angle := angleDifference last current.heading
    if angle == 0.0 then 0.0
    else p.radialDragCoefficient * p.vehicleMass * speed * speed / corneringRadius distance angle

/-- The energy that flows between battery and wheels for a sum of terms. -/
def batteryEnergy (p : Profile α) (rule : Recuperation) (raw : α) : α :=
  if 0.0 < raw then raw / p.propulsionEfficiency else rule.apply raw p.recuperationEfficiency

/-- The terms of a step over a time above zero. The way driven is the current speed times the time. -/
def stepBreakdown (p : Profile α) (previous : PreviousState α) (current : Snapshot α) (elapsed : α)
    (rule : Recuperation) : Breakdown α :=
  let mass := p.vehicleMass
  let speed := current.velocity.length
  let lastSpeed := previous.velocity.length
  let squares := speed * speed - lastSpeed * lastSpeed
  let distance := speed * elapsed
  let terms : Breakdown α :=
    { potential := mass * standardGravity * (current.position.z - previous.position.z)
      kinetic := 0.5 * mass * squares
      rotational := p.internalMomentOfInertia * squares
      airDrag := 0.5 * airDensity * p.frontSurfaceArea * p.airDragCoefficient * speed * speed * distance
      rollDrag := p.rollDragCoefficient * standardGravity * mass * distance
      cornering := corneringEnergy p previous current speed distance
      constantLoad := p.constantPowerIntake * elapsed
      battery := 0.0 }
  { terms with battery := batteryEnergy p rule terms.raw }

/-- The terms of a step. A time that is not above zero, or not finite, costs nothing. -/
def breakdown (p : Profile α) (previous : PreviousState α) (current : Snapshot α) (elapsed : α)
    (rule : Recuperation) : Breakdown α :=
  if 0.0 < elapsed then
    if Scalar.isFinite elapsed then stepBreakdown p previous current elapsed rule else .zero
  else .zero

/-- The watt hours drawn from the battery in a step; negative if energy was won back. -/
def energyDelta (p : Profile α) (previous : PreviousState α) (current : Snapshot α) (elapsed : α)
    (rule : Recuperation) : α :=
  (breakdown p previous current elapsed rule).totalWattHours

end FleetEnergy

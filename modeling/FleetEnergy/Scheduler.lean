import FleetEnergy.Scalar
import FleetEnergy.TimeQueue
import FleetEnergy.VehicleId

/-! The clock of the simulation and the firings that are due. The clock moves only when a firing is
taken, never backwards, and not beyond the end of the scenario: what is due later is delivered at the
end. -/
namespace FleetEnergy
set_option autoImplicit false

/-! ## Bounds that ignore undefined values -/

/-- The lesser of two times; an undefined one does not count, and of equal ones it is the first. -/
def earlier (a b : Float) : Float := if a.isNaN then b else if b < a then b else a

/-- The greater of two times; an undefined one does not count, and of equal ones it is the first. -/
def later (a b : Float) : Float := if a.isNaN then b else if a < b then b else a

/-! ## The clock -/

structure Firing where
  time : Float
  vehicle : VehicleId

structure Scheduler where
  clock : Instant
  endTime : Float
  queue : TimeQueue VehicleId

namespace Scheduler

def new (start : Instant) (endTime : Float) : Scheduler := ⟨start, endTime, .empty⟩

def now (s : Scheduler) : Float := s.clock.toFloat

/-- Orders a firing `delay` seconds from now; a delay that is not above zero counts as zero. -/
def schedule (s : Scheduler) (delay : Float) (vehicle : VehicleId) : Scheduler :=
  { s with queue := s.queue.add (.after s.clock (Scalar.positivePart delay)) vehicle }

/-- The time at which a firing due at `due` is delivered. -/
def deliveryTime (s : Scheduler) (due : Float) : Float := later (earlier due s.endTime) s.now

/-- Takes the earliest firing and moves the clock to its delivery. A delivery that is undefined leaves
the clock as it is, which is then undefined too. -/
def next (s : Scheduler) : Option (Firing × Scheduler) :=
  match s.queue.pop with
  | none => none
  | some ((due, vehicle), queue) =>
    let time := s.deliveryTime due.toFloat
    let clock := if time.isNaN then s.clock else .ofFloat time
    some (⟨time, vehicle⟩, { s with clock := clock, queue := queue })

/-- Whether the end of the scenario has been reached. -/
def isFinished (s : Scheduler) : Bool := s.endTime ≤ s.now

def pending (s : Scheduler) : Nat := s.queue.size

end Scheduler

end FleetEnergy

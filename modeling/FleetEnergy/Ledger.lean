import FleetEnergy.Energy

/-! The energy account of one vehicle. Nothing is kept within bounds: an account below zero, or above
what the battery holds, shows that the model has left its range. -/
namespace FleetEnergy
set_option autoImplicit false

structure Ledger (α : Type) where
  /-- What is left in the battery, in Wh. -/
  remaining : α
  /-- The sum of all booked ticks, in Wh. -/
  total : α
  /-- The tick booked last, in Wh. -/
  last : α
  /-- The state that the next tick is computed from. -/
  previous : PreviousState α
  /-- The time of that state. -/
  updateTime : α

namespace Ledger

variable {α : Type} [Scalar α]

def new (initial start : α) : Ledger α := ⟨initial, 0.0, 0.0, .unknown, start⟩

def setRemaining (l : Ledger α) (energy : α) : Ledger α := { l with remaining := energy }

def increase (l : Ledger α) (energy : α) : Ledger α := { l with remaining := l.remaining + energy }

def decrease (l : Ledger α) (energy : α) : Ledger α := { l with remaining := l.remaining - energy }

/-- Books the energy of a step and remembers the snapshot that it ended with. A step that ends before
the last one is booked, but not remembered. -/
def applyTick (l : Ledger α) (delta now : α) (s : Snapshot α) : Ledger α :=
  let booked := { l.decrease delta with last := delta, total := l.total + delta }
  if now < l.updateTime then booked
  else { booked with previous := .ofSnapshot s, updateTime := now }

/-- The time since the last update; a moment before it gives zero. -/
def elapsedSince (l : Ledger α) (now : α) : α := Scalar.positivePart (now - l.updateTime)

/-- What is left, as a share of the capacity. -/
def fraction (l : Ledger α) (capacity : α) : α := l.remaining / capacity

end Ledger

end FleetEnergy

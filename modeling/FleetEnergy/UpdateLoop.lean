import FleetEnergy.Ledger

/-! The recurring update of a vehicle's account. A loop is armed once; each firing looks where the
vehicle is, books the energy of the step since the last firing and names the time of the next one.
A firing after the end of the scenario stops the loop for good. -/
namespace FleetEnergy
set_option autoImplicit false

/-- Where a vehicle is at any time, and how it moves. -/
structure MovementModel (α : Type) where
  position : α → Vec3 α
  velocity : α → Vec3 α

def MovementModel.snapshot {α : Type} (m : MovementModel α) (now : α) : Snapshot α :=
  ⟨m.position now, m.velocity now⟩

/-! ## States of a loop -/

inductive LoopState (α : Type)
  | uninitialized
  | armed (nextFire : α)
  | stopped

structure UpdateLoop (α : Type) where
  interval : α
  state : LoopState α

/-- What is to be done after a firing. -/
inductive Transition (α : Type)
  /-- The tick is booked; the loop is to be fired again. -/
  | rearm (delta : α) (snapshot : Snapshot α) (nextFire : α)
  /-- The loop is not to be fired again. -/
  | stop

/-- Calls that a loop is not meant for. -/
inductive LoopFault
  | armedAgain
  | firedBeforeArmed
deriving DecidableEq, Repr

namespace UpdateLoop

variable {α : Type} [Scalar α]

/-- An interval that is not above zero, or not finite, is taken as one second. -/
def normalizeInterval (interval : α) : α :=
  if 0.0 < interval then if Scalar.isFinite interval then interval else 1.0 else 1.0

def new (interval : α) : UpdateLoop α := ⟨normalizeInterval interval, .uninitialized⟩

/-- The account at the start: full to the initial energy and, if a snapshot is given, with that
snapshot as the state before the first tick. -/
def openLedger (p : Profile α) (now : α) (baseline : Option (Snapshot α)) : Ledger α :=
  let l := Ledger.new p.initialEnergy now
  match baseline with
  | none => l
  | some s => l.applyTick 0.0 now s

/-- The loop as it is after arming, the opened account and the time of the first firing. -/
def start (u : UpdateLoop α) (now : α) (p : Profile α) (baseline : Option (Snapshot α)) :
    UpdateLoop α × Ledger α × α :=
  ({ u with state := .armed (now + u.interval) }, openLedger p now baseline, now + u.interval)

/-- Arms a loop, which can be done once. -/
def arm (u : UpdateLoop α) (now : α) (p : Profile α) (baseline : Option (Snapshot α)) :
    Except LoopFault (UpdateLoop α × Ledger α × α) :=
  match u.state with
  | .uninitialized => .ok (u.start now p baseline)
  | _ => .error .armedAgain

/-- One firing. A loop that was never armed cannot be fired; a stopped one stays as it is; an armed
one is stopped if the scenario is finished and books a tick otherwise. -/
def fire (u : UpdateLoop α) (l : Ledger α) (now : α) (finished : Bool) (m : MovementModel α)
    (p : Profile α) (rule : Recuperation) :
    Except LoopFault (UpdateLoop α × Ledger α × Transition α) :=
  match u.state with
  | .uninitialized => .error .firedBeforeArmed
  | .stopped => .ok (u, l, .stop)
  | .armed _ =>
    if finished then .ok ({ u with state := .stopped }, l, .stop)
    else
      let s := m.snapshot now
      let delta := energyDelta p l.previous s (l.elapsedSince now) rule
      let nextFire := now + u.interval
      .ok ({ u with state := .armed nextFire }, l.applyTick delta now s, .rearm delta s nextFire)

def isStopped (u : UpdateLoop α) : Bool :=
  match u.state with
  | .stopped => true
  | _ => false

end UpdateLoop

end FleetEnergy

import FleetEnergy.Audience
import FleetEnergy.Garage
import FleetEnergy.Mobility
import FleetEnergy.Scheduler

/-! The simulation: vehicles are admitted, and the update loops of all admitted vehicles run in virtual
time, in the order of time and, at one time, in the order in which they were scheduled. What happens is
given out as a list, in order. -/
namespace FleetEnergy
set_option autoImplicit false

/-- How the energy of the vehicles is computed. -/
structure Settings where
  updateInterval : Float
  recuperation : Recuperation
  /-- Whether the state at admission is recorded without booking energy. -/
  baseline : Bool

def Settings.default : Settings := ⟨1.0, .multiplicative, true⟩

structure Simulation where
  startTime : Float
  scheduler : Scheduler
  mobility : Mobility
  garage : Garage
  settings : Settings

namespace Simulation

def new (start : Instant) (endTime : Float) (mobility : Mobility) (settings : Settings) : Simulation :=
  ⟨start.toFloat, .new start endTime, mobility, .empty, settings⟩

/-! ## Admission -/

/-- Takes a vehicle in, armed, with its first firing scheduled. -/
def take (s : Simulation) (id : VehicleId) (p : Profile Float) (m : MovementModel Float) : Simulation :=
  let now := s.scheduler.now
  let baseline := if s.settings.baseline then some (m.snapshot now) else none
  let (v, nextFire) := Vehicle.start id p s.settings.updateInterval now baseline
  { s with garage := s.garage.put v, scheduler := s.scheduler.schedule (nextFire - now) id }

/-- Checks profile, movement and id, in this order, and takes the vehicle in. -/
def tryEnrol (s : Simulation) (id : VehicleId) (p : Profile Float) : Except AdmissionFault Simulation :=
  match p.validate with
  | .error e => .error (.invalidProfile id e)
  | .ok () =>
    match s.mobility.get? id with
    | none => .error (.noMobility id)
    | some m => if s.garage.contains id then .error (.duplicate id) else .ok (s.take id p m)

/-- Admits a vehicle or refuses it. Either is published at the time of the clock, and a refusal does not
touch the other vehicles. -/
def enrol (s : Simulation) (id : VehicleId) (p : Profile Float) :
    Simulation × Except AdmissionFault Unit × List Happening :=
  let remarks := p.review.2.map Happening.notice
  let now := s.scheduler.now
  match s.tryEnrol id p with
  | .ok s => (s, .ok (), remarks ++ [.event now (.admitted id p.initialEnergy)])
  | .error e =>
    (s, .error e, remarks ++
      [.notice (.warning ("Rejecting vehicle " ++ id.text ++ ": " ++ e.message)),
       .event now (.rejected id e.message)])

/-! ## Firings -/

/-- The event of a tick that led to the vehicle as it is now. -/
def tickOf (v : Vehicle) (previousRemaining delta : Float) (at_ : Snapshot Float) : Tick :=
  { vehicle := v.id
    position := at_.position
    speed := at_.speed
    energyFraction := v.energyFraction
    previousRemaining := previousRemaining
    remaining := v.ledger.remaining
    consumed := delta
    totalConsumed := v.ledger.total }

/-- Fires the loop of a vehicle: it books a tick and is scheduled again, or it stops. A loop that was
never armed is left alone. -/
def fire (s : Simulation) (id : VehicleId) (now : Float) (finished : Bool) :
    Simulation × List Happening :=
  match s.garage.get? id, s.mobility.get? id with
  | some v, some m =>
    match v.fire now finished m s.settings.recuperation with
    | .error _ => (s, [])
    | .ok (v', .rearm delta snapshot nextFire) =>
      ({ s with garage := s.garage.put v', scheduler := s.scheduler.schedule (nextFire - now) id },
        [.event now (.tick (tickOf v' v.ledger.remaining delta snapshot))])
    | .ok (v', .stop) =>
      ({ s with garage := s.garage.put v' },
        [.event now (.stopped id v'.ledger.remaining v'.ledger.total)])
  | _, _ =>
    (s, [.notice (.warning ("Firing for unknown vehicle " ++ id.text ++ " is ignored."))])

/-! ## Runs -/

/-- How much simulated time passes between two reports. -/
def progressInterval : Float := 600.0

def progressNotice (time : Float) (pending : Nat) : Notice :=
  .info ("Simulation at " ++ plainText time ++ "s. " ++ toString pending ++ " firings pending")

/-- Carries out the next firing, if there is one; `report` is the time from which on it is reported.
Gives the simulation, the time of the next report and what happened. -/
def pass (s : Simulation) (report : Float) : Option ((Simulation × Float) × List Happening) :=
  match s.scheduler.next with
  | none => none
  | some (f, scheduler) =>
    let (s, hs) := { s with scheduler := scheduler }.fire f.vehicle f.time scheduler.isFinished
    if report ≤ f.time then
      some ((s, f.time + progressInterval), .notice (progressNotice f.time scheduler.pending) :: hs)
    else some ((s, report), hs)

/-- Carries out firings until none is pending, at most `fuel` of them. -/
def runFor (s : Simulation) (report : Float) (out : Array Happening) :
    Nat → Option (Simulation × Array Happening)
  | 0 => if s.scheduler.pending = 0 then some (s, out) else none
  | fuel + 1 =>
    match s.pass report with
    | none => some (s, out)
    | some ((s, report), hs) => runFor s report (out ++ hs.toArray) fuel

/-- More firings than a run that ends can have: each of a vehicle is at a later time than the one
before. -/
def firingBound (s : Simulation) : Nat := (s.scheduler.pending + 1) * Nat.pow 2 64

def startNotice (s : Simulation) : Notice :=
  .info ("Starting simulation with " ++ toString s.garage.size ++ " vehicles. Start time "
    ++ plainText s.startTime ++ ", End time " ++ plainText s.scheduler.endTime)

/-- Carries out at most `fuel` firings, from the first notice to the last. -/
def runWithin (s : Simulation) (fuel : Nat) : Option (Simulation × List Happening) :=
  (s.runFor s.startTime #[.notice s.startNotice] fuel).map fun (s, out) =>
    (s, out.toList ++ [.finished, .notice (.info "Simulation finished.")])

/-- Runs until all loops have stopped. There is no answer for a run that does not end. -/
def run (s : Simulation) : Option (Simulation × List Happening) := s.runWithin s.firingBound

/-! ## Summary -/

structure VehicleSummary where
  vehicle : VehicleId
  initialEnergy : Float
  remaining : Float
  totalConsumed : Float
  energyFraction : Float

structure Summary where
  startTime : Float
  endTime : Float
  vehicles : List VehicleSummary

def vehicleSummary (v : Vehicle) : VehicleSummary :=
  ⟨v.id, v.profile.initialEnergy, v.ledger.remaining, v.ledger.total, v.energyFraction⟩

/-- The account of every vehicle, in ascending order of the ids. -/
def summary (s : Simulation) : Summary :=
  ⟨s.startTime, s.scheduler.endTime, s.garage.toList.map vehicleSummary⟩

def VehicleSummary.json (v : VehicleSummary) : Text.Json :=
  .object [("vehicle", .whole v.vehicle.node.toNat), ("initial_energy_wh", .number v.initialEnergy),
    ("remaining_energy_wh", .number v.remaining),
    ("total_energy_consumed_wh", .number v.totalConsumed),
    ("energy_fraction", .number v.energyFraction)]

def Summary.json (s : Summary) : Text.Json :=
  .object [("start_time", .number s.startTime), ("end_time", .number s.endTime),
    ("vehicles", .array (s.vehicles.map VehicleSummary.json))]

end Simulation

end FleetEnergy

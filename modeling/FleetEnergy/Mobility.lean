import FleetEnergy.File.Gzip
import FleetEnergy.File.Path
import FleetEnergy.Mobility.RandomMovement
import FleetEnergy.Text.Quoted

/-! The movement of all vehicles of a scenario. -/
namespace FleetEnergy
set_option autoImplicit false

structure Mobility where
  models : VehicleMap (MovementModel Float)

namespace Mobility

/-- Why there is no movement. -/
inductive Fault
  | unreadable (path : String) (cause : File.Fault)
  | invalidRandom (cause : RandomMovement.Fault)

def Fault.message : Fault → String
  | .unreadable path cause => "Could not read mobility trace " ++ path ++ ": " ++ cause.message
  | .invalidRandom cause => "Random waypoint mobility is misconfigured: " ++ cause.message

def empty : Mobility := ⟨∅⟩

/-- Adds a vehicle, or replaces its movement. -/
def add (m : Mobility) (id : VehicleId) (model : MovementModel Float) : Mobility :=
  ⟨m.models.insert id model⟩

def get? (m : Mobility) (id : VehicleId) : Option (MovementModel Float) := m.models[id]?

def size (m : Mobility) : Nat := m.models.size

def isEmpty (m : Mobility) : Bool := m.models.isEmpty

def ofItineraries (t : Itineraries) : Mobility := t.foldl (fun m id it => m.add id it.model) empty

/-- The movement in a trace file, from what was found at its path. A file whose name ends in `.gz` is
compressed. -/
def ofTrace (path : String) (content : Except File.Fault ByteArray) :
    Except Fault Mobility × List Notice :=
  let started : Notice :=
    .info ("ns2::read_from_file: Starting to read trace at: " ++ Text.quotedPath path)
  match content with
  | .error e => (.error (.unreadable path e), [started])
  | .ok bytes =>
    let (data, stop) :=
      if File.Path.extension? path == some "gz" then File.Gzip.decompress bytes else (bytes, none)
    match Trace.read data.toList stop with
    | (.error e, notices) => (.error (.unreadable path e), started :: notices)
    | (.ok t, notices) =>
      (.ok (ofItineraries t), started :: notices
        ++ [.info ("Loaded ns-2 mobility for " ++ toString t.size ++ " nodes from "
          ++ Text.quotedPath path)])

/-- Random movement until the end time, and what is said of it. -/
def ofRandom (c : RandomMovement) (endTime : Float) : Except Fault Mobility × List Notice :=
  match c.generate endTime with
  | .error e => (.error (.invalidRandom e), [])
  | .ok t =>
    (.ok (ofItineraries t),
      [.info ("Generated random waypoint mobility for " ++ toString t.size ++ " nodes until "
        ++ plainText endTime)])

end Mobility

end FleetEnergy

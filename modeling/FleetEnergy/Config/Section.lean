import FleetEnergy.Document.Outline
import FleetEnergy.Document.Value
import FleetEnergy.Mobility.RandomMovement
import FleetEnergy.Simulation

/-! Sections of a configuration: the time span of a scenario, how energy is consumed, where movement
comes from, and what is put out. Each kind of section is written as a record that names its kind. -/
namespace FleetEnergy.Config
set_option autoImplicit false

/-! ## Kinds of sections -/

structure TimeSpan where
  startTime : Float
  endTime : Float

def TimeSpan.default : TimeSpan := ⟨0.0, 3600.0⟩

structure Consumption where
  /-- The file of the vehicle records. -/
  vehicleAttributes : String
  settings : Settings

inductive Source
  | trace (file : String)
  | random (movement : RandomMovement)

inductive Logging
  | off
  | info
deriving DecidableEq

inductive EventOutput
  | off
  /-- A table of the ticks. -/
  | table
  /-- Every event in the log. -/
  | log
deriving DecidableEq

structure Output where
  directory : String
  logging : Logging
  events : EventOutput

def Output.default : Output := ⟨"./", .info, .off⟩

inductive Section
  | simulation (t : TimeSpan)
  | consumption (c : Consumption)
  | mobility (s : Source)
  | output (o : Output)

/-! ## Names -/

def recuperationNames : List (String × Recuperation) :=
  [("Multiplicative", .multiplicative), ("Additive", .additive)]

def loggingNames : List (String × Logging) := [("None", .off), ("Info", .info)]

def eventNames : List (String × EventOutput) := [("None", .off), ("Csv", .table), ("Log", .log)]

/-- The name that stands for a value in a list. -/
def nameIn {α : Type} [DecidableEq α] (names : List (String × α)) (a : α) : String :=
  ((names.find? (·.2 = a)).map (·.1)).getD ""

/-! ## Writing -/

open Document (Atom Outline)

/-- An entry for a field. -/
def field (name : String) (value : Atom) : Atom × Outline := (.ofText name, .leaf value)

def Source.outline : Source → Outline
  | .trace file => .branch (some "Ns2Trace") [field "trace_file" (.ofText file)]
  | .random r =>
    .branch (some "RandomWaypoint")
      [field "num_vehicles" (.ofNat r.vehicles.toNat), field "width" (.ofFloat r.width),
       field "height" (.ofFloat r.height), field "min_speed" (.ofFloat r.minSpeed),
       field "max_speed" (.ofFloat r.maxSpeed), field "pause_time" (.ofFloat r.pauseTime),
       field "seed" (.ofNat r.seed.toNat)]

def Section.kind : Section → String
  | .simulation _ => "Simulation"
  | .consumption _ => "Consumption"
  | .mobility _ => "Mobility"
  | .output _ => "Output"

def Section.entries : Section → List (Atom × Outline)
  | .simulation t => [field "start_time" (.ofFloat t.startTime), field "end_time" (.ofFloat t.endTime)]
  | .consumption c =>
    [field "vehicle_attributes" (.ofText c.vehicleAttributes),
     field "update_interval" (.ofFloat c.settings.updateInterval),
     field "recuperation" (.ofText (nameIn recuperationNames c.settings.recuperation)),
     field "baseline" (.ofFlag c.settings.baseline)]
  | .mobility s => [(.ofText "source", s.outline)]
  | .output o =>
    [field "output_dir" (.ofText o.directory), field "logging" (.ofText (nameIn loggingNames o.logging)),
     field "write_events" (.ofText (nameIn eventNames o.events))]

/-- The kind of a section and its fields. -/
def Section.outline (s : Section) : Outline := .branch none (field "type" (.ofText s.kind) :: s.entries)

/-! ## Reading -/

open Document (Value Fields)

def TimeSpan.read (fs : Fields) : Option TimeSpan := do
  let fs ← fs.known? ["start_time", "end_time"]
  return ⟨← fs.need "start_time" Value.float?, ← fs.need "end_time" Value.float?⟩

def Consumption.read (fs : Fields) : Option Consumption := do
  let fs ← fs.known? ["vehicle_attributes", "update_interval", "recuperation", "baseline"]
  let file ← fs.need "vehicle_attributes" Value.text?
  let interval ← fs.given "update_interval" Settings.default.updateInterval Value.float?
  let recuperation ← fs.given "recuperation" Settings.default.recuperation (Value.name? recuperationNames)
  let baseline ← fs.given "baseline" Settings.default.baseline Value.flag?
  return ⟨file, interval, recuperation, baseline⟩

def readTrace (v : Value) : Option Source := do
  let fs ← v.fields? ["trace_file"]
  return .trace (← fs.need "trace_file" Value.text?)

def readRandom (v : Value) : Option Source := do
  let fs ← v.fields?
    ["num_vehicles", "width", "height", "min_speed", "max_speed", "pause_time", "seed"]
  return .random
    { vehicles := (← fs.need "num_vehicles" (Value.whole? (Nat.pow 2 32))).toUInt32
      width := ← fs.need "width" Value.float?
      height := ← fs.need "height" Value.float?
      minSpeed := ← fs.need "min_speed" Value.float?
      maxSpeed := ← fs.need "max_speed" Value.float?
      pauseTime := ← fs.given "pause_time" 0.0 Value.float?
      seed := (← fs.given "seed" 0 (Value.whole? (Nat.pow 2 64))).toUInt64 }

def Source.read (v : Value) : Option Source :=
  match v.alternative? with
  | some ("Ns2Trace", some content) => readTrace content
  | some ("RandomWaypoint", some content) => readRandom content
  | _ => none

def readMobility (fs : Fields) : Option Source := do
  let fs ← fs.known? ["source"]
  fs.need "source" Source.read

def Output.read (fs : Fields) : Option Output := do
  let fs ← fs.known? ["output_dir", "logging", "write_events"]
  let directory ← fs.need "output_dir" Value.text?
  let logging ← fs.given "logging" .off (Value.name? loggingNames)
  let events ← fs.given "write_events" .off (Value.name? eventNames)
  return ⟨directory, logging, events⟩

/-- How many layers a value in a section may have whose type is not known. -/
def layerLimit : Nat := 125

/-- Reads a section as the kind that it names. -/
def Section.ofDocument (d : Document) : Option Section := do
  match ← Value.kind? "type" layerLimit ⟨.asWanted, d⟩ with
  | ("Simulation", fs) => return .simulation (← TimeSpan.read fs)
  | ("Consumption", fs) => return .consumption (← Consumption.read fs)
  | ("Mobility", fs) => return .mobility (← readMobility fs)
  | ("Output", fs) => return .output (← Output.read fs)
  | _ => none

end FleetEnergy.Config

import FleetEnergy.Config
import FleetEnergy.Records

/-! Scenarios: a configuration names the movement and the vehicle records; a run simulates them and
writes what it found into the output directory. -/
namespace FleetEnergy
set_option autoImplicit false

namespace Scenario

/-! ## Faults -/

/-- Why a run ends without a summary. -/
inductive Fault
  | config (cause : Config.Fault)
  | mobility (cause : Mobility.Fault)
  | attributes (cause : Records.DocumentFault)
  | table (cause : File.Fault)
  /-- The update loops go on for ever. -/
  | endless

def Fault.message : Fault → String
  | .config cause => cause.message
  | .mobility cause => cause.message
  | .attributes cause => cause.message
  | .table cause => "Failed to write energy trace: " ++ cause.message
  | .endless => "The simulation does not end."

/-- Faults that nothing has been said against beforehand. -/
def Fault.isUnforeseen : Fault → Bool
  | .mobility (.invalidRandom .emptyRange) => true
  | .mobility (.invalidRandom .endless) => true
  | .endless => true
  | _ => false

/-! ## Vehicles -/

/-- The vehicles of the records that are not broken, in ascending order of their ids; vehicles with one
id stay in the order of their records. -/
def usable (vs : Records.Vehicles) : List (VehicleId × Profile Float) :=
  (vs.filterMap Except.toOption).mergeSort fun a b => a.1.node ≤ b.1.node

/-- What is said of the broken records. -/
def skipped (vs : Records.Vehicles) : List Notice :=
  vs.filterMap fun
    | .ok _ => none
    | .error e => some (.warning ("Skipping vehicle record: " ++ e.message))

/-- Asks for the admission of one vehicle after the other. -/
def enrolAll (s : Simulation) : List (VehicleId × Profile Float) → Simulation × List Happening
  | [] => (s, [])
  | (id, p) :: r =>
    let (s, _, hs) := s.enrol id p
    let (s, more) := enrolAll s r
    (s, hs ++ more)

/-- A simulation of all usable vehicles, from the admissions to the end. -/
def simulate (span : Config.TimeSpan) (m : Mobility) (settings : Settings) (vs : Records.Vehicles) :
    Option (Simulation × List Happening) :=
  let (s, admissions) := enrolAll (.new (.ofFloat span.startTime) span.endTime m settings) (usable vs)
  s.run.map fun (s, hs) => (s, admissions ++ hs)

/-! ## Output -/

def audience : Config.EventOutput → Audience
  | .off => .empty
  | .table => Audience.empty.subscribe (.table (.new false))
  | .log => Audience.empty.subscribe .logger

def consumedNotice (v : Simulation.VehicleSummary) : Notice :=
  .info ("Vehicle " ++ v.vehicle.text ++ " total consumed: " ++ plainText v.totalConsumed ++ " Wh")

variable {m : Type → Type} [Monad m] [Host m]

/-- Goes on with a result, or ends with a fault. -/
def orFail {ε α : Type} (fault : ε → Fault) (x : m (Except ε α)) : ExceptT Fault m α :=
  ExceptT.mk do return (← x).mapError fault

/-- Goes on with a result of which something is said. -/
def told {ε α : Type} (fault : ε → Fault) (x : Except ε α × List Notice) : ExceptT Fault m α :=
  orFail fault do
    Host.noteAll x.2
    return x.1

def say (n : Notice) : ExceptT Fault m Unit := ExceptT.lift (Host.note n)

def write (fault : File.Fault → Fault) (path text : String) : ExceptT Fault m Unit :=
  orFail fault (Host.writeText path text)

def makeDirectories (fault : File.Fault → Fault) (path : String) : ExceptT Fault m Unit :=
  orFail fault (Host.makeDirectories path)

def unwritable (e : File.Fault) : Fault := .config (.unwritable e)

def outputDirectory (c : Config) : String := c.resolve c.output.1.directory

def tablePath (directory : String) : String := File.Path.join directory "energy_trace.tsv"

/-- Starts the table of the energy trace as an empty file. -/
def startTable (directory : String) : ExceptT Fault m Unit := do
  let path := tablePath directory
  match File.Path.parent? path with
  | some above => makeDirectories .table above
  | none => pure ()
  say (.info ("Writing energy trace to " ++ Text.quotedPath path))
  write .table path ""

/-! ## Runs -/

def movement (c : Config) (source : Config.Source) (endTime : Float) : ExceptT Fault m Mobility :=
  match source with
  | .random r => told .mobility (Mobility.ofRandom r endTime)
  | .trace file => do
    let path := c.resolve file
    let content ← ExceptT.lift (Host.readFile path)
    told .mobility (Mobility.ofTrace path content)

def vehicles (c : Config) (file : String) : ExceptT Fault m Records.Vehicles := do
  let path := c.resolve file
  let content ← ExceptT.lift (Host.readFile path)
  let vs ← told .attributes (Records.ofFile path content)
  ExceptT.lift (Host.noteAll (skipped vs))
  return vs

/-- Writes summary and configuration. -/
def report (c : Config) (directory : String) (s : Simulation.Summary) : ExceptT Fault m Unit := do
  ExceptT.lift (Host.noteAll (s.vehicles.map consumedNotice))
  say (.info "Writing output files:")
  say (.info "    ... Summary ...")
  write unwritable (File.Path.join directory "summary.json") s.json.pretty
  say (.info "    ... Config ...")
  orFail .config (c.write directory)

/-- Runs a scenario and gives its summary. Broken records and vehicles that are not admitted are passed
over; everything else that goes wrong ends the run. -/
def execute (c : Config) : ExceptT Fault m Simulation.Summary := do
  let (output, c) := c.output
  let directory := outputDirectory c
  makeDirectories unwritable directory
  let (span, c) := c.simulation
  let consumption ← orFail .config (pure c.consumption)
  let source ← orFail .config (pure c.mobility)
  let mobility ← movement c source span.endTime
  let vs ← vehicles c consumption.vehicleAttributes
  if output.events = .table then startTable directory
  match simulate span mobility consumption.settings vs with
  | none => throw .endless
  | some (s, hs) =>
    let (listeners, notices) := (audience output.events).hearAll hs
    for text in listeners.tables do write .table (tablePath directory) text
    ExceptT.lift (Host.noteAll notices)
    report c directory s.summary
    return s.summary

def run (c : Config) : m (Except Fault Simulation.Summary) := (execute c).run

end Scenario

end FleetEnergy

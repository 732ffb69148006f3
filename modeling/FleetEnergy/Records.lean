import FleetEnergy.Decimal.Numeral
import FleetEnergy.File.Gzip
import FleetEnergy.Markup.Content
import FleetEnergy.Profile
import FleetEnergy.Text.Quoted
import FleetEnergy.VehicleId

/-! Files of vehicle records. A record names a node and lists parameters, each with a key and a value. A
broken record has an error of its own and does not touch the others; a broken document has none. -/
namespace FleetEnergy
set_option autoImplicit false

namespace Records

/-! ## Documents -/

structure Parameter where
  key : Option String
  value : Option String

structure Record where
  node : Option String
  parameters : List Parameter

/-- Why a document cannot be read. -/
inductive DocumentFault
  | unreadable (path : String) (cause : File.Fault)
  | unsupported (path : String)
  | malformed (path : String) (cause : Markup.Fault)

/-- The message; of a malformed document it ends before the place and the cause. -/
def DocumentFault.message : DocumentFault → String
  | .unreadable path cause => "Could not open " ++ path ++ ": " ++ cause.message
  | .unsupported path =>
    "Can't open file path: " ++ path ++ ". Only files with endings '.xml' or '.xml.gz' are supported."
  | .malformed path _ => "Problem reading " ++ path ++ " at '"

def parameterOf (e : Markup.Element) : Except Markup.Fault Parameter := do
  let fields ← e.fields ["key", "value"]
  Markup.skipPieces e.pieces
  return ⟨fields.lookup "key", fields.lookup "value"⟩

def recordOf (e : Markup.Element) : Except Markup.Fault Record := do
  let fields ← e.fields ["node"]
  let parameters ← (← Markup.listOf (Markup.ascii "param") e.pieces).mapM parameterOf
  return ⟨fields.lookup "node", parameters⟩

/-- The records of a document. The name of its outermost element does not matter. -/
def ofDocument (bytes : Markup.Bytes) : Except Markup.Fault (List Record) := do
  match ← Markup.Node.read bytes with
  | .element name attributes content =>
    let root : Markup.Element := .within [] name attributes content
    let _ ← root.fields []
    (← Markup.listOf (Markup.ascii "vehicle") root.pieces).mapM recordOf
  | _ => .error .noElement

/-! ## Records -/

/-- Why a record is not used. -/
inductive RecordFault
  | missingNode (index : Nat)
  | invalidNode (index : Nat) (node : String)
  | malformedParameter (vehicle : VehicleId) (index : Nat)
  | invalidValue (vehicle : VehicleId) (key value : String)

def RecordFault.message : RecordFault → String
  | .missingNode i => "Vehicle record " ++ toString i ++ " has no node attribute"
  | .invalidNode i node => "Vehicle record " ++ toString i ++ " has an invalid node '" ++ node ++ "'"
  | .malformedParameter id i =>
    "Parameter " ++ toString i ++ " of vehicle " ++ id.text ++ " needs both key and value"
  | .invalidValue id key value =>
    "Parameter " ++ key ++ " of vehicle " ++ id.text ++ " is not a number: '" ++ value ++ "'"

/-- Sets parameters from number `index` on. A key that is no parameter of vehicles is passed over with
a notice. -/
def setParameters (id : VehicleId) : Nat → List Parameter → Profile Float → List Notice →
    Except RecordFault (Profile Float) × List Notice
  | _, [], profile, notices => (.ok profile, notices)
  | index, q :: r, profile, notices =>
    match q.key, q.value with
    | some key, some value =>
      match Decimal.readNumber (Text.trim value.toList) with
      | .error _ => (.error (.invalidValue id key value), notices)
      | .ok x =>
        match profile.set? key x with
        | some profile => setParameters id (index + 1) r profile notices
        | none =>
          setParameters id (index + 1) r profile
            (notices ++ [.warning ("Ignoring unknown parameter " ++ key ++ " of vehicle " ++ id.text)])
    | _, _ => (.error (.malformedParameter id index), notices)

/-- The vehicle of the record at a place of the list. -/
def vehicleOf (index : Nat) (record : Record) :
    Except RecordFault (VehicleId × Profile Float) × List Notice :=
  match record.node with
  | none => (.error (.missingNode index), [])
  | some node =>
    match VehicleId.read node.toList with
    | .error _ => (.error (.invalidNode index node), [])
    | .ok id =>
      let (profile, notices) := setParameters id 0 record.parameters .blank []
      (profile.map fun p => (id, p), notices)

abbrev Vehicles : Type := List (Except RecordFault (VehicleId × Profile Float))

/-- The vehicles of records whose places start at `index`. -/
def vehiclesFrom : Nat → List Record → Vehicles × List Notice
  | _, [] => ([], [])
  | index, record :: r =>
    let (vehicle, notices) := vehicleOf index record
    let (vehicles, more) := vehiclesFrom (index + 1) r
    (vehicle :: vehicles, notices ++ more)

/-- The vehicles of a list of records, each with its own outcome. -/
def vehicles (records : List Record) : Vehicles × List Notice := vehiclesFrom 0 records

/-! ## Files -/

/-- Reads the records of a file from what was found at its path. -/
def ofFile (path : String) (content : Except File.Fault ByteArray) :
    Except DocumentFault Vehicles × List Notice :=
  let started : Notice :=
    .info ("xml::read_from_file: Starting to read file at: " ++ Text.quotedPath path)
  if !(path.endsWith ".xml" || path.endsWith ".xml.gz") then (.error (.unsupported path), [started])
  else
    match content with
    | .error .isDirectory => (.error (.malformed path .noElement), [started])
    | .error e => (.error (.unreadable path e), [started])
    | .ok bytes =>
      let document : Except Markup.Fault (List Record) :=
        ofDocument (if path.endsWith ".xml.gz" then (File.Gzip.decompress bytes).1 else bytes).toList
      match document with
      | .error e => (.error (.malformed path e), [started])
      | .ok records =>
        let (vehicles, notices) := vehicles records
        (.ok vehicles, started
          :: .info ("Read " ++ toString records.length ++ " vehicle records from " ++ Text.quotedPath path)
          :: notices)

end Records

end FleetEnergy

import FleetEnergy.Text.Quoted
import FleetEnergy.VehicleId

/-! The statements of a movement trace, one a line. A statement sets a coordinate of a node or sends the
node to a destination; it starts with the time at which it holds, or it describes the beginning.
Quotation marks around a word do not count, and lines that start with a number sign are comments. -/
namespace FleetEnergy
set_option autoImplicit false

inductive Axis
  | x
  | y
  | z
deriving DecidableEq, Repr

/-- What a statement asks of its node. -/
inductive Order
  | set (axis : Axis) (value : Float)
  | setDestination (x y speed : Float)

structure Statement where
  time : Option Float
  node : VehicleId
  order : Order

/-! ## Faults of a line -/

inductive NumberFault
  | unreadable (word : String) (cause : Decimal.NumberError)
  | notFinite (word : String)

def NumberFault.message : NumberFault → String
  | .unreadable word cause => "Invalid number '" ++ word ++ "': " ++ cause.message
  | .notFinite word => "Number '" ++ word ++ "' is not finite"

inductive CommandFault
  | missingNode
  | noNode (word : String)
  | badNode (word : String) (cause : Decimal.WholeError)
  | unknownAxis (word : String)
  | number (fault : NumberFault)
  | unsupported (words : List String)

def CommandFault.message : CommandFault → String
  | .missingNode => "Missing node"
  | .noNode word => "Expected '$node_(<id>)', got '" ++ word ++ "'"
  | .badNode word cause => "Invalid node id '" ++ word ++ "': " ++ cause.message
  | .unknownAxis word => "Unknown axis " ++ word
  | .number fault => fault.message
  | .unsupported words => "Unsupported command " ++ Text.quotedList words

inductive LineFault
  | badTime (line : String)
  | time (fault : NumberFault)
  | command (fault : CommandFault) (line : String)

def LineFault.message : LineFault → String
  | .badTime line => "Expected '$ns_ at <time> ...', got '" ++ line ++ "'"
  | .time fault => fault.message
  | .command fault line => fault.message ++ " in '" ++ line ++ "'"

namespace Statement

/-! ## Words -/

abbrev Word := List Char

/-- The words of a line without the quotation marks at their ends; a word of quotation marks alone is
dropped. -/
def wordsOf (line : List Char) : List Word :=
  ((Text.words line).map (Text.strip (· == '"'))).filter (! ·.isEmpty)

/-- Reads a finite number. -/
def readNumber (w : Word) : Except NumberFault Float :=
  match Decimal.readNumber w with
  | .error e => .error (.unreadable (String.ofList w) e)
  | .ok v => if v.isFinite then .ok v else .error (.notFinite (String.ofList w))

/-- What stands between the opening `$node_(` and the closing bracket. -/
def nodeText? (w : Word) : Option Word :=
  match w with
  | '$' :: 'n' :: 'o' :: 'd' :: 'e' :: '_' :: '(' :: r =>
    if r.getLast? = some ')' then some r.dropLast else none
  | _ => none

def readNode (w : Word) : Except CommandFault VehicleId :=
  match nodeText? w with
  | none => .error (.noNode (String.ofList w))
  | some t =>
    match VehicleId.read t with
    | .error e => .error (.badNode (String.ofList w) e)
    | .ok id => .ok id

def axis? (w : Word) : Option Axis :=
  match w with
  | ['X', '_'] => some .x
  | ['Y', '_'] => some .y
  | ['Z', '_'] => some .z
  | _ => none

/-! ## Lines -/

def readCoordinate (w : Word) : Except CommandFault Float := (readNumber w).mapError .number

/-- The words after the node. -/
def readOrder (ws : List Word) : Except CommandFault Order :=
  match ws with
  | [verb, a, b] =>
    if verb = "set".toList then
      match axis? a with
      | none => .error (.unknownAxis (String.ofList a))
      | some axis => do return .set axis (← readCoordinate b)
    else .error (.unsupported (ws.map String.ofList))
  | [verb, a, b, c] =>
    if verb = "setdest".toList then do
      return .setDestination (← readCoordinate a) (← readCoordinate b) (← readCoordinate c)
    else .error (.unsupported (ws.map String.ofList))
  | _ => .error (.unsupported (ws.map String.ofList))

def readCommand (ws : List Word) : Except CommandFault (VehicleId × Order) :=
  match ws with
  | [] => .error .missingNode
  | w :: r => do
    let id ← readNode w
    return (id, ← readOrder r)

/-- Splits off the words `$ns_ at` and a time. -/
def splitTime (line : String) (ws : List Word) : Except LineFault (Option Float × List Word) :=
  match ws with
  | w :: r =>
    if w = "$ns_".toList then
      match r with
      | a :: t :: rest =>
        if a = "at".toList then
          match readNumber t with
          | .ok t => .ok (some t, rest)
          | .error e => .error (.time e)
        else .error (.badTime line)
      | _ => .error (.badTime line)
    else .ok (none, ws)
  | [] => .ok (none, ws)

/-- The words of a line that is neither blank nor a comment. -/
def ofWords (line : String) (ws : List Word) : Except LineFault Statement :=
  match splitTime line ws with
  | .error e => .error e
  | .ok (time, rest) =>
    match readCommand rest with
    | .error e => .error (.command e line)
    | .ok (id, order) => .ok ⟨time, id, order⟩

/-- Reads a line. Blank lines, comments and lines of quotation marks hold nothing. -/
def read (line : List Char) : Except LineFault (Option Statement) :=
  match Text.trim line with
  | [] => .ok none
  | '#' :: _ => .ok none
  | cs =>
    match wordsOf cs with
    | [] => .ok none
    | ws => (ofWords (String.ofList cs) ws).map some

end Statement

end FleetEnergy

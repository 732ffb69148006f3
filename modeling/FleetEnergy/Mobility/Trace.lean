import FleetEnergy.File.Fault
import FleetEnergy.Mobility.Itinerary
import FleetEnergy.Mobility.Statement
import FleetEnergy.TimeQueue

/-! Movement traces. The statements without a time describe the beginning; those with a time are
applied in the order of their times, and statements of one time in the order of their lines. -/
namespace FleetEnergy
set_option autoImplicit false

def Vec3.withAxis (p : Vec3 Float) (axis : Axis) (value : Float) : Vec3 Float :=
  match axis with
  | .x => { p with x := value }
  | .y => { p with y := value }
  | .z => { p with z := value }

/-- The movement of the vehicles of a trace. -/
abbrev Itineraries : Type := VehicleMap (Itinerary Float)

namespace Statement

/-- The command that a statement means for a node with the given movement. A destination without a
time means nothing. -/
def command? (s : Statement) (it : Itinerary Float) : Option (MoveCommand Float) :=
  match s.time, s.order with
  | none, .set axis v => some (.setInitial ((it.position 0.0).withAxis axis v))
  | none, .setDestination .. => none
  | some t, .set axis v => some (.setPosition t ((it.position t).withAxis axis v))
  | some t, .setDestination x y speed => some (.setDestination t x y speed)

def applyTo (s : Statement) (it : Itinerary Float) : Itinerary Float :=
  match s.command? it with
  | none => it
  | some c => it.apply c

def remarksOn (s : Statement) (it : Itinerary Float) : List Notice :=
  match s.command? it with
  | none => [.warning ("Ignoring setdest without time for node " ++ s.node.text)]
  | some c => it.remarks c

/-- The place of a timed statement in the order of times. -/
def rank (s : Statement) : Int := (Instant.ofFloat (s.time.getD 0.0)).rank

end Statement

namespace Trace

/-- The statements in the order in which they are applied. -/
def inOrder (statements : List Statement) : List Statement :=
  statements.filter (·.time.isNone)
    ++ (statements.filter (·.time.isSome)).mergeSort (fun a b => decide (a.rank ≤ b.rank))

/-- The movement of a node so far; a node that was not named yet stands in the origin. -/
def itinerary (t : Itineraries) (id : VehicleId) : Itinerary Float := (t[id]?).getD (.stay .zero)

/-- Applies one statement and tells what is to be said of it. -/
def step (state : Itineraries × List Notice) (s : Statement) : Itineraries × List Notice :=
  let it := itinerary state.1 s.node
  (state.1.insert s.node (s.applyTo it), state.2 ++ s.remarksOn it)

/-- The movement that the statements describe. -/
def build (statements : List Statement) : Itineraries × List Notice :=
  (inOrder statements).foldl step (∅, [])

/-! ## Lines -/

/-- Puts a byte before the lines that follow it. -/
def consByte (b : UInt8) (ls : List (List UInt8)) : List (List UInt8) :=
  if b = 10 then [] :: ls
  else match ls with
    | [] => [[b]]
    | l :: ls => (b :: l) :: ls

/-- Cuts bytes at line feeds. There is no empty line after the last line feed, and a carriage return
at the end of a line is one of its blanks. -/
def lines (bytes : List UInt8) : List (List UInt8) := bytes.foldr consByte []

/-- What has been read: the statements and what was said of the lines without one. -/
structure Reading where
  statements : Array Statement
  notices : Array Notice

def skipped (number : Nat) (fault : LineFault) : Notice :=
  .warning ("Skipping line " ++ toString number ++ " of ns-2 trace: " ++ fault.message)

/-- Reads lines from number `n` on. A line that is no statement is passed over with a notice; one that
is no text ends the reading. -/
def readLines : Nat → List (List UInt8) → Reading → Reading × Option File.Fault
  | _, [], out => (out, none)
  | n, l :: ls, out =>
    match String.fromUTF8? ⟨l.toArray⟩ with
    | none => (out, some .notText)
    | some text =>
      match Statement.read text.toList with
      | .ok none => readLines (n + 1) ls out
      | .ok (some s) => readLines (n + 1) ls { out with statements := out.statements.push s }
      | .error e => readLines (n + 1) ls { out with notices := out.notices.push (skipped n e) }

/-- The lines that can be read before a fault: those that end with a line feed. -/
def linesBefore (stop : Option File.Fault) (bytes : List UInt8) : List (List UInt8) :=
  match stop with
  | none => lines bytes
  | some _ => lines (bytes.reverse.dropWhile (· != 10)).reverse

/-- Reads a trace whose bytes may end with a fault: the movement or why there is none, and what is to
be said of its lines. -/
def read (bytes : List UInt8) (stop : Option File.Fault) : Except File.Fault Itineraries × List Notice :=
  match readLines 1 (linesBefore stop bytes) ⟨#[], #[]⟩, stop with
  | (out, some fault), _ => (.error fault, out.notices.toList)
  | (out, none), some fault => (.error fault, out.notices.toList)
  | (out, none), none =>
    let (t, notices) := build out.statements.toList
    (.ok t, out.notices.toList ++ notices)

end Trace

end FleetEnergy

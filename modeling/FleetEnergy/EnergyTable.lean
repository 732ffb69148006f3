import FleetEnergy.Event
import FleetEnergy.Notice

/-! The energy trace as a table: a line of headings and one line for each tick, with tabs between the
fields. The table collects what is written in a buffer and hands it on to its sink in full blocks, the
rest when it is finished. -/
namespace FleetEnergy
set_option autoImplicit false

structure EnergyTable where
  /-- Whether the sink refuses everything that is handed on to it. -/
  closed : Bool
  /-- What the sink has taken. -/
  flushed : String
  /-- What waits to be handed on. -/
  buffer : String
  /-- Whether the line of headings has been written. -/
  headed : Bool

namespace EnergyTable

def new (closed : Bool) : EnergyTable := ⟨closed, "", "", false⟩

/-! ## Lines -/

def line (fields : List String) : String := "\t".intercalate fields ++ "\n"

def headings : List String :=
  ["time", "vehicle", "x", "y", "z", "speed", "energy_fraction", "remaining_wh", "consumed_wh",
   "total_consumed_wh"]

/-- The fields of a tick, in the order of the headings. -/
def fields (time : Float) (t : Tick) : List String :=
  let number := Decimal.Layout.table.write
  [number time, t.vehicle.text, number t.position.x, number t.position.y, number t.position.z,
   number t.speed, number t.energyFraction, number t.remaining, number t.consumed,
   number t.totalConsumed]

/-! ## The buffer -/

/-- How many characters the buffer holds. All characters of a table take one byte. -/
def capacity : Nat := 8192

/-- The text in waiting, cut where the last full block ends that something follows. -/
def split (text : String) : String × String :=
  let cs := text.toList
  let n := (cs.length - 1) / capacity * capacity
  (String.ofList (cs.take n), String.ofList (cs.drop n))

/-- Adds text to the buffer; blocks that are full are handed on before more is added. A closed sink
refuses them, and the buffer stays full. -/
def write (t : EnergyTable) (text : String) : EnergyTable × Bool :=
  let waiting := t.buffer ++ text
  if waiting.length ≤ capacity then ({ t with buffer := waiting }, true)
  else if t.closed then ({ t with buffer := String.ofList (waiting.toList.take capacity) }, false)
  else
    let (blocks, rest) := split waiting
    ({ t with flushed := t.flushed ++ blocks, buffer := rest }, true)

/-- Adds the line of a tick, after the headings if it is the first one. -/
def add (t : EnergyTable) (time : Float) (tick : Tick) : EnergyTable × List Notice :=
  let text := (if t.headed then "" else line headings) ++ line (fields time tick)
  match { t with headed := true }.write text with
  | (t, true) => (t, [])
  | (t, false) => (t, [.warning "Could not write energy trace row: sink is closed"])

/-- Hands on what is in the buffer. -/
def finish (t : EnergyTable) : EnergyTable × List Notice :=
  if t.closed && !t.buffer.isEmpty then
    (t, [.warning "Could not flush energy trace: sink is closed"])
  else ({ t with flushed := t.flushed ++ t.buffer, buffer := "" }, [])

end EnergyTable

end FleetEnergy

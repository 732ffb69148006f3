import FleetEnergy.EnergyTable

/-! Those who are told of the events of a run: a collector keeps them, a logger writes them into the
log, a table writes a line for each tick. They are told in the order in which they subscribed. -/
namespace FleetEnergy
set_option autoImplicit false

/-- What a simulation lets the outside know, in order. -/
inductive Happening
  | notice (n : Notice)
  | event (time : Float) (e : Event)
  | finished

/-! ## Collecting -/

/-- The events of a run, by kind and vehicle. -/
structure Collector where
  ticks : VehicleMap (Array (Float × Tick))
  admitted : Array VehicleId
  rejected : Array (VehicleId × String)
  stopped : VehicleMap Float

namespace Collector

def empty : Collector := ⟨∅, #[], #[], ∅⟩

def ticksOf (c : Collector) (id : VehicleId) : Array (Float × Tick) := (c.ticks[id]?).getD #[]

/-- When the update loop of a vehicle was stopped. -/
def stopTime (c : Collector) (id : VehicleId) : Option Float := c.stopped[id]?

/-- The sum of what the ticks of a vehicle consumed, from left to right; without ticks it is negative
zero. -/
def consumed (c : Collector) (id : VehicleId) : Float :=
  (c.ticksOf id).foldl (fun sum t => sum + t.2.consumed) (-0.0)

def hear (c : Collector) (time : Float) : Event → Collector
  | .admitted id _ => { c with admitted := c.admitted.push id }
  | .rejected id reason => { c with rejected := c.rejected.push (id, reason) }
  | .tick t => { c with ticks := c.ticks.insert t.vehicle ((c.ticksOf t.vehicle).push (time, t)) }
  | .stopped id .. => { c with stopped := c.stopped.insert id time }

end Collector

/-! ## Subscribers -/

inductive Subscriber
  | collector (c : Collector)
  | logger
  | table (t : EnergyTable)

namespace Subscriber

def hear (s : Subscriber) (time : Float) (e : Event) : Subscriber × List Notice :=
  match s with
  | .collector c => (.collector (c.hear time e), [])
  | .logger => (.logger, [.info (plainText time ++ ": " ++ e.inspect)])
  | .table t =>
    match e with
    | .tick tick =>
      let (t, notices) := t.add time tick
      (.table t, notices)
    | _ => (.table t, [])

def finish (s : Subscriber) : Subscriber × List Notice :=
  match s with
  | .table t =>
    let (t, notices) := t.finish
    (.table t, notices)
  | s => (s, [])

end Subscriber

/-- The subscribers in the order in which they subscribed. -/
structure Audience where
  subscribers : List Subscriber

namespace Audience

def empty : Audience := ⟨[]⟩

def subscribe (a : Audience) (s : Subscriber) : Audience := ⟨a.subscribers ++ [s]⟩

/-- Tells every subscriber in turn. -/
def each (a : Audience) (f : Subscriber → Subscriber × List Notice) : Audience × List Notice :=
  let told := a.subscribers.map f
  (⟨told.map (·.1)⟩, told.flatMap (·.2))

def publish (a : Audience) (time : Float) (e : Event) : Audience × List Notice := a.each (·.hear time e)

def finish (a : Audience) : Audience × List Notice := a.each (·.finish)

/-- Tells the audience what happened; the notices are those that the log gets. -/
def hear (a : Audience) : Happening → Audience × List Notice
  | .notice n => (a, [n])
  | .event time e => a.publish time e
  | .finished => a.finish

/-- Tells the audience of many happenings. -/
def hearAll (a : Audience) (hs : List Happening) : Audience × List Notice :=
  let (a, log) := hs.foldl (fun (a, log) h =>
    let (a, more) := a.hear h
    (a, log ++ more.toArray)) (a, #[])
  (a, log.toList)

/-- The collector that subscribed last. -/
def collector? (a : Audience) : Option Collector :=
  a.subscribers.reverse.findSome? fun
    | .collector c => some c
    | _ => none

/-- What the sinks of the tables have taken. -/
def tables (a : Audience) : List String :=
  a.subscribers.filterMap fun
    | .table t => some t.flushed
    | _ => none

end Audience

end FleetEnergy

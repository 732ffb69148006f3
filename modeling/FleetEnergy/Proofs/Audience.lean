import FleetEnergy.Audience
import FleetEnergy.Proofs.VehicleId

/-! The events among the happenings of a run, and what a collector has kept when it has heard of them all. -/
namespace FleetEnergy
set_option autoImplicit false

/-! ## Published events -/

def Happening.published? : Happening → Option (Float × Event)
  | .event time e => some (time, e)
  | _ => none

/-- The events among what happened, with their times. -/
def published (hs : List Happening) : List (Float × Event) := hs.filterMap Happening.published?

theorem published_append (hs more : List Happening) : published (hs ++ more) = published hs ++ published more :=
  List.filterMap_append

theorem published_notices (ns : List Notice) : published (ns.map .notice) = [] := by
  induction ns with
  | nil => rfl
  | cons n ns ih => exact ih

/-! ## The events of one vehicle -/

/-- The ticks of a vehicle, with their times. -/
def ticksIn (id : VehicleId) (es : List (Float × Event)) : List (Float × Tick) :=
  es.filterMap fun
    | (time, .tick t) => if t.vehicle = id then some (time, t) else none
    | _ => none

/-- Remaining and total energy at the stops of a vehicle. -/
def stopsIn (id : VehicleId) (es : List (Float × Event)) : List (Float × Float) :=
  es.filterMap fun
    | (_, .stopped v remaining total) => if v = id then some (remaining, total) else none
    | _ => none

theorem ticksIn_append (id : VehicleId) (es more : List (Float × Event)) :
    ticksIn id (es ++ more) = ticksIn id es ++ ticksIn id more := List.filterMap_append

theorem stopsIn_append (id : VehicleId) (es more : List (Float × Event)) :
    stopsIn id (es ++ more) = stopsIn id es ++ stopsIn id more := List.filterMap_append

theorem ticksIn_tick (id : VehicleId) (time : Float) (t : Tick) :
    ticksIn id [(time, .tick t)] = if t.vehicle = id then [(time, t)] else [] := by
  unfold ticksIn
  split_ifs with h
  · simp only [List.filterMap_cons, h, if_true, List.filterMap_nil]
  · simp only [List.filterMap_cons, h, if_false, List.filterMap_nil]

theorem stopsIn_stopped (id v : VehicleId) (time remaining total : Float) :
    stopsIn id [(time, .stopped v remaining total)] = if v = id then [(remaining, total)] else [] := by
  unfold stopsIn
  split_ifs with h
  · simp only [List.filterMap_cons, h, if_true, List.filterMap_nil]
  · simp only [List.filterMap_cons, h, if_false, List.filterMap_nil]

/-! ## Collectors -/

namespace Collector

/-- The collector after it has heard of some events. -/
def after (c : Collector) (es : List (Float × Event)) : Collector := es.foldl (fun c e => c.hear e.1 e.2) c

theorem ticksOf_empty (id : VehicleId) : empty.ticksOf id = #[] := by
  rw [ticksOf, empty, Std.TreeMap.getElem?_emptyc]
  rfl

theorem ticksOf_hear (c : Collector) (id : VehicleId) (time : Float) (e : Event) :
    ((c.hear time e).ticksOf id).toList = (c.ticksOf id).toList ++ ticksIn id [(time, e)] := by
  cases e with
  | admitted v energy => exact (List.append_nil _).symm
  | rejected v reason => exact (List.append_nil _).symm
  | stopped v remaining total => exact (List.append_nil _).symm
  | tick t =>
    rw [ticksIn_tick]
    change (((c.ticks.insert t.vehicle ((c.ticksOf t.vehicle).push (time, t)))[id]?).getD #[]).toList = _
    rw [getElem?_insert]
    split_ifs with h
    · rw [h, Option.getD_some, Array.toList_push]
    · exact (List.append_nil _).symm

theorem ticksOf_after (c : Collector) (id : VehicleId) (es : List (Float × Event)) :
    ((c.after es).ticksOf id).toList = (c.ticksOf id).toList ++ ticksIn id es := by
  induction es generalizing c with
  | nil => exact (List.append_nil _).symm
  | cons e es ih =>
    change (((c.hear e.1 e.2).after es).ticksOf id).toList = _
    rw [ih, ticksOf_hear, List.append_assoc, ← ticksIn_append]
    rfl

end Collector

/-- The collector that a subscriber is. -/
def Subscriber.collector? : Subscriber → Option Collector
  | .collector c => some c
  | _ => none

namespace Audience

theorem collector?_eq (a : Audience) : a.collector? = a.subscribers.reverse.findSome? Subscriber.collector? := rfl

theorem collector?_each (a : Audience) (f : Subscriber → Subscriber × List Notice) (g : Collector → Collector)
    (hf : ∀ s, (f s).1.collector? = s.collector?.map g) : (a.each f).1.collector? = a.collector?.map g := by
  rw [collector?_eq, collector?_eq]
  simp only [each, List.map_map, ← List.map_reverse]
  induction a.subscribers.reverse with
  | nil => rfl
  | cons s r ih =>
    rw [List.map_cons, List.findSome?_cons, List.findSome?_cons, Function.comp_apply, hf, ih]
    cases s.collector? with
    | none => rfl
    | some c => rfl

theorem collector?_hear (a : Audience) (h : Happening) :
    (a.hear h).1.collector? = a.collector?.map (·.after (published [h])) := by
  cases h with
  | notice n => exact Option.map_id'.symm
  | event time e =>
    refine a.collector?_each (·.hear time e) (·.hear time e) fun s => ?_
    cases s with
    | collector c => rfl
    | logger => rfl
    | table t => cases e <;> rfl
  | finished =>
    refine (a.collector?_each (·.finish) id fun s => ?_).trans rfl
    cases s <;> rfl

theorem hearAll_concat (a : Audience) (hs : List Happening) (h : Happening) :
    a.hearAll (hs ++ [h]) = (((a.hearAll hs).1.hear h).1, (a.hearAll hs).2 ++ ((a.hearAll hs).1.hear h).2) := by
  simp [hearAll, List.foldl_append]

/-- The collector of an audience has heard of the published events, whatever else the audience was told. -/
theorem collector?_hearAll (a : Audience) (hs : List Happening) :
    (a.hearAll hs).1.collector? = a.collector?.map (·.after (published hs)) := by
  induction hs using List.reverseRecOn with
  | nil => exact Option.map_id'.symm
  | append_singleton hs h ih =>
    rw [hearAll_concat, collector?_hear, ih, Option.map_map]
    congr 1
    funext c
    rw [Function.comp_apply, published_append, Collector.after, Collector.after, Collector.after, List.foldl_append]

end Audience

end FleetEnergy

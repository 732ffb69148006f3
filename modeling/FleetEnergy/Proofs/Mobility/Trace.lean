import FleetEnergy.Mobility.Trace
import FleetEnergy.Proofs.Instant
import FleetEnergy.Proofs.Mobility.Itinerary
import FleetEnergy.Proofs.Sorting
import FleetEnergy.Proofs.VehicleId

/-! What a trace means. The movement of a node depends on its own statements alone, on those without a time in the
order of their lines and on those with a time in the order of time and line, and none of these comes late. -/
namespace FleetEnergy
set_option autoImplicit false

/-! ## Statements in order -/

namespace Statement

/-- The time of a statement as an instant, if it has one. -/
def instant? (s : Statement) : Option Instant := s.time.map .ofFloat

theorem rank_of_time {s : Statement} {t : Float} (h : s.time = some t) : s.rank = (Instant.ofFloat t).rank := by
  rw [rank, h, Option.getD_some]

/-- A statement of a node at an instant, or one of those without a time. -/
def isAt (id : VehicleId) (time : Option Instant) (s : Statement) : Bool :=
  decide (s.node = id) && decide (s.instant? = time)

end Statement

namespace Trace

def untimed (ss : List Statement) : List Statement := ss.filter (·.time.isNone)

def timed (ss : List Statement) : List Statement := ss.filter (·.time.isSome)

theorem inOrder_eq (ss : List Statement) : inOrder ss = untimed ss ++ byRank Statement.rank (timed ss) := rfl

def ofNode (id : VehicleId) (ss : List Statement) : List Statement := ss.filter (fun s => decide (s.node = id))

/-- Every node has the same statements without a time, and at every instant the same with that time. -/
def Alike (ss ss' : List Statement) : Prop :=
  ∀ id time, ss.filter (Statement.isAt id time) = ss'.filter (Statement.isAt id time)

theorem Alike.untimed {ss ss' : List Statement} (h : Alike ss ss') (id : VehicleId) :
    Trace.untimed (ofNode id ss) = Trace.untimed (ofNode id ss') := by
  have hsame (ss : List Statement) : Trace.untimed (ofNode id ss) = ss.filter (Statement.isAt id none) := by
    rw [Trace.untimed, ofNode, List.filter_filter]
    refine List.filter_congr fun s _ => ?_
    cases ht : s.time <;> simp [Statement.isAt, Statement.instant?, ht]
  rw [hsame, hsame, h id none]

theorem Alike.timed {ss ss' : List Statement} (h : Alike ss ss') (id : VehicleId) :
    byRank Statement.rank (Trace.timed (ofNode id ss)) = byRank Statement.rank (Trace.timed (ofNode id ss')) := by
  refine eq_of_filter_rank_eq _ (byRank_sorted _ _) (byRank_sorted _ _) fun r => ?_
  rw [filter_rank_byRank, filter_rank_byRank]
  have hsame (i : Instant) (hi : i.rank = r) (ss : List Statement) :
      (Trace.timed (ofNode id ss)).filter (fun s => decide (s.rank = r)) = ss.filter (Statement.isAt id (some i)) := by
    rw [Trace.timed, ofNode, List.filter_filter, List.filter_filter]
    refine List.filter_congr fun s _ => ?_
    cases ht : s.time with
    | none => simp [Statement.isAt, Statement.instant?, ht]
    | some t =>
      have hr : s.rank = r ↔ Instant.ofFloat t = i := by
        rw [Statement.rank_of_time ht, ← hi]
        exact ⟨Instant.rank_inj, congrArg Instant.rank⟩
      simp [Statement.isAt, Statement.instant?, ht, hr, Bool.and_comm]
  by_cases hr : ∃ i : Instant, i.rank = r
  · obtain ⟨i, hi⟩ := hr
    rw [hsame i hi, hsame i hi, h id (some i)]
  · have hnone (s : Statement) : ¬s.rank = r := fun hs => hr ⟨_, hs⟩
    simp [hnone]

theorem Alike.inOrder {ss ss' : List Statement} (h : Alike ss ss') (id : VehicleId) :
    Trace.inOrder (ofNode id ss) = Trace.inOrder (ofNode id ss') := by
  rw [inOrder_eq, inOrder_eq, h.untimed id, h.timed id]

/-! ## The movement of a node -/

/-- Statements applied to the movement of their node, of which there is none before the first. -/
def follow (o : Option (Itinerary Float)) (ss : List Statement) : Option (Itinerary Float) :=
  ss.foldl (fun o s => some (s.applyTo (o.getD (.stay .zero)))) o

/-- Only its own statements change the movement of a node. -/
theorem foldl_step_get (ss : List Statement) (t : Itineraries) (ns : List Notice) (id : VehicleId) :
    (ss.foldl step (t, ns)).1[id]? = follow t[id]? (ofNode id ss) := by
  induction ss generalizing t ns with
  | nil => rfl
  | cons s ss ih =>
    rw [List.foldl_cons]
    change (ss.foldl step (t.insert s.node (s.applyTo (itinerary t s.node)), _)).1[id]? = _
    rw [ih, getElem?_insert]
    by_cases hs : s.node = id
    · subst hs
      simp [ofNode, follow, itinerary]
    · simp [ofNode, hs]

theorem follow_some (it : Itinerary Float) (ss : List Statement) :
    follow (some it) ss = some (ss.foldl (fun it s => s.applyTo it) it) := by
  induction ss generalizing it with
  | nil => rfl
  | cons s ss ih =>
    change follow (some (s.applyTo it)) ss = _
    rw [ih]
    rfl

theorem follow_none (ss : List Statement) :
    follow none ss = if ss = [] then none else some (ss.foldl (fun it s => s.applyTo it) (.stay .zero)) := by
  cases ss with
  | nil => rfl
  | cons s ss =>
    rw [if_neg (by simp)]
    exact follow_some (s.applyTo (.stay .zero)) ss

/-- The movement that the statements without a time describe. -/
def outset (ss : List Statement) : Itinerary Float := (untimed ss).foldl (fun it s => s.applyTo it) (.stay .zero)

/-- Timed statements one after the other: none is late, and each adds one leg that starts at its time. -/
inductive Drives : Itinerary Float → List Statement → Itinerary Float → Prop
  | nil (it : Itinerary Float) : Drives it [] it
  | cons {it last : Itinerary Float} {s : Statement} {ss : List Statement} {t : Float} {leg : Leg Float} :
      s.time = some t → it.isLate t = false → leg.startTime = t → s.applyTo it = it.addLeg leg →
      Drives (it.addLeg leg) ss last → Drives it (s :: ss) last

theorem Drives.starts {it last : Itinerary Float} {ss : List Statement} (h : Drives it ss last) :
    last.legs.toList.map (fun leg => some leg.startTime) =
      it.legs.toList.map (fun leg => some leg.startTime) ++ ss.map (·.time) := by
  induction h with
  | nil => simp
  | cons ht _ hstart _ _ ih =>
    rw [ih]
    simp [Itinerary.addLeg, hstart, ht]

def bytesOf (ls : List String) : List UInt8 := ls.flatMap fun l => l.toUTF8.toList ++ [10]

end Trace

end FleetEnergy

import FleetEnergy.Proofs.Audience
import FleetEnergy.Proofs.Binary64.Sum
import FleetEnergy.Proofs.Ledger
import FleetEnergy.Proofs.Simulation.Consistency

/-! The books of a run. The account of a vehicle is kept in its ledger, told in its ticks, summed up by a
collector, repeated when the vehicle stops and written into the summary; all of these agree. -/
namespace FleetEnergy
open Binary64
set_option autoImplicit false

/-! ## An account in ticks -/

/-- The ticks carry an account on from one balance to another, each from where the one before has left it. -/
def Booked (capacity : Float) : Float → Float → List Tick → Float → Float → Prop
  | remaining, total, [], remaining', total' => remaining' = remaining ∧ total' = total
  | remaining, total, t :: ts, remaining', total' =>
    t.previousRemaining = remaining ∧ t.remaining = remaining - t.consumed ∧
      t.totalConsumed = total + t.consumed ∧ t.energyFraction = t.remaining / capacity ∧
      Booked capacity t.remaining t.totalConsumed ts remaining' total'

/-- A sum with what the ticks consumed added in order. -/
def addConsumed (sum : Float) (ts : List Tick) : Float := ts.foldl (fun sum t => sum + t.consumed) sum

namespace Booked

variable {capacity : Float}

theorem append {ts more : List Tick} {r₁ t₁ r₂ t₂ r₃ t₃ : Float} (h : Booked capacity r₁ t₁ ts r₂ t₂)
    (h' : Booked capacity r₂ t₂ more r₃ t₃) : Booked capacity r₁ t₁ (ts ++ more) r₃ t₃ := by
  induction ts generalizing r₁ t₁ with
  | nil =>
    obtain ⟨rfl, rfl⟩ := h
    exact h'
  | cons t ts ih =>
    obtain ⟨hp, hr, ht, hf, h⟩ := h
    exact ⟨hp, hr, ht, hf, ih h⟩

theorem total_eq {ts : List Tick} {r₁ t₁ r₂ t₂ : Float} (h : Booked capacity r₁ t₁ ts r₂ t₂) :
    t₂ = addConsumed t₁ ts := by
  induction ts generalizing r₁ t₁ with
  | nil => exact h.2
  | cons t ts ih =>
    obtain ⟨-, -, ht, -, h⟩ := h
    rw [addConsumed, List.foldl_cons, ← ht]
    exact ih h

/-- A sum from negative zero ends with the same number as the total. -/
theorem total_beq {ts : List Tick} {r₁ r₂ t₂ : Float} (h : Booked capacity r₁ 0.0 ts r₂ t₂) :
    (addConsumed (-0.0) ts == t₂) = true ∨ (addConsumed (-0.0) ts).isNaN = true ∧ t₂.isNaN = true := by
  -- Over any two starts that agree up to the sign of zero, since after the first tick the sums may be anything.
  have hsum (ts : List Tick) (x y : Float) (hxy : SameUpToZero x y) :
      SameUpToZero (addConsumed x ts) (addConsumed y ts) := by
    induction ts generalizing x y with
    | nil => exact hxy
    | cons t ts ih => exact ih _ _ (hxy.add t.consumed)
  rw [h.total_eq]
  exact (hsum ts _ _ (.inr ⟨_, _, reading_neg_zero, reading_zero⟩)).beq_or_nan

end Booked

/-! ## Accounts of vehicles -/

/-- What the events so far tell of a vehicle is what the vehicle is. -/
structure Account (p : Profile Float) (id : VehicleId) (es : List (Float × Event)) (v : Vehicle) : Prop where
  profile : v.profile = p
  booked : Booked p.maximumBatteryCapacity p.initialEnergy 0.0 ((ticksIn id es).map Prod.snd)
    v.ledger.remaining v.ledger.total
  armed : v.Armed → stopsIn id es = []
  stopped : v.loop.state = .stopped → stopsIn id es = [(v.ledger.remaining, v.ledger.total)]

/-- Events that are not about a vehicle do not touch its account. -/
theorem Account.frame {p : Profile Float} {id : VehicleId} {es more : List (Float × Event)} {v : Vehicle}
    (h : Account p id es v) (ht : ticksIn id more = []) (hs : stopsIn id more = []) :
    Account p id (es ++ more) v := by
  obtain ⟨hp, hb, ho, hc⟩ := h
  refine ⟨hp, ?_, ?_, ?_⟩
  · rw [ticksIn_append, ht, List.append_nil]
    exact hb
  · rw [stopsIn_append, hs, List.append_nil]
    exact ho
  · rw [stopsIn_append, hs, List.append_nil]
    exact hc

theorem not_armed_of_stopped {v : Vehicle} (h : v.loop.state = .stopped) : ¬v.Armed := by
  rintro ⟨next, ha⟩
  rw [h] at ha
  cases ha

theorem Account.halted {p : Profile Float} {id : VehicleId} {es : List (Float × Event)} {v : Vehicle}
    (h : Account p id es v) (ha : v.Armed) (hid : v.id = id) (now : Float) :
    Account p id (es ++ [(now, .stopped v.id v.ledger.remaining v.ledger.total)]) v.halted := by
  obtain ⟨hp, hb, ho, -⟩ := h
  refine ⟨hp, ?_, ?_, ?_⟩
  · rw [ticksIn_append]
    exact (List.append_nil (ticksIn id es)).symm ▸ hb
  · intro hv
    exact absurd hv (not_armed_of_stopped rfl)
  · intro _
    rw [stopsIn_append, ho ha, stopsIn_stopped, if_pos hid]
    rfl

theorem Account.ticked {p : Profile Float} {id : VehicleId} {es : List (Float × Event)} {v : Vehicle}
    (h : Account p id es v) (ha : v.Armed) (hid : v.id = id) (now : Float) (m : MovementModel Float)
    (rule : Recuperation) :
    Account p id (es ++ [(now, .tick (Simulation.tickOf (v.ticked now m rule) v.ledger.remaining
      (v.stepEnergy now m rule) (m.snapshot now)))]) (v.ticked now m rule) := by
  obtain ⟨hp, hb, ho, -⟩ := h
  refine ⟨hp, ?_, ?_, ?_⟩
  · rw [ticksIn_append, ticksIn_tick, List.map_append]
    have hid' : (Simulation.tickOf (v.ticked now m rule) v.ledger.remaining
        (v.stepEnergy now m rule) (m.snapshot now)).vehicle = id := hid
    rw [if_pos hid']
    refine hb.append ⟨rfl, ?_, ?_, ?_, rfl, rfl⟩
    · exact Ledger.applyTick_remaining _ _ _ _
    · exact Ledger.applyTick_total _ _ _ _
    · rw [← hp]
      rfl
  · intro _
    rw [stopsIn_append, ho ha]
    rfl
  · intro hv
    cases hv

namespace Simulation

/-- A vehicle that is taken in starts with its initial energy, also with a baseline. -/
theorem newcomer_opening (s : Simulation) (id : VehicleId) (p : Profile Float) (m : MovementModel Float) :
    (s.newcomer id p m).ledger.remaining = p.initialEnergy ∧ (s.newcomer id p m).ledger.total = 0.0 := by
  cases hb : s.settings.baseline with
  | true =>
    simp only [newcomer, Vehicle.start, UpdateLoop.start, UpdateLoop.openLedger, hb, if_true]
    constructor
    · rw [Ledger.applyTick_remaining]
      exact sub_zero p.initialEnergy
    · rw [Ledger.applyTick_total]
      change (0.0 : Float) + 0.0 = 0.0
      decide +kernel
  | false =>
    simp only [newcomer, Vehicle.start, UpdateLoop.start, UpdateLoop.openLedger, hb, Bool.false_eq_true, if_false]
    exact ⟨rfl, rfl⟩

theorem account_newcomer (s : Simulation) (id : VehicleId) (p : Profile Float) (m : MovementModel Float)
    {es : List (Float × Event)} (ht : ticksIn id es = []) (hs : stopsIn id es = []) :
    Account p id es (s.newcomer id p m) := by
  refine ⟨rfl, ?_, fun _ => hs, fun h => ?_⟩
  · rw [ht]
    exact s.newcomer_opening id p m
  · exact absurd (s.newcomer_armed id p m) (not_armed_of_stopped h)

/-! ## Accounts along histories -/

structure Audited (acc : List (VehicleId × Profile Float)) (es : List (Float × Event)) (s : Simulation) : Prop where
  consistent : s.Consistent
  nodup : (acc.map Prod.fst).Nodup
  enrolled : ∀ id, id ∈ acc.map Prod.fst ↔ ∃ v, s.garage.get? id = some v
  account : ∀ id p, (id, p) ∈ acc → ∃ v, s.garage.get? id = some v ∧ Account p id es v
  /-- Nothing is told of a vehicle that was not accepted. -/
  quiet : ∀ id, id ∉ acc.map Prod.fst → ticksIn id es = [] ∧ stopsIn id es = []

theorem audited_new (start : Instant) (endTime : Float) (mobility : Mobility) (settings : Settings) :
    Audited [] [] (.new start endTime mobility settings) where
  consistent := consistent_new _ _ _ _
  nodup := List.nodup_nil
  enrolled := by
    intro id
    simp only [new, Garage.get?_empty, List.map_nil, List.not_mem_nil, reduceCtorEq, exists_false]
  account := by
    intro id p h
    cases h
  quiet := fun _ _ => ⟨rfl, rfl⟩

theorem Audited.frame {acc : List (VehicleId × Profile Float)} {es more : List (Float × Event)} {s : Simulation}
    (h : Audited acc es s) (ht : ∀ id, ticksIn id more = []) (hs : ∀ id, stopsIn id more = []) :
    Audited acc (es ++ more) s := by
  refine ⟨h.consistent, h.nodup, h.enrolled, ?_, ?_⟩
  · intro id p hm
    obtain ⟨v, hv, ha⟩ := h.account id p hm
    exact ⟨v, hv, ha.frame (ht id) (hs id)⟩
  · intro id hn
    rw [ticksIn_append, stopsIn_append, ht, hs, List.append_nil, List.append_nil]
    exact h.quiet id hn

theorem Audited.take {acc : List (VehicleId × Profile Float)} {es : List (Float × Event)} {s : Simulation}
    (h : Audited acc es s) {id : VehicleId} (p : Profile Float) {m : MovementModel Float}
    (hm : s.mobility.get? id = some m) (hg : s.garage.get? id = none) :
    Audited (acc ++ [(id, p)]) es (s.take id p m) := by
  have hnew : id ∉ acc.map Prod.fst := by
    intro hid
    obtain ⟨v, hv⟩ := (h.enrolled id).1 hid
    rw [hv] at hg
    cases hg
  have hid : (s.newcomer id p m).id = id := rfl
  have hget (id' : VehicleId) : (s.take id p m).garage.get? id' =
      if id = id' then some (s.newcomer id p m) else s.garage.get? id' := s.garage.get?_put _ id'
  refine ⟨h.consistent.take p hm hg, ?_, ?_, ?_, ?_⟩
  · rw [List.map_append]
    exact List.nodup_append.2 ⟨h.nodup, List.nodup_singleton _, by
      intro a ha b hb
      rw [List.map_singleton, List.mem_singleton] at hb
      rw [hb]
      rintro rfl
      exact hnew ha⟩
  · intro id'
    rw [List.map_append, List.mem_append, h.enrolled, hget, List.map_singleton, List.mem_singleton]
    by_cases heq : id = id'
    · rw [if_pos heq]
      exact ⟨fun _ => ⟨_, rfl⟩, fun _ => .inr heq.symm⟩
    · rw [if_neg heq]
      exact ⟨fun h => h.resolve_right (Ne.symm heq), .inl⟩
  · intro id' p' hmem
    rw [hget]
    rcases List.mem_append.1 hmem with hold | hlast
    · have hne : id ≠ id' := by
        rintro rfl
        exact hnew (List.mem_map.2 ⟨_, hold, rfl⟩)
      rw [if_neg hne]
      exact h.account id' p' hold
    · rw [List.mem_singleton] at hlast
      cases hlast
      rw [if_pos rfl]
      obtain ⟨ht, hs⟩ := h.quiet id hnew
      exact ⟨_, rfl, s.account_newcomer id p m ht hs⟩
  · intro id' hn
    refine h.quiet id' fun hc => hn ?_
    rw [List.map_append]
    exact List.mem_append_left _ hc

/-- The account of the vehicle that fires is carried on, and no other is touched. -/
theorem Audited.put {acc : List (VehicleId × Profile Float)} {es more : List (Float × Event)} {s s' : Simulation}
    (h : Audited acc es s) (hc : s'.Consistent) {v : Vehicle} (v' : Vehicle) (hv : s.garage.get? v.id = some v)
    (hid : v'.id = v.id) (hs' : s'.garage = s.garage.put v')
    (ht : ∀ id, v.id ≠ id → ticksIn id more = []) (hs : ∀ id, v.id ≠ id → stopsIn id more = [])
    (hacc : ∀ p, Account p v.id es v → Account p v.id (es ++ more) v') : Audited acc (es ++ more) s' := by
  have hget (id : VehicleId) : s'.garage.get? id = if v.id = id then some v' else s.garage.get? id := by
    rw [hs', Garage.get?_put, hid]
  refine ⟨hc, h.nodup, ?_, ?_, ?_⟩
  · intro id
    rw [h.enrolled, hget]
    by_cases heq : v.id = id
    · rw [if_pos heq, ← heq]
      exact ⟨fun _ => ⟨_, rfl⟩, fun _ => ⟨v, hv⟩⟩
    · rw [if_neg heq]
  · intro id p hmem
    obtain ⟨w, hw, ha⟩ := h.account id p hmem
    rw [hget]
    by_cases heq : v.id = id
    · subst heq
      rw [hv] at hw
      cases hw
      rw [if_pos rfl]
      exact ⟨v', rfl, hacc p ha⟩
    · rw [if_neg heq]
      exact ⟨w, hw, ha.frame (ht id heq) (hs id heq)⟩
  · intro id hn
    have hne : v.id ≠ id := by
      rintro rfl
      exact hn ((h.enrolled _).2 ⟨v, hv⟩)
    rw [ticksIn_append, stopsIn_append, ht id hne, hs id hne, List.append_nil, List.append_nil]
    exact h.quiet id hn

theorem Audited.pass {acc : List (VehicleId × Profile Float)} {es : List (Float × Event)} {s s' : Simulation}
    (h : Audited acc es s) {report report' : Float} {hs : List Happening}
    (hp : s.pass report = some ((s', report'), hs)) : Audited acc (es ++ published hs) s' := by
  have hc := h.consistent.pass hp
  obtain ⟨f, sched, v, m, -, hv, -, ha, hid, ⟨-, hs', hpub⟩ | ⟨-, hs', hpub⟩⟩ := h.consistent.pass_cases hp
  · rw [← hid] at hv
    rw [hpub]
    refine h.put hc v.halted hv rfl (by rw [hs']) ?_ ?_ ?_
    · exact fun _ _ => rfl
    · intro id hne
      rw [stopsIn_stopped, if_neg hne]
    · exact fun p hacc => hacc.halted ha rfl f.time
  · rw [← hid] at hv
    rw [hpub]
    refine h.put hc (v.ticked f.time m s.settings.recuperation) hv rfl (by rw [hs']) ?_ ?_ ?_
    · intro id hne
      rw [ticksIn_tick]
      exact if_neg hne
    · exact fun _ _ => rfl
    · exact fun p hacc => hacc.ticked ha rfl f.time m s.settings.recuperation

theorem History.audited {start : Instant} {endTime : Float} {mobility : Mobility} {settings : Settings}
    {acc : List (VehicleId × Profile Float)} {hs : List Happening} {s : Simulation}
    (h : History (.new start endTime mobility settings) acc hs s) : Audited acc (published hs) s := by
  refine h.keeps (P := Audited) (audited_new _ _ _ _) ?_ ?_ ?_
  · intro acc es s id p m ha hm hg
    exact (ha.frame (fun _ => rfl) fun _ => rfl).take p hm hg
  · intro acc es s id e ha
    exact ha.frame (fun _ => rfl) fun _ => rfl
  · intro acc es s s' report report' hs ha hp
    exact ha.pass hp

/-! ## Completed runs -/

theorem summary_vehicles (s : Simulation) : s.summary.vehicles = s.garage.toList.map vehicleSummary := rfl

/-- The entries of the summary are those of the accepted vehicles. -/
theorem Audited.summary_perm {acc : List (VehicleId × Profile Float)} {es : List (Float × Event)} {s : Simulation}
    (h : Audited acc es s) : (s.summary.vehicles.map (·.vehicle)).Perm (acc.map Prod.fst) := by
  have hkeyed := h.consistent.keyed
  have hasc := hkeyed.toList_ascending
  -- Both lists are free of duplicates, the one because it ascends, so it is enough that they have the same members.
  have hids : s.summary.vehicles.map (·.vehicle) = s.garage.toList.map (·.id) := by
    rw [summary_vehicles, List.map_map]
    rfl
  rw [hids]
  refine (List.perm_ext_iff_of_nodup ?_ h.nodup).2 fun id => ?_
  · rw [List.pairwise_map] at hasc
    rw [List.Nodup, List.pairwise_map]
    exact hasc.imp fun hlt heq => absurd hlt (by rw [heq]; exact UInt32.lt_irrefl _)
  · rw [h.enrolled, List.mem_map]
    constructor
    · rintro ⟨v, hv, rfl⟩
      exact ⟨v, (hkeyed.mem_toList v).1 hv⟩
    · rintro ⟨v, hv⟩
      have hid := hkeyed id v hv
      refine ⟨v, (hkeyed.mem_toList v).2 ?_, hid⟩
      rw [hid]
      exact hv

/-- The books of a vehicle: its ticks, its stops, the sum of a collector, its ledger and its entry in the
summary. -/
structure BooksAgree (p : Profile Float) (ticks : List Tick) (stops : List (Float × Float)) (consumed : Float)
    (ledger : Ledger Float) (entry : VehicleSummary) : Prop where
  booked : Booked p.maximumBatteryCapacity p.initialEnergy 0.0 ticks entry.remaining entry.totalConsumed
  stopped : stops = [(entry.remaining, entry.totalConsumed)]
  remaining : ledger.remaining = entry.remaining
  total : ledger.total = entry.totalConsumed
  initialEnergy : entry.initialEnergy = p.initialEnergy
  energyFraction : entry.energyFraction = entry.remaining / p.maximumBatteryCapacity
  consumed : (consumed == entry.totalConsumed) = true ∨ consumed.isNaN = true ∧ entry.totalConsumed.isNaN = true

/-- When a run has come to its end, the collector holds the ticks of every vehicle in order, the summary has one
entry for each accepted vehicle, ascending by id, and the books of each agree. -/
theorem books_agree_after_run (start : Instant) (endTime : Float) (mobility : Mobility) (settings : Settings)
    (acc : List (VehicleId × Profile Float)) (hs more : List Happening) (s s' : Simulation) (a : Audience)
    (h : History (.new start endTime mobility settings) acc hs s) (hr : s.run = some (s', more))
    (ha : a.collector? = some .empty) :
    ∃ c, (a.hearAll (hs ++ more)).1.collector? = some c ∧
      (s'.summary.vehicles.map (·.vehicle.node)).Pairwise (· < ·) ∧
      (s'.summary.vehicles.map (·.vehicle)).Perm (acc.map Prod.fst) ∧
      (∀ id, (c.ticksOf id).toList = ticksIn id (published (hs ++ more))) ∧
      ∀ id p, (id, p) ∈ acc → ∃ v, s'.garage.get? id = some v ∧ ∃ entry ∈ s'.summary.vehicles, entry.vehicle = id ∧
        BooksAgree p ((c.ticksOf id).toList.map Prod.snd) (stopsIn id (published (hs ++ more))) (c.consumed id)
          v.ledger entry := by
  have haud := (h.ran hr).audited
  obtain ⟨n, -, hq, -⟩ := run_cases hr
  have hticks (id : VehicleId) :
      ((Collector.empty.after (published (hs ++ more))).ticksOf id).toList = ticksIn id (published (hs ++ more)) := by
    rw [Collector.ticksOf_after, Collector.ticksOf_empty]
    rfl
  refine ⟨Collector.empty.after (published (hs ++ more)), ?_, ?_, haud.summary_perm, hticks, ?_⟩
  · rw [Audience.collector?_hearAll, ha]
    rfl
  · rw [summary_vehicles, List.map_map]
    exact haud.consistent.keyed.toList_ascending
  · intro id p hmem
    obtain ⟨v, hv, hacc⟩ := haud.account id p hmem
    have hid := haud.consistent.keyed id v hv
    have hin : v ∈ s'.garage.toList := (haud.consistent.keyed.mem_toList v).2 (by rw [hid]; exact hv)
    have hsum : (Collector.empty.after (published (hs ++ more))).consumed id =
        addConsumed (-0.0) ((ticksIn id (published (hs ++ more))).map Prod.snd) := by
      rw [Collector.consumed, ← Array.foldl_toList, hticks, addConsumed, List.foldl_map]
    refine ⟨v, hv, vehicleSummary v, List.mem_map.2 ⟨v, hin, rfl⟩, hid, ?_⟩
    rw [hticks, hsum]
    refine ⟨hacc.booked, hacc.stopped (haud.consistent.stopped hq hv), rfl, rfl, ?_, ?_, hacc.booked.total_beq⟩
    · rw [← hacc.profile]
      rfl
    · rw [← hacc.profile]
      rfl

theorem parked_books_agree :
    ∃ s more c, (Scenario.enrolAll parked parkedRequests).1.run = some (s, more) ∧
      ((Audience.empty.subscribe (.collector .empty)).hearAll
        ((Scenario.enrolAll parked parkedRequests).2 ++ more)).1.collector? = some c ∧
      (s.summary.vehicles.map (·.vehicle)).Perm [⟨9⟩, ⟨7⟩] ∧
      ∃ v entry, BooksAgree parkedProfile ((c.ticksOf ⟨7⟩).toList.map Prod.snd)
        (stopsIn ⟨7⟩ (published ((Scenario.enrolAll parked parkedRequests).2 ++ more))) (c.consumed ⟨7⟩) v entry := by
  obtain ⟨s, more, hrun⟩ := run_parked
  have hist := history_of_admissions parked parkedRequests
  rw [accepted_parked] at hist
  obtain ⟨c, hc, -, hperm, -, hbooks⟩ := books_agree_after_run _ _ _ _ _ _ _ _ _ _ hist hrun
    (rfl : (Audience.empty.subscribe (.collector .empty)).collector? = some .empty)
  obtain ⟨v, -, entry, -, -, hagree⟩ := hbooks ⟨7⟩ parkedProfile (by simp)
  exact ⟨s, more, c, hrun, hc, hperm, v.ledger, entry, hagree⟩

end Simulation

end FleetEnergy

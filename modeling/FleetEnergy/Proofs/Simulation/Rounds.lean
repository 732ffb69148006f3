import FleetEnergy.Proofs.Clock
import FleetEnergy.Proofs.Ledger
import FleetEnergy.Proofs.Simulation.Consistency

/-! Runs go in rounds. All loops have the same interval and are armed at the same time, so that in every round
each vehicle fires once, in the order of admission and at the time of the round, until the round that reaches the
end stops them all. -/
namespace FleetEnergy
open Binary64
set_option autoImplicit false

namespace Simulation

/-- The interval of all update loops. -/
def interval (s : Simulation) : Float := UpdateLoop.normalizeInterval s.settings.updateInterval

/-- The time of the round that is ordered at `t`. -/
def roundAfter (s : Simulation) (t : Float) : Float := nextTime s.interval s.scheduler.endTime t

theorem roundAfter_congr {s s' : Simulation} (hset : s'.settings = s.settings)
    (hend : s'.scheduler.endTime = s.scheduler.endTime) (t : Float) : s'.roundAfter t = s.roundAfter t := by
  rw [roundAfter, roundAfter, interval, interval, hset, hend]

/-- The entry of a firing that is ordered at `t`. -/
def ordered (s : Simulation) (t : Float) (id : VehicleId) : Instant × VehicleId :=
  (.ofFloat (dueTime s.interval t), id)

/-! ## Within a round -/

/-- A round that was ordered at `t`, in which some vehicles have fired and the rest is to fire. -/
structure InRound (s : Simulation) (t : Float) (fired rest : List VehicleId) : Prop where
  consistent : s.Consistent
  finite : t.isFinite = true
  defined : s.scheduler.endTime.isNaN = false
  clock : s.scheduler.clock = .ofFloat (if fired.isEmpty then t else s.roundAfter t)
  queue : s.scheduler.queue.toList = rest.map (s.ordered t) ++
    if s.roundAfter t < s.scheduler.endTime then fired.map (s.ordered (s.roundAfter t)) else []
  intervals : ∀ id v, s.garage.get? id = some v → v.loop.interval = s.interval
  /-- The accounts of the rest are those of the round before. -/
  current : ∀ id ∈ rest, ∀ v, s.garage.get? id = some v → v.ledger.updateTime = t
  updated : ∀ id ∈ fired, s.roundAfter t < s.scheduler.endTime →
    ∀ v, s.garage.get? id = some v → v.ledger.updateTime = s.roundAfter t

variable {s : Simulation} {t : Float} {fired rest : List VehicleId}

/-- When all have fired before the end, the next round begins. -/
theorem InRound.turn (h : s.InRound t fired []) (hne : fired ≠ []) (hlt : s.roundAfter t < s.scheduler.endTime) :
    s.InRound (s.roundAfter t) [] fired := by
  refine ⟨h.consistent, next_finite h.finite hlt, h.defined, ?_, ?_, h.intervals, ?_, ?_⟩
  · rw [h.clock, if_neg (by simpa using hne)]
    rfl
  · rw [h.queue, if_pos hlt, List.map_nil, List.nil_append, List.map_nil, ite_self, List.append_nil]
  · intro id hid v hv
    exact h.updated id hid hlt v hv
  · intro id hid
    cases hid

/-- The scheduler in the middle of a round. -/
def midRound (s : Simulation) (t : Float) (fired rest : List VehicleId) : Scheduler :=
  { s.scheduler with
    clock := .ofFloat (s.roundAfter t)
    queue := ⟨rest.map (s.ordered t) ++
      if s.roundAfter t < s.scheduler.endTime then fired.map (s.ordered (s.roundAfter t)) else []⟩ }

/-- The next firing of a round is delivered at the time of the round. -/
theorem InRound.next {id : VehicleId} (h : s.InRound t fired (id :: rest)) :
    s.scheduler.next = some (⟨s.roundAfter t, id⟩, s.midRound t fired rest) := by
  have htime : s.scheduler.deliveryTime (Instant.ofFloat (dueTime s.interval t)).toFloat = s.roundAfter t := by
    rw [Instant.toFloat_ofFloat, Scheduler.deliveryTime, Scheduler.now, h.clock, Instant.toFloat_ofFloat]
    cases fired with
    | nil => rfl
    | cons v r => exact later_later _ _
  have hdef : (s.roundAfter t).isNaN = false := next_defined _ _ (isNaN_of_isFinite h.finite)
  rw [Scheduler.next_cons (h.queue.trans (by rfl)), htime, Scheduler.clockAt, if_neg (Bool.eq_false_iff.1 hdef)]
  rfl

theorem midRound_now (s : Simulation) (t : Float) (fired rest : List VehicleId) :
    (s.midRound t fired rest).now = s.roundAfter t := Instant.toFloat_ofFloat _

theorem InRound.isFinished_midRound (h : s.InRound t fired rest) (l l' : List VehicleId) :
    (s.midRound t l l').isFinished = !decide (s.roundAfter t < s.scheduler.endTime) := by
  have hdef : (s.roundAfter t).isNaN = false := next_defined _ _ (isNaN_of_isFinite h.finite)
  have hle := not_lt_iff_le hdef h.defined
  rw [Scheduler.isFinished, midRound_now, ← decide_not]
  exact decide_eq_decide.2 hle.symm

/-- A vehicle that ticks before the end is ordered behind all that have ticked in the round. -/
theorem InRound.schedule_midRound (h : s.InRound t fired rest) (hlt : s.roundAfter t < s.scheduler.endTime)
    (l l' : List VehicleId) (id : VehicleId) :
    (s.midRound t l l').schedule (s.roundAfter t + s.interval - s.roundAfter t) id = s.midRound t (l ++ [id]) l' := by
  have hfin : (s.midRound t l l').now.isFinite = true := by
    rw [midRound_now]
    exact next_finite h.finite hlt
  have hord := Scheduler.schedule_eq (s.midRound t l l') s.interval id hfin
  rw [midRound_now] at hord
  rw [hord, TimeQueue.add_append]
  · simp only [midRound, if_pos hlt, List.map_append, List.append_assoc]
    rfl
  · -- What is queued is of this round or ordered for the next, as the new firing is, and nobody overtakes it on a tie.
    intro e he
    simp only [midRound, if_pos hlt, List.mem_append, List.mem_map] at he
    rcases he with ⟨v, -, rfl⟩ | ⟨v, -, rfl⟩
    · exact rank_due_le_due_next h.finite hlt
    · exact le_refl _

theorem openLedger_updateTime (p : Profile Float) (now : Float) (baseline : Option (Snapshot Float)) :
    (UpdateLoop.openLedger p now baseline).updateTime = now := by
  cases baseline with
  | none => rfl
  | some m => exact Ledger.applyTick_updateTime (l := .new p.initialEnergy now) (lt_irrefl now) 0.0 m

theorem InRound.roundAfter_not_lt (h : s.InRound t fired rest) : ¬s.roundAfter t < t := by
  have htn : t.isNaN = false := isNaN_of_isFinite h.finite
  have hn : (s.roundAfter t).isNaN = false := next_defined _ _ htn
  rw [lt_iff_units hn htn]
  exact not_lt.2 (units_le_next _ _ htn)

/-- Whenever a pass can be made, a round is under way in which a vehicle is to fire. -/
theorem InRound.exists_rest (h : s.InRound t fired rest) (hq : s.scheduler.queue.toList ≠ []) :
    ∃ t' fired' id rest', s.InRound t' fired' (id :: rest') := by
  cases rest with
  | cons id rest => exact ⟨t, fired, id, rest, h⟩
  | nil =>
    rw [h.queue, List.map_nil, List.nil_append] at hq
    split_ifs at hq with hlt
    · cases fired with
      | nil => exact absurd rfl hq
      | cons id fired => exact ⟨_, [], id, fired, h.turn (List.cons_ne_nil _ _) hlt⟩
    · exact absurd rfl hq

/-- The round goes on with the vehicle that has fired among those that have. -/
theorem InRound.put {id : VehicleId} (h : s.InRound t fired (id :: rest)) {v' : Vehicle} (hid : v'.id = id)
    (hint : v'.loop.interval = s.interval)
    (hupd : s.roundAfter t < s.scheduler.endTime → v'.ledger.updateTime = s.roundAfter t)
    (hcon : Consistent { s with scheduler := s.midRound t (fired ++ [id]) rest, garage := s.garage.put v' }) :
    InRound { s with scheduler := s.midRound t (fired ++ [id]) rest, garage := s.garage.put v' } t
      (fired ++ [id]) rest := by
  obtain ⟨-, -, -, -, -, -, -, hnot⟩ := h.consistent.next h.next
  refine ⟨hcon, h.finite, h.defined, ?_, rfl, ?_, ?_, ?_⟩
  · rw [if_neg (by simp)]
    rfl
  · intro id' w hw
    rw [Garage.get?_put, hid] at hw
    split_ifs at hw with heq
    · cases hw
      exact hint
    · exact h.intervals id' w hw
  · intro id' hmem w hw
    -- A second firing of the vehicle in the rest of the round would be a second time that it waits.
    have hne : id ≠ id' := by
      rintro rfl
      refine hnot (List.mem_map.2 ⟨s.ordered t id, ?_, rfl⟩)
      exact List.mem_append_left _ (List.mem_map_of_mem hmem)
    rw [Garage.get?_put, hid, if_neg hne] at hw
    exact h.current id' (List.mem_cons_of_mem _ hmem) w hw
  · intro id' hmem hlt w hw
    rw [Garage.get?_put, hid] at hw
    split_ifs at hw with heq
    · cases hw
      exact hupd hlt
    · rcases List.mem_append.1 hmem with hold | hnew
      · exact h.updated id' hold hlt w hw
      · exact absurd (List.mem_singleton.1 hnew).symm heq

/-- Before the end, the next vehicle of a round ticks. -/
theorem InRound.tick {id : VehicleId} (h : s.InRound t fired (id :: rest))
    (hlt : s.roundAfter t < s.scheduler.endTime) (report : Float) :
    ∃ report' hs v m, s.garage.get? id = some v ∧ s.mobility.get? id = some m ∧ v.Armed ∧ v.id = id ∧
      v.ledger.updateTime = t ∧
      s.pass report = some (({ s with
          scheduler := s.midRound t (fired ++ [id]) rest
          garage := s.garage.put (v.ticked (s.roundAfter t) m s.settings.recuperation) }, report'), hs) ∧
      published hs = [(s.roundAfter t, .tick (tickOf (v.ticked (s.roundAfter t) m s.settings.recuperation)
        v.ledger.remaining (v.stepEnergy (s.roundAfter t) m s.settings.recuperation)
        (m.snapshot (s.roundAfter t))))] ∧
      InRound { s with
          scheduler := s.midRound t (fired ++ [id]) rest
          garage := s.garage.put (v.ticked (s.roundAfter t) m s.settings.recuperation) } t (fired ++ [id]) rest := by
  obtain ⟨v, m, hv, hm, ha, hid, -, -⟩ := h.consistent.next h.next
  obtain ⟨report', hs, hp, hpub⟩ := pass_of_next h.next report
  have hfin : (s.midRound t fired rest).isFinished = false := by
    rw [h.isFinished_midRound, decide_eq_true hlt]
    rfl
  have hint : v.loop.interval = s.interval := h.intervals id v hv
  have hnow : v.ledger.updateTime = t := h.current id List.mem_cons_self v hv
  rw [hfin, fire_unfinished (s := { s with scheduler := s.midRound t fired rest }) hv hm ha] at hp hpub
  simp only [hint, h.schedule_midRound hlt] at hp
  refine ⟨report', hs, v, m, hv, hm, ha, hid, hnow, hp, hpub, h.put hid hint ?_ (h.consistent.pass hp)⟩
  intro _
  refine Ledger.applyTick_updateTime ?_ _ _
  rw [hnow]
  exact h.roundAfter_not_lt

/-- At the end, the next vehicle of a round stops. -/
theorem InRound.stop {id : VehicleId} (h : s.InRound t fired (id :: rest))
    (hge : ¬s.roundAfter t < s.scheduler.endTime) (report : Float) :
    ∃ report' hs v m, s.garage.get? id = some v ∧ s.mobility.get? id = some m ∧ v.Armed ∧ v.id = id ∧
      v.ledger.updateTime = t ∧
      s.pass report = some (({ s with
          scheduler := s.midRound t (fired ++ [id]) rest
          garage := s.garage.put v.halted }, report'), hs) ∧
      published hs = [(s.roundAfter t, .stopped id v.ledger.remaining v.ledger.total)] ∧
      InRound { s with
          scheduler := s.midRound t (fired ++ [id]) rest
          garage := s.garage.put v.halted } t (fired ++ [id]) rest := by
  obtain ⟨v, m, hv, hm, ha, hid, -, -⟩ := h.consistent.next h.next
  obtain ⟨report', hs, hp, hpub⟩ := pass_of_next h.next report
  have hfin : (s.midRound t fired rest).isFinished = true := by
    rw [h.isFinished_midRound, decide_eq_false hge]
    rfl
  have hnow : v.ledger.updateTime = t := h.current id List.mem_cons_self v hv
  have hmid : s.midRound t fired rest = s.midRound t (fired ++ [id]) rest := by
    simp only [midRound, if_neg hge]
  rw [hfin, fire_finished (s := { s with scheduler := s.midRound t fired rest }) hv hm ha] at hp hpub
  simp only [hmid] at hp
  refine ⟨report', hs, v, m, hv, hm, ha, hid, hnow, hp, hpub, ?_⟩
  exact h.put hid (h.intervals id v hv) (fun hlt => absurd hlt hge) (h.consistent.pass hp)

/-! ## Before the first round -/

theorem inRound_new {start : Instant} {endTime : Float} (hs : start.toFloat.isFinite = true)
    (he : endTime.isNaN = false) (mobility : Mobility) (settings : Settings) :
    (new start endTime mobility settings).InRound start.toFloat [] [] := by
  refine ⟨consistent_new _ _ _ _, hs, he, ?_, ?_, ?_, ?_, ?_⟩
  · exact (Instant.ofFloat_toFloat start (isNaN_of_isFinite hs)).symm
  · rw [List.map_nil, List.map_nil, ite_self]
    rfl
  · intro id v hv
    rw [new, Garage.get?_empty] at hv
    cases hv
  · intro id hid
    cases hid
  · intro id hid
    cases hid

/-- The loop of a vehicle that is taken in before the first round waits for that round. -/
theorem InRound.take {id : VehicleId} (h : s.InRound t [] rest) (p : Profile Float) {m : MovementModel Float}
    (hm : s.mobility.get? id = some m) (hg : s.garage.get? id = none) :
    (s.take id p m).InRound t [] (rest ++ [id]) := by
  have hnow : s.scheduler.now = t := by
    rw [Scheduler.now, h.clock]
    exact Instant.toFloat_ofFloat t
  have hq : s.scheduler.queue.toList = rest.map (s.ordered t) := by
    rw [h.queue, List.map_nil, ite_self, List.append_nil]
  have hsched : (s.take id p m).scheduler =
      { s.scheduler with queue := ⟨(rest ++ [id]).map (s.ordered t)⟩ } := by
    have hord := Scheduler.schedule_eq s.scheduler s.interval id (by rw [hnow]; exact h.finite)
    rw [take_eq]
    refine hord.trans ?_
    rw [hnow, TimeQueue.add_append]
    · rw [hq, List.map_append]
      rfl
    · intro e he
      rw [hq, List.mem_map] at he
      obtain ⟨v, -, rfl⟩ := he
      exact le_refl _
  have hgarage : (s.take id p m).garage = s.garage.put (s.newcomer id p m) := rfl
  have hid : (s.newcomer id p m).id = id := rfl
  have hupd : (s.newcomer id p m).ledger.updateTime = t := by
    rw [← hnow]
    exact openLedger_updateTime _ _ _
  refine ⟨h.consistent.take p hm hg, h.finite, ?_, ?_, ?_, ?_, ?_, ?_⟩
  · rw [hsched]
    exact h.defined
  · rw [hsched]
    exact h.clock
  · rw [hsched, List.map_nil, ite_self, List.append_nil]
    rfl
  · intro id' v hv
    rw [hgarage, Garage.get?_put, hid] at hv
    split_ifs at hv with heq
    · cases hv
      rfl
    · exact h.intervals id' v hv
  · intro id' hmem v hv
    rw [hgarage, Garage.get?_put, hid] at hv
    split_ifs at hv with heq
    · cases hv
      exact hupd
    · rcases List.mem_append.1 hmem with hold | hnew
      · exact h.current id' hold v hv
      · exact absurd (List.mem_singleton.1 hnew).symm heq
  · intro id' hid'
    cases hid'

/-- The first round is that of the accepted vehicles. -/
theorem InRound.enrolAll (h : s.InRound t [] rest) (ps : List (VehicleId × Profile Float)) :
    (Scenario.enrolAll s ps).1.InRound t [] (rest ++ (s.accepted ps).map Prod.fst) := by
  induction ps generalizing s rest with
  | nil =>
    rw [accepted, List.map_nil, List.append_nil]
    exact h
  | cons q ps ih =>
    obtain ⟨id, p⟩ := q
    rw [accepted, Scenario.enrolAll]
    cases he : s.enrol id p with
    | mk s' q =>
      obtain ⟨r, more⟩ := q
      cases r with
      | error e =>
        obtain ⟨rfl, -⟩ := enrol_refused he
        exact ih h
      | ok u =>
        obtain ⟨m, hm, hg, rfl, -⟩ := enrol_accepted he
        simp only [List.map_cons]
        rw [List.append_cons]
        exact ih (h.take p hm hg)

end Simulation

end FleetEnergy

import FleetEnergy.Proofs.Simulation.History

/-! Garage, update loops, queue and movement go together in every state: an armed vehicle waits for one firing,
a stopped vehicle for none, and nobody else waits. What the program takes for impossible therefore does not
happen: no loop is armed twice or fired before it was armed, no vehicle taken in twice, no tick published
incomplete, no firing delivered to an unknown vehicle. -/
namespace FleetEnergy
set_option autoImplicit false

namespace Simulation

/-! ## The invariant -/

structure Consistent (s : Simulation) : Prop where
  keyed : s.garage.Keyed
  /-- A vehicle is armed and waits for one firing, or is stopped and waits for none. -/
  settled : ∀ id v, s.garage.get? id = some v →
    v.Armed ∧ s.scheduler.waiting.count id = 1 ∨ v.loop.state = .stopped ∧ s.scheduler.waiting.count id = 0
  known : ∀ id ∈ s.scheduler.waiting,
    (∃ v, s.garage.get? id = some v) ∧ ∃ m, s.mobility.get? id = some m

theorem consistent_new (start : Instant) (endTime : Float) (mobility : Mobility) (settings : Settings) :
    Consistent (.new start endTime mobility settings) where
  keyed := Garage.keyed_empty
  settled := by
    intro id v h
    rw [new, Garage.get?_empty] at h
    cases h
  known := by
    intro id h
    cases h

/-- The vehicle that an admission puts into the garage. -/
def newcomer (s : Simulation) (id : VehicleId) (p : Profile Float) (m : MovementModel Float) : Vehicle :=
  (Vehicle.start id p s.settings.updateInterval s.scheduler.now
    (if s.settings.baseline then some (m.snapshot s.scheduler.now) else none)).1

theorem take_eq (s : Simulation) (id : VehicleId) (p : Profile Float) (m : MovementModel Float) :
    s.take id p m = { s with
      garage := s.garage.put (s.newcomer id p m)
      scheduler := s.scheduler.schedule
        (s.scheduler.now + UpdateLoop.normalizeInterval s.settings.updateInterval - s.scheduler.now) id } := rfl

theorem newcomer_armed (s : Simulation) (id : VehicleId) (p : Profile Float) (m : MovementModel Float) :
    (s.newcomer id p m).Armed := ⟨_, rfl⟩

/-- Who is not in the garage does not wait. -/
theorem Consistent.not_waiting {s : Simulation} (hc : s.Consistent) {id : VehicleId} (hg : s.garage.get? id = none) :
    s.scheduler.waiting.count id = 0 := by
  rw [List.count_eq_zero]
  intro hw
  obtain ⟨⟨v, hv⟩, -⟩ := hc.known id hw
  rw [hv] at hg
  cases hg

theorem Consistent.take {s : Simulation} (hc : s.Consistent) {id : VehicleId} (p : Profile Float)
    {m : MovementModel Float} (hm : s.mobility.get? id = some m) (hg : s.garage.get? id = none) :
    (s.take id p m).Consistent := by
  have hnew := hc.not_waiting hg
  have hid : (s.newcomer id p m).id = id := rfl
  rw [take_eq]
  refine ⟨hc.keyed.put _, ?_, ?_⟩
  · intro id' v hv
    simp only [(Scheduler.waiting_schedule _ _ _).count_eq, Garage.get?_put, hid] at hv ⊢
    by_cases h : id = id'
    · subst h
      rw [if_pos rfl] at hv
      left
      rw [List.count_cons_self, hnew]
      exact ⟨(Option.some.inj hv) ▸ s.newcomer_armed id p m, rfl⟩
    · rw [if_neg h] at hv
      rw [List.count_cons_of_ne h]
      exact hc.settled id' v hv
  · intro id' hw
    have hw := (Scheduler.waiting_schedule _ _ _).mem_iff.1 hw
    simp only [Garage.get?_put, hid]
    rcases List.mem_cons.1 hw with rfl | hw
    · exact ⟨⟨_, if_pos rfl⟩, m, hm⟩
    · obtain ⟨⟨v, hv⟩, hmob⟩ := hc.known id' hw
      refine ⟨?_, hmob⟩
      by_cases h : id = id'
      · exact ⟨_, if_pos h⟩
      · exact ⟨v, (if_neg h).trans hv⟩

/-! ## Firings -/

/-- The vehicle of the next firing is there, moves and is armed, and it is the last time that it waits. -/
theorem Consistent.next {s : Simulation} (hc : s.Consistent) {f : Firing} {sched : Scheduler}
    (h : s.scheduler.next = some (f, sched)) :
    ∃ v m, s.garage.get? f.vehicle = some v ∧ s.mobility.get? f.vehicle = some m ∧ v.Armed ∧ v.id = f.vehicle ∧
      s.scheduler.waiting = f.vehicle :: sched.waiting ∧ f.vehicle ∉ sched.waiting := by
  obtain ⟨due, rest, hq, -, rfl⟩ := Scheduler.next_cases h
  have hw : s.scheduler.waiting = f.vehicle :: rest.map Prod.snd := by
    rw [Scheduler.waiting, hq]
    rfl
  obtain ⟨⟨v, hv⟩, m, hm⟩ := hc.known f.vehicle (by rw [hw]; exact List.mem_cons_self)
  have hone := hc.settled f.vehicle v hv
  rw [hw, List.count_cons_self] at hone
  rcases hone with ⟨ha, h1⟩ | ⟨-, h0⟩
  · have hnot : (rest.map Prod.snd).count f.vehicle = 0 := by omega
    exact ⟨v, m, hv, hm, ha, hc.keyed _ _ hv, hw, List.count_eq_zero.1 hnot⟩
  · omega

/-- A pass stops the vehicle of the next firing or lets it tick. -/
theorem Consistent.pass_cases {s s' : Simulation} (hc : s.Consistent) {report report' : Float}
    {hs : List Happening} (h : s.pass report = some ((s', report'), hs)) :
    ∃ f sched v m, s.scheduler.next = some (f, sched) ∧ s.garage.get? f.vehicle = some v ∧
      s.mobility.get? f.vehicle = some m ∧ v.Armed ∧ v.id = f.vehicle ∧
      (sched.isFinished = true ∧
          s' = { s with scheduler := sched, garage := s.garage.put v.halted } ∧
          published hs = [(f.time, .stopped v.id v.ledger.remaining v.ledger.total)] ∨
        sched.isFinished = false ∧
          s' = { s with
            scheduler := sched.schedule (f.time + v.loop.interval - f.time) v.id
            garage := s.garage.put (v.ticked f.time m s.settings.recuperation) } ∧
          published hs = [(f.time, .tick (tickOf (v.ticked f.time m s.settings.recuperation) v.ledger.remaining
            (v.stepEnergy f.time m s.settings.recuperation) (m.snapshot f.time)))]) := by
  obtain ⟨f, sched, hn, rfl, hpub⟩ := Simulation.pass_cases h
  obtain ⟨v, m, hv, hm, ha, hid, -, -⟩ := hc.next hn
  refine ⟨f, sched, v, m, hn, hv, hm, ha, hid, ?_⟩
  rw [hpub, hid]
  cases hfin : sched.isFinished with
  | true =>
    rw [fire_finished (s := { s with scheduler := sched }) hv hm ha]
    exact .inl ⟨rfl, rfl, rfl⟩
  | false =>
    rw [fire_unfinished (s := { s with scheduler := sched }) hv hm ha]
    exact .inr ⟨rfl, rfl, rfl⟩

theorem Consistent.pass {s s' : Simulation} (hc : s.Consistent) {report report' : Float}
    {hs : List Happening} (h : s.pass report = some ((s', report'), hs)) : s'.Consistent := by
  obtain ⟨f, sched, v, m, hn, hv, hm, ha, hid, hcase⟩ := hc.pass_cases h
  obtain ⟨-, -, -, -, -, -, hw, hnot⟩ := hc.next hn
  -- It waited once, so after its firing it waits no more, unless the tick schedules it again.
  have hzero : sched.waiting.count f.vehicle = 0 := List.count_eq_zero.2 hnot
  have hrest (id : VehicleId) (hne : f.vehicle ≠ id) : s.scheduler.waiting.count id = sched.waiting.count id := by
    rw [hw, List.count_cons_of_ne hne]
  rcases hcase with ⟨-, rfl, -⟩ | ⟨-, rfl, -⟩
  · have hid' : v.halted.id = f.vehicle := hid
    refine ⟨hc.keyed.put _, ?_, ?_⟩
    · intro id w hw'
      simp only [Garage.get?_put, hid'] at hw' ⊢
      by_cases h : f.vehicle = id
      · rw [if_pos h] at hw'
        cases hw'
        exact .inr ⟨rfl, h ▸ hzero⟩
      · rw [if_neg h] at hw'
        rw [← hrest id h]
        exact hc.settled id w hw'
    · intro id hid''
      obtain ⟨⟨w, hw'⟩, hmob⟩ := hc.known id (by rw [hw]; exact List.mem_cons_of_mem _ hid'')
      have hne : f.vehicle ≠ id := by
        rintro rfl
        exact hnot hid''
      refine ⟨⟨w, ?_⟩, hmob⟩
      rw [Garage.get?_put, hid', if_neg hne]
      exact hw'
  · have hid' : (v.ticked f.time m s.settings.recuperation).id = f.vehicle := hid
    have hperm := Scheduler.waiting_schedule sched (f.time + v.loop.interval - f.time) v.id
    rw [hid] at hperm ⊢
    refine ⟨hc.keyed.put _, ?_, ?_⟩
    · intro id w hw'
      simp only [hperm.count_eq, Garage.get?_put, hid'] at hw' ⊢
      by_cases h : f.vehicle = id
      · rw [if_pos h] at hw'
        cases hw'
        subst h
        rw [List.count_cons_self, hzero]
        exact .inl ⟨v.armed_ticked _ _ _, rfl⟩
      · rw [if_neg h] at hw'
        rw [List.count_cons_of_ne h, ← hrest id h]
        exact hc.settled id w hw'
    · intro id hid''
      have hmem := hperm.mem_iff.1 hid''
      rw [← hw] at hmem
      obtain ⟨⟨w, hw'⟩, hmob⟩ := hc.known id hmem
      refine ⟨?_, hmob⟩
      simp only [Garage.get?_put, hid']
      by_cases h : f.vehicle = id
      · exact ⟨_, if_pos h⟩
      · exact ⟨w, (if_neg h).trans hw'⟩

theorem History.consistent {start : Instant} {endTime : Float} {mobility : Mobility} {settings : Settings}
    {acc : List (VehicleId × Profile Float)} {hs : List Happening} {s : Simulation}
    (h : History (.new start endTime mobility settings) acc hs s) : s.Consistent := by
  refine h.keeps (P := fun _ _ s => s.Consistent) (consistent_new _ _ _ _) ?_ ?_ ?_
  · intro _ _ _ _ p _ hc hm hg
    exact hc.take p hm hg
  · intro _ _ _ _ _ hc
    exact hc
  · intro _ _ _ _ _ _ _ hc hp
    exact hc.pass hp

/-- As long as something is pending, every pass publishes one event. -/
theorem Consistent.length_passes {s : Simulation} (hc : s.Consistent) (n : Nat) (report : Float)
    (h : (passes n s report).1.1.scheduler.pending ≠ 0) : (published (passes n s report).2).length = n := by
  induction n generalizing s report with
  | zero => rfl
  | succ n ih =>
    cases hp : s.pass report with
    | none =>
      rw [passes_stuck hp] at h
      exact absurd (pending_of_pass_none hp) h
    | some q =>
      obtain ⟨⟨s', report'⟩, hs⟩ := q
      rw [passes_step hp] at h ⊢
      have hone : (published hs).length = 1 := by
        obtain ⟨f, sched, v, m, -, -, -, -, -, ⟨-, -, hpub⟩ | ⟨-, -, hpub⟩⟩ := hc.pass_cases hp
        · rw [hpub]
          rfl
        · rw [hpub]
          rfl
      rw [published_append, List.length_append, hone, ih (hc.pass hp) report' h, Nat.add_comm]

theorem Consistent.stopped {s : Simulation} (hc : s.Consistent) (hq : s.scheduler.queue.toList = [])
    {id : VehicleId} {v : Vehicle} (hv : s.garage.get? id = some v) : v.loop.state = .stopped := by
  have hw : s.scheduler.waiting = [] := by
    rw [Scheduler.waiting, hq]
    rfl
  rcases hc.settled id v hv with ⟨-, h1⟩ | ⟨hstop, -⟩
  · rw [hw] at h1
    cases h1
  · exact hstop

/-! ## What cannot happen -/

/-- What the program takes for impossible. -/
inductive Breach
  | loop (fault : LoopFault)
  | taken (fault : AdmissionFault)
  | incomplete (part : MissingPart)
  | unknown (vehicle : VehicleId)

/-- Takes a vehicle in through a loop that complains when it is armed twice and a garage that refuses an id
that it has. -/
def takeChecked (s : Simulation) (id : VehicleId) (p : Profile Float) (m : MovementModel Float) :
    Except Breach Simulation :=
  let now := s.scheduler.now
  let baseline := if s.settings.baseline then some (m.snapshot now) else none
  match (Vehicle.new id p s.settings.updateInterval).arm now baseline with
  | .error e => .error (.loop e)
  | .ok (v, nextFire) =>
    match s.garage.add v with
    | .error e => .error (.taken e)
    | .ok garage => .ok { s with garage := garage, scheduler := s.scheduler.schedule (nextFire - now) id }

/-- The parts of the tick of a vehicle. -/
def draftOf (id : VehicleId) (v : Vehicle) (previousRemaining delta : Float) (at_ : Snapshot Float) : TickDraft :=
  { vehicle := some id
    position := some at_.position
    speed := some at_.speed
    energyFraction := some v.energyFraction
    previousRemaining := some previousRemaining
    remaining := some v.ledger.remaining
    consumed := some delta
    totalConsumed := some v.ledger.total }

/-- Fires a loop and complains of a loop that was not armed, an incomplete tick and an unknown vehicle. -/
def fireChecked (s : Simulation) (id : VehicleId) (now : Float) (finished : Bool) :
    Except Breach (Simulation × List Happening) :=
  match s.garage.get? id, s.mobility.get? id with
  | some v, some m =>
    match v.fire now finished m s.settings.recuperation with
    | .error e => .error (.loop e)
    | .ok (v', .rearm delta snapshot nextFire) =>
      match (draftOf id v' v.ledger.remaining delta snapshot).complete with
      | .error part => .error (.incomplete part)
      | .ok t =>
        .ok ({ s with garage := s.garage.put v', scheduler := s.scheduler.schedule (nextFire - now) id },
          [.event now (.tick t)])
    | .ok (v', .stop) =>
      .ok ({ s with garage := s.garage.put v' }, [.event now (.stopped id v'.ledger.remaining v'.ledger.total)])
  | _, _ => .error (.unknown id)

theorem complete_draftOf (v : Vehicle) (previousRemaining delta : Float) (at_ : Snapshot Float) :
    (draftOf v.id v previousRemaining delta at_).complete = .ok (tickOf v previousRemaining delta at_) := rfl

theorem takeChecked_ok {s : Simulation} {id : VehicleId} (hg : s.garage.get? id = none) (p : Profile Float)
    (m : MovementModel Float) : s.takeChecked id p m = .ok (s.take id p m) := by
  have hadd : s.garage.add (s.newcomer id p m) = .ok (s.garage.put (s.newcomer id p m)) :=
    Garage.add_of_new _ _ hg
  have harm : (Vehicle.new id p s.settings.updateInterval).arm s.scheduler.now
      (if s.settings.baseline then some (m.snapshot s.scheduler.now) else none) =
        .ok (s.newcomer id p m, s.scheduler.now + UpdateLoop.normalizeInterval s.settings.updateInterval) := rfl
  simp only [takeChecked, harm, hadd]
  rfl

theorem Consistent.fireChecked_ok {s : Simulation} (hc : s.Consistent) {f : Firing} {sched : Scheduler}
    (h : s.scheduler.next = some (f, sched)) :
    { s with scheduler := sched }.fireChecked f.vehicle f.time sched.isFinished =
      .ok ({ s with scheduler := sched }.fire f.vehicle f.time sched.isFinished) := by
  obtain ⟨v, m, hv, hm, ha, hid, -, -⟩ := hc.next h
  cases sched.isFinished with
  | true =>
    rw [fire_finished (s := { s with scheduler := sched }) hv hm ha]
    simp only [fireChecked, hv, hm, Vehicle.fire_finished ha]
    rfl
  | false =>
    have hdraft := complete_draftOf (v.ticked f.time m s.settings.recuperation) v.ledger.remaining
      (v.stepEnergy f.time m s.settings.recuperation) (m.snapshot f.time)
    have hid' : (v.ticked f.time m s.settings.recuperation).id = f.vehicle := hid
    rw [hid'] at hdraft
    rw [fire_unfinished (s := { s with scheduler := sched }) hv hm ha]
    simp only [fireChecked, hv, hm, Vehicle.fire_unfinished ha, hdraft]

/-- In every state that admissions, passes and runs lead to, the components are consistent, and the checks that
guard an admission and a firing never fail. -/
theorem history_consistent_and_checked (start : Instant) (endTime : Float) (mobility : Mobility)
    (settings : Settings) (acc : List (VehicleId × Profile Float)) (hs : List Happening) (s : Simulation)
    (h : History (.new start endTime mobility settings) acc hs s) :
    s.Consistent ∧
    (∀ id p m, p.validate = .ok () → s.mobility.get? id = some m → s.garage.contains id = false →
      s.takeChecked id p m = .ok (s.take id p m)) ∧
    ∀ f sched, s.scheduler.next = some (f, sched) →
      { s with scheduler := sched }.fireChecked f.vehicle f.time sched.isFinished =
        .ok ({ s with scheduler := sched }.fire f.vehicle f.time sched.isFinished) := by
  refine ⟨h.consistent, ?_, ?_⟩
  · intro id p m _ _ hg
    rw [Garage.contains_eq, Option.isSome_eq_false_iff, Option.isNone_iff_eq_none] at hg
    exact takeChecked_ok hg p m
  · intro f sched hn
    exact h.consistent.fireChecked_ok hn

theorem parked_consistent :
    ∃ s hs, (Scenario.enrolAll parked parkedRequests).1.run = some (s, hs) ∧ s.Consistent := by
  obtain ⟨s, hs, hrun⟩ := run_parked
  have hist := (history_of_admissions parked parkedRequests).ran hrun
  exact ⟨s, hs, hrun, (history_consistent_and_checked _ _ _ _ _ _ _ hist).1⟩

end Simulation

end FleetEnergy

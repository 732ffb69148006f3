import FleetEnergy.Proofs.Audience
import FleetEnergy.Proofs.Garage
import FleetEnergy.Proofs.Scheduler
import FleetEnergy.Simulation

/-! One step of a simulation at a time: what an admission, a refusal and a firing leave behind, and which
events they publish. -/
namespace FleetEnergy
set_option autoImplicit false

/-! ## Armed vehicles -/

namespace Vehicle

/-- The loop waits for its next firing. -/
def Armed (v : Vehicle) : Prop := ∃ nextFire, v.loop.state = .armed nextFire

/-- The vehicle after its loop was stopped. -/
def halted (v : Vehicle) : Vehicle := { v with loop := { v.loop with state := .stopped } }

/-- The energy of the step that ends now. -/
def stepEnergy (v : Vehicle) (now : Float) (m : MovementModel Float) (rule : Recuperation) : Float :=
  energyDelta v.profile v.ledger.previous (m.snapshot now) (v.ledger.elapsedSince now) rule

/-- The vehicle after that step was booked, armed again. -/
def ticked (v : Vehicle) (now : Float) (m : MovementModel Float) (rule : Recuperation) : Vehicle :=
  { v with
    ledger := v.ledger.applyTick (v.stepEnergy now m rule) now (m.snapshot now)
    loop := { v.loop with state := .armed (now + v.loop.interval) } }

theorem fire_finished {v : Vehicle} (h : v.Armed) (now : Float) (m : MovementModel Float) (rule : Recuperation) :
    v.fire now true m rule = .ok (v.halted, .stop) := by
  obtain ⟨nextFire, h⟩ := h
  simp only [fire, UpdateLoop.fire, h, if_true, halted]

theorem fire_unfinished {v : Vehicle} (h : v.Armed) (now : Float) (m : MovementModel Float) (rule : Recuperation) :
    v.fire now false m rule = .ok (v.ticked now m rule,
      .rearm (v.stepEnergy now m rule) (m.snapshot now) (now + v.loop.interval)) := by
  obtain ⟨nextFire, h⟩ := h
  simp only [fire, UpdateLoop.fire, h, Bool.false_eq_true, if_false, ticked, stepEnergy]

theorem armed_ticked (v : Vehicle) (now : Float) (m : MovementModel Float) (rule : Recuperation) :
    (v.ticked now m rule).Armed := ⟨_, rfl⟩

end Vehicle

/-! ## Steps of a simulation -/

namespace Simulation

theorem tryEnrol_cases {s s' : Simulation} {id : VehicleId} {p : Profile Float} (h : s.tryEnrol id p = .ok s') :
    ∃ m, s.mobility.get? id = some m ∧ s.garage.get? id = none ∧ s' = s.take id p m := by
  unfold tryEnrol at h
  split at h
  · cases h
  · split at h
    · cases h
    · rename_i m hm
      split_ifs at h with hc
      rw [Garage.contains_eq, Bool.not_eq_true, Option.isSome_eq_false_iff, Option.isNone_iff_eq_none] at hc
      cases h
      exact ⟨m, hm, hc, rfl⟩

theorem enrol_accepted {s s' : Simulation} {id : VehicleId} {p : Profile Float} {hs : List Happening}
    (h : s.enrol id p = (s', .ok (), hs)) :
    ∃ m, s.mobility.get? id = some m ∧ s.garage.get? id = none ∧ s' = s.take id p m ∧
      published hs = [(s.scheduler.now, .admitted id p.initialEnergy)] := by
  unfold enrol at h
  simp only [] at h
  split at h
  · rename_i t ht
    cases h
    obtain ⟨m, hm, hg, hs⟩ := tryEnrol_cases ht
    refine ⟨m, hm, hg, hs, ?_⟩
    rw [published_append, published_notices]
    rfl
  · cases h

theorem enrol_refused {s s' : Simulation} {id : VehicleId} {p : Profile Float} {e : AdmissionFault}
    {hs : List Happening} (h : s.enrol id p = (s', .error e, hs)) :
    s' = s ∧ published hs = [(s.scheduler.now, .rejected id e.message)] := by
  unfold enrol at h
  simp only [] at h
  split at h
  · cases h
  · cases h
    refine ⟨rfl, ?_⟩
    rw [published_append, published_notices]
    rfl

variable {s : Simulation} {id : VehicleId} {v : Vehicle} {m : MovementModel Float}

/-- A firing after the end stops the vehicle. -/
theorem fire_finished (hv : s.garage.get? id = some v) (hm : s.mobility.get? id = some m) (ha : v.Armed)
    (now : Float) :
    s.fire id now true = ({ s with garage := s.garage.put v.halted },
      [.event now (.stopped id v.ledger.remaining v.ledger.total)]) := by
  simp only [fire, hv, hm, Vehicle.fire_finished ha]
  rfl

/-- The vehicle of a firing before the end ticks, and is fired again. -/
theorem fire_unfinished (hv : s.garage.get? id = some v) (hm : s.mobility.get? id = some m) (ha : v.Armed)
    (now : Float) :
    s.fire id now false =
      ({ s with
          garage := s.garage.put (v.ticked now m s.settings.recuperation)
          scheduler := s.scheduler.schedule (now + v.loop.interval - now) id },
        [.event now (.tick (tickOf (v.ticked now m s.settings.recuperation) v.ledger.remaining
          (v.stepEnergy now m s.settings.recuperation) (m.snapshot now)))]) := by
  simp only [fire, hv, hm, Vehicle.fire_unfinished ha]

theorem pass_of_next_none (h : s.scheduler.next = none) (report : Float) : s.pass report = none := by
  rw [pass, h]

/-- A pass is the next firing; reports are not events. -/
theorem pass_of_next {f : Firing} {sched : Scheduler} (h : s.scheduler.next = some (f, sched)) (report : Float) :
    ∃ report' hs, s.pass report =
        some ((({ s with scheduler := sched }.fire f.vehicle f.time sched.isFinished).1, report'), hs) ∧
      published hs = published ({ s with scheduler := sched }.fire f.vehicle f.time sched.isFinished).2 := by
  unfold pass
  rw [h]
  simp only []
  split_ifs
  · exact ⟨_, _, rfl, rfl⟩
  · exact ⟨_, _, rfl, rfl⟩

theorem pass_cases {s' : Simulation} {report report' : Float} {hs : List Happening}
    (h : s.pass report = some ((s', report'), hs)) :
    ∃ f sched, s.scheduler.next = some (f, sched) ∧
      s' = ({ s with scheduler := sched }.fire f.vehicle f.time sched.isFinished).1 ∧
      published hs = published ({ s with scheduler := sched }.fire f.vehicle f.time sched.isFinished).2 := by
  cases hn : s.scheduler.next with
  | none =>
    rw [pass_of_next_none hn] at h
    cases h
  | some q =>
    obtain ⟨f, sched⟩ := q
    obtain ⟨r, more, hp, hpub⟩ := pass_of_next hn report
    rw [hp] at h
    cases h
    exact ⟨f, sched, rfl, rfl, hpub⟩

end Simulation

end FleetEnergy

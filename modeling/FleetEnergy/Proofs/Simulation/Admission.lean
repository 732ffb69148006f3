import FleetEnergy.Proofs.Profile
import FleetEnergy.Proofs.Simulation.Books
import FleetEnergy.Proofs.Simulation.Rounds

/-! What an admission does. The first fault that applies refuses it and leaves everything as it was; without a
fault the vehicle is in the garage, armed and with a full account, and waits for one firing more than was pending
before. Either is told in one event. -/
namespace FleetEnergy
set_option autoImplicit false

namespace Simulation

variable {s s' : Simulation} {id : VehicleId} {p : Profile Float}

/-! ## The verdict -/

/-- Why a simulation refuses a vehicle: the first fault that applies. -/
inductive Refusal (s : Simulation) (id : VehicleId) (p : Profile Float) : AdmissionFault → Prop
  | invalidProfile {cause : Profile.Violation Float} :
      ¬p.Valid → p.validate = .error cause → Refusal s id p (.invalidProfile id cause)
  | noMobility : p.Valid → s.mobility.get? id = none → Refusal s id p (.noMobility id)
  | duplicate {m : MovementModel Float} {v : Vehicle} :
      p.Valid → s.mobility.get? id = some m → s.garage.get? id = some v → Refusal s id p (.duplicate id)

/-- Whether a vehicle can be taken in. -/
structure Admissible (s : Simulation) (id : VehicleId) (p : Profile Float) : Prop where
  valid : p.Valid
  moves : (s.mobility.get? id).isSome = true
  new : s.garage.get? id = none

theorem tryEnrol_of_invalid {cause : Profile.Violation Float} (h : p.validate = .error cause) :
    s.tryEnrol id p = .error (.invalidProfile id cause) := by
  rw [tryEnrol, h]

theorem tryEnrol_of_unmoved (hv : p.Valid) (hm : s.mobility.get? id = none) :
    s.tryEnrol id p = .error (.noMobility id) := by
  simp [tryEnrol, p.validate_eq_ok_iff.2 hv, hm]

theorem tryEnrol_of_known {m : MovementModel Float} {v : Vehicle} (hv : p.Valid) (hm : s.mobility.get? id = some m)
    (hg : s.garage.get? id = some v) : s.tryEnrol id p = .error (.duplicate id) := by
  simp [tryEnrol, p.validate_eq_ok_iff.2 hv, hm, Garage.contains_eq, hg]

theorem tryEnrol_of_admissible {m : MovementModel Float} (hv : p.Valid) (hm : s.mobility.get? id = some m)
    (hg : s.garage.get? id = none) : s.tryEnrol id p = .ok (s.take id p m) := by
  simp [tryEnrol, p.validate_eq_ok_iff.2 hv, hm, Garage.contains_eq, hg]

/-- An admission succeeds if the vehicle is admissible, and else it fails for the first fault. -/
theorem tryEnrol_verdict (s : Simulation) (id : VehicleId) (p : Profile Float) :
    (∃ m, s.mobility.get? id = some m ∧ s.Admissible id p ∧ s.tryEnrol id p = .ok (s.take id p m)) ∨
      ∃ e, s.Refusal id p e ∧ ¬s.Admissible id p ∧ s.tryEnrol id p = .error e := by
  cases hp : p.validate with
  | error cause =>
    have hv : ¬p.Valid := by
      rw [← p.validate_eq_ok_iff, hp]
      simp
    exact .inr ⟨_, .invalidProfile hv hp, fun h => hv h.valid, tryEnrol_of_invalid hp⟩
  | ok u =>
    have hv : p.Valid := p.validate_eq_ok_iff.1 hp
    cases hm : s.mobility.get? id with
    | none =>
      refine .inr ⟨_, .noMobility hv hm, fun h => ?_, tryEnrol_of_unmoved hv hm⟩
      have := h.moves
      simp [hm] at this
    | some m =>
      cases hg : s.garage.get? id with
      | none => exact .inl ⟨m, rfl, ⟨hv, by simp [hm], hg⟩, tryEnrol_of_admissible hv hm hg⟩
      | some v =>
        refine .inr ⟨_, .duplicate hv hm hg, fun h => ?_, tryEnrol_of_known hv hm hg⟩
        have := h.new
        simp [hg] at this

theorem Refusal.tryEnrol {e : AdmissionFault} (h : s.Refusal id p e) : s.tryEnrol id p = .error e := by
  cases h with
  | invalidProfile _ hp => exact tryEnrol_of_invalid hp
  | noMobility hv hm => exact tryEnrol_of_unmoved hv hm
  | duplicate hv hm hg => exact tryEnrol_of_known hv hm hg

/-! ## What is taken in -/

/-- When the first firing is due of a vehicle that is taken in. -/
def firstDue (s : Simulation) : Instant :=
  .after s.scheduler.clock (Scalar.positivePart (s.scheduler.now + s.interval - s.scheduler.now))

/-- The simulation `s'` is `s` with the vehicle `v` taken in and one firing of it ordered. -/
structure Joined (s s' : Simulation) (id : VehicleId) (p : Profile Float) (v : Vehicle) : Prop where
  named : v.id = id
  profile : v.profile = p
  armed : v.Armed
  remaining : v.ledger.remaining = p.initialEnergy
  total : v.ledger.total = 0.0
  updateTime : v.ledger.updateTime = s.scheduler.now
  garage : ∀ other, s'.garage.get? other = if id = other then some v else s.garage.get? other
  /-- What was pending keeps its order around the new firing. -/
  queue : ∃ front back, s.scheduler.queue.toList = front ++ back ∧
    s'.scheduler.queue.toList = front ++ (s.firstDue, id) :: back
  waiting : s.scheduler.waiting.count id = 0 ∧ s'.scheduler.waiting.count id = 1
  rest : s' = { s with garage := s'.garage, scheduler := { s.scheduler with queue := s'.scheduler.queue } }

theorem Consistent.joined (hc : s.Consistent) (p : Profile Float) (m : MovementModel Float)
    (hg : s.garage.get? id = none) : s.Joined (s.take id p m) id p (s.newcomer id p m) := by
  obtain ⟨hrem, htot⟩ := s.newcomer_opening id p m
  refine ⟨rfl, rfl, s.newcomer_armed id p m, hrem, htot, openLedger_updateTime _ _ _, ?_, ?_, ?_, rfl⟩
  · intro other
    exact s.garage.get?_put (s.newcomer id p m) other
  · exact ⟨_, _, (List.takeWhile_append_dropWhile).symm, TimeQueue.insertSorted_eq _ _⟩
  · have hnew := hc.not_waiting hg
    refine ⟨hnew, ?_⟩
    rw [take_eq, (Scheduler.waiting_schedule _ _ _).count_eq, List.count_cons_self, hnew]

/-! ## Admissions -/

theorem enrol_of_ok (h : s.tryEnrol id p = .ok s') : (s.enrol id p).1 = s' ∧ (s.enrol id p).2.1 = .ok () := by
  simp [enrol, h]

theorem enrol_of_error {e : AdmissionFault} (h : s.tryEnrol id p = .error e) :
    (s.enrol id p).1 = s ∧ (s.enrol id p).2.1 = .error e := by
  simp [enrol, h]

/-- In every state that can be reached, an admission is decided by profile, movement and garage, in this order.
What is refused leaves no trace in the state, and either verdict is published once, at the time of the clock. -/
theorem admission_is_decided_and_atomic (start : Instant) (endTime : Float) (mobility : Mobility)
    (settings : Settings) (acc : List (VehicleId × Profile Float)) (hs : List Happening) (s : Simulation)
    (h : History (.new start endTime mobility settings) acc hs s) (id : VehicleId) (p : Profile Float) :
    ((s.enrol id p).2.1 = .ok () ↔ s.Admissible id p) ∧
    (∀ e, (s.enrol id p).2.1 = .error e ↔ s.Refusal id p e) ∧
    ((s.enrol id p).2.1 = .ok () → (∃ v, s.Joined (s.enrol id p).1 id p v) ∧
      published (s.enrol id p).2.2 = [(s.scheduler.now, .admitted id p.initialEnergy)]) ∧
    (∀ e, (s.enrol id p).2.1 = .error e → (s.enrol id p).1 = s ∧
      published (s.enrol id p).2.2 = [(s.scheduler.now, .rejected id e.message)]) := by
  obtain ⟨m, hm, hadm, htry⟩ | ⟨e, href, hnot, htry⟩ := s.tryEnrol_verdict id p
  · obtain ⟨hstate, hverdict⟩ := enrol_of_ok htry
    refine ⟨iff_of_true hverdict hadm, fun e => ?_, fun _ => ?_, fun e he => ?_⟩
    · refine iff_of_false (by simp [hverdict]) fun href => ?_
      rw [href.tryEnrol] at htry
      cases htry
    · obtain ⟨m', -, -, -, hpub⟩ := enrol_accepted (Prod.ext rfl (Prod.ext hverdict rfl))
      rw [hstate]
      exact ⟨⟨_, h.consistent.joined p m hadm.new⟩, hpub⟩
    · rw [hverdict] at he
      cases he
  · obtain ⟨hstate, hverdict⟩ := enrol_of_error htry
    have hsame (e' : AdmissionFault) (he' : (s.enrol id p).2.1 = .error e') : e = e' := by
      rw [hverdict] at he'
      cases he'
      rfl
    refine ⟨iff_of_false (by simp [hverdict]) hnot, fun e' => ⟨fun he' => ?_, fun href' => ?_⟩, fun hok => ?_,
      fun e' he' => ?_⟩
    · exact hsame e' he' ▸ href
    · have he : e = e' := Except.error.inj (htry.symm.trans href'.tryEnrol)
      rw [hverdict, he]
    · rw [hverdict] at hok
      cases hok
    · obtain ⟨-, hpub⟩ := enrol_refused (Prod.ext rfl (Prod.ext he' rfl))
      exact ⟨hstate, hpub⟩

/-- The first request for a vehicle is granted and the second one is refused. -/
theorem parked_admission_is_decided :
    let s := (Scenario.enrolAll parked [(⟨9⟩, parkedProfile)]).1
    parked.Admissible ⟨9⟩ parkedProfile ∧ s.Refusal ⟨9⟩ parkedProfile (.duplicate ⟨9⟩) := by
  intro s
  obtain ⟨hok, -⟩ := admission_is_decided_and_atomic _ _ _ _ _ _ parked .start ⟨9⟩ parkedProfile
  obtain ⟨-, herr, -⟩ := admission_is_decided_and_atomic _ _ _ _ _ _ s (history_of_admissions parked _) ⟨9⟩
    parkedProfile
  exact ⟨hok.1 (by rfl), (herr _).1 (by rfl)⟩

end Simulation

end FleetEnergy

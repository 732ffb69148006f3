import FleetEnergy.Proofs.Binary64.Overflow
import FleetEnergy.Proofs.Simulation.Admission

/-! What is left of a battery as a share of what it holds. The check of a profile rules out that the share is
undefined. It does not rule out that it is infinite, which is a matter of how small the capacity is. -/
namespace FleetEnergy
open Binary64
set_option autoImplicit false

/-! ## Accepted capacities -/

variable {p : Profile Float}

theorem Profile.Valid.capacity_units (h : p.Valid) :
    p.maximumBatteryCapacity.isFinite = true ∧ 0 < unitsOf p.maximumBatteryCapacity := by
  obtain ⟨-, -, -, -, -, -, -, -, -, hcapacity, -⟩ :=
    (Profile.forall_fields (P := fun x => x.isFinite = true ∧ 0.0 ≤ x)).1 h.magnitudes
  exact ⟨hcapacity.1, (pos_units h.capacity).2⟩

theorem Vehicle.energyFraction_eq (v : Vehicle) :
    v.energyFraction = v.ledger.remaining / v.profile.maximumBatteryCapacity := rfl

theorem Vehicle.energyFraction_setRemaining (v : Vehicle) (energy : Float) :
    (v.setRemaining energy).energyFraction = energy / v.profile.maximumBatteryCapacity := rfl

theorem Vehicle.fraction_isFinite_iff {v : Vehicle} (h : v.profile.Valid) (hr : v.ledger.remaining.isFinite = true) :
    v.energyFraction.isNaN = false ∧ (v.energyFraction.isFinite = true ↔
      |unitsOf v.ledger.remaining| < leastOverflow * unitsOf v.profile.maximumBatteryCapacity) := by
  rw [v.energyFraction_eq]
  exact div_isFinite_iff hr h.capacity_units.1 h.capacity_units.2

/-- From one watt-hour on the share is finite whatever finite energy is left. -/
theorem Vehicle.forall_fraction_isFinite_iff {v : Vehicle} (h : v.profile.Valid) :
    (∀ energy : Float, energy.isFinite = true → (v.setRemaining energy).energyFraction.isFinite = true) ↔
      1.0 ≤ v.profile.maximumBatteryCapacity := by
  simp only [v.energyFraction_setRemaining]
  exact forall_div_isFinite_iff h.capacity_units.1 h.capacity_units.2

namespace Simulation

/-- Only valid profiles are accepted. -/
theorem History.valid {first : Simulation} {acc : List (VehicleId × Profile Float)} {hs : List Happening}
    {s : Simulation} (h : History first acc hs s) : ∀ q ∈ acc, q.2.Valid := by
  induction h with
  | start =>
    intro q hq
    cases hq
  | @accepted acc _ _ s s' id p _ he ih =>
    have hok : (s.enrol id p).2.1 = .ok () := by rw [he]
    have hp : p.Valid := by
      obtain ⟨-, -, hadm, -⟩ | ⟨e, -, -, htry⟩ := s.tryEnrol_verdict id p
      · exact hadm.valid
      · rw [(enrol_of_error htry).2] at hok
        cases hok
    intro q hq
    rcases List.mem_append.1 hq with hold | hlast
    · exact ih q hold
    · rw [List.mem_singleton.1 hlast]
      exact hp
  | refused _ _ ih => exact ih
  | passed _ _ ih => exact ih
  | ran _ _ ih => exact ih

/-- In every state that can be reached, an accepted vehicle whose energy is finite has a share of its capacity that
is defined, and finite unless the exact quotient is so large that it is rounded to infinity. That cannot happen from
one watt-hour on; with any smaller capacity it does for some finite energy. -/
theorem fraction_isFinite_iff_capacity_suffices (start : Instant) (endTime : Float) (mobility : Mobility)
    (settings : Settings) (acc : List (VehicleId × Profile Float)) (hs : List Happening) (s : Simulation)
    (h : History (.new start endTime mobility settings) acc hs s) (id : VehicleId) (p : Profile Float)
    (hp : (id, p) ∈ acc) :
    ∃ v, s.garage.get? id = some v ∧ v.profile = p ∧
      (v.ledger.remaining.isFinite = true → v.energyFraction.isNaN = false ∧
        (v.energyFraction.isFinite = true ↔
          |unitsOf v.ledger.remaining| < leastOverflow * unitsOf p.maximumBatteryCapacity) ∧
        (1.0 ≤ p.maximumBatteryCapacity → v.energyFraction.isFinite = true)) ∧
      ((∀ energy : Float, energy.isFinite = true → (v.setRemaining energy).energyFraction.isFinite = true) ↔
        1.0 ≤ p.maximumBatteryCapacity) := by
  obtain ⟨v, hv, hacc⟩ := h.audited.account id p hp
  obtain rfl := hacc.profile
  have hvalid : v.profile.Valid := h.valid _ hp
  have hall := v.forall_fraction_isFinite_iff hvalid
  refine ⟨v, hv, rfl, fun hr => ?_, hall⟩
  obtain ⟨hdef, hfin⟩ := v.fraction_isFinite_iff hvalid hr
  exact ⟨hdef, hfin, fun hone => hall.2 hone _ hr⟩

theorem parked_fraction_isFinite :
    ∃ v, (Scenario.enrolAll parked parkedRequests).1.garage.get? ⟨7⟩ = some v ∧
      v.ledger.remaining.isFinite = true ∧ v.energyFraction.isFinite = true := by
  have hist := history_of_admissions parked parkedRequests
  rw [accepted_parked] at hist
  have hleft : ((Scenario.enrolAll parked parkedRequests).1.garage.get? ⟨7⟩).map
      (·.ledger.remaining.isFinite) = some true := by decide +kernel
  obtain ⟨v, hv, -, hfin, -⟩ := fraction_isFinite_iff_capacity_suffices _ _ _ _ _ _ _ hist ⟨7⟩ parkedProfile
    (by simp)
  rw [hv, Option.map_some, Option.some_inj] at hleft
  exact ⟨v, hv, hleft, (hfin hleft).2.2 (by decide +kernel)⟩

/-- The battery has the least capacity that is accepted, and one watt-hour at first. -/
def speckProfile : Profile Float := { parkedProfile with maximumBatteryCapacity := .ofBits 1 }

theorem speck_fraction_infinite :
    ∃ hs s v, History parked [(⟨7⟩, speckProfile)] hs s ∧ s.garage.get? ⟨7⟩ = some v ∧
      v.ledger.remaining.isFinite = true ∧ v.energyFraction.isFinite = false := by
  have hist := history_of_admissions parked [(⟨7⟩, speckProfile)]
  have hacc : parked.accepted [(⟨7⟩, speckProfile)] = [(⟨7⟩, speckProfile)] := by rfl
  have hfraction : ((Scenario.enrolAll parked [(⟨7⟩, speckProfile)]).1.garage.get? ⟨7⟩).map
      (fun v => (v.ledger.remaining.isFinite, v.energyFraction.isFinite)) = some (true, false) := by decide +kernel
  rw [hacc] at hist
  obtain ⟨v, hv, hpair⟩ := Option.map_eq_some_iff.1 hfraction
  rw [Prod.mk.injEq] at hpair
  exact ⟨_, _, v, hist, hv, hpair⟩

end Simulation

end FleetEnergy

import FleetEnergy.Proofs.Exact.Scalar
import FleetEnergy.Energy
import FleetEnergy.Proofs.Profile

/-! The energy of a step in exact arithmetic: what is stored in height and speed changes hands, the other terms are
lost, and the battery pays at least for the sum. -/
namespace FleetEnergy
set_option autoImplicit false

/-! ## Accepted profiles -/

/-- What is asked of a profile whose parameters are real numbers. -/
structure Profile.Sound (p : Profile ℝ) : Prop where
  magnitudes : ∀ f ∈ p.fields, 0 ≤ f.2
  mass : 0 < p.vehicleMass
  capacity : 0 < p.maximumBatteryCapacity
  propulsion : 0 < p.propulsionEfficiency ∧ p.propulsionEfficiency ≤ 1
  recuperation : 0 < p.recuperationEfficiency ∧ p.recuperationEfficiency ≤ 1

namespace Exact
open Profile

theorem checkMagnitude_eq_ok (f : String × ℝ) : checkMagnitude f = .ok () ↔ 0 ≤ f.2 := by
  unfold checkMagnitude
  change (if f.2 < 0.0 then _ else _) = _ ↔ _
  rw [zero_lit, ← not_lt]
  by_cases h : f.2 < 0 <;> simp [h]

theorem checkPositive_eq_ok (f : String × ℝ) : checkPositive f = .ok () ↔ 0 < f.2 := by
  unfold checkPositive
  rw [zero_lit, ← not_le]
  by_cases h : f.2 ≤ 0 <;> simp [h]

theorem checkEfficiency_eq_ok (f : String × ℝ) : checkEfficiency f = .ok () ↔ 0 < f.2 ∧ f.2 ≤ 1 := by
  unfold checkEfficiency
  rw [zero_lit, one_lit]
  by_cases h0 : f.2 ≤ 0
  · simp [h0]
  · by_cases h1 : 1 < f.2
    · simp [h0, h1]
    · simp [h0, h1, not_le.1 h0, not_lt.1 h1]

theorem validate_eq_ok_iff (p : Profile ℝ) : p.validate = .ok () ↔ p.Sound := by
  unfold validate
  rw [andThen_eq_ok, andThen_eq_ok, forM_eq_ok, forM_eq_ok, forM_eq_ok]
  simp only [checkMagnitude_eq_ok, checkPositive_eq_ok, checkEfficiency_eq_ok, List.mem_cons, List.not_mem_nil,
    or_false, forall_eq_or_imp, forall_eq]
  constructor
  · rintro ⟨hall, ⟨hmass, hcap⟩, hprop, hrec⟩
    exact ⟨hall, hmass, hcap, hprop, hrec⟩
  · intro h
    exact ⟨h.magnitudes, ⟨h.mass, h.capacity⟩, h.propulsion, h.recuperation⟩

/-! ## Stored and lost -/

variable (p : Profile ℝ) (previous : PreviousState ℝ) (current : Snapshot ℝ) (elapsed : ℝ) (rule : Recuperation)

/-- What a vehicle has in height, speed and turning masses. -/
noncomputable def stored (position velocity : Vec3 ℝ) : ℝ :=
  p.vehicleMass * standardGravity * position.z +
    (0.5 * p.vehicleMass + p.internalMomentOfInertia) * (velocity.length * velocity.length)

/-- What a step costs for good. -/
noncomputable def lost : ℝ :=
  0.5 * airDensity * p.frontSurfaceArea * p.airDragCoefficient * current.speed * current.speed *
      (current.speed * elapsed) +
    p.rollDragCoefficient * standardGravity * p.vehicleMass * (current.speed * elapsed) +
    corneringEnergy p previous current current.speed (current.speed * elapsed) + p.constantPowerIntake * elapsed

theorem raw_eq : (stepBreakdown p previous current elapsed rule).raw =
    stored p current.position current.velocity - stored p previous.position previous.velocity +
      lost p previous current elapsed := by
  simp only [stepBreakdown, Breakdown.raw, stored, lost, Snapshot.speed]
  ring

theorem energyDelta_eq {elapsed : ℝ} (h : 0 < elapsed) : energyDelta p previous current elapsed rule =
    batteryEnergy p rule (stepBreakdown p previous current elapsed rule).raw / 3600 := by
  have hjoules : (joulesPerWattHour : ℝ) = 3600 := by
    unfold joulesPerWattHour
    norm_num
  have hpos : (0.0 : ℝ) < elapsed := by rwa [zero_lit]
  have hfin : Scalar.isFinite elapsed = true := rfl
  rw [energyDelta, breakdown, if_pos hpos, if_pos hfin, Breakdown.totalWattHours, hjoules]
  rfl

/-! ## Signs -/

theorem corneringRadius_pos (distance angle : ℝ) : 0 < corneringRadius distance angle := by
  unfold corneringRadius Scalar.clamp
  split_ifs with hlo hhi
  · norm_num
  · norm_num
  · refine lt_of_lt_of_le ?_ (not_lt.1 hlo)
    norm_num

variable {p}

theorem corneringEnergy_nonneg (hp : p.Sound) (speed distance : ℝ) :
    0 ≤ corneringEnergy p previous current speed distance := by
  obtain ⟨-, -, -, -, hradial, -⟩ := forall_fields.1 hp.magnitudes
  unfold corneringEnergy
  cases previous.heading with
  | none => exact zero_lit.ge
  | some last =>
    dsimp only
    split_ifs
    · exact zero_lit.ge
    · have hsq := mul_nonneg (mul_nonneg hradial hp.mass.le) (mul_self_nonneg speed)
      rw [← mul_assoc] at hsq
      exact div_nonneg hsq (corneringRadius_pos _ _).le

theorem lost_nonneg (hp : p.Sound) (he : 0 < elapsed) : 0 ≤ lost p previous current elapsed := by
  obtain ⟨-, harea, hair, -, -, hroll, hpower, -⟩ := forall_fields.1 hp.magnitudes
  have hmass := hp.mass
  have hcorner := corneringEnergy_nonneg previous current hp current.speed (current.speed * elapsed)
  have hspeed : 0 ≤ current.speed := length_nonneg _
  have hdensity : 0 ≤ (airDensity : ℝ) := by
    unfold airDensity
    norm_num
  have hgravity : 0 ≤ (standardGravity : ℝ) := by
    unfold standardGravity
    norm_num
  unfold lost
  positivity

/-- The battery pays at least for the sum of the terms, by either rule. -/
theorem raw_le_batteryEnergy (hp : p.Sound) (raw : ℝ) : raw ≤ batteryEnergy p rule raw := by
  obtain ⟨hprop, hprop1⟩ := hp.propulsion
  obtain ⟨hrec, hrec1⟩ := hp.recuperation
  unfold batteryEnergy
  rw [zero_lit]
  split_ifs with hpos
  · exact (le_div_iff₀ hprop).2 (mul_le_of_le_one_right hpos.le hprop1)
  · cases rule with
    | multiplicative => exact le_mul_of_le_one_right (not_lt.1 hpos) hrec1
    | additive => exact le_add_of_nonneg_right hrec.le

theorem batteryEnergy_strictMono (hp : p.Sound) : StrictMono (batteryEnergy p .multiplicative) := by
  intro a b hab
  obtain ⟨hprop, -⟩ := hp.propulsion
  obtain ⟨hrec, -⟩ := hp.recuperation
  unfold batteryEnergy
  rw [zero_lit]
  split_ifs with ha hb hb
  · exact div_lt_div_of_pos_right hab hprop
  · exact absurd (ha.trans hab) hb
  · exact (mul_nonpos_of_nonpos_of_nonneg (not_lt.1 ha) hrec.le).trans_lt (div_pos hb hprop)
  · exact mul_lt_mul_of_pos_right hab hrec

theorem batteryEnergy_lossless (hprop : p.propulsionEfficiency = 1) (hrec : p.recuperationEfficiency = 1) (raw : ℝ) :
    batteryEnergy p .multiplicative raw = raw := by
  unfold batteryEnergy
  split_ifs with hpos
  · rw [hprop, div_one]
  · change raw * p.recuperationEfficiency = raw
    rw [hrec, mul_one]

end Exact

end FleetEnergy

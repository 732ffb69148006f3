import FleetEnergy.Proofs.Exact.Energy
import FleetEnergy.Proofs.MonotoneScalar

/-! What load costs. Of two vehicles that differ in their drag, their consumers and their efficiencies only, the one with
more load draws at least as much from its battery in every step. The terms of a step are compared one by one, in exact
arithmetic and with floats alike. -/
namespace FleetEnergy
open OrderedScalar MonotoneScalar
set_option autoImplicit false

namespace Profile

/-- What an accepted profile has in any arithmetic. -/
structure Proper {α : Type} [Scalar α] (p : Profile α) : Prop where
  magnitudes : ∀ f ∈ p.fields, 0.0 ≤ f.2
  propulsion : 0.0 < p.propulsionEfficiency
  recuperation : 0.0 < p.recuperationEfficiency

/-- The second vehicle has at least the load of the first one, and is as heavy. -/
structure LoadLe {α : Type} [Scalar α] (p q : Profile α) : Prop where
  mass : p.vehicleMass = q.vehicleMass
  inertia : p.internalMomentOfInertia = q.internalMomentOfInertia
  area : p.frontSurfaceArea ≤ q.frontSurfaceArea
  air : p.airDragCoefficient ≤ q.airDragCoefficient
  roll : p.rollDragCoefficient ≤ q.rollDragCoefficient
  radial : p.radialDragCoefficient ≤ q.radialDragCoefficient
  constantPower : p.constantPowerIntake ≤ q.constantPowerIntake
  propulsion : q.propulsionEfficiency ≤ p.propulsionEfficiency
  recuperation : q.recuperationEfficiency ≤ p.recuperationEfficiency

end Profile

section Steps

variable {α : Type} [Scalar α] [MonotoneScalar α] {p q : Profile α}

/-! ## Terms of a step -/

theorem corneringRadius_pos {distance angle : α} (h : Defined (corneringRadius distance angle)) :
    0.0 < corneringRadius distance angle := by
  have hlow : (0.0 : α) < 0.0001 := literal_pos (by decide) (by decide) (by decide)
  unfold corneringRadius Scalar.clamp at h ⊢
  split_ifs at h ⊢ with hlo hhi
  · exact hlow
  · exact literal_pos (by decide) (by decide) (by decide)
  · exact lt_of_lt_of_le hlow ((not_lt h (defined_of_lt hlow).2).1 hlo)

theorem grows_literal (m n : ℕ) (hm : 0 < m) (hn0 : 0 < n) (hn : n ≤ 20) :
    Grows (OfScientific.ofScientific m true n : α) (OfScientific.ofScientific m true n) :=
  Grows.refl fun _ => le_of_lt (literal_pos hm hn0 hn)

theorem grows_corneringEnergy (hp : p.Proper) (h : p.LoadLe q) (previous : PreviousState α) (current : Snapshot α)
    {speed : α} (hspeed : Grows speed speed) (distance : α) :
    Grows (corneringEnergy p previous current speed distance) (corneringEnergy q previous current speed distance) := by
  have hzero : Grows (0.0 : α) 0.0 := Grows.refl fun h0 => le_refl h0
  unfold corneringEnergy
  cases previous.heading with
  | none => exact hzero
  | some last =>
    dsimp only
    split_ifs
    · exact hzero
    · obtain ⟨hmass₀, -, -, -, hradial₀, -⟩ := Profile.forall_fields.1 hp.magnitudes
      have hradial := Grows.of_le hradial₀ h.radial
      have hmass : Grows p.vehicleMass q.vehicleMass := h.mass ▸ Grows.refl fun _ => hmass₀
      exact (((hradial.mul hmass).mul hspeed).mul hspeed).div corneringRadius_pos

theorem rises_raw (hp : p.Proper) (h : p.LoadLe q) (previous : PreviousState α) (current : Snapshot α) {elapsed : α}
    (he : 0.0 < elapsed) : Rises (stepBreakdown p previous current elapsed .multiplicative).raw
      (stepBreakdown q previous current elapsed .multiplicative).raw := by
  obtain ⟨hmass₀, harea₀, hair₀, -, -, hroll₀, hpower₀, -⟩ := Profile.forall_fields.1 hp.magnitudes
  have hmass : Grows p.vehicleMass q.vehicleMass := h.mass ▸ Grows.refl fun _ => hmass₀
  have harea := Grows.of_le harea₀ h.area
  have hair := Grows.of_le hair₀ h.air
  have hroll := Grows.of_le hroll₀ h.roll
  have hpower := Grows.of_le hpower₀ h.constantPower
  have hspeed : Grows current.velocity.length current.velocity.length := Grows.refl sqrt_nonneg
  have helapsed : Grows elapsed elapsed := Grows.refl fun _ => le_of_lt he
  have hdistance := hspeed.mul helapsed
  have hhalf : Grows (0.5 : α) 0.5 := grows_literal _ _ (by decide) (by decide) (by decide)
  have hdensity : Grows (airDensity : α) airDensity := grows_literal _ _ (by decide) (by decide) (by decide)
  have hgravity : Grows (standardGravity : α) standardGravity := grows_literal _ _ (by decide) (by decide) (by decide)
  have hstored (z squares : α) : Rises
      (p.vehicleMass * standardGravity * z + 0.5 * p.vehicleMass * squares + p.internalMomentOfInertia * squares)
      (q.vehicleMass * standardGravity * z + 0.5 * q.vehicleMass * squares + q.internalMomentOfInertia * squares) := by
    rw [h.mass, h.inertia]
    exact Rises.refl _
  have hairDrag := (((((hhalf.mul hdensity).mul harea).mul hair).mul hspeed).mul hspeed).mul hdistance
  have hrollDrag := ((hroll.mul hgravity).mul hmass).mul hdistance
  have hcornering := grows_corneringEnergy hp h previous current hspeed (current.velocity.length * elapsed)
  have hconstant := hpower.mul helapsed
  exact ((((hstored _ _).add hairDrag.rises).add hrollDrag.rises).add hcornering.rises).add hconstant.rises

/-! ## The battery -/

theorem defined_of_batteryEnergy {raw : α} (h : Defined (batteryEnergy p .multiplicative raw)) : Defined raw := by
  unfold batteryEnergy at h
  split_ifs at h
  · exact (defined_of_div h).1
  · exact (defined_of_mul h).1

/-- Lesser efficiencies do not turn a greater sum into a lesser one, whether energy is drawn or won back. -/
theorem rises_batteryEnergy (hq : q.Proper) (h : p.LoadLe q) {a b : α} (hab : Rises a b) :
    Rises (batteryEnergy p .multiplicative a) (batteryEnergy q .multiplicative b) := by
  intro hp' hq'
  have ha := defined_of_batteryEnergy hp'
  have hb := defined_of_batteryEnergy hq'
  have hle := hab ha hb
  have hzero : Defined (0.0 : α) := (defined_of_lt hq.propulsion).1
  unfold batteryEnergy at hp' hq' ⊢
  by_cases ha0 : 0.0 < a
  · have hb0 := lt_of_lt_of_le ha0 hle
    rw [if_pos ha0] at hp' ⊢
    rw [if_pos hb0] at hq' ⊢
    exact div_mono hp' hq' (le_of_lt ha0) hle hq.propulsion h.propulsion
  · have ha1 := (not_lt hzero ha).1 ha0
    have hrec := le_of_lt (lt_of_lt_of_le hq.recuperation h.recuperation)
    rw [if_neg ha0] at hp' ⊢
    by_cases hb0 : 0.0 < b
    · rw [if_pos hb0] at hq' ⊢
      exact le_trans hp' hzero hq' (mul_nonpos hp' ha1 hrec) (div_nonneg hq' (le_of_lt hb0) hq.propulsion)
    · rw [if_neg hb0] at hq' ⊢
      have hb1 := (not_lt hzero hb).1 hb0
      exact mul_mono_of_nonpos hp' hq' hle hb1 (le_of_lt hq.recuperation) h.recuperation

theorem rises_energyDelta (hp : p.Proper) (hq : q.Proper) (h : p.LoadLe q) (previous : PreviousState α)
    (current : Snapshot α) (elapsed : α) : Rises (energyDelta p previous current elapsed .multiplicative)
      (energyDelta q previous current elapsed .multiplicative) := by
  unfold energyDelta breakdown
  split_ifs with he hf
  · have hhour : (0.0 : α) < joulesPerWattHour := literal_pos (by decide) (by decide) (by decide)
    exact (rises_batteryEnergy hq h (rises_raw hp h previous current he)).div hhour
  · exact Rises.refl _
  · exact Rises.refl _

end Steps

/-! ## Exact arithmetic and floats -/

namespace Exact

theorem literal_eq (m n : ℕ) : (OfScientific.ofScientific m true n : ℝ) = m / 10 ^ n := by
  rw [← Rat.cast_ofScientific]
  change ((Rat.ofScientific m true n : ℚ) : ℝ) = _
  rw [Rat.ofScientific_true_def, Rat.mkRat_eq_div]
  push_cast
  rfl

noncomputable instance : MonotoneScalar ℝ where
  le_refl _ := le_rfl
  le_of_lt h := h.le
  defined_of_le _ := ⟨trivial, trivial⟩
  defined_of_add _ := ⟨trivial, trivial⟩
  defined_of_mul _ := ⟨trivial, trivial⟩
  defined_of_div _ := ⟨trivial, trivial⟩
  add_mono _ _ hab hcd := add_le_add hab hcd
  mul_nonneg _ ha hb := by
    rw [zero_lit] at ha hb ⊢
    positivity
  mul_mono _ _ ha hab hc hcd := by
    rw [zero_lit] at ha hc
    exact mul_le_mul hab hcd hc (ha.trans hab)
  mul_nonpos _ ha hb := by
    rw [zero_lit] at ha hb ⊢
    exact mul_nonpos_of_nonpos_of_nonneg ha hb
  mul_mono_of_nonpos _ _ hab hb hd hdc := by
    rw [zero_lit] at hb hd
    exact (mul_le_mul_of_nonneg_right hab (hd.trans hdc)).trans (mul_le_mul_of_nonpos_left hdc hb)
  div_nonneg _ ha hb := by
    rw [zero_lit] at ha hb ⊢
    positivity
  div_mono _ _ ha hab hd hdc := by
    rw [zero_lit] at ha hd
    exact div_le_div₀ (ha.trans hab) hab hd hdc
  div_mono_left _ _ hab hc := by
    rw [zero_lit] at hc
    exact div_le_div_of_nonneg_right hab hc.le
  sqrt_nonneg _ := zero_lit.symm ▸ Real.sqrt_nonneg _
  literal_pos hm _ _ := by
    have hpos : (0 : ℝ) < _ := Nat.cast_pos.2 hm
    rw [zero_lit, literal_eq]
    positivity

theorem proper_of_validate {p : Profile ℝ} (h : p.validate = .ok ()) : p.Proper := by
  obtain ⟨hall, -, -, ⟨hprop, -⟩, ⟨hrec, -⟩⟩ := (validate_eq_ok_iff p).1 h
  rw [← zero_lit] at hprop hrec
  exact ⟨fun f hf => zero_lit.symm ▸ hall f hf, hprop, hrec⟩

end Exact

theorem Profile.proper_of_validate {p : Profile Float} (h : p.validate = .ok ()) : p.Proper := by
  obtain ⟨hall, -, -, ⟨hprop, -⟩, ⟨hrec, -⟩⟩ := (validate_eq_ok_iff p).1 h
  exact ⟨fun f hf => (hall f hf).2, hprop, hrec⟩

/-- More load does not cost less in any step, in exact arithmetic, and with floats if both results are defined; be it
that the lesser load wins energy back where the greater one has to draw it. -/
theorem more_load_costs_no_less :
    (∀ (p q : Profile ℝ) (previous : PreviousState ℝ) (current : Snapshot ℝ) (elapsed : ℝ),
      p.validate = .ok () → q.validate = .ok () → p.LoadLe q →
      energyDelta p previous current elapsed .multiplicative ≤ energyDelta q previous current elapsed .multiplicative) ∧
    ∀ (p q : Profile Float) (previous : PreviousState Float) (current : Snapshot Float) (elapsed : Float),
      p.validate = .ok () → q.validate = .ok () → p.LoadLe q →
      (energyDelta p previous current elapsed .multiplicative).isNaN = false →
      (energyDelta q previous current elapsed .multiplicative).isNaN = false →
      energyDelta p previous current elapsed .multiplicative ≤ energyDelta q previous current elapsed .multiplicative :=
  ⟨fun _ _ previous current elapsed hp hq h => rises_energyDelta (Exact.proper_of_validate hp)
      (Exact.proper_of_validate hq) h previous current elapsed trivial trivial,
    fun _ _ previous current elapsed hp hq h => rises_energyDelta (Profile.proper_of_validate hp)
      (Profile.proper_of_validate hq) h previous current elapsed⟩

/-- A vehicle of a tonne. -/
def tonne {α : Type} [Scalar α] (power efficiency : α) : Profile α :=
  ⟨1000.0, 2.0, 0.5, 10.0, 0.0, 0.01, power, efficiency, efficiency, 100.0, 50.0⟩

/-- From two metres a second to one. -/
def braking {α : Type} [Scalar α] : PreviousState α × Snapshot α :=
  (⟨.zero, ⟨2.0, 0.0, 0.0⟩, none⟩, ⟨.zero, ⟨1.0, 0.0, 0.0⟩⟩)

/-- Without consumers the vehicle wins energy back when it brakes, and with heavy ones it has to draw some. -/
theorem braking_with_consumers :
    ((tonne (0.0 : ℝ) 0.75).validate = .ok () ∧ (tonne (3000.0 : ℝ) 0.5).validate = .ok () ∧
      (tonne (0.0 : ℝ) 0.75).LoadLe (tonne 3000.0 0.5) ∧
      energyDelta (tonne 0.0 0.75) braking.1 braking.2 (1.0 : ℝ) .multiplicative ≤
        energyDelta (tonne 3000.0 0.5) braking.1 braking.2 1.0 .multiplicative) ∧
    (tonne (0.0 : Float) 0.75).validate = .ok () ∧ (tonne (3000.0 : Float) 0.5).validate = .ok () ∧
      (tonne (0.0 : Float) 0.75).LoadLe (tonne 3000.0 0.5) ∧
      energyDelta (tonne 0.0 0.75) braking.1 braking.2 (1.0 : Float) .multiplicative < 0.0 ∧
      0.0 < energyDelta (tonne 3000.0 0.5) braking.1 braking.2 (1.0 : Float) .multiplicative ∧
      energyDelta (tonne 0.0 0.75) braking.1 braking.2 (1.0 : Float) .multiplicative ≤
        energyDelta (tonne 3000.0 0.5) braking.1 braking.2 1.0 .multiplicative := by
  obtain ⟨hexact, hfloat⟩ := more_load_costs_no_less
  have hsound (power efficiency : ℝ) (h0 : 0 ≤ power) (h : 0 < efficiency ∧ efficiency ≤ 1) :
      (tonne power efficiency).validate = .ok () := by
    refine (Exact.validate_eq_ok_iff _).2 ⟨?_, ?_, ?_, h, h⟩
    · exact Profile.forall_fields.2 ⟨by norm_num [tonne], by norm_num [tonne], by norm_num [tonne],
        by norm_num [tonne], by norm_num [tonne], by norm_num [tonne], h0, h.1.le, h.1.le, by norm_num [tonne],
        by norm_num [tonne]⟩
    · norm_num [tonne]
    · norm_num [tonne]
  have hp := hsound 0.0 0.75 (by norm_num) (by norm_num)
  have hq := hsound 3000.0 0.5 (by norm_num) (by norm_num)
  have hpq : (tonne (0.0 : ℝ) 0.75).LoadLe (tonne 3000.0 0.5) := by
    constructor <;> norm_num [tonne]
  have hp' : (tonne (0.0 : Float) 0.75).validate = .ok () := by rfl
  have hq' : (tonne (3000.0 : Float) 0.5).validate = .ok () := by rfl
  have hpq' : (tonne (0.0 : Float) 0.75).LoadLe (tonne 3000.0 0.5) := by
    constructor <;> decide +kernel
  have hback : energyDelta (tonne 0.0 0.75) braking.1 braking.2 (1.0 : Float) .multiplicative < 0.0 := by
    decide +kernel
  have hdraw : 0.0 < energyDelta (tonne 3000.0 0.5) braking.1 braking.2 (1.0 : Float) .multiplicative := by
    decide +kernel
  obtain ⟨hdef, -⟩ := defined_of_lt hback
  obtain ⟨-, hdef'⟩ := defined_of_lt hdraw
  exact ⟨⟨hp, hq, hpq, hexact _ _ _ _ _ hp hq hpq⟩, hp', hq', hpq', hback, hdraw,
    hfloat _ _ _ _ _ hp' hq' hpq' hdef hdef'⟩

end FleetEnergy

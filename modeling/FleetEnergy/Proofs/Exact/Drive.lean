import FleetEnergy.Proofs.Exact.Energy

/-! No perpetual motion. Whatever way a vehicle takes, its battery pays for the height and the speed that it has in
the end and had not at the start; a loop costs something or nothing, but wins nothing. -/
namespace FleetEnergy
set_option autoImplicit false

/-- A stage of a drive: the heading that is remembered of its start, the state at its end and the time it takes. -/
structure Stage where
  heading : Option ℝ
  stop : Snapshot ℝ
  elapsed : ℝ

namespace Exact

/-- The watt hours of the stages of a drive from a state. -/
noncomputable def deltas (p : Profile ℝ) (rule : Recuperation) : Snapshot ℝ → List Stage → List ℝ
  | _, [] => []
  | s, x :: xs =>
    energyDelta p ⟨s.position, s.velocity, x.heading⟩ x.stop x.elapsed rule :: deltas p rule x.stop xs

/-- The state at the end of a drive. -/
def destination (s : Snapshot ℝ) (xs : List Stage) : Snapshot ℝ := xs.foldl (fun _ x => x.stop) s

/-- Nothing is lost on the way. -/
structure Lossless (p : Profile ℝ) : Prop where
  airDrag : p.airDragCoefficient = 0
  rollDrag : p.rollDragCoefficient = 0
  radialDrag : p.radialDragCoefficient = 0
  constantPower : p.constantPowerIntake = 0
  propulsion : p.propulsionEfficiency = 1
  recuperation : p.recuperationEfficiency = 1

variable {p : Profile ℝ} {elapsed : ℝ} (rule : Recuperation) (previous : PreviousState ℝ) (current : Snapshot ℝ)

/-! ## One stage -/

theorem stored_le_delta (hp : p.Sound) (he : 0 < elapsed) :
    stored p current.position current.velocity - stored p previous.position previous.velocity ≤
      3600 * energyDelta p previous current elapsed rule := by
  have hlost := lost_nonneg previous current elapsed hp he
  have hpaid := raw_le_batteryEnergy rule hp (stepBreakdown p previous current elapsed rule).raw
  rw [energyDelta_eq p previous current rule he]
  rw [raw_eq] at hpaid ⊢
  linarith

theorem lost_eq_zero (hl : Lossless p) : lost p previous current elapsed = 0 := by
  have hcorner : corneringEnergy p previous current current.speed (current.speed * elapsed) = 0 := by
    unfold corneringEnergy
    cases previous.heading with
    | none => exact zero_lit
    | some last =>
      dsimp only
      split_ifs
      · exact zero_lit
      · rw [hl.radialDrag]
        simp
  rw [lost, hcorner, hl.airDrag, hl.rollDrag, hl.constantPower]
  ring

theorem delta_eq_stored (hl : Lossless p) (he : 0 < elapsed) :
    3600 * energyDelta p previous current elapsed .multiplicative =
      stored p current.position current.velocity - stored p previous.position previous.velocity := by
  rw [energyDelta_eq p previous current _ he, batteryEnergy_lossless hl.propulsion hl.recuperation, raw_eq,
    lost_eq_zero previous current hl]
  ring

/-! ## A whole drive -/

theorem stored_le_deltas (hp : p.Sound) (s : Snapshot ℝ) (xs : List Stage) (hx : ∀ x ∈ xs, 0 < x.elapsed) :
    stored p (destination s xs).position (destination s xs).velocity - stored p s.position s.velocity ≤
      3600 * (deltas p rule s xs).sum := by
  -- What is stored at the end of a stage is what the next one starts with, so the sum telescopes.
  induction xs generalizing s with
  | nil => simp [destination, deltas]
  | cons x xs ih =>
    have hstage := stored_le_delta rule ⟨s.position, s.velocity, x.heading⟩ x.stop hp (hx x List.mem_cons_self)
    have hrest := ih x.stop fun x' hx' => hx x' (List.mem_cons_of_mem x hx')
    change stored p (destination x.stop xs).position (destination x.stop xs).velocity - _ ≤ _
    rw [deltas, List.sum_cons, mul_add]
    linarith

theorem deltas_eq_stored (hl : Lossless p) (s : Snapshot ℝ) (xs : List Stage) (hx : ∀ x ∈ xs, 0 < x.elapsed) :
    3600 * (deltas p .multiplicative s xs).sum =
      stored p (destination s xs).position (destination s xs).velocity - stored p s.position s.velocity := by
  induction xs generalizing s with
  | nil => simp [destination, deltas]
  | cons x xs ih =>
    have hstage := delta_eq_stored ⟨s.position, s.velocity, x.heading⟩ x.stop hl (hx x List.mem_cons_self)
    have hrest := ih x.stop fun x' hx' => hx x' (List.mem_cons_of_mem x hx')
    change _ = stored p (destination x.stop xs).position (destination x.stop xs).velocity - _
    rw [deltas, List.sum_cons, mul_add, hrest, hstage]
    ring

theorem stored_sub (s e : Snapshot ℝ) :
    stored p e.position e.velocity - stored p s.position s.velocity =
      p.vehicleMass * standardGravity * (e.position.z - s.position.z) +
        (p.vehicleMass / 2 + p.internalMomentOfInertia) * (e.speed ^ 2 - s.speed ^ 2) := by
  have hhalf : (0.5 : ℝ) = 1 / 2 := by norm_num
  rw [stored, stored, Snapshot.speed, Snapshot.speed, hhalf]
  ring

theorem stored_mono (hp : p.Sound) {s e : Snapshot ℝ} (hz : s.position.z ≤ e.position.z) (hv : s.speed ≤ e.speed) :
    0 ≤ stored p e.position e.velocity - stored p s.position s.velocity := by
  obtain ⟨-, -, -, hinertia, -⟩ := Profile.forall_fields.1 hp.magnitudes
  have hgravity : 0 ≤ (standardGravity : ℝ) := by
    unfold standardGravity
    norm_num
  have hmass := hp.mass.le
  have hspeed : 0 ≤ s.speed := length_nonneg _
  have hheight := mul_nonneg (mul_nonneg hmass hgravity) (sub_nonneg.2 hz)
  have hsq : 0 ≤ e.speed ^ 2 - s.speed ^ 2 := sub_nonneg.2 (pow_le_pow_left₀ hspeed hv 2)
  have hmotion := mul_nonneg (add_nonneg (half_pos hp.mass).le hinertia) hsq
  rw [stored_sub]
  exact add_nonneg hheight hmotion

/-- A drive of an accepted vehicle costs at least what it gains in height and speed, and nothing is won on a drive
that ends as high and as fast as it began; without losses it costs just what it gains. -/
theorem no_perpetual_motion (p : Profile ℝ) (hp : p.validate = .ok ()) (rule : Recuperation) (s : Snapshot ℝ)
    (xs : List Stage) (hx : ∀ x ∈ xs, 0 < x.elapsed) :
    let e := destination s xs
    p.vehicleMass * standardGravity * (e.position.z - s.position.z) +
        (p.vehicleMass / 2 + p.internalMomentOfInertia) * (e.speed ^ 2 - s.speed ^ 2) ≤
      3600 * (deltas p rule s xs).sum ∧
    (s.position.z ≤ e.position.z → s.speed ≤ e.speed → 0 ≤ (deltas p rule s xs).sum) ∧
    (Lossless p → rule = .multiplicative → 3600 * (deltas p rule s xs).sum =
      p.vehicleMass * standardGravity * (e.position.z - s.position.z) +
        (p.vehicleMass / 2 + p.internalMomentOfInertia) * (e.speed ^ 2 - s.speed ^ 2)) := by
  intro e
  have hsound := (validate_eq_ok_iff p).1 hp
  have hcost := stored_le_deltas rule hsound s xs hx
  refine ⟨?_, fun hz hv => ?_, ?_⟩
  · rwa [stored_sub] at hcost
  · have hgain := stored_mono hsound hz hv
    linarith
  · rintro hl rfl
    rw [← stored_sub]
    exact deltas_eq_stored hl s xs hx

/-! ## A loop -/

/-- The bus of the parameters that are documented for the energy model. -/
noncomputable def bus : Profile ℝ := ⟨10000, 6, 0.6, 0.01, 0.5, 0.01, 100, 0.9, 0.9, 24000, 24000⟩

noncomputable def halt : Snapshot ℝ := ⟨⟨0, 0, 0⟩, ⟨0, 0, 0⟩⟩

/-- Up a hill to the east, and down again. -/
noncomputable def hill : List Stage :=
  [⟨none, ⟨⟨100, 0, 50⟩, ⟨20, 0, 0⟩⟩, 8⟩, ⟨some 0, ⟨⟨0, 0, 0⟩, ⟨0, 0, 0⟩⟩, 8⟩]

theorem hill_wins_nothing :
    bus.validate = .ok () ∧ (∀ x ∈ hill, 0 < x.elapsed) ∧ destination halt hill = halt ∧
      0 ≤ (deltas bus .additive halt hill).sum := by
  have hp : bus.validate = .ok () := by
    rw [validate_eq_ok_iff]
    refine ⟨?_, ?_, ?_, ?_, ?_⟩ <;> norm_num [bus, Profile.fields]
  have hx : ∀ x ∈ hill, 0 < x.elapsed := by norm_num [hill]
  obtain ⟨-, hloop, -⟩ := no_perpetual_motion bus hp .additive halt hill hx
  exact ⟨hp, hx, rfl, hloop le_rfl le_rfl⟩

end Exact

end FleetEnergy

import FleetEnergy.Proofs.Exact.Energy
import FleetEnergy.Proofs.Exact.Rotation
import FleetEnergy.Proofs.Exact.Tour

/-! Compass directions. A trace that is rotated about the vertical axis costs the same, except where a vehicle drives
off between two ticks, or goes over from the ground to straight up or down: a velocity without a part on the ground is
remembered with the heading zero, as if the vehicle faced along the x axis, and the turn from or to there is charged. -/
namespace FleetEnergy
set_option autoImplicit false

namespace Exact

/-- Between two velocities the heading appears or disappears, and there is motion in the end. -/
def Pivots (a b : Vec3 ℝ) : Prop := ¬(a.Vertical ↔ b.Vertical) ∧ b.length ≠ 0

variable {p : Profile ℝ} (rule : Recuperation) (elapsed : ℝ)

/-! ## One step -/

theorem energyDelta_congr {previous previous' : PreviousState ℝ} {current current' : Snapshot ℝ}
    (hz : current'.position.z - previous'.position.z = current.position.z - previous.position.z)
    (hlast : previous'.velocity.length = previous.velocity.length)
    (hnow : current'.velocity.length = current.velocity.length)
    (hcorner : ∀ distance, corneringEnergy p previous' current' current.velocity.length distance =
      corneringEnergy p previous current current.velocity.length distance) :
    energyDelta p previous' current' elapsed rule = energyDelta p previous current elapsed rule := by
  have hstep : stepBreakdown p previous' current' elapsed rule = stepBreakdown p previous current elapsed rule := by
    simp only [stepBreakdown, hz, hlast, hnow, hcorner]
  rw [energyDelta, energyDelta, breakdown, breakdown, hstep]

theorem energyDelta_rotate_unknown (φ : ℝ) (t : Snapshot ℝ) :
    energyDelta p .unknown (t.rotate φ) elapsed rule = energyDelta p .unknown t elapsed rule :=
  energyDelta_congr rule elapsed rfl rfl (length_rotate φ t.velocity) fun _ => rfl

variable (p) in
/-- What a curve costs at a speed, over a way and by an angle. -/
noncomputable def curveEnergy (speed distance angle : ℝ) : ℝ :=
  if angle = 0 then 0 else p.radialDragCoefficient * p.vehicleMass * speed * speed / corneringRadius distance angle

theorem corneringEnergy_eq (s t : Snapshot ℝ) (speed distance : ℝ) :
    corneringEnergy p (.ofSnapshot s) t speed distance =
      curveEnergy p speed distance (angleDifference s.velocity.heading t.velocity.heading) := by
  simp only [corneringEnergy, PreviousState.ofSnapshot, Snapshot.heading, curveEnergy, zero_lit, beq_iff_eq]

theorem curveEnergy_of_halt (distance angle : ℝ) : curveEnergy p 0 distance angle = 0 := by
  rw [curveEnergy, mul_zero, zero_div, ite_self]

theorem energyDelta_rotate (φ : ℝ) {s t : Snapshot ℝ} (h : ¬Pivots s.velocity t.velocity) :
    energyDelta p (.ofSnapshot (s.rotate φ)) (t.rotate φ) elapsed rule =
      energyDelta p (.ofSnapshot s) t elapsed rule := by
  refine energyDelta_congr rule elapsed rfl (length_rotate φ s.velocity) (length_rotate φ t.velocity) fun distance => ?_
  rw [corneringEnergy_eq, corneringEnergy_eq]
  by_cases hhalt : t.velocity.length = 0
  · -- Coming to a halt may change the angle, but a curve without speed costs nothing.
    rw [hhalt, curveEnergy_of_halt, curveEnergy_of_halt]
  · have hangle := angleDifference_rotate φ (not_not.1 fun hiff => h ⟨hiff, hhalt⟩)
    exact congrArg _ hangle

/-! ## A step with a pivot -/

theorem curveEnergy_eq_zero_iff (hp : p.Sound) (hradial : 0 < p.radialDragCoefficient) {speed : ℝ} (hs : 0 < speed)
    (distance angle : ℝ) : curveEnergy p speed distance angle = 0 ↔ angle = 0 := by
  by_cases h : angle = 0
  · rw [curveEnergy, if_pos h]
    exact iff_of_true rfl h
  · have hradius := corneringRadius_pos distance angle
    have hmass := hp.mass
    rw [curveEnergy, if_neg h]
    refine iff_of_false (ne_of_gt ?_) h
    positivity

/-- There is a rotation after which a pivot is a turn from or to the x axis by a given angle. -/
theorem exists_heading_rotate {a b : Vec3 ℝ} (h : Pivots a b) (θ : Real.Angle) :
    ∃ φ, ((b.rotate φ).heading : Real.Angle) - (a.rotate φ).heading = θ ∨
      ((b.rotate φ).heading : Real.Angle) - (a.rotate φ).heading = -θ := by
  by_cases ha : a.Vertical
  · have hb : ¬b.Vertical := fun hb => h.1 (iff_of_true ha hb)
    refine ⟨(θ - b.heading).toReal, .inl ?_⟩
    rw [coe_heading_rotate _ hb, heading_of_vertical ((vertical_rotate_iff _ a).2 ha), Real.Angle.coe_toReal]
    simp
  · have hb : b.Vertical := not_not.1 fun hb => h.1 (iff_of_false ha hb)
    refine ⟨(θ - a.heading).toReal, .inr ?_⟩
    rw [coe_heading_rotate _ ha, heading_of_vertical ((vertical_rotate_iff _ b).2 hb), Real.Angle.coe_toReal]
    simp

theorem curveEnergy_of_energyDelta_eq (hp : p.Sound) (he : 0 < elapsed) {φ : ℝ} {s t : Snapshot ℝ}
    (h : energyDelta p (.ofSnapshot (s.rotate φ)) (t.rotate φ) elapsed .multiplicative =
      energyDelta p (.ofSnapshot s) t elapsed .multiplicative) :
    curveEnergy p t.speed (t.speed * elapsed)
        (angleDifference (s.velocity.rotate φ).heading (t.velocity.rotate φ).heading) =
      curveEnergy p t.speed (t.speed * elapsed) (angleDifference s.velocity.heading t.velocity.heading) := by
  have hspeed : (t.rotate φ).speed = t.speed := length_rotate φ t.velocity
  rw [energyDelta_eq _ _ _ _ he, energyDelta_eq _ _ _ _ he] at h
  have hraw := (batteryEnergy_strictMono hp).injective ((div_left_inj' (by norm_num)).1 h)
  rw [raw_eq, raw_eq, lost, lost, hspeed, corneringEnergy_eq, corneringEnergy_eq] at hraw
  simp only [stored, PreviousState.ofSnapshot, Snapshot.rotate, length_rotate, z_rotate] at hraw
  linarith

/-- A pivot is charged differently in different directions. -/
theorem exists_energyDelta_rotate_ne (hp : p.Sound) (hradial : 0 < p.radialDragCoefficient) (he : 0 < elapsed)
    {s t : Snapshot ℝ} (h : Pivots s.velocity t.velocity) :
    ∃ φ, energyDelta p (.ofSnapshot (s.rotate φ)) (t.rotate φ) elapsed .multiplicative ≠
      energyDelta p (.ofSnapshot s) t elapsed .multiplicative := by
  by_contra hsame
  simp only [ne_eq, not_exists, not_not] at hsame
  have hspeed : 0 < t.speed := lt_of_le_of_ne (length_nonneg _) (Ne.symm h.2)
  obtain ⟨φ, hφ⟩ := exists_heading_rotate h 0
  obtain ⟨ψ, hψ⟩ := exists_heading_rotate h Real.pi
  -- Along the x axis the pivot is no turn, against it it is half a turn.
  have hfree := curveEnergy_of_energyDelta_eq elapsed hp he (hsame φ)
  have hpaid := curveEnergy_of_energyDelta_eq elapsed hp he (hsame ψ)
  rw [neg_zero, or_self, ← angleDifference_eq_zero_iff] at hφ
  rw [(curveEnergy_eq_zero_iff hp hradial hspeed _ _).2 hφ] at hfree
  rw [← hfree, curveEnergy_eq_zero_iff hp hradial hspeed, angleDifference_eq_zero_iff] at hpaid
  rw [hpaid, Real.Angle.neg_coe_pi, or_self] at hψ
  exact Real.Angle.pi_ne_zero hψ.symm

end Exact

/-! ## A whole tour -/

namespace Tour
open Exact

variable (tour : Tour) (m : MovementModel ℝ)

/-- Along the times of a list, no heading appears or disappears from one to the next. -/
def Steady (m : MovementModel ℝ) (times : List ℝ) : Prop :=
  times.IsChain fun s t => ¬Pivots (m.velocity s) (m.velocity t)

theorem bills_rotate (φ : ℝ) {s : ℝ} {ts : List ℝ} (h : Steady m (s :: ts)) :
    tour.bills (m.rotate φ) (.ofSnapshot ((m.rotate φ).snapshot s)) s ts =
      tour.bills m (.ofSnapshot (m.snapshot s)) s ts := by
  induction ts generalizing s with
  | nil => rfl
  | cons t ts ih =>
    obtain ⟨hst, hrest⟩ := List.isChain_cons_cons.1 h
    rw [bills, bills, ih hrest]
    exact congrArg (· :: _) (energyDelta_rotate (s := m.snapshot s) (t := m.snapshot t) tour.rule (t - s) φ hst)

theorem bills_rotate_unknown (φ : ℝ) (s : ℝ) {ts : List ℝ} (h : Steady m ts) :
    tour.bills (m.rotate φ) .unknown s ts = tour.bills m .unknown s ts := by
  cases ts with
  | nil => rfl
  | cons t ts =>
    rw [bills, bills, bills_rotate tour m φ h]
    exact congrArg (· :: _) (energyDelta_rotate_unknown tour.rule (t - s) φ (m.snapshot t))

theorem steady_of_bills_rotate (hp : tour.profile.Sound) (hradial : 0 < tour.profile.radialDragCoefficient)
    (hrule : tour.rule = .multiplicative) {s : ℝ} {ts : List ℝ} (hs : (s :: ts).IsChain (· ≤ ·))
    (h : ∀ φ, tour.bills (m.rotate φ) (.ofSnapshot ((m.rotate φ).snapshot s)) s ts =
      tour.bills m (.ofSnapshot (m.snapshot s)) s ts) : Steady m (s :: ts) := by
  induction ts generalizing s with
  | nil => exact List.isChain_singleton s
  | cons t ts ih =>
    obtain ⟨hst, hrest⟩ := List.isChain_cons_cons.1 hs
    refine List.isChain_cons_cons.2 ⟨fun hpivot => ?_, ih hrest fun φ => (List.cons.inj (h φ)).2⟩
    -- A pivot takes time, for at one time there is one velocity.
    have hne : s ≠ t := fun heq => hpivot.1 (by rw [heq])
    have hpos : 0 < t - s := sub_pos.2 (lt_of_le_of_ne hst hne)
    obtain ⟨φ, hφ⟩ :=
      exists_energyDelta_rotate_ne (s := m.snapshot s) (t := m.snapshot t) (t - s) hp hradial hpos hpivot
    rw [← hrule] at hφ
    exact hφ (List.cons.inj (h φ)).1

/-- For an accepted vehicle, a tour in time costs the same in every direction as long as no heading appears or
disappears between two samples; and it does so only then, if curves cost something and what is won back is in
proportion. -/
theorem charges_rotate (hp : tour.profile.validate = .ok ()) (hs : tour.InOrder) (interval : ℝ) (l : Ledger ℝ) :
    (Steady m tour.samples → ∀ φ, tour.charges interval l (m.rotate φ) = tour.charges interval l m) ∧
    (0 < tour.profile.radialDragCoefficient → tour.rule = .multiplicative →
      (∀ φ, tour.charges interval l (m.rotate φ) = tour.charges interval l m) → Steady m tour.samples) := by
  have hsound := (validate_eq_ok_iff tour.profile).1 hp
  have hticks := isChain_ticks hs
  simp only [charges_eq tour _ hs]
  unfold samples departure
  cases tour.baseline with
  | true => exact ⟨fun h φ => bills_rotate tour m φ h, fun hradial hrule h =>
      steady_of_bills_rotate tour m hsound hradial hrule hticks h⟩
  | false =>
    refine ⟨fun h φ => bills_rotate_unknown tour m φ tour.start h, fun hradial hrule h => ?_⟩
    change Steady m (ticks tour.firings)
    cases hts : ticks tour.firings with
    | nil => exact List.isChain_nil
    | cons t ts =>
      rw [hts] at hticks h
      exact steady_of_bills_rotate tour m hsound hradial hrule (List.isChain_cons_cons.1 hticks).2
        fun φ => (List.cons.inj (h φ)).2

/-! ## Two vehicles -/

/-- Drives in a circle and climbs. -/
noncomputable def helix : MovementModel ℝ :=
  ⟨fun t => ⟨10 * Real.cos t, 10 * Real.sin t, t⟩, fun t => ⟨-10 * Real.sin t, 10 * Real.cos t, 1⟩⟩

/-- Stands until zero and then drives along the x axis. -/
noncomputable def eastward : MovementModel ℝ :=
  ⟨fun t => ⟨10 * max t 0, 0, 0⟩, fun t => if t ≤ 0 then ⟨0, 0, 0⟩ else ⟨10, 0, 0⟩⟩

/-- Without losses, except in curves. -/
noncomputable def cart : Profile ℝ := ⟨1, 0, 0, 0, 1, 0, 0, 1, 1, 1, 0⟩

noncomputable def twoTicks : Tour := ⟨cart, .multiplicative, 0, true, [(1, false), (3, false), (4, true)]⟩

theorem cart_accepted : cart.validate = .ok () := by
  rw [validate_eq_ok_iff]
  refine ⟨?_, ?_, ?_, ?_, ?_⟩ <;> norm_num [cart, Profile.fields]

theorem twoTicks_inOrder : twoTicks.InOrder := by
  norm_num [InOrder, twoTicks]

theorem helix_not_vertical (t : ℝ) : ¬(helix.velocity t).Vertical := by
  rintro ⟨hsin, hcos⟩
  have hcircle := Real.sin_sq_add_cos_sq t
  simp only [helix, neg_mul, neg_eq_zero, mul_eq_zero, OfNat.ofNat_ne_zero, false_or] at hsin hcos
  norm_num [hsin, hcos] at hcircle

theorem eastward_stands : eastward.velocity 0 = ⟨0, 0, 0⟩ := if_pos le_rfl

theorem eastward_drives {t : ℝ} (h : 0 < t) : eastward.velocity t = ⟨10, 0, 0⟩ := if_neg (not_le.2 h)

theorem length_east : (⟨10, 0, 0⟩ : Vec3 ℝ).length = 10 := by
  change Real.sqrt (10 * 10 + 0 * 0 + 0 * 0) = 10
  norm_num

theorem eastward_pivots : Pivots (eastward.velocity 0) (eastward.velocity 1) := by
  rw [eastward_stands, eastward_drives one_pos]
  refine ⟨fun h => ?_, ?_⟩
  · have heast := (h.1 ⟨rfl, rfl⟩).1
    norm_num at heast
  · rw [length_east]
    norm_num

/-- The one is charged alike in every direction, the other is not. -/
theorem helix_alike_eastward_not :
    cart.validate = .ok () ∧ twoTicks.InOrder ∧
    (∀ φ, twoTicks.charges 1 (.new 0 0) (helix.rotate φ) = twoTicks.charges 1 (.new 0 0) helix) ∧
    ¬∀ φ, twoTicks.charges 1 (.new 0 0) (eastward.rotate φ) = twoTicks.charges 1 (.new 0 0) eastward := by
  obtain ⟨halike, -⟩ := charges_rotate twoTicks helix cart_accepted twoTicks_inOrder 1 (.new 0 0)
  obtain ⟨-, hsteady⟩ := charges_rotate twoTicks eastward cart_accepted twoTicks_inOrder 1 (.new 0 0)
  refine ⟨cart_accepted, twoTicks_inOrder, halike ?_, fun h => ?_⟩
  · have hstep : ∀ s t, ¬Pivots (helix.velocity s) (helix.velocity t) := fun s t hp =>
      hp.1 (iff_of_false (helix_not_vertical s) (helix_not_vertical t))
    exact List.isChain_cons_cons.2 ⟨hstep _ _, List.isChain_cons_cons.2 ⟨hstep _ _, List.isChain_singleton _⟩⟩
  · have hradial : 0 < cart.radialDragCoefficient := by norm_num [cart]
    exact (List.isChain_cons_cons.1 (hsteady hradial rfl h)).1 eastward_pivots

/-! ## Driving off to the north -/

theorem heading_north : (Vec3.rotate (Real.pi / 2) ⟨10, 0, 0⟩).heading = Real.pi / 2 := by
  change Complex.arg ⟨Real.cos (Real.pi / 2) * 10 - Real.sin (Real.pi / 2) * 0,
    Real.sin (Real.pi / 2) * 10 + Real.cos (Real.pi / 2) * 0⟩ = _
  rw [Complex.arg_eq_pi_div_two_iff]
  norm_num

theorem heading_east : (⟨10, 0, 0⟩ : Vec3 ℝ).heading = 0 := by
  change Complex.arg ⟨10, 0⟩ = 0
  rw [Complex.arg_eq_zero_iff]
  norm_num

theorem angleDifference_quarter : angleDifference 0 (Real.pi / 2) = Real.pi / 2 := by
  rw [angleDifference_eq, sub_zero, Real.Angle.toReal_pi_div_two]

theorem energyDelta_cart {s t : Snapshot ℝ} {elapsed : ℝ} (he : 0 < elapsed) (hz : t.position.z = s.position.z) :
    energyDelta cart (.ofSnapshot s) t elapsed .multiplicative =
      ((t.speed * t.speed - s.speed * s.speed) / 2 + curveEnergy cart t.speed (t.speed * elapsed)
        (angleDifference s.velocity.heading t.velocity.heading)) / 3600 := by
  rw [energyDelta_eq _ _ _ _ he, batteryEnergy_lossless rfl rfl, raw_eq, lost, corneringEnergy_eq]
  simp only [stored, cart, PreviousState.ofSnapshot, Snapshot.speed, hz]
  ring_nf

theorem curveEnergy_quarter : curveEnergy cart 10 10 (Real.pi / 2) = 5 * Real.pi := by
  have hpi := Real.pi_pos
  have hlow := Real.two_le_pi
  have hhigh := Real.pi_le_four
  have hway : (10 : ℝ) / Scalar.abs (Real.pi / 2) = 20 / Real.pi := by
    change 10 / |Real.pi / 2| = 20 / Real.pi
    rw [abs_of_pos (by positivity)]
    field_simp
    norm_num
  have hradius : corneringRadius 10 (Real.pi / 2) = 20 / Real.pi := by
    rw [corneringRadius, hway, Scalar.clamp, if_neg, if_neg]
    · rw [not_lt, div_le_iff₀ hpi]
      linarith
    · rw [not_lt, le_div_iff₀ hpi]
      linarith
  rw [curveEnergy, if_neg (by positivity), hradius]
  simp only [cart]
  field_simp
  norm_num

theorem charges_driving_off {m : MovementModel ℝ} {v : Vec3 ℝ} (hz : ∀ t, (m.position t).z = 0)
    (hstands : m.velocity 0 = ⟨0, 0, 0⟩) (hdrives : ∀ t, 0 < t → m.velocity t = v) (hv : v.length = 10) :
    twoTicks.charges 1 (.new 0 0) m = [(50 + curveEnergy cart 10 10 (angleDifference 0 v.heading)) / 3600, 0] := by
  have hfree : ∀ distance, curveEnergy cart 10 distance 0 = 0 := fun _ => if_pos rfl
  have hlast : (0 : ℝ) < 3 - 1 := by norm_num
  have hstill : (⟨0, 0, 0⟩ : Vec3 ℝ).length = 0 := by
    rw [length_eq_zero_iff]
    exact ⟨rfl, rfl, rfl⟩
  rw [charges_eq twoTicks m twoTicks_inOrder]
  change [energyDelta cart (.ofSnapshot (m.snapshot 0)) (m.snapshot 1) (1 - 0) .multiplicative,
    energyDelta cart (.ofSnapshot (m.snapshot 1)) (m.snapshot 3) (3 - 1) .multiplicative] = _
  rw [sub_zero, energyDelta_cart one_pos ((hz 1).trans (hz 0).symm),
    energyDelta_cart hlast ((hz 3).trans (hz 1).symm)]
  simp only [Snapshot.speed, MovementModel.snapshot, hstands, hdrives 1 one_pos, hdrives 3 three_pos, hv, hstill,
    heading_of_vertical (a := ⟨0, 0, 0⟩) ⟨rfl, rfl⟩, angleDifference_self, hfree, mul_one]
  norm_num

/-- Off to the east the cart pays for its motion, off to the north for a quarter of a turn as well. -/
theorem north_costs_more :
    cart.validate = .ok () ∧ twoTicks.InOrder ∧
    twoTicks.charges 1 (.new 0 0) eastward = [50 / 3600, 0] ∧
    twoTicks.charges 1 (.new 0 0) (eastward.rotate (Real.pi / 2)) = [(50 + 5 * Real.pi) / 3600, 0] ∧
    twoTicks.charges 1 (.new 0 0) (eastward.rotate (Real.pi / 2)) ≠ twoTicks.charges 1 (.new 0 0) eastward := by
  have heast : twoTicks.charges 1 (.new 0 0) eastward = [50 / 3600, 0] := by
    rw [charges_driving_off (fun _ => rfl) eastward_stands (fun _ => eastward_drives) length_east, heading_east,
      angleDifference_self, curveEnergy, if_pos rfl, add_zero]
  have hstands : (eastward.rotate (Real.pi / 2)).velocity 0 = ⟨0, 0, 0⟩ := by
    simp [MovementModel.rotate, eastward_stands, Vec3.rotate]
  have hdrives : ∀ t, 0 < t → (eastward.rotate (Real.pi / 2)).velocity t = Vec3.rotate (Real.pi / 2) ⟨10, 0, 0⟩ :=
    fun t ht => congrArg (Vec3.rotate (Real.pi / 2)) (eastward_drives ht)
  have hnorth : twoTicks.charges 1 (.new 0 0) (eastward.rotate (Real.pi / 2)) = [(50 + 5 * Real.pi) / 3600, 0] := by
    rw [charges_driving_off (fun _ => rfl) hstands hdrives ((length_rotate _ _).trans length_east), heading_north,
      angleDifference_quarter, curveEnergy_quarter]
  refine ⟨cart_accepted, twoTicks_inOrder, heast, hnorth, ?_⟩
  rw [heast, hnorth]
  intro h
  have hpi := Real.pi_pos
  linarith [(List.cons.inj h).1]

end Tour

end FleetEnergy

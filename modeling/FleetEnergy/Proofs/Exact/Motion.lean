import FleetEnergy.Proofs.Exact.Scalar
import FleetEnergy.Proofs.Mobility.Underway
import FleetEnergy.Proofs.Vec3
import Mathlib.Analysis.Calculus.Deriv.Mul
import Mathlib.MeasureTheory.Integral.IntervalIntegral.Basic

/-! Position and velocity in exact arithmetic. They are two readings of the same legs, and where no command changes the
place the one is the integral of the other, whenever legs begin, end or are cut off. -/
namespace FleetEnergy
open MeasureTheory
set_option autoImplicit false

namespace Exact

theorem length_scale (a : Vec3 ℝ) {k : ℝ} (hk : 0 ≤ k) : (a.scale k).length = a.length * k := by
  have hsq : a.x * k * (a.x * k) + a.y * k * (a.y * k) + a.z * k * (a.z * k) =
      (a.x * a.x + a.y * a.y + a.z * a.z) * (k * k) := by ring
  change Real.sqrt (a.x * k * (a.x * k) + a.y * k * (a.y * k) + a.z * k * (a.z * k)) = Real.sqrt _ * k
  rw [hsq, Real.sqrt_mul' _ (mul_self_nonneg k), Real.sqrt_mul_self hk]

theorem distance_comm (a b : Vec3 ℝ) : a.distance b = (b - a).length := by
  change Real.sqrt ((a.x - b.x) * (a.x - b.x) + (a.y - b.y) * (a.y - b.y) + (a.z - b.z) * (a.z - b.z)) =
    Real.sqrt ((b.x - a.x) * (b.x - a.x) + (b.y - a.y) * (b.y - a.y) + (b.z - a.z) * (b.z - a.z))
  congr 1
  ring

theorem distance_pos {a b : Vec3 ℝ} (h : b ≠ a) : 0 < a.distance b := by
  refine lt_of_le_of_ne (length_nonneg _) fun hzero => h ?_
  obtain ⟨hx, hy, hz⟩ := (length_eq_zero_iff (a - b)).1 hzero.symm
  refine Vec3.ext_coordinates fun axis => (sub_eq_zero.1 ?_).symm
  cases axis with
  | x => exact hx
  | y => exact hy
  | z => exact hz

/-! ## Integrals -/

/-- The integral of `V` from `a` to `b` exists and is `d`. -/
def Sweeps (V : ℝ → ℝ) (a b d : ℝ) : Prop := IntervalIntegrable V volume a b ∧ ∫ u in a..b, V u = d

variable {V W : ℝ → ℝ} {a b c d e : ℝ}

theorem sweeps_const (a b v : ℝ) : Sweeps (fun _ => v) a b (v * (b - a)) := by
  refine ⟨intervalIntegrable_const, ?_⟩
  rw [intervalIntegral.integral_const, smul_eq_mul, mul_comm]

theorem Sweeps.congr (h : Sweeps V a b d) (hab : a ≤ b) (hsame : ∀ u, a ≤ u → u < b → W u = V u) : Sweeps W a b d := by
  have hon : Set.EqOn V W (Set.uIoo a b) := fun u hu => by
    rw [Set.uIoo_of_le hab] at hu
    exact (hsame u hu.1.le hu.2).symm
  exact ⟨h.1.congr_uIoo hon, (intervalIntegral.integral_congr_uIoo hon).symm.trans h.2⟩

theorem Sweeps.trans (h : Sweeps V a b d) (h' : Sweeps V b c e) : Sweeps V a c (d + e) :=
  ⟨h.1.trans h'.1, by rw [← intervalIntegral.integral_add_adjacent_intervals h.1 h'.1, h.2, h'.2]⟩

/-! ## One leg -/

open Itinerary

/-- A leg ends where its velocity leads to until its arrival. -/
structure Straight (leg : Leg ℝ) : Prop where
  forward : leg.startTime ≤ leg.arrivalTime
  finish : leg.finish = leg.start + leg.velocity.scale (leg.arrivalTime - leg.startTime)

variable {leg : Leg ℝ}

theorem Straight.positionAt (h : Straight leg) (u : ℝ) (axis : Axis) :
    (Leg.positionAt leg u).coordinate axis =
      leg.start.coordinate axis + leg.velocity.coordinate axis * (min u leg.arrivalTime - leg.startTime) := by
  unfold Leg.positionAt
  split_ifs with ha
  · rw [h.finish, Vec3.coordinate_add, Vec3.coordinate_scale, min_eq_right ha]
  · rw [Vec3.coordinate_add, Vec3.coordinate_scale, min_eq_left (not_le.1 ha).le]

theorem velocityAt_coordinate (leg : Leg ℝ) (u : ℝ) (axis : Axis) :
    (Leg.velocityAt leg u).coordinate axis = if u < leg.arrivalTime then leg.velocity.coordinate axis else 0 := by
  unfold Leg.velocityAt
  split_ifs
  · rfl
  · rw [Vec3.coordinate_zero, zero_lit]

theorem Straight.sweeps (h : Straight leg) (hab : a ≤ b) (axis : Axis) :
    Sweeps (fun u => (Leg.velocityAt leg u).coordinate axis) a b
      ((Leg.positionAt leg b).coordinate axis - (Leg.positionAt leg a).coordinate axis) := by
  -- Until the arrival the velocity is that of the leg, and from there on it is zero.
  have hdrive {a b : ℝ} (hab : a ≤ b) (hb : b ≤ leg.arrivalTime) :
      Sweeps (fun u => (Leg.velocityAt leg u).coordinate axis) a b (leg.velocity.coordinate axis * (b - a)) := by
    refine (sweeps_const a b _).congr hab fun u _ hu => ?_
    rw [velocityAt_coordinate, if_pos (hu.trans_le hb)]
  have hrest {a b : ℝ} (hab : a ≤ b) (ha : leg.arrivalTime ≤ a) :
      Sweeps (fun u => (Leg.velocityAt leg u).coordinate axis) a b (0 * (b - a)) := by
    refine (sweeps_const a b _).congr hab fun u hu _ => ?_
    rw [velocityAt_coordinate, if_neg (ha.trans hu).not_gt]
  rw [h.positionAt, h.positionAt]
  obtain hb | hb := le_total b leg.arrivalTime
  · convert hdrive hab hb using 1
    rw [min_eq_left hb, min_eq_left (hab.trans hb)]
    ring
  · obtain ha | ha := le_total a leg.arrivalTime
    · convert (hdrive ha le_rfl).trans (hrest hb le_rfl) using 1
      rw [min_eq_right hb, min_eq_left ha]
      ring
    · convert hrest hab ha using 1
      rw [min_eq_right hb, min_eq_right ha]
      ring

theorem Straight.continuous (h : Straight leg) (axis : Axis) :
    Continuous fun u => (Leg.positionAt leg u).coordinate axis := by
  simp only [h.positionAt]
  fun_prop

theorem Straight.hasDerivAt (h : Straight leg) {now : ℝ} (hnow : leg.arrivalTime ≠ now) (axis : Axis) :
    HasDerivAt (fun u => (Leg.positionAt leg u).coordinate axis) ((Leg.velocityAt leg now).coordinate axis) now := by
  simp only [h.positionAt, velocityAt_coordinate]
  obtain hlt | hlt := hnow.lt_or_gt
  · have hrest := (hasDerivAt_const now
      (leg.start.coordinate axis + leg.velocity.coordinate axis * (leg.arrivalTime - leg.startTime)))
    rw [if_neg hlt.not_gt]
    refine hrest.congr_of_eventuallyEq (Filter.eventuallyEq_of_mem (Ioi_mem_nhds hlt) fun u hu => ?_)
    rw [min_eq_right (le_of_lt hu)]
  · have hdrive := (((hasDerivAt_id now).sub_const leg.startTime).const_mul (leg.velocity.coordinate axis)).const_add
      (leg.start.coordinate axis)
    rw [mul_one] at hdrive
    rw [if_pos hlt]
    refine hdrive.congr_of_eventuallyEq (Filter.eventuallyEq_of_mem (Iio_mem_nhds hlt) fun u hu => ?_)
    rw [min_eq_left (le_of_lt hu)]
    rfl

/-! ## The legs of commands -/

variable {it start : Itinerary ℝ} {acc : List (MoveCommand ℝ)} {m : MoveCommand ℝ} {t now : ℝ}

theorem straight_placeLeg (it : Itinerary ℝ) (t : ℝ) (p : Vec3 ℝ) : Straight (it.placeLeg t p) := by
  rw [placeLeg_eq]
  refine ⟨?_, rfl⟩
  obtain hrun | hrest := underway_cases it t
  · exact hrun.le
  · rw [hrest]

/-- Either there is neither speed nor distance for a drive, or the leg leads to the destination. -/
theorem driveLeg_cases (it : Itinerary ℝ) (t x y speed : ℝ) :
    let here := it.position t
    let goal : Vec3 ℝ := ⟨x, y, here.z⟩
    (¬(0 < speed ∧ 0 < here.distance goal) ∧ it.driveLeg t x y speed = ⟨t, here, here, .zero, t⟩) ∨
      (0 < speed ∧ 0 < here.distance goal) ∧ it.driveLeg t x y speed =
        ⟨t, here, goal, (goal - here).scale (speed / here.distance goal), t + here.distance goal / speed⟩ := by
  intro here goal
  unfold driveLeg
  rw [zero_lit]
  by_cases hs : 0 < speed
  · by_cases hd : 0 < here.distance goal
    · right
      refine ⟨⟨hs, hd⟩, ?_⟩
      simp only [if_pos hs]
      exact if_pos (decide_eq_true hd)
    · left
      refine ⟨fun h => hd h.2, ?_⟩
      simp only [if_pos hs]
      exact if_neg (by simpa using hd)
  · left
    refine ⟨fun h => hs h.1, ?_⟩
    simp only [if_neg hs]
    rfl

theorem driveLeg_start (it : Itinerary ℝ) (t x y speed : ℝ) : (it.driveLeg t x y speed).start = it.position t := by
  obtain ⟨-, h⟩ | ⟨-, h⟩ := driveLeg_cases it t x y speed <;> rw [h]

theorem straight_driveLeg (it : Itinerary ℝ) (t x y speed : ℝ) : Straight (it.driveLeg t x y speed) := by
  obtain ⟨-, h⟩ | ⟨⟨hs, hd⟩, h⟩ := driveLeg_cases it t x y speed
  · rw [h]
    refine ⟨le_rfl, Vec3.ext_coordinates fun axis => ?_⟩
    rw [Vec3.coordinate_add, Vec3.coordinate_scale, Vec3.coordinate_zero, zero_lit, zero_mul, add_zero]
  · rw [h]
    refine ⟨le_add_of_nonneg_right (div_pos hd hs).le, Vec3.ext_coordinates fun axis => ?_⟩
    rw [Vec3.coordinate_add, Vec3.coordinate_scale, Vec3.coordinate_scale, Vec3.coordinate_sub]
    dsimp only
    rw [add_sub_cancel_left, mul_assoc, div_mul_div_cancel₀ hd.ne', div_self hs.ne', mul_one, add_sub_cancel]

theorem straight_of_leg? (h : m.leg? it = some leg) : Straight leg := by
  cases m with
  | setInitial p => cases h
  | setPosition t p =>
    cases h
    exact straight_placeLeg it t p
  | setDestination t x y speed =>
    cases h
    exact straight_driveLeg it t x y speed

theorem positionAt_start (h : m.leg? it = some leg) (ht : m.time? = some t) (hm : ∀ p, m ≠ .setPosition t p)
    (axis : Axis) :
    (Leg.positionAt leg t).coordinate axis = (it.position t).coordinate axis := by
  have hstraight := straight_of_leg? h
  have hstart := startTime_of_leg? ht h
  rw [hstraight.positionAt, min_eq_left (hstart ▸ hstraight.forward), hstart, sub_self, mul_zero, add_zero]
  cases m with
  | setInitial p => cases h
  | setPosition t' p =>
    cases ht
    exact absurd rfl (hm p)
  | setDestination t' x y speed =>
    cases ht
    cases h
    rw [driveLeg_start]

/-! ## A course -/

theorem ordered_stay (p : Vec3 ℝ) : (Itinerary.stay p).Ordered := ⟨by simp [Itinerary.stay], by simp [Itinerary.stay]⟩

theorem stay_shown (p : Vec3 ℝ) (u : ℝ) :
    (Itinerary.stay p).position u = p ∧ (Itinerary.stay p).velocity u = .zero := by
  have hnone : (Itinerary.stay p).legAt u = none := by rw [(ordered_stay p).legAt trivial]; rfl
  unfold Itinerary.position Itinerary.velocity
  rw [hnone]
  exact ⟨rfl, rfl⟩

structure Extends (it : Itinerary ℝ) (leg : Leg ℝ) (it' : Itinerary ℝ) : Prop where
  before : ∀ u, u < leg.startTime → it'.position u = it.position u ∧ it'.velocity u = it.velocity u
  from_start : ∀ u, leg.startTime ≤ u → it'.position u = Leg.positionAt leg u ∧ it'.velocity u = Leg.velocityAt leg u

theorem extends_addLeg (h : it.Ordered) (hl : it.isLate leg.startTime = false) : Extends it leg (it.addLeg leg) :=
  ⟨fun _ hu => h.shown_before trivial hl trivial hu.not_ge, fun _ hu => h.shown_from trivial hl trivial hu⟩

variable {home : Vec3 ℝ}

/-- Where no command changes the place, the way is the integral of the velocity. -/
theorem sweeps_velocity (h : Course (.stay home) acc it) (hab : a ≤ b)
    (hno : ∀ t p, .setPosition t p ∈ acc → ¬(a < t ∧ t ≤ b)) (axis : Axis) :
    Sweeps (fun u => (it.velocity u).coordinate axis) a b
      ((it.position b).coordinate axis - (it.position a).coordinate axis) := by
  induction h generalizing a b with
  | outset =>
    have hzero : (0 : ℝ) * (b - a) = home.coordinate axis - home.coordinate axis := by rw [zero_mul, sub_self]
    rw [(stay_shown home a).1, (stay_shown home b).1, ← hzero]
    refine (sweeps_const a b 0).congr hab fun u _ _ => ?_
    rw [(stay_shown home u).2, Vec3.coordinate_zero, zero_lit]
  | @next acc it m t leg hcourse ht _ hl hleg hstart ih =>
    subst hstart
    have hext := extends_addLeg (hcourse.ordered (ordered_stay home)) hl
    -- The new leg covers the end of the interval, the course before it the beginning.
    have hearly {a b : ℝ} (hab : a ≤ b) (hb : b ≤ leg.startTime)
        (hno : ∀ t p, .setPosition t p ∈ acc → ¬(a < t ∧ t ≤ b)) :
        Sweeps (fun u => ((it.addLeg leg).velocity u).coordinate axis) a b
          ((it.position b).coordinate axis - (it.position a).coordinate axis) :=
      (ih hab hno).congr hab fun u _ hu => by rw [(hext.before u (hu.trans_le hb)).2]
    have hlate {a b : ℝ} (hab : a ≤ b) (ha : leg.startTime ≤ a) :
        Sweeps (fun u => ((it.addLeg leg).velocity u).coordinate axis) a b
          ((Leg.positionAt leg b).coordinate axis - (Leg.positionAt leg a).coordinate axis) :=
      ((straight_of_leg? hleg).sweeps hab axis).congr hab fun u hu _ => by rw [(hext.from_start u (ha.trans hu)).2]
    have hold (t : ℝ) (p : Vec3 ℝ) (hp : .setPosition t p ∈ acc) := hno t p (List.mem_append_left _ hp)
    obtain hb | hb := lt_or_ge b leg.startTime
    · rw [(hext.before b hb).1, (hext.before a (hab.trans_lt hb)).1]
      exact hearly hab hb.le hold
    · rw [(hext.from_start b hb).1]
      obtain ha | ha := lt_or_ge a leg.startTime
      · have hm : ∀ p, m ≠ .setPosition leg.startTime p := fun p hp =>
          hno leg.startTime p (by simp [hp]) ⟨ha, hb⟩
        have hjoin := (hearly ha.le le_rfl fun t p hp h => hold t p hp ⟨h.1, h.2.trans hb⟩).trans (hlate hb le_rfl)
        rw [positionAt_start hleg ht hm] at hjoin
        rw [(hext.before a ha).1]
        convert hjoin using 1
        ring
      · rw [(hext.from_start a ha).1]
        exact hlate hab ha

theorem continuousAt_position (h : Course (.stay home) acc it) (hno : ∀ p, .setPosition now p ∉ acc) (axis : Axis) :
    ContinuousAt (fun u => (it.position u).coordinate axis) now := by
  induction h with
  | outset =>
    have hconst : (fun u => ((Itinerary.stay home).position u).coordinate axis) = fun _ => home.coordinate axis :=
      funext fun u => by rw [(stay_shown home u).1]
    rw [hconst]
    exact continuousAt_const
  | @next acc it m t leg hcourse ht _ hl hleg hstart ih =>
    subst hstart
    have hext := extends_addLeg (hcourse.ordered (ordered_stay home)) hl
    have hbefore := ih fun p hp => hno p (List.mem_append_left _ hp)
    have hleg' := (straight_of_leg? hleg).continuous axis
    obtain hnow | rfl | hnow := lt_trichotomy now leg.startTime
    · refine hbefore.congr (Filter.eventuallyEq_of_mem (Iio_mem_nhds hnow) fun u hu => ?_)
      rw [(hext.before u hu).1]
    · -- The leg begins where the vehicle came to.
      have hjoin := positionAt_start hleg ht (fun p hp => hno p (by simp [hp])) axis
      have hat := (hext.from_start _ le_rfl).1
      refine continuousAt_iff_continuous_left_right.2 ⟨hbefore.continuousWithinAt.congr (fun u hu => ?_) ?_,
        hleg'.continuousAt.continuousWithinAt.congr (fun u hu => ?_) ?_⟩
      · obtain hlt | rfl := lt_or_eq_of_le (Set.mem_Iic.1 hu)
        · rw [(hext.before u hlt).1]
        · rw [hat, hjoin]
      · rw [hat, hjoin]
      · rw [(hext.from_start u hu).1]
      · rw [hat]
    · refine hleg'.continuousAt.congr (Filter.eventuallyEq_of_mem (Ioi_mem_nhds hnow) fun u hu => ?_)
      rw [(hext.from_start u (le_of_lt hu)).1]

/-- Between commands and arrivals the velocity is the slope of the position. -/
theorem hasDerivAt_position (h : Course (.stay home) acc it) (hcommand : ∀ c ∈ acc, c.time? ≠ some now)
    (harrival : ∀ leg, it.legAt now = some leg → leg.arrivalTime ≠ now) (axis : Axis) :
    HasDerivAt (fun u => (it.position u).coordinate axis) ((it.velocity now).coordinate axis) now := by
  induction h with
  | outset =>
    have hconst : (fun u => ((Itinerary.stay home).position u).coordinate axis) = fun _ => home.coordinate axis :=
      funext fun u => by rw [(stay_shown home u).1]
    rw [hconst, (stay_shown home now).2, Vec3.coordinate_zero, zero_lit]
    exact hasDerivAt_const now _
  | @next acc it m t leg hcourse ht _ hl hleg hstart ih =>
    subst hstart
    have hordered := hcourse.ordered (ordered_stay home)
    have hext := extends_addLeg hordered hl
    have hne : leg.startTime ≠ now := fun h => hcommand m (by simp) (h ▸ ht)
    obtain hnow | hnow := hne.lt_or_gt
    · have hd := (straight_of_leg? hleg).hasDerivAt (harrival leg (hordered.legAt_from trivial hl trivial hnow.le)) axis
      rw [(hext.from_start now hnow.le).2]
      refine hd.congr_of_eventuallyEq (Filter.eventuallyEq_of_mem (Ioi_mem_nhds hnow) fun u hu => ?_)
      rw [(hext.from_start u (le_of_lt hu)).1]
    · have hd := ih (fun c hc => hcommand c (List.mem_append_left _ hc)) fun leg' hleg' =>
        harrival leg' ((hordered.legAt_before trivial hl trivial hnow.not_ge).trans hleg')
      rw [(hext.before now hnow).2]
      refine hd.congr_of_eventuallyEq (Filter.eventuallyEq_of_mem (Iio_mem_nhds hnow) fun u hu => ?_)
      rw [(hext.before u hu).1]

/-! ## A drive and what comes after it -/

theorem le_of_timely {last : ℝ} (hl : it.isLate t = false) (hlast : it.lastCommandTime = some last) : last ≤ t := by
  rw [isLate, hlast] at hl
  exact not_lt.1 (of_decide_eq_false hl)

theorem le_lastCommandTime (h : Course start acc it) (hlast : start.lastCommandTime = some t) :
    ∃ last, it.lastCommandTime = some last ∧ t ≤ last := by
  induction h with
  | outset => exact ⟨t, hlast, le_rfl⟩
  | @next acc it m u leg _ _ _ hl _ hstart ih =>
    obtain ⟨last, hit, hle⟩ := ih
    exact ⟨u, by rw [lastCommandTime_addLeg, hstart], hle.trans (le_of_timely hl hit)⟩

/-- Changes of place leave a vehicle under way until it arrives or is sent elsewhere. -/
theorem underway_after (h : Course start acc it) (hstart : start.Ordered) (hlast : start.lastCommandTime = some t)
    {v : Vec3 ℝ} {arrival : ℝ}
    (hdrive : ∀ u, t ≤ u → start.underway u = if u < arrival then (v, arrival) else (.zero, u)) (hnow : t ≤ now)
    (hno : ∀ t' x y speed, .setDestination t' x y speed ∈ acc → now < t') :
    it.underway now = if now < arrival then (v, arrival) else (.zero, now) := by
  induction h generalizing now with
  | outset => exact hdrive now hnow
  | @next acc it m t' leg hcourse ht _ hl hleg hbegin ih =>
    subst hbegin
    have hordered := hcourse.ordered hstart
    have hold (u x y speed : ℝ) (hu : .setDestination u x y speed ∈ acc) := hno u x y speed (List.mem_append_left _ hu)
    obtain hbefore | hfrom := lt_or_ge now leg.startTime
    · have hsame : (it.addLeg leg).legAt now = it.legAt now :=
        hordered.legAt_before trivial hl trivial hbefore.not_ge
      rw [underway, hsame]
      exact ih hnow hold
    · have hat : (it.addLeg leg).legAt now = some leg := hordered.legAt_from trivial hl trivial hfrom
      cases m with
      | setInitial p => cases ht
      | setDestination u x y speed =>
        cases ht
        exact absurd (hno _ x y speed (by simp)) hfrom.not_gt
      | setPosition u p =>
        -- A change of place takes over what is under way at its time.
        cases hleg
        obtain ⟨last, hit, hle⟩ := le_lastCommandTime hcourse hlast
        have hu : t ≤ u := hle.trans (le_of_timely hl hit)
        have hbefore := ih hu fun u' x y speed hu' => hfrom.trans_lt (hold u' x y speed hu')
        rw [underway, hat]
        dsimp only
        rw [placeLeg_eq, hbefore]
        have hpast : ¬now < u := not_lt.2 hfrom
        by_cases hrun : u < arrival
        · simp only [if_pos hrun]
        · have harrived : ¬now < arrival := fun hlt => hrun (lt_of_le_of_lt hfrom hlt)
          simp only [if_neg hrun, if_neg hpast, if_neg harrived]

/-- A drive that leads somewhere: until the arrival its velocity counts, and at the arrival it is at its goal. -/
theorem drive_shown (h : it.Ordered) (hl : it.isLate t = false) {x y speed : ℝ} (hs : 0 < speed)
    (hd : 0 < (it.position t).distance ⟨x, y, (it.position t).z⟩) :
    let goal : Vec3 ℝ := ⟨x, y, (it.position t).z⟩
    let distance := (it.position t).distance goal
    let driven := it.setDestination t x y speed
    driven.Ordered ∧ driven.lastCommandTime = some t ∧
      (∀ u, t ≤ u → driven.underway u =
        if u < t + distance / speed then ((goal - it.position t).scale (speed / distance), t + distance / speed)
        else (.zero, u)) ∧
      ∀ u, t + distance / speed ≤ u → driven.position u = goal ∧ driven.velocity u = .zero := by
  intro goal distance driven
  have hleg := ((driveLeg_cases it t x y speed).resolve_left fun hno => hno.1 ⟨hs, hd⟩).2
  obtain ⟨leg, hadds, hstart, hfinish, hvelocity, harrival⟩ : ∃ leg, driven = it.addLeg leg ∧ leg.startTime = t ∧
      leg.finish = goal ∧ leg.velocity = (goal - it.position t).scale (speed / distance) ∧
      leg.arrivalTime = t + distance / speed := by
    refine ⟨it.driveLeg t x y speed, ?_, by rw [hleg], by rw [hleg], by rw [hleg], by rw [hleg]⟩
    exact if_neg (by rw [hl]; exact Bool.false_ne_true)
  have hl' : it.isLate leg.startTime = false := hstart.symm ▸ hl
  rw [hadds]
  refine ⟨h.addLeg trivial hl', by rw [lastCommandTime_addLeg, hstart], fun u hu => ?_, fun u hu => ?_⟩
  · have hat : (it.addLeg leg).legAt u = some leg := h.legAt_from trivial hl' trivial (hstart.symm ▸ hu)
    rw [← hvelocity, ← harrival]
    split_ifs with hrun
    · exact underway_of_running hat hrun
    · exact underway_of_arrived hat hrun
  · have htu : t ≤ u := (le_add_of_nonneg_right (div_pos hd hs).le).trans hu
    obtain ⟨hposition, hrest⟩ := (extends_addLeg h hl').from_start u (hstart.symm ▸ htu)
    rw [hposition, hrest, Leg.positionAt, Leg.velocityAt, harrival, hfinish, if_pos hu, if_neg hu.not_gt]
    exact ⟨rfl, rfl⟩

theorem start_stays (home : Vec3 ℝ) (ps : List (Vec3 ℝ)) :
    ∃ p, (ps.map MoveCommand.setInitial).foldl apply (.stay home) = .stay p := by
  induction ps generalizing home with
  | nil => exact ⟨home, rfl⟩
  | cons p ps ih => exact ih p

/-- Of a vehicle that is put somewhere and then given any timed commands, the way between two times is the integral of
the velocity if no command changes the place in between; the position is continuous except at such a command, and the
velocity is its slope except at commands and arrivals. Sent somewhere with a speed, the vehicle has exactly that speed
until it arrives or is sent elsewhere, and from its arrival to the next command it rests at its destination. -/
theorem way_is_integral_of_velocity (home : Vec3 ℝ) (ps : List (Vec3 ℝ)) (cs : List (MoveCommand ℝ))
    (hcs : ∀ c ∈ cs, c.time?.isSome = true) :
    let start := (ps.map MoveCommand.setInitial).foldl apply (.stay home)
    let it := cs.foldl apply start
    (∀ a b, a ≤ b → (∀ t p, .setPosition t p ∈ accepted start cs → ¬(a < t ∧ t ≤ b)) → ∀ axis,
      Sweeps (fun u => (it.velocity u).coordinate axis) a b
        ((it.position b).coordinate axis - (it.position a).coordinate axis)) ∧
    (∀ now, (∀ p, .setPosition now p ∉ accepted start cs) → ∀ axis,
      ContinuousAt (fun u => (it.position u).coordinate axis) now) ∧
    (∀ now, (∀ c ∈ accepted start cs, c.time? ≠ some now) →
      (∀ leg, it.legAt now = some leg → leg.arrivalTime ≠ now) → ∀ axis,
      HasDerivAt (fun u => (it.position u).coordinate axis) ((it.velocity now).coordinate axis) now) ∧
    ∀ before after t x y speed, cs = before ++ .setDestination t x y speed :: after →
      let here := before.foldl apply start
      let goal : Vec3 ℝ := ⟨x, y, (here.position t).z⟩
      let arrival := t + (here.position t).distance goal / speed
      let later := accepted (here.setDestination t x y speed) after
      here.isLate t = false → 0 < speed → goal ≠ here.position t →
      (∀ now, t ≤ now → (∀ t' x' y' speed', .setDestination t' x' y' speed' ∈ later → now < t') →
        (it.velocity now).length = if now < arrival then speed else 0) ∧
      ∀ now, arrival ≤ now → (∀ c ∈ later, ∀ t', c.time? = some t' → now < t') →
        it.position now = goal ∧ it.velocity now = .zero := by
  intro start it
  obtain ⟨place, hplace⟩ : ∃ p, start = .stay p := start_stays home ps
  have htimed {cs : List (MoveCommand ℝ)} (hcs : ∀ c ∈ cs, c.time?.isSome = true) (from' : Itinerary ℝ) :
      Course from' (accepted from' cs) (cs.foldl apply from') :=
    course_accepted from' cs fun c hc => (Option.isSome_iff_exists.1 (hcs c hc)).imp fun _ ht => ⟨ht, trivial⟩
  have hcourse : Course (.stay place) (accepted start cs) it := hplace ▸ htimed hcs start
  refine ⟨fun a b hab hno => sweeps_velocity hcourse hab hno, fun now hno => continuousAt_position hcourse hno,
    fun now hcommand harrival => hasDerivAt_position hcourse hcommand harrival, ?_⟩
  rintro before after t x y speed rfl here goal arrival later hl hs hgoal
  have hordered : here.Ordered := by
    have hbefore := htimed (fun c hc => hcs c (List.mem_append_left _ hc)) start
    exact hbefore.ordered (hplace ▸ ordered_stay place)
  have hd := distance_pos hgoal
  obtain ⟨hdriven, hlast, hunderway, hrest⟩ := drive_shown hordered hl hs hd
  have hlater : Course (here.setDestination t x y speed) later it := by
    have hafter := htimed (fun c hc => hcs c (List.mem_append_right _ (List.mem_cons_of_mem _ hc)))
      (here.setDestination t x y speed)
    have hit : it = after.foldl apply (here.setDestination t x y speed) := List.foldl_append
    rwa [hit]
  refine ⟨fun now hnow hno => ?_, fun now hnow hno => ?_⟩
  · rw [velocity_eq_underway, underway_after hlater hdriven hlast hunderway hnow hno]
    split_ifs
    · rw [length_scale _ (div_pos hs hd).le, ← distance_comm, mul_div_cancel₀ _ hd.ne']
    · exact (length_eq_zero_iff _).2 ⟨zero_lit, zero_lit, zero_lit⟩
  · have hshown := hlater.shown_start hdriven trivial fun c hc t' ht' => (hno c hc t' ht').not_ge
    rw [hshown.1, hshown.2]
    exact hrest now hnow

/-- A drive of fifty metres in five seconds. -/
theorem errand_way :
    (∀ c ∈ ([.setDestination 2 30 40 10] : List (MoveCommand ℝ)), c.time?.isSome = true) ∧
      let it := [.setDestination 2 30 40 10].foldl apply (.stay (⟨0, 0, 5⟩ : Vec3 ℝ))
      (∀ a b, a ≤ b → ∀ axis, Sweeps (fun u => (it.velocity u).coordinate axis) a b
        ((it.position b).coordinate axis - (it.position a).coordinate axis)) ∧
      (∀ now, 2 ≤ now → now < 7 → (it.velocity now).length = 10) ∧
      ∀ now, 7 ≤ now → it.position now = ⟨30, 40, 5⟩ ∧ it.velocity now = .zero := by
  have htimed : ∀ c ∈ ([.setDestination 2 30 40 10] : List (MoveCommand ℝ)), c.time?.isSome = true := by
    simp [MoveCommand.time?]
  obtain ⟨hway, -, -, hdrive⟩ := way_is_integral_of_velocity ⟨0, 0, 5⟩ [] [.setDestination 2 30 40 10] htimed
  have hdistance : (⟨0, 0, 5⟩ : Vec3 ℝ).distance ⟨30, 40, 5⟩ = 50 := by
    change Real.sqrt ((0 - 30) * (0 - 30) + (0 - 40) * (0 - 40) + (5 - 5) * (5 - 5)) = 50
    rw [show ((0 : ℝ) - 30) * (0 - 30) + (0 - 40) * (0 - 40) + (5 - 5) * (5 - 5) = 50 * 50 by norm_num]
    exact Real.sqrt_mul_self (by norm_num)
  have harrival : (2 : ℝ) + 50 / 10 = 7 := by norm_num
  have hdrive := hdrive [] [] 2 30 40 10 rfl
  simp only [List.map_nil, List.foldl_nil, (stay_shown _ _).1, accepted, hdistance, harrival, List.not_mem_nil]
    at hdrive
  obtain ⟨hspeed, hrest⟩ := hdrive rfl (by norm_num) (by simp)
  refine ⟨htimed, fun a b hab => hway a b hab ?_, fun now hfrom hto => ?_,
    fun now hnow => hrest now hnow fun _ h => h.elim⟩
  · simp [accepted]
  · exact (hspeed now hfrom fun _ _ _ _ h => h.elim).trans (if_pos hto)

end Exact

end FleetEnergy

import FleetEnergy.Proofs.Binary64.Monotone
import FleetEnergy.Proofs.Mobility.RandomMovement
import FleetEnergy.Proofs.Random

/-! The way of a vehicle that moves at random. It starts at time zero where the vehicle is, each leg starts where the one
before it ended and after the pause, and no leg leaves the area; the clock of the journey and its legs keep together at
every step, so that no leg is cut off and no command comes late. -/
namespace FleetEnergy
open Binary64
set_option autoImplicit false

namespace Itinerary

/-- Where the vehicle is when its last leg is over. -/
def whereabouts (it : Itinerary Float) : Vec3 Float := (it.legs.toList.getLast?.map Leg.finish).getD it.initial

/-- No leg is under way at a time, and those that there were came in order. -/
structure AtRest (it : Itinerary Float) (t : Float) : Prop where
  defined : ∀ leg ∈ it.legs.toList, leg.startTime.isNaN = false ∧ leg.arrivalTime.isNaN = false
  onward : ∀ leg ∈ it.legs.toList, leg.startTime ≤ leg.arrivalTime
  sorted : it.legs.toList.Pairwise fun a b => a.startTime ≤ b.startTime
  arrived : ∀ leg ∈ it.legs.toList, leg.arrivalTime ≤ t

namespace AtRest

variable {it : Itinerary Float} {t : Float}

theorem started (h : it.AtRest t) (ht : t.isNaN = false) : ∀ leg ∈ it.legs.toList, leg.startTime ≤ t := by
  intro leg hleg
  obtain ⟨hs, ha⟩ := h.defined leg hleg
  exact OrderedScalar.le_trans hs ha ht (h.onward leg hleg) (h.arrived leg hleg)

theorem ordered (h : it.AtRest t) : it.Ordered := ⟨fun leg hleg => (h.defined leg hleg).1, h.sorted⟩

theorem position (h : it.AtRest t) (ht : t.isNaN = false) : it.position t = it.whereabouts := by
  have hall : it.legs.toList.filter (Itinerary.started t) = it.legs.toList :=
    List.filter_eq_self.2 fun leg hleg => decide_eq_true (h.started ht leg hleg)
  unfold Itinerary.position whereabouts
  rw [h.ordered.legAt ht, hall]
  cases hlast : it.legs.toList.getLast? with
  | none => rfl
  | some leg => exact if_pos (h.arrived leg (List.mem_of_getLast? hlast))

theorem isLate (h : it.AtRest t) (ht : t.isNaN = false) : it.isLate t = false := by
  unfold Itinerary.isLate lastCommandTime
  rw [← Array.getLast?_toList]
  cases hlast : it.legs.toList.getLast? with
  | none => rfl
  | some leg =>
    have hleg := List.mem_of_getLast? hlast
    exact decide_eq_false ((not_lt_iff_le ht (h.defined leg hleg).1).2 (h.started ht leg hleg))

/-- A leg that starts at rest is behind the others. -/
theorem addLeg (h : it.AtRest t) (ht : t.isNaN = false) {leg : Leg Float} (hs : leg.startTime = t)
    (ha : leg.arrivalTime.isNaN = false) (hon : t ≤ leg.arrivalTime) {t' : Float} (ht' : t'.isNaN = false)
    (hle : leg.arrivalTime ≤ t') : (it.addLeg leg).AtRest t' := by
  have hmem : ∀ a ∈ (it.addLeg leg).legs.toList, a ∈ it.legs.toList ∨ a = leg := fun a hin => by
    rwa [toList_addLeg, List.mem_append, List.mem_singleton] at hin
  refine ⟨fun a hin => ?_, fun a hin => ?_, ?_, fun a hin => ?_⟩
  · obtain hold | rfl := hmem a hin
    · exact h.defined a hold
    · exact ⟨hs ▸ ht, ha⟩
  · obtain hold | rfl := hmem a hin
    · exact h.onward a hold
    · exact hs.symm ▸ hon
  · rw [toList_addLeg]
    refine List.pairwise_append.2 ⟨h.sorted, List.pairwise_singleton _ _, fun a hin b hb => ?_⟩
    obtain rfl := List.mem_singleton.1 hb
    exact hs.symm ▸ h.started ht a hin
  · obtain hold | rfl := hmem a hin
    · obtain ⟨-, had⟩ := h.defined a hold
      exact OrderedScalar.le_trans had ht ht' (h.arrived a hold) (OrderedScalar.le_trans ht ha ht' hon hle)
    · exact hle

end AtRest

/-- A drive leads to its destination at the height of the start, or it is a rest. -/
theorem driveLeg_cases (it : Itinerary Float) (t x y speed : Float) :
    let leg := it.driveLeg t x y speed
    leg.startTime = t ∧ leg.start = it.position t ∧
      ((leg.finish = it.position t ∧ leg.arrivalTime = t) ∨
        (leg.finish = ⟨x, y, (it.position t).z⟩ ∧ ∃ d : Float, 0.0 < d ∧ leg.arrivalTime = t + d / speed)) := by
  intro leg
  unfold leg driveLeg
  by_cases hspeed : (0.0 : Float) < speed
  · by_cases hdistance : (0.0 : Float) < (it.position t).distance ⟨x, y, (it.position t).z⟩
    · simp only [if_pos hspeed, decide_eq_true hdistance, if_true]
      exact ⟨trivial, trivial, .inr ⟨trivial, _, hdistance, rfl⟩⟩
    · simp only [if_pos hspeed, decide_eq_false hdistance]
      exact ⟨rfl, rfl, .inl ⟨rfl, rfl⟩⟩
  · simp only [if_neg hspeed]
    exact ⟨rfl, rfl, .inl ⟨rfl, rfl⟩⟩

end Itinerary

namespace RandomMovement

variable {c : RandomMovement} {T : Float}

/-! ## Drawing -/

/-- The bounds between which numbers are drawn. -/
structure Bounded (c : RandomMovement) : Prop where
  width : (0.0 : Float) ≤ c.width
  widthFinite : c.width.isFinite = true
  height : (0.0 : Float) ≤ c.height
  heightFinite : c.height.isFinite = true
  slowest : (0.0 : Float) < c.minSpeed
  speeds : c.minSpeed ≤ c.maxSpeed
  fastest : c.maxSpeed.isFinite = true

theorem le_of_positiveFinite {x : Float} (h : positiveFinite x = true) : 0.0 ≤ x ∧ x.isFinite = true := by
  unfold positiveFinite at h
  rw [Bool.and_eq_true, decide_eq_true_eq] at h
  obtain ⟨hpos, hfin⟩ := h
  have hn : x.isNaN = false := isNaN_of_isFinite hfin
  exact ⟨(le_iff_units rfl hn).2 ((lt_iff_units rfl hn).1 hpos).le, hfin⟩

theorem validate_cases (h : c.validate = .ok ()) :
    (positiveFinite c.width = true ∧ positiveFinite c.height = true) ∧
    (0.0 < c.minSpeed ∧ c.minSpeed ≤ c.maxSpeed) ∧ c.maxSpeed.isFinite = true := by
  unfold validate at h
  split_ifs at h with harea hspeeds hpause
  simp only [Bool.or_eq_true, Bool.not_eq_true', decide_eq_false_iff_not, not_or, not_not, Bool.not_eq_false]
    at harea hspeeds
  exact ⟨harea, hspeeds⟩

theorem bounded_of_validate (h : c.validate = .ok ()) : c.Bounded := by
  obtain ⟨⟨hwidth, hheight⟩, ⟨hslow, hle⟩, hfast⟩ := validate_cases h
  obtain ⟨hw, hwf⟩ := le_of_positiveFinite hwidth
  obtain ⟨hh, hhf⟩ := le_of_positiveFinite hheight
  exact ⟨hw, hwf, hh, hhf, hslow, hle, hfast⟩

namespace Bounded

variable (hb : c.Bounded)
include hb

theorem speed_finite {speed : Float} (hn : speed.isNaN = false) (hlo : c.minSpeed ≤ speed) (hhi : speed ≤ c.maxSpeed) :
    speed.isFinite = true ∧ 0 < unitsOf speed := by
  obtain ⟨hmin, hpos⟩ := pos_units hb.slowest
  have hmaxn : c.maxSpeed.isNaN = false := isNaN_of_isFinite hb.fastest
  have hmax := ((isFinite_iff_units hmaxn).1 hb.fastest).2
  rw [le_iff_units hmin hn] at hlo
  rw [le_iff_units hn hmaxn] at hhi
  have hl := limit_pos
  exact ⟨(isFinite_iff_units hn).2 ⟨by omega, by omega⟩, by omega⟩

/-- The speeds lie a finite way apart, since the slowest one is above zero. -/
theorem speedRange_finite : (c.maxSpeed - c.minSpeed).isFinite = true := by
  obtain ⟨hmin, hpos⟩ := pos_units hb.slowest
  have hmaxn : c.maxSpeed.isNaN = false := isNaN_of_isFinite hb.fastest
  have hle := (le_iff_units hmin hmaxn).1 hb.speeds
  have hmax := ((isFinite_iff_units hmaxn).1 hb.fastest).2
  obtain ⟨hminf, -⟩ := hb.speed_finite hmin ((le_iff_units hmin hmin).2 le_rfl) hb.speeds
  obtain ⟨hn, hu⟩ := sub_finite hb.fastest hminf
  have hupper : unitsOf (c.maxSpeed - c.minSpeed) ≤ unitsOf c.maxSpeed := by
    calc unitsOf (c.maxSpeed - c.minSpeed) = clamped (roundInt (unitsOf c.maxSpeed - unitsOf c.minSpeed)) := hu
      _ ≤ clamped (roundInt (unitsOf c.maxSpeed)) := clamped_mono (roundInt_mono ((sub_le_self_iff _).2 hpos.le))
      _ = unitsOf c.maxSpeed := (inRange_reading c.maxSpeed).clamped_roundInt hb.fastest
  have hlower : 0 ≤ unitsOf (c.maxSpeed - c.minSpeed) := by
    rw [hu]
    exact clamped_nonneg ((roundInt_mono (y := 0) (by omega)))
  have hl := limit_pos
  exact (isFinite_iff_units hn).2 ⟨by omega, by omega⟩

theorem drawPoint_isSome (g : Random.Generator) : ∃ x y g', drawPoint c g = some ((x, y), g') := by
  have hw : (c.width - 0.0).isFinite = true := by
    rw [sub_zero]
    exact hb.widthFinite
  have hh : (c.height - 0.0).isFinite = true := by
    rw [sub_zero]
    exact hb.heightFinite
  obtain ⟨x, hx⟩ := Random.between_isSome hb.width hw g
  obtain ⟨y, hy⟩ := Random.between_isSome hb.height hh (Random.next g).2
  exact ⟨x, y, _, by rw [drawPoint, hx]; dsimp only; rw [hy]⟩

theorem nextLeg_isSome (j : Journey) : ∃ j', nextLeg c j = some j' := by
  obtain ⟨x, y, g, hpoint⟩ := hb.drawPoint_isSome j.generator
  obtain ⟨speed, hspeed⟩ := Random.between_isSome hb.speeds hb.speedRange_finite g
  exact ⟨_, by rw [nextLeg, hpoint]; dsimp only; rw [hspeed]⟩

end Bounded

/-- A point of the ground within the area. -/
structure InArea (c : RandomMovement) (p : Vec3 Float) : Prop where
  left : 0.0 ≤ p.x
  right : p.x ≤ c.width
  lower : 0.0 ≤ p.y
  upper : p.y ≤ c.height
  ground : p.z = 0.0

theorem drawPoint_inArea {x y : Float} {g g' : Random.Generator} (h : drawPoint c g = some ((x, y), g')) :
    c.InArea ⟨x, y, 0.0⟩ := by
  unfold drawPoint at h
  split at h
  · cases h
  · rename_i x' g₁ hx
    split at h
    · cases h
    · rename_i y' g₂ hy
      cases h
      obtain ⟨-, hx0, hx1⟩ := Random.between_bounds hx
      obtain ⟨-, hy0, hy1⟩ := Random.between_bounds hy
      exact ⟨hx0, hx1, hy0, hy1, rfl⟩

/-- The leg that is drawn leads to a point of the area, with a speed between the bounds. -/
theorem nextLeg_drawn {j j' : Journey} (h : nextLeg c j = some j') :
    ∃ x y speed, c.InArea ⟨x, y, 0.0⟩ ∧ (speed.isNaN = false ∧ c.minSpeed ≤ speed ∧ speed ≤ c.maxSpeed) ∧
      j'.itinerary = j.itinerary.setDestination j.time x y speed ∧
      j'.time = departure j'.itinerary j.time c.pauseTime := by
  unfold nextLeg at h
  split at h
  · cases h
  · rename_i x y g hpoint
    split at h
    · cases h
    · rename_i speed g' hspeed
      cases h
      exact ⟨x, y, speed, drawPoint_inArea hpoint, Random.between_bounds hspeed, rfl, rfl⟩

/-! ## Departing -/

theorem departure_addLeg (it : Itinerary Float) (leg : Leg Float) (t pause : Float) :
    departure (it.addLeg leg) t pause = (if t < leg.arrivalTime then leg.arrivalTime else t + 1.0) + pause := by
  have hrest : (it.addLeg leg).restTime = some leg.arrivalTime := by
    unfold Itinerary.restTime
    rw [← Array.getLast?_toList, Itinerary.toList_addLeg, List.getLast?_concat, Option.map_some]
  rw [departure_eq, hrest, Option.getD_some]

/-- The vehicle departs after it has arrived and paused. -/
theorem departure_rested (hc : c.Admitted) (it : Itinerary Float) {leg : Leg Float} {t : Float}
    (ht : t.isFinite = true) (ht0 : 0 ≤ unitsOf t) (ha : leg.arrivalTime.isNaN = false)
    (hon : unitsOf t ≤ unitsOf leg.arrivalTime) :
    leg.arrivalTime ≤ departure (it.addLeg leg) t c.pauseTime ∧
      leg.arrivalTime + c.pauseTime ≤ departure (it.addLeg leg) t c.pauseTime := by
  have htn : t.isNaN = false := isNaN_of_isFinite ht
  obtain ⟨hdn, -⟩ := departure_bounds hc (it.addLeg leg) ht
  rw [departure_addLeg] at hdn ⊢
  have hle : unitsOf leg.arrivalTime ≤ unitsOf (if t < leg.arrivalTime then leg.arrivalTime else t + 1.0) := by
    split_ifs with hlt
    · exact le_rfl
    · obtain ⟨-, hup⟩ := le_add (y := 1.0) ht rfl (by decide)
      exact ((le_iff_units ha htn).1 ((not_lt_iff_le htn ha).1 hlt)).trans hup
  obtain ⟨hrn, hrest⟩ := le_add_of_nonneg ha (ht0.trans hon) hc.defined hc.nonneg
  have hmono := add_mono hrn hdn hle le_rfl
  exact ⟨(le_iff_units ha hdn).2 (hrest.trans hmono), (le_iff_units hrn hdn).2 hmono⟩

/-! ## On the way -/

/-- The next leg starts where and after this one is over and the vehicle has paused. -/
structure Follows (c : RandomMovement) (a b : Leg Float) : Prop where
  place : b.start = a.finish
  finished : a.arrivalTime ≤ b.startTime
  paused : a.arrivalTime + c.pauseTime ≤ b.startTime

/-- A movement from leg to leg within the area, from time zero on. -/
structure OnRoute (c : RandomMovement) (it : Itinerary Float) : Prop where
  home : c.InArea it.initial
  outset : ∀ leg ∈ it.legs.toList.head?, leg.startTime = 0.0 ∧ leg.start = it.initial
  joined : it.legs.toList.IsChain (Follows c)
  onward : ∀ leg ∈ it.legs.toList, leg.startTime ≤ leg.arrivalTime
  area : ∀ leg ∈ it.legs.toList, c.InArea leg.start ∧ c.InArea leg.finish

/-- The clock of a journey keeps up with its legs: it stands at zero before the first one, and behind the pause after the
last one. -/
structure OnCourse (c : RandomMovement) (j : Journey) : Prop where
  underway : Underway j
  route : c.OnRoute j.itinerary
  rest : j.itinerary.AtRest j.time
  outset : j.itinerary.legs.toList = [] → j.time = 0.0
  paused : ∀ leg ∈ j.itinerary.legs.toList.getLast?, leg.arrivalTime + c.pauseTime ≤ j.time

theorem OnRoute.whereabouts_inArea {it : Itinerary Float} (h : c.OnRoute it) : c.InArea it.whereabouts := by
  unfold Itinerary.whereabouts
  cases hlast : it.legs.toList.getLast? with
  | none => exact h.home
  | some leg => exact (h.area leg (List.mem_of_getLast? hlast)).2

/-- A leg from where the vehicle is, started when it has rested, carries the route on. -/
theorem OnCourse.addLeg {j : Journey} (h : c.OnCourse j) {leg : Leg Float} (hs : leg.startTime = j.time)
    (hstart : leg.start = j.itinerary.whereabouts) (hfinish : c.InArea leg.finish)
    (hon : j.time ≤ leg.arrivalTime) : c.OnRoute (j.itinerary.addLeg leg) := by
  have hlast : ∀ a ∈ j.itinerary.legs.toList.getLast?, Follows c a leg := fun a ha => by
    have hwhere : j.itinerary.whereabouts = a.finish := by
      unfold Itinerary.whereabouts
      rw [Option.mem_def.1 ha]
      rfl
    refine ⟨hstart.trans hwhere, ?_, ?_⟩
    · exact hs.symm ▸ h.rest.arrived a (List.mem_of_getLast? ha)
    · exact hs.symm ▸ h.paused a ha
  refine ⟨h.route.home, ?_, ?_, ?_, ?_⟩
  · rw [Itinerary.toList_addLeg]
    cases hlegs : j.itinerary.legs.toList with
    | nil =>
      intro a ha
      obtain rfl := Option.some.inj ha
      refine ⟨hs.trans (h.outset hlegs), hstart.trans ?_⟩
      rw [Itinerary.whereabouts, hlegs]
      rfl
    | cons a as =>
      have hfirst := h.route.outset
      rw [hlegs] at hfirst
      exact hfirst
  · rw [Itinerary.toList_addLeg]
    refine List.IsChain.append h.route.joined (List.isChain_singleton _) fun a ha b hb => ?_
    obtain rfl := Option.some.inj hb
    exact hlast a ha
  · rw [Itinerary.toList_addLeg]
    refine List.forall_mem_append.2 ⟨h.route.onward, List.forall_mem_singleton.2 ?_⟩
    exact hs.symm ▸ hon
  · rw [Itinerary.toList_addLeg]
    refine List.forall_mem_append.2 ⟨h.route.area, List.forall_mem_singleton.2 ⟨?_, hfinish⟩⟩
    exact hstart.symm ▸ h.route.whereabouts_inArea

/-- One leg: the command comes in time and starts the leg that the clock is then set by. -/
theorem OnCourse.next (hb : c.Bounded) (hc : c.Admitted) {j j' : Journey} (h : c.OnCourse j) (hlt : j.time < T)
    (hj : nextLeg c j = some j') :
    c.OnCourse j' ∧ ∃ leg, leg.startTime = j.time ∧ j'.itinerary = j.itinerary.addLeg leg := by
  have htn := h.underway.defined
  have htf := h.underway.finite hlt
  obtain ⟨hunderway, -⟩ := h.underway.next hc hlt hj
  obtain ⟨x, y, speed, hdest, ⟨hsn, hslo, hshi⟩, hit, htime⟩ := nextLeg_drawn hj
  obtain ⟨hsf, hspos⟩ := hb.speed_finite hsn hslo hshi
  obtain ⟨hs, hstart, hway⟩ := j.itinerary.driveLeg_cases j.time x y speed
  rw [Itinerary.setDestination, h.rest.isLate htn, if_neg Bool.false_ne_true] at hit
  rw [h.rest.position htn] at hstart hway
  generalize j.itinerary.driveLeg j.time x y speed = leg at *
  have hhere := h.route.whereabouts_inArea
  -- The leg is a rest where the vehicle is, or a drive that takes its time.
  obtain ⟨hfinish, ha, hon⟩ : c.InArea leg.finish ∧ leg.arrivalTime.isNaN = false ∧
      unitsOf j.time ≤ unitsOf leg.arrivalTime := by
    obtain ⟨hstay, harrival⟩ | ⟨hto, d, hd, harrival⟩ := hway
    · rw [hstay, harrival]
      exact ⟨hhere, htn, le_rfl⟩
    · obtain ⟨hdn, hd0⟩ := pos_units hd
      obtain ⟨hqn, hq0⟩ := div_nonneg hdn hd0.le hsf hspos
      obtain ⟨han, hup⟩ := le_add htf hqn hq0
      rw [hto, harrival, hhere.ground]
      exact ⟨hdest, han, hup⟩
  obtain ⟨harrived, hpaused⟩ := departure_rested hc j.itinerary htf h.underway.nonneg ha hon
  rw [hit] at htime
  rw [← htime] at harrived hpaused
  have hle : j.time ≤ leg.arrivalTime := (le_iff_units htn ha).2 hon
  refine ⟨⟨hunderway, ?_, ?_, ?_, ?_⟩, leg, hs, hit⟩
  · exact hit.symm ▸ h.addLeg hs hstart hfinish hle
  · exact hit.symm ▸ h.rest.addLeg htn hs ha hle hunderway.defined harrived
  · intro hnil
    rw [hit, Itinerary.toList_addLeg] at hnil
    exact absurd hnil (List.concat_ne_nil _ _)
  · rw [hit, Itinerary.toList_addLeg, List.getLast?_concat]
    rintro a ha
    obtain rfl := Option.some.inj ha
    exact hpaused

/-! ## The whole way -/

/-- The journeys that the loop over the legs of a vehicle comes by, until its clock has reached the end. -/
inductive Reached (c : RandomMovement) (T : Float) (v : VehicleId) : Journey → Prop
  | outset {x y : Float} {g : Random.Generator} :
      drawPoint c (Random.forVehicle c.seed v) = some ((x, y), g) → Reached c T v ⟨.stay ⟨x, y, 0.0⟩, 0.0, g⟩
  | next {j j' : Journey} : Reached c T v j → j.time < T → nextLeg c j = some j' → Reached c T v j'

theorem onCourse_outset {x y : Float} {g g' : Random.Generator} (h : drawPoint c g' = some ((x, y), g)) :
    c.OnCourse ⟨.stay ⟨x, y, 0.0⟩, 0.0, g⟩ := by
  have hlegs : (Itinerary.stay (⟨x, y, 0.0⟩ : Vec3 Float)).legs.toList = [] := rfl
  refine ⟨underway_at_zero _ g, ⟨drawPoint_inArea h, ?_, ?_, ?_, ?_⟩, ⟨?_, ?_, ?_, ?_⟩, fun _ => rfl, ?_⟩ <;>
    simp [hlegs]

theorem Reached.onCourse (hvalid : c.validate = .ok ()) {v : VehicleId} {j : Journey} (h : Reached c T v j) :
    c.OnCourse j := by
  induction h with
  | outset hdraw => exact onCourse_outset hdraw
  | next _ hlt hj ih =>
    exact (ih.next (bounded_of_validate hvalid) (admitted_of_validate hvalid) hlt hj).1

theorem travel_reached {v : VehicleId} {j : Journey} {fuel : Nat} {it : Itinerary Float} (hj : Reached c T v j)
    (h : travel c T j fuel = .ok it) : ∃ j', Reached c T v j' ∧ ¬j'.time < T ∧ it = j'.itinerary := by
  induction fuel generalizing j with
  | zero =>
    obtain ⟨hnot, rfl⟩ | ⟨-, j', n, hn, -⟩ := travel_cases h
    · exact ⟨j, hj, hnot, rfl⟩
    · cases hn
  | succ fuel ih =>
    obtain ⟨hnot, rfl⟩ | ⟨hlt, j', n, hn, hnext, hrest⟩ := travel_cases h
    · exact ⟨j, hj, hnot, rfl⟩
    · cases hn
      exact ih (hj.next hlt hnext) hrest

theorem travel_draws (hb : c.Bounded) (j : Journey) (fuel : Nat) : travel c T j fuel ≠ .error .emptyRange := by
  induction fuel generalizing j with
  | zero =>
    rw [travel]
    split_ifs <;>
      · intro h
        cases h
  | succ fuel ih =>
    rw [travel]
    obtain ⟨j', hj⟩ := hb.nextLeg_isSome j
    rw [hj]
    split_ifs
    · exact ih j'
    · intro h
      cases h

theorem journey_draws (hb : c.Bounded) (v : VehicleId) : journey c T v ≠ .error .emptyRange := by
  obtain ⟨x, y, g, hdraw⟩ := hb.drawPoint_isSome (Random.forVehicle c.seed v)
  rw [journey, hdraw]
  exact travel_draws hb _ legBound

theorem journey_reached {v : VehicleId} {it : Itinerary Float} (h : journey c T v = .ok it) :
    ∃ j, Reached c T v j ∧ ¬j.time < T ∧ it = j.itinerary := by
  obtain ⟨x, y, g, hdraw, htravel⟩ := journey_cases h
  exact travel_reached (.outset hdraw) htravel

/-! ## All vehicles -/

theorem foldlM_addJourney_draws (hb : c.Bounded) (ns : List Nat) (t : Itineraries) :
    ns.foldlM (c.addJourney T) t ≠ .error .emptyRange := by
  induction ns generalizing t with
  | nil =>
    intro h
    cases h
  | cons n ns ih =>
    have hdraws := journey_draws (T := T) hb ⟨n.toUInt32⟩
    rw [List.foldlM_cons, addJourney]
    cases hit : journey c T ⟨n.toUInt32⟩ with
    | error e =>
      rintro heq
      cases heq
      exact hdraws hit
    | ok it => exact ih _

theorem foldlM_addJourney_entry {n : Nat} {t : Itineraries} (h : (List.range n).foldlM (c.addJourney T) ∅ = .ok t)
    {v : VehicleId} {it : Itinerary Float} (hget : t[v]? = some it) : journey c T v = .ok it := by
  induction n generalizing t with
  | zero =>
    cases h
    simp at hget
  | succ n ih =>
    obtain ⟨t', it', hfront, hit, rfl⟩ := foldlM_addJourney_succ h
    rw [getElem?_insert] at hget
    split_ifs at hget with hnew
    · cases hget
      exact hnew ▸ hit
    · exact ih hfront hget

/-- Of an accepted configuration every draw succeeds, and every vehicle is on a route of legs within the area, each of
which starts in time and at the place where the one before it has ended: no command comes late, and none finds the vehicle
under way. -/
theorem random_movement_keeps_its_route (hvalid : c.validate = .ok ()) :
    (∀ g, (drawPoint c g).isSome) ∧ (∀ j, (nextLeg c j).isSome) ∧ generate c T ≠ .error .emptyRange ∧
    ∀ t, generate c T = .ok t →
      (∀ v : VehicleId, v.node < c.vehicles → ∃ it, t[v]? = some it) ∧
      ∀ (v : VehicleId) (it : Itinerary Float), t[v]? = some it →
        c.OnRoute it ∧ (∃ j, Reached c T v j ∧ ¬j.time < T ∧ it = j.itinerary) ∧
        ∀ j j', Reached c T v j → j.time < T → nextLeg c j = some j' →
          j.itinerary.isLate j.time = false ∧ (∀ leg ∈ j.itinerary.legs.toList, leg.arrivalTime ≤ j.time) ∧
            ∃ leg, leg.startTime = j.time ∧ j'.itinerary = j.itinerary.addLeg leg := by
  have hb := bounded_of_validate hvalid
  refine ⟨fun g => ?_, fun j => ?_, ?_, fun t ht => ⟨fun v hv => ?_, fun v it hget => ⟨?_, ?_, ?_⟩⟩⟩
  · obtain ⟨x, y, g', hdraw⟩ := hb.drawPoint_isSome g
    rw [hdraw]
    rfl
  · obtain ⟨j', hj⟩ := hb.nextLeg_isSome j
    rw [hj]
    rfl
  · intro hfault
    unfold generate at hfault
    rw [hvalid] at hfault
    by_cases hf : T.isFinite = true
    · rw [if_pos hf] at hfault
      exact foldlM_addJourney_draws hb _ _ hfault
    · rw [if_neg hf] at hfault
      cases hfault
  · obtain ⟨it, -, hget⟩ := generate_journey (c := c) (n := c.vehicles) ht hv
    exact ⟨it, hget⟩
  · obtain ⟨-, -, hrun⟩ := generate_cases ht
    obtain ⟨j, hj, -, rfl⟩ := journey_reached (foldlM_addJourney_entry hrun hget)
    exact (hj.onCourse hvalid).route
  · obtain ⟨-, -, hrun⟩ := generate_cases ht
    exact journey_reached (foldlM_addJourney_entry hrun hget)
  · intro j j' hj hlt hnext
    have hcourse := hj.onCourse hvalid
    obtain ⟨-, hadds⟩ := hcourse.next hb (admitted_of_validate hvalid) hlt hnext
    exact ⟨hcourse.rest.isLate hcourse.underway.defined, hcourse.rest.arrived, hadds⟩

/-- The vehicle of the yard is given two legs. -/
theorem yard_route : { yard with vehicles := 1 }.validate = .ok () ∧ ∃ t it,
    generate { yard with vehicles := 1 } 8.5 = .ok t ∧ t[(⟨0⟩ : VehicleId)]? = some it ∧ it.legs.size = 2 ∧
      OnRoute { yard with vehicles := 1 } it := by
  have hlegs : yardLegs 1 8.5 ⟨0⟩ = some 2 := by decide +kernel
  obtain ⟨t, ht, hsize⟩ := yardLegs_some hlegs
  obtain ⟨hvalid, -, -⟩ := generate_cases ht
  obtain ⟨-, -, -, hroutes⟩ := random_movement_keeps_its_route (T := 8.5) hvalid
  obtain ⟨hall, hroute⟩ := hroutes t ht
  obtain ⟨it, hget⟩ := hall ⟨0⟩ (by decide)
  rw [hget] at hsize
  exact ⟨hvalid, t, it, ht, hget, Option.some.inj hsize, (hroute ⟨0⟩ it hget).1⟩

end RandomMovement

end FleetEnergy

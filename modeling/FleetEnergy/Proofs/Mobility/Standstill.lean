import FleetEnergy.Proofs.Mobility.Journey
import FleetEnergy.Proofs.Progress
import FleetEnergy.Proofs.Binary64.Whole
import Mathlib.Logic.Relation

/-! Whether a random movement reaches its end. A leg that takes no time sets the clock forward by a second and the
pause, and a clock that is late enough does not notice. -/
namespace FleetEnergy
open Binary64
set_option autoImplicit false

/-! ## A second on the clock -/

/-- Before 2⁵³ seconds a second more is later. -/
theorem lt_add_one {t : Float} (h0 : 0.0 ≤ t) (h : t < 9007199254740992.0) : t < t + 1.0 := by
  obtain ⟨ht, -⟩ := not_nan_of_lt h
  have hone : (0 : Int) < oneUnits := by exact_mod_cast oneUnits_pos
  have hlt := (lt_iff_units ht isWhole_two_pow_53.defined).1 h
  rw [isWhole_two_pow_53.units] at hlt
  have hnonneg : 0 ≤ unitsOf t := (le_iff_units rfl ht).1 h0
  have hlim := (abs_whole_lt_limit (z := 2 ^ 53) (by decide)).2
  have hfin : t.isFinite = true := (isFinite_iff_units ht).2 ⟨by omega, by omega⟩
  obtain ⟨hs, hsum⟩ := add_finite (y := 1.0) hfin rfl
  rw [lt_iff_units ht hs, hsum, isWhole_one.units, one_mul]
  -- The next whole number lies between the time and the sum, and rounding does not move it.
  have hfloor : unitsOf t / oneUnits * oneUnits ≤ unitsOf t := Int.ediv_mul_le _ hone.ne'
  have hnext : unitsOf t < (unitsOf t / oneUnits + 1) * oneUnits := Int.lt_ediv_add_one_mul_self _ hone
  have hsmall : (unitsOf t / oneUnits + 1).natAbs ≤ 2 ^ 53 := by
    have hhi : unitsOf t / oneUnits < 2 ^ 53 := Int.ediv_lt_of_lt_mul hone hlt
    have hlo : 0 ≤ unitsOf t / oneUnits := Int.ediv_nonneg hnonneg hone.le
    omega
  have hmono : roundInt ((unitsOf t / oneUnits + 1) * oneUnits) ≤ roundInt (unitsOf t + oneUnits) :=
    roundInt_mono (by rw [add_mul]; omega)
  rw [roundInt_whole hsmall] at hmono
  refine hnext.trans_le ?_
  calc (unitsOf t / oneUnits + 1) * (oneUnits : Int)
      = clamped ((unitsOf t / oneUnits + 1) * oneUnits) :=
        (clamped_of_le (by omega) (abs_whole_lt_limit hsmall).2.le).symm
    _ ≤ clamped (roundInt (unitsOf t + oneUnits)) := clamped_mono hmono

namespace RandomMovement

variable {c : RandomMovement} {T : Float} {v : VehicleId} {j j' : Journey}

/-! ## One pass -/

/-- A pass of the loop over the legs of a vehicle. -/
def Pass (c : RandomMovement) (T : Float) (j j' : Journey) : Prop := j.time < T ∧ nextLeg c j = some j'

/-- The clock moves on if the leg takes time, or if a second or the pause shows on it. -/
theorem departure_later_iff (hc : c.Admitted) (it : Itinerary Float) {t : Float} (ht : t.isFinite = true)
    (ht0 : 0 ≤ unitsOf t) :
    t < departure it t c.pauseTime ↔
      (∃ arrival ∈ it.restTime, t < arrival) ∨ t < t + 1.0 ∨ t < t + c.pauseTime := by
  have htn : t.isNaN = false := isNaN_of_isFinite ht
  have harrival : (∃ arrival ∈ it.restTime, t < arrival) ↔ t < it.restTime.getD t := by
    cases it.restTime with
    | none => simpa using lt_irrefl t
    | some arrival => simp
  -- A pause does not undo what the leg or the second has added.
  have hpause {stop : Float} (hlt : t < stop) : t < stop + c.pauseTime := by
    obtain ⟨-, hn⟩ := not_nan_of_lt hlt
    have hu := (lt_iff_units htn hn).1 hlt
    obtain ⟨hs, hle⟩ := le_add_of_nonneg hn (ht0.trans hu.le) hc.defined hc.nonneg
    exact (lt_iff_units htn hs).2 (hu.trans_le hle)
  rw [harrival, departure_eq]
  split_ifs with hleg
  · exact ⟨fun _ => .inl hleg, fun _ => hpause hleg⟩
  · by_cases hsecond : t < t + 1.0
    · exact ⟨fun _ => .inr (.inl hsecond), fun _ => hpause hsecond⟩
    · rw [(add_interval_eq (by decide) ht hsecond).1]
      exact ⟨fun h => .inr (.inr h), fun h => (h.resolve_left hleg).resolve_left (lt_irrefl t)⟩

/-! ## Ending -/

/-- The loop ends, after however many passes. -/
def Ends (c : RandomMovement) (T : Float) (j : Journey) : Prop := ∃ n it, travel c T j n = .ok it

theorem Pass.ends_iff (h : Pass c T j j') : Ends c T j ↔ Ends c T j' := by
  constructor
  · rintro ⟨n, it, hn⟩
    obtain ⟨hnot, -⟩ | ⟨-, j'', m, -, hnext, hm⟩ := travel_cases hn
    · exact absurd h.1 hnot
    · rw [h.2] at hnext
      cases hnext
      exact ⟨m, it, hm⟩
  · rintro ⟨n, it, hn⟩
    refine ⟨n + 1, it, ?_⟩
    rw [travel, if_pos h.1, h.2]
    exact hn

open Relation (ReflTransGen)

theorem ends_iff_of_passes (h : ReflTransGen (Pass c T) j j') : Ends c T j ↔ Ends c T j' := by
  induction h with
  | refl => rfl
  | tail _ hpass ih => exact ih.trans hpass.ends_iff

theorem Ends.exists_last (h : Ends c T j) : ∃ j', ReflTransGen (Pass c T) j j' ∧ ¬j'.time < T := by
  obtain ⟨n, it, hn⟩ := h
  induction n generalizing j with
  | zero =>
    obtain ⟨hnot, -⟩ | ⟨-, j', m, hm, -⟩ := travel_cases hn
    · exact ⟨j, .refl, hnot⟩
    · cases hm
  | succ n ih =>
    obtain ⟨hnot, -⟩ | ⟨hlt, j', m, hm, hnext, hrest⟩ := travel_cases hn
    · exact ⟨j, .refl, hnot⟩
    · cases hm
      obtain ⟨j'', hpasses, hlast⟩ := ih hrest
      exact ⟨j'', .head ⟨hlt, hnext⟩ hpasses, hlast⟩

theorem Underway.passes (hc : c.Admitted) (hj : Underway j) (h : ReflTransGen (Pass c T) j j') : Underway j' := by
  induction h with
  | refl => exact hj
  | tail _ hpass ih => exact (ih.next hc hpass.1 hpass.2).1

/-- The loop ends if and only if the clock moves on from wherever it stands before the end. -/
theorem ends_iff_moves_on (hc : c.Admitted) (hT : T.isNaN = false) (hj : Underway j) :
    Ends c T j ↔ ∀ j', ReflTransGen (Pass c T) j j' → j'.time < T →
      ∃ j'', ReflTransGen (Pass c T) j' j'' ∧ j'.time < j''.time := by
  constructor
  · intro h j' hpasses hlt
    obtain ⟨j'', hmore, hlast⟩ := ((ends_iff_of_passes hpasses).1 h).exists_last
    have hn := (hj.passes hc (hpasses.trans hmore)).defined
    refine ⟨j'', hmore, (lt_iff_units (hj.passes hc hpasses).defined hn).2 ?_⟩
    exact ((lt_iff_units (hj.passes hc hpasses).defined hT).1 hlt).trans_le
      ((le_iff_units hT hn).1 ((not_lt_iff_le hn hT).1 hlast))
  · -- The units that are left to the greatest float grow fewer.
    intro h
    induction hk : (limit - unitsOf j.time).toNat using Nat.strong_induction_on generalizing j with
    | _ k ih =>
      by_cases hlt : j.time < T
      · obtain ⟨j', hpasses, hup⟩ := h j .refl hlt
        have hj' := hj.passes hc hpasses
        have hunits := (lt_iff_units hj.defined hj'.defined).1 hup
        have hbound := (abs_unitsOf_le j'.time).2
        refine (ends_iff_of_passes hpasses).2 (ih _ (by omega) hj' (fun j'' hmore => h j'' (hpasses.trans hmore)) rfl)
      · exact ⟨0, j.itinerary, if_neg hlt⟩

/-- With a clock that moves on in every pass there are as many passes as floats at most. -/
theorem travel_isOk (hb : c.Bounded)
    (hup : ∀ j' j'', ReflTransGen (Pass c T) j j' → Pass c T j' j'' → j'.time < j''.time) {fuel : Nat}
    (hfuel : 2 ^ 63 ≤ fuel + (Instant.ofFloat j.time).rank) : ∃ it, travel c T j fuel = .ok it := by
  induction fuel generalizing j with
  | zero =>
    have := (Instant.ofFloat j.time).rank_bounds.2
    omega
  | succ fuel ih =>
    rw [travel]
    split_ifs with hlt
    · obtain ⟨j', hj'⟩ := hb.nextLeg_isSome j
      have hpass : Pass c T j j' := ⟨hlt, hj'⟩
      have hrank := Instant.rank_lt_of_lt (hup j j' .refl hpass)
      rw [hj']
      exact ih (fun a b hpasses => hup a b (hpasses.head hpass)) (by push_cast at hfuel; omega)
    · exact ⟨_, rfl⟩

theorem foldlM_addJourney_isOk (h : ∀ v, ∃ it, journey c T v = .ok it) (ns : List Nat) (t : Itineraries) :
    ∃ t', ns.foldlM (c.addJourney T) t = .ok t' := by
  induction ns generalizing t with
  | nil => exact ⟨t, rfl⟩
  | cons n ns ih =>
    obtain ⟨it, hit⟩ := h ⟨n.toUInt32⟩
    rw [List.foldlM_cons, addJourney, hit]
    exact ih _

/-- If a second or the pause shows on the clock at any time before the end, every vehicle reaches it. -/
theorem generate_isOk (hvalid : c.validate = .ok ()) (hT : T.isFinite = true)
    (hclock : ∀ t, 0.0 ≤ t → t < T → t < t + 1.0 ∨ t < t + c.pauseTime) : ∃ t, generate c T = .ok t := by
  have hc := admitted_of_validate hvalid
  have hb := bounded_of_validate hvalid
  have hfloats : 2 ^ 63 ≤ (legBound : Int) + (Instant.ofFloat 0.0).rank := by
    have hbound : (legBound : Int) = 2 ^ 64 := rfl
    have := (Instant.ofFloat 0.0).rank_bounds.1
    omega
  have hall (v : VehicleId) : ∃ it, journey c T v = .ok it := by
    obtain ⟨x, y, g, hdraw⟩ := hb.drawPoint_isSome (Random.forVehicle c.seed v)
    rw [journey, hdraw]
    refine travel_isOk hb (fun j j' hpasses hpass => ?_) hfloats
    have hj := (underway_at_zero (.stay ⟨x, y, 0.0⟩) g).passes hc hpasses
    obtain ⟨-, -, -, -, htime⟩ := nextLeg_cases hpass.2
    rw [htime, departure_later_iff hc _ (hj.finite hpass.1) hj.nonneg]
    exact .inr (hclock _ ((le_iff_units rfl hj.defined).2 hj.nonneg) hpass.1)
  unfold generate
  rw [hvalid, if_pos hT]
  exact foldlM_addJourney_isOk hall _ _

/-- Of an accepted configuration the clock of a vehicle never goes back, and it moves on in a pass if and only if the
leg takes time or a second or the pause shows on it. The loop ends if and only if the clock moves on, now or in a later
pass, from wherever it stands before the end. So every vehicle reaches an end up to which a second or the pause shows on
the clock, and a second does up to 2⁵³. -/
theorem loop_ends_iff_clock_moves_on (hvalid : c.validate = .ok ()) (hT : T.isFinite = true) :
    (∀ v j j', Reached c T v j → Pass c T j j' →
      j.time ≤ j'.time ∧ (j.time < j'.time ↔
        (∃ arrival ∈ j'.itinerary.restTime, j.time < arrival) ∨ j.time < j.time + 1.0 ∨
          j.time < j.time + c.pauseTime)) ∧
    (∀ v j, Reached c T v j → ((∃ n it, travel c T j n = .ok it) ↔
      ∀ j', ReflTransGen (Pass c T) j j' → j'.time < T →
        ∃ j'', ReflTransGen (Pass c T) j' j'' ∧ j'.time < j''.time)) ∧
    ((∀ t, 0.0 ≤ t → t < T → t < t + 1.0 ∨ t < t + c.pauseTime) → ∃ t, generate c T = .ok t) ∧
    (T ≤ 9007199254740992.0 → ∃ t, generate c T = .ok t) := by
  have hc := admitted_of_validate hvalid
  have hTn : T.isNaN = false := isNaN_of_isFinite hT
  have hunderway {v : VehicleId} {j : Journey} (h : Reached c T v j) : Underway j := (h.onCourse hvalid).underway
  refine ⟨fun v j j' h hpass => ?_, fun v j h => ends_iff_moves_on hc hTn (hunderway h), generate_isOk hvalid hT,
    fun hle => generate_isOk hvalid hT fun t h0 hlt => .inl (lt_add_one h0 ?_)⟩
  · have hj := hunderway h
    obtain ⟨hj', hle⟩ := hj.next hc hpass.1 hpass.2
    obtain ⟨-, -, -, -, htime⟩ := nextLeg_cases hpass.2
    refine ⟨(le_iff_units hj.defined hj'.defined).2 hle, ?_⟩
    have hiff := departure_later_iff hc j'.itinerary (hj.finite hpass.1) hj.nonneg
    rwa [← htime] at hiff
  · have ht := (not_nan_of_lt hlt).1
    exact (lt_iff_units ht rfl).2 (((lt_iff_units ht hTn).1 hlt).trans_le ((le_iff_units hTn rfl).1 hle))

/-- Three vehicles cross the yard for ten minutes. -/
theorem yard_reaches_end : { yard with vehicles := 3 }.validate = .ok () ∧ (600.0 : Float).isFinite = true ∧
    ∃ t, generate { yard with vehicles := 3 } 600.0 = .ok t := by
  have hvalid : { yard with vehicles := 3 }.validate = .ok () := rfl
  obtain ⟨-, -, -, hends⟩ := loop_ends_iff_clock_moves_on (T := 600.0) hvalid rfl
  exact ⟨hvalid, rfl, hends (by decide)⟩

/-! ## Standing still -/

/-- An area so small that most ways across it vanish, with a speed at which the others take 2⁶³ seconds. -/
def thicket : RandomMovement where
  vehicles := 1
  width := .ofBits 0x1E60000000000000
  height := .ofBits 0x1E60000000000000
  minSpeed := .ofBits 0x1A70000000000000
  maxSpeed := .ofBits 0x1A70000000000000
  pauseTime := 0.0
  seed := 20

/-- The first float above 2⁶³. -/
def afterFirstLeg : Float := .ofBits 0x43E0000000000001

/-- The journeys of a vehicle after one pass and after two. -/
def firstPasses (c : RandomMovement) (v : VehicleId) : Option (Journey × Journey) := do
  let ((x, y), g) ← drawPoint c (Random.forVehicle c.seed v)
  let j ← nextLeg c ⟨.stay ⟨x, y, 0.0⟩, 0.0, g⟩
  let j' ← nextLeg c j
  return (j, j')

theorem firstPasses_reached (h : firstPasses c v = some (j, j')) (hT : 0.0 < T) :
    Reached c T v j ∧ nextLeg c j = some j' := by
  simp only [firstPasses, Option.bind_eq_bind, Option.bind_eq_some_iff] at h
  obtain ⟨⟨⟨x, y⟩, g⟩, hdraw, j₁, hj, j₂, hj', heq⟩ := h
  cases heq
  exact ⟨(Reached.outset hdraw).next hT hj, hj'⟩

/-- The bits of the time at which a vehicle comes to rest for good. -/
def restBits (c : RandomMovement) (T : Float) (v : VehicleId) : Option UInt64 :=
  match generate c T with
  | .error _ => none
  | .ok t => (t[v]?.bind (·.restTime)).map Float.toBits

/-- An area no wider than the least float above zero. -/
def dust : RandomMovement where
  vehicles := 1
  width := .ofBits 1
  height := .ofBits 1
  minSpeed := 1.0
  maxSpeed := 1.0
  pauseTime := 0.0
  seed := 0

theorem dust_valid : dust.validate = .ok () := rfl

theorem grain_cases {x : Float} (h0 : 0.0 ≤ x) (h1 : x ≤ .ofBits 1) : x = 0.0 ∨ x = -0.0 ∨ x = .ofBits 1 := by
  have hx : x.isNaN = false := (not_nan_of_le h0).2
  have hunit : unitsOf (.ofBits 1) = 1 := rfl
  have hlo : 0 ≤ unitsOf x := (le_iff_units rfl hx).1 h0
  have hhi := (le_iff_units hx rfl).1 h1
  rw [hunit] at hhi
  by_cases hz : unitsOf x = 0
  · obtain ⟨s, hs⟩ := reading_of_units_zero hx hz
    cases s with
    | positive => exact .inl (eq_of_reading_eq (hs.trans reading_zero.symm))
    | negative => exact .inr (.inl (eq_of_reading_eq (hs.trans reading_neg_zero.symm)))
  · exact .inr (.inr (Instant.eq_of_units_eq hx rfl (by omega) hz))

/-- Ways within the dust vanish when they are squared. -/
theorem grain_square {x y : Float} (hx0 : 0.0 ≤ x) (hx1 : x ≤ .ofBits 1) (hy0 : 0.0 ≤ y) (hy1 : y ≤ .ofBits 1) :
    (x - y) * (x - y) = 0.0 := by
  obtain rfl | rfl | rfl := grain_cases hx0 hx1 <;> obtain rfl | rfl | rfl := grain_cases hy0 hy1 <;>
    decide +kernel

theorem dust_distance {p q : Vec3 Float} (hp : dust.InArea p) (hq : dust.InArea q) : ¬0.0 < p.distance q := by
  have hz : (p.z - q.z) * (p.z - q.z) = 0.0 := by
    rw [hp.ground, hq.ground]
    rfl
  have hx := grain_square hp.left hp.right hq.left hq.right
  have hy := grain_square hp.lower hp.upper hq.lower hq.upper
  change ¬0.0 < Float.sqrt ((p.x - q.x) * (p.x - q.x) + (p.y - q.y) * (p.y - q.y) + (p.z - q.z) * (p.z - q.z))
  rw [hx, hy, hz]
  decide

/-- Second by second a clock comes to 2⁵³ and no further. -/
theorem next_second {t : Float} {z : Int} (h : IsWhole t z) (h0 : 0 ≤ z) (hz : z ≤ 2 ^ 53) :
    ∃ z', IsWhole (t + 1.0 + 0.0) z' ∧ 0 ≤ z' ∧ z' ≤ 2 ^ 53 := by
  obtain hlt | rfl := hz.lt_or_eq
  · exact ⟨z + 1 + 0, (h.add isWhole_one (by omega)).add isWhole_zero (by omega), by omega, by omega⟩
  · have hne : unitsOf t ≠ 0 := by
      have hone : (0 : Int) < oneUnits := by exact_mod_cast oneUnits_pos
      rw [h.units]
      exact (Int.mul_pos (by norm_num) hone).ne'
    obtain rfl := Instant.eq_of_units_eq h.defined isWhole_two_pow_53.defined
      (h.units.trans isWhole_two_pow_53.units.symm) hne
    have hstays : (9007199254740992.0 : Float) + 1.0 + 0.0 = 9007199254740992.0 := rfl
    exact ⟨2 ^ 53, hstays.symm ▸ isWhole_two_pow_53, by omega, le_rfl⟩

/-- The leg to a place at no distance is over when it starts. -/
theorem arrival_of_no_distance (it : Itinerary Float) {t x y speed : Float}
    (h : ¬0.0 < (it.position t).distance ⟨x, y, (it.position t).z⟩) : (it.driveLeg t x y speed).arrivalTime = t := by
  unfold Itinerary.driveLeg
  simp only [decide_eq_false h, ite_self]
  rfl

theorem dust_clock (h : Reached dust T v j) : ∃ z : Int, IsWhole j.time z ∧ 0 ≤ z ∧ z ≤ 2 ^ 53 := by
  induction h with
  | outset => exact ⟨0, isWhole_zero, le_rfl, by norm_num⟩
  | next h _ hj ih =>
    obtain ⟨z, hz, h0, hle⟩ := ih
    have hcourse := h.onCourse dust_valid
    have hn := hcourse.underway.defined
    obtain ⟨x, y, speed, hdest, -, hit, htime⟩ := nextLeg_drawn hj
    have hhere := hcourse.route.whereabouts_inArea
    rw [← hcourse.rest.position hn] at hhere
    have hgoal : dust.InArea ⟨x, y, (_ : Vec3 Float).z⟩ := hhere.ground.symm ▸ hdest
    rw [Itinerary.setDestination, hcourse.rest.isLate hn, if_neg Bool.false_ne_true] at hit
    rw [htime, hit, departure_addLeg, arrival_of_no_distance _ (dust_distance hhere hgoal), if_neg (lt_irrefl _)]
    exact next_second hz h0 hle

/-- More seconds than there are on the clock of a vehicle in the dust. -/
theorem dust_before_end (h : Reached dust T v j) : j.time < 10000000000000000.0 := by
  obtain ⟨z, hz, -, hle⟩ := dust_clock h
  have hnot : ¬(9007199254740992.0 : Float) < j.time := fun hlt => ((isWhole_two_pow_53.lt_iff hz).1 hlt).not_ge hle
  have hend : (9007199254740992.0 : Float) < 10000000000000000.0 := by decide
  have hup := (lt_iff_units isWhole_two_pow_53.defined rfl).1 hend
  exact (lt_iff_units hz.defined rfl).2 (((le_iff_units hz.defined isWhole_two_pow_53.defined).1
    ((not_lt_iff_le isWhole_two_pow_53.defined hz.defined).1 hnot)).trans_lt hup)

theorem dust_endless (h : Reached dust 10000000000000000.0 v j) (n : Nat) :
    travel dust 10000000000000000.0 j n = .error .endless := by
  have hb := bounded_of_validate dust_valid
  induction n generalizing j with
  | zero => exact if_pos (dust_before_end h)
  | succ n ih =>
    obtain ⟨j', hj'⟩ := hb.nextLeg_isSome j
    rw [travel, if_pos (dust_before_end h), hj']
    exact ih (h.next (dust_before_end h) hj')

/-- Two accepted configurations with finite ends. In the thicket the clock stands still in the second pass, and the
vehicle is sent off a third time before an end that the clock should have reached; in the dust no number of passes leads
to the end. -/
theorem clock_may_stand_still :
    (thicket.validate = .ok () ∧ afterFirstLeg.isFinite = true ∧
      (∃ j j', Reached thicket afterFirstLeg ⟨0⟩ j ∧ Pass thicket afterFirstLeg j j' ∧ ¬j.time < j'.time) ∧
      restBits thicket afterFirstLeg ⟨0⟩ = some 0x43F0000000000000) ∧
    dust.validate = .ok () ∧ (10000000000000000.0 : Float).isFinite = true ∧
      (∃ j, Reached dust 10000000000000000.0 ⟨0⟩ j) ∧
      ∀ j, Reached dust 10000000000000000.0 ⟨0⟩ j → ∀ n, travel dust 10000000000000000.0 j n = .error .endless := by
  have hstill : (firstPasses thicket ⟨0⟩).any
      (fun p => decide (p.1.time < afterFirstLeg) && !decide (p.1.time < p.2.time)) = true := by decide +kernel
  obtain ⟨⟨j, j'⟩, hfirst, hstand⟩ := (Option.any_eq_true _ _).1 hstill
  simp only [Bool.and_eq_true, decide_eq_true_eq, Bool.not_eq_true', decide_eq_false_iff_not] at hstand
  obtain ⟨hreached, hnext⟩ := firstPasses_reached (T := afterFirstLeg) hfirst (by decide)
  obtain ⟨x, y, g, hdraw⟩ := (bounded_of_validate dust_valid).drawPoint_isSome
    (Random.forVehicle dust.seed ⟨0⟩)
  exact ⟨⟨rfl, rfl, ⟨j, j', hreached, ⟨hstand.1, hnext⟩, hstand.2⟩, by decide +kernel⟩, dust_valid, rfl,
    ⟨_, .outset hdraw⟩, fun j hj n => dust_endless hj n⟩

end RandomMovement

end FleetEnergy

import FleetEnergy.Mobility.RandomMovement
import FleetEnergy.Proofs.Binary64.Sum
import FleetEnergy.Proofs.Mobility.Itinerary
import FleetEnergy.Proofs.VehicleId

/-! Random movement drawn until two ends. What is drawn for a vehicle depends on the seed and its number only, and a
later end adds legs behind those that are there, none of which starts before the earlier end. -/
namespace FleetEnergy
open Binary64
set_option autoImplicit false

/-! ## Commands behind each other -/

namespace Itinerary

variable {T : Float}

/-- All of these commands are given at `T` or later. -/
def NotBefore (T : Float) (cs : List (MoveCommand Float)) : Prop :=
  ∀ c ∈ cs, ∃ t, c.time? = some t ∧ t.isNaN = false ∧ unitsOf T ≤ unitsOf t

theorem NotBefore.mono {T' : Float} {cs : List (MoveCommand Float)} (h : NotBefore T cs)
    (hle : unitsOf T' ≤ unitsOf T) : NotBefore T' cs := fun c hc => by
  obtain ⟨t, ht, hn, hu⟩ := h c hc
  exact ⟨t, ht, hn, hle.trans hu⟩

theorem NotBefore.defined {cs : List (MoveCommand Float)} (h : NotBefore T cs) :
    ∀ c ∈ cs, ∀ t, c.time? = some t → t.isNaN = false := fun c hc t ht => by
  obtain ⟨s, hs, hn, -⟩ := h c hc
  rw [hs] at ht
  cases ht
  exact hn

theorem initial_apply {it : Itinerary Float} {c : MoveCommand Float} {t : Float} (ht : c.time? = some t) :
    (it.apply c).initial = it.initial := by
  cases hl : it.isLate t with
  | true => rw [apply_of_late ht hl]
  | false =>
    obtain ⟨leg, -, happly⟩ := apply_of_timely ht hl
    rw [happly, addLeg]

theorem initial_foldl {cs : List (MoveCommand Float)} (h : NotBefore T cs) (it : Itinerary Float) :
    (cs.foldl apply it).initial = it.initial := by
  induction cs generalizing it with
  | nil => rfl
  | cons c cs ih =>
    obtain ⟨t, ht, -⟩ := h c List.mem_cons_self
    rw [List.foldl_cons, ih fun c' hc' => h c' (List.mem_cons_of_mem c hc'), initial_apply ht]

/-- Commands add legs at their times. -/
theorem legs_foldl (hT : T.isNaN = false) {cs : List (MoveCommand Float)} (h : NotBefore T cs) (it : Itinerary Float) :
    ∃ more, (cs.foldl apply it).legs.toList = it.legs.toList ++ more ∧ ∀ leg ∈ more, T ≤ leg.startTime := by
  induction cs generalizing it with
  | nil => exact ⟨[], (List.append_nil _).symm, nofun⟩
  | cons c cs ih =>
    obtain ⟨t, ht, hn, hu⟩ := h c List.mem_cons_self
    obtain ⟨more, hmore, hlate⟩ := ih (fun c' hc' => h c' (List.mem_cons_of_mem c hc')) (it.apply c)
    rw [List.foldl_cons, hmore]
    cases hl : it.isLate t with
    | true => exact ⟨more, by rw [apply_of_late ht hl], hlate⟩
    | false =>
      obtain ⟨leg, hleg, happly⟩ := apply_of_timely ht hl
      have hstart : T ≤ leg.startTime := by
        rw [startTime_of_leg? ht hleg]
        exact (le_iff_units hT hn).2 hu
      refine ⟨leg :: more, ?_, List.forall_mem_cons.2 ⟨hstart, hlate⟩⟩
      rw [happly, toList_addLeg, List.append_assoc]
      rfl

/-- Commands at `T` or later do not show before `T`. -/
theorem shown_foldl (home : Vec3 Float) {cs more : List (MoveCommand Float)}
    (hcs : ∀ c ∈ cs, ∀ t, c.time? = some t → t.isNaN = false) (h : NotBefore T more) {now : Float} (hnow : now < T) :
    ((cs ++ more).foldl apply (.stay home)).position now = (cs.foldl apply (.stay home)).position now ∧
      ((cs ++ more).foldl apply (.stay home)).velocity now = (cs.foldl apply (.stay home)).velocity now := by
  induction more using List.reverseRecOn with
  | nil =>
    rw [List.append_nil]
    exact ⟨rfl, rfl⟩
  | append_singleton more c ih =>
    have hmore : NotBefore T more := fun c' hc' => h c' (List.mem_append_left _ hc')
    obtain ⟨t, ht, hn, hu⟩ := h c (by simp)
    obtain ⟨hnown, hTn⟩ := not_nan_of_lt hnow
    have hlt : now < t := by
      rw [lt_iff_units hnown hTn] at hnow
      exact (lt_iff_units hnown hn).2 (by omega)
    have hall : ∀ c' ∈ cs ++ more, ∀ s, c'.time? = some s → s.isNaN = false := fun c' hc' =>
      (List.mem_append.1 hc').elim (hcs c') (hmore.defined c')
    obtain ⟨es, hj⟩ := exists_journal home (cs ++ more) hall
    obtain ⟨hpos, hvel⟩ := (hj.recorded hall).shown_before ht hlt
    obtain ⟨ihpos, ihvel⟩ := ih hmore
    rw [← List.append_assoc, List.foldl_append (l := cs ++ more)]
    exact ⟨hpos.trans ihpos, hvel.trans ihvel⟩

end Itinerary

namespace RandomMovement

variable {c : RandomMovement} {T T₁ T₂ : Float}

/-! ## The clock of a journey -/

structure Admitted (c : RandomMovement) : Prop where
  defined : c.pauseTime.isNaN = false
  nonneg : 0 ≤ unitsOf c.pauseTime

theorem admitted_of_validate (h : c.validate = .ok ()) : c.Admitted := by
  unfold validate at h
  split_ifs at h with harea hspeeds hpause
  simp only [Bool.or_eq_true, Bool.not_eq_true', decide_eq_false_iff_not, not_or, not_not, Bool.not_eq_false] at hpause
  obtain ⟨hpos, hfin⟩ := hpause
  have hn : c.pauseTime.isNaN = false := isNaN_of_isFinite hfin
  exact ⟨hn, (le_iff_units rfl hn).1 hpos⟩

theorem departure_eq (it : Itinerary Float) (t pause : Float) :
    departure it t pause = (if t < it.restTime.getD t then it.restTime.getD t else t + 1.0) + pause := rfl

/-- The next departure is at a time that is a number and not before this one. -/
theorem departure_bounds (hc : c.Admitted) (it : Itinerary Float) {t : Float} (ht : t.isFinite = true) :
    (departure it t c.pauseTime).isNaN = false ∧ unitsOf t ≤ unitsOf (departure it t c.pauseTime) := by
  have htn : t.isNaN = false := isNaN_of_isFinite ht
  rw [departure_eq]
  generalize it.restTime.getD t = arrival
  have hstop : (if t < arrival then arrival else t + 1.0).isNaN = false ∧
      unitsOf t ≤ unitsOf (if t < arrival then arrival else t + 1.0) := by
    split_ifs with hlt
    · obtain ⟨-, hn⟩ := not_nan_of_lt hlt
      exact ⟨hn, ((lt_iff_units htn hn).1 hlt).le⟩
    · exact le_add ht rfl (by decide)
  revert hstop
  generalize (if t < arrival then arrival else t + 1.0) = stop
  rintro ⟨hn, hle⟩
  by_cases hf : stop.isFinite = true
  · obtain ⟨hsum, hup⟩ := le_add hf hc.defined hc.nonneg
    exact ⟨hsum, hle.trans hup⟩
  · -- A vehicle that never arrives never departs again.
    have hlo := ((isFinite_iff_units htn).1 ht).1
    have hl := limit_pos
    have hinf : reading stop = .infinity .positive := by
      rw [isFinite_iff_units hn] at hf
      exact reading_of_infinite hn ((isFinite_iff_units hn).not.2 hf) (by omega)
    have hsum := reading_infinity_add hinf hc.defined hc.nonneg
    exact ⟨congrArg Float.Model.UnpackedFloat.isNaN hsum, hle.trans (congrArg units (hinf.trans hsum.symm)).le⟩

theorem nextLeg_cases {j j' : Journey} (h : nextLeg c j = some j') :
    ∃ x y speed, j'.itinerary = j.itinerary.apply (.setDestination j.time x y speed) ∧
      j'.time = departure j'.itinerary j.time c.pauseTime := by
  unfold nextLeg at h
  split at h
  · cases h
  · split at h
    · cases h
    · cases h
      exact ⟨_, _, _, rfl, rfl⟩

/-! ## Journeys until an end -/

/-- The clock of the journey is a number that is not below zero. -/
structure Underway (j : Journey) : Prop where
  defined : j.time.isNaN = false
  nonneg : 0 ≤ unitsOf j.time

theorem Underway.finite {j : Journey} (h : Underway j) (hlt : j.time < T) : j.time.isFinite = true := by
  have hl := limit_pos
  have hT := (abs_unitsOf_le T).2
  have hu := (lt_iff_units h.defined (not_nan_of_lt hlt).2).1 hlt
  have hnonneg := h.nonneg
  exact (isFinite_iff_units h.defined).2 ⟨by omega, by omega⟩

theorem Underway.next (hc : c.Admitted) {j j' : Journey} (h : Underway j) (hlt : j.time < T)
    (hj : nextLeg c j = some j') : Underway j' ∧ unitsOf j.time ≤ unitsOf j'.time := by
  obtain ⟨x, y, speed, -, htime⟩ := nextLeg_cases hj
  obtain ⟨hn, hle⟩ := departure_bounds hc j'.itinerary (h.finite hlt)
  rw [← htime] at hn hle
  exact ⟨⟨hn, h.nonneg.trans hle⟩, hle⟩

theorem travel_cases {j : Journey} {fuel : Nat} {it : Itinerary Float} (h : travel c T j fuel = .ok it) :
    (¬j.time < T ∧ it = j.itinerary) ∨
      (j.time < T ∧ ∃ j' n, fuel = n + 1 ∧ nextLeg c j = some j' ∧ travel c T j' n = .ok it) := by
  cases fuel with
  | zero =>
    rw [travel] at h
    split_ifs at h with hlt
    cases h
    exact .inl ⟨hlt, rfl⟩
  | succ n =>
    rw [travel] at h
    split_ifs at h with hlt
    · split at h
      · cases h
      · rename_i j' hj
        exact .inr ⟨hlt, j', n, rfl, hj, h⟩
    · cases h
      exact .inl ⟨hlt, rfl⟩

/-- A journey goes on by commands that are not before its clock. -/
theorem travel_commands (hc : c.Admitted) {j : Journey} {fuel : Nat} {it : Itinerary Float} (hj : Underway j)
    (h : travel c T j fuel = .ok it) :
    ∃ cs, it = cs.foldl Itinerary.apply j.itinerary ∧ Itinerary.NotBefore j.time cs := by
  induction fuel generalizing j with
  | zero =>
    obtain ⟨-, rfl⟩ | ⟨-, j', n, hn, -⟩ := travel_cases h
    · exact ⟨[], rfl, nofun⟩
    · cases hn
  | succ fuel ih =>
    obtain ⟨-, rfl⟩ | ⟨hlt, j', n, hn, hnext, hrest⟩ := travel_cases h
    · exact ⟨[], rfl, nofun⟩
    · cases hn
      obtain ⟨x, y, speed, hit, -⟩ := nextLeg_cases hnext
      obtain ⟨hj', hle⟩ := hj.next hc hlt hnext
      obtain ⟨cs, hcs, hlate⟩ := ih hj' hrest
      refine ⟨.setDestination j.time x y speed :: cs, by rw [hcs, hit]; rfl, List.forall_mem_cons.2 ⟨?_, hlate.mono hle⟩⟩
      exact ⟨j.time, rfl, hj.defined, le_refl _⟩

/-- The journey until the later end is the one until the earlier end, carried on. -/
theorem travel_extends (hc : c.Admitted) (hle : T₁ ≤ T₂) (h₁ : T₁.isNaN = false) (h₂ : T₂.isNaN = false) {j : Journey}
    {fuel₁ fuel₂ : Nat} {it₁ it₂ : Itinerary Float} (hj : Underway j) (ht₁ : travel c T₁ j fuel₁ = .ok it₁)
    (ht₂ : travel c T₂ j fuel₂ = .ok it₂) :
    ∃ cs, it₂ = cs.foldl Itinerary.apply it₁ ∧ Itinerary.NotBefore T₁ cs := by
  have stopped {j : Journey} {n : Nat} (hj : Underway j) (hnot : ¬j.time < T₁) (ht : travel c T₂ j n = .ok it₂) :
      ∃ cs, it₂ = cs.foldl Itinerary.apply j.itinerary ∧ Itinerary.NotBefore T₁ cs := by
    obtain ⟨cs, hcs, hlate⟩ := travel_commands hc hj ht
    rw [lt_iff_units hj.defined h₁] at hnot
    exact ⟨cs, hcs, hlate.mono (not_lt.1 hnot)⟩
  induction fuel₁ generalizing j fuel₂ with
  | zero =>
    obtain ⟨hnot, rfl⟩ | ⟨-, j', n, hn, -⟩ := travel_cases ht₁
    · exact stopped hj hnot ht₂
    · cases hn
  | succ fuel₁ ih =>
    obtain ⟨hnot, rfl⟩ | ⟨hlt, j', n, hn, hnext, hrest⟩ := travel_cases ht₁
    · exact stopped hj hnot ht₂
    · cases hn
      have hlt₂ : j.time < T₂ := by
        rw [lt_iff_units hj.defined h₁] at hlt
        rw [le_iff_units h₁ h₂] at hle
        exact (lt_iff_units hj.defined h₂).2 (by omega)
      -- Both journeys draw the same leg.
      obtain ⟨hnot, -⟩ | ⟨-, j'', n', -, hnext', hrest'⟩ := travel_cases ht₂
      · exact absurd hlt₂ hnot
      · rw [hnext] at hnext'
        cases hnext'
        exact ih (hj.next hc hlt hnext).1 hrest hrest'

/-- A journey only asks which times are before its end. -/
theorem travel_congr (hT : ∀ t, t < T₁ ↔ t < T₂) (j : Journey) (fuel : Nat) :
    travel c T₁ j fuel = travel c T₂ j fuel := by
  induction fuel generalizing j with
  | zero => simp only [travel, hT]
  | succ fuel ih => simp only [travel, hT, ih]

theorem travel_vehicles (n : UInt32) (T : Float) (j : Journey) (fuel : Nat) :
    travel { c with vehicles := n } T j fuel = travel c T j fuel := by
  induction fuel generalizing j with
  | zero => rfl
  | succ fuel ih =>
    have hnext : nextLeg { c with vehicles := n } j = nextLeg c j := rfl
    simp only [travel, hnext, ih]

/-! ## The journeys of all vehicles -/

theorem journey_vehicles (n : UInt32) (T : Float) (v : VehicleId) :
    journey { c with vehicles := n } T v = journey c T v := by
  have hdraw (g : Random.Generator) : drawPoint { c with vehicles := n } g = drawPoint c g := rfl
  simp only [journey, hdraw, travel_vehicles]

theorem journey_cases {v : VehicleId} {it : Itinerary Float} (h : journey c T v = .ok it) :
    ∃ x y g, drawPoint c (Random.forVehicle c.seed v) = some ((x, y), g) ∧
      travel c T ⟨.stay ⟨x, y, 0.0⟩, 0.0, g⟩ legBound = .ok it := by
  unfold journey at h
  split at h
  · cases h
  · rename_i x y g hdraw
    exact ⟨x, y, g, hdraw, h⟩

theorem underway_at_zero (it : Itinerary Float) (g : Random.Generator) : Underway ⟨it, 0.0, g⟩ := by
  have hdefined : (0.0 : Float).isNaN = false := rfl
  have hnonneg : 0 ≤ unitsOf 0.0 := by decide
  exact ⟨hdefined, hnonneg⟩

theorem before_congr (h₁ : T₁.isNaN = false) (h₂ : T₂.isNaN = false) (hle : T₁ ≤ T₂) (hge : T₂ ≤ T₁) (t : Float) :
    t < T₁ ↔ t < T₂ := by
  rw [le_iff_units h₁ h₂] at hle
  rw [le_iff_units h₂ h₁] at hge
  constructor
  · intro h
    have ht := (not_nan_of_lt h).1
    rw [lt_iff_units ht h₁] at h
    exact (lt_iff_units ht h₂).2 (by omega)
  · intro h
    have ht := (not_nan_of_lt h).1
    rw [lt_iff_units ht h₂] at h
    exact (lt_iff_units ht h₁).2 (by omega)

theorem journey_congr (hT : ∀ t, t < T₁ ↔ t < T₂) (v : VehicleId) : journey c T₁ v = journey c T₂ v := by
  simp only [journey, travel_congr hT]

/-- What was drawn until the earlier end stays, and what comes behind it starts at that end or later. -/
theorem journey_extends (hc : c.Admitted) (hle : T₁ ≤ T₂) (h₁ : T₁.isNaN = false) (h₂ : T₂.isNaN = false)
    {v : VehicleId} {it₁ it₂ : Itinerary Float} (hj₁ : journey c T₁ v = .ok it₁) (hj₂ : journey c T₂ v = .ok it₂) :
    it₂.initial = it₁.initial ∧
    (∃ more, it₂.legs.toList = it₁.legs.toList ++ more ∧ ∀ leg ∈ more, T₁ ≤ leg.startTime) ∧
    ∀ now, now < T₁ → it₂.position now = it₁.position now ∧ it₂.velocity now = it₁.velocity now := by
  obtain ⟨x, y, g, hdraw, ht₁⟩ := journey_cases hj₁
  obtain ⟨x', y', g', hdraw', ht₂⟩ := journey_cases hj₂
  rw [hdraw] at hdraw'
  cases hdraw'
  have hstart := underway_at_zero (.stay ⟨x, y, 0.0⟩) g
  obtain ⟨cs, hcs, hfrom⟩ := travel_commands hc hstart ht₁
  obtain ⟨more, hmore, hlate⟩ := travel_extends hc hle h₁ h₂ hstart ht₁ ht₂
  refine ⟨by rw [hmore, Itinerary.initial_foldl hlate], ?_, ?_⟩
  · rw [hmore]
    exact Itinerary.legs_foldl h₁ hlate it₁
  · intro now hnow
    have hshown := Itinerary.shown_foldl ⟨x, y, 0.0⟩ hfrom.defined hlate hnow
    rwa [List.foldl_append, ← hcs, ← hmore] at hshown

theorem foldlM_addJourney_succ {n : Nat} {t : Itineraries}
    (h : (List.range (n + 1)).foldlM (c.addJourney T) ∅ = .ok t) :
    ∃ t' it, (List.range n).foldlM (c.addJourney T) ∅ = .ok t' ∧ journey c T ⟨n.toUInt32⟩ = .ok it ∧
      t = t'.insert ⟨n.toUInt32⟩ it := by
  rw [List.range_succ, List.foldlM_append] at h
  cases hfront : (List.range n).foldlM (c.addJourney T) ∅ with
  | error e =>
    rw [hfront] at h
    cases h
  | ok t' =>
    rw [hfront] at h
    cases hit : journey c T ⟨n.toUInt32⟩ with
    | error e => simp [addJourney, hit, bind, Except.bind] at h
    | ok it =>
      simp [addJourney, hit, bind, Except.bind, pure, Except.pure] at h
      exact ⟨t', it, rfl, rfl, h.symm⟩

/-- The map holds for each number the journey of that number. -/
theorem foldlM_addJourney {n : Nat} (hn : n ≤ UInt32.size) {t : Itineraries}
    (h : (List.range n).foldlM (c.addJourney T) ∅ = .ok t) {v : VehicleId} (hv : v.node.toNat < n) :
    ∃ it, journey c T v = .ok it ∧ t[v]? = some it := by
  induction n generalizing t with
  | zero => omega
  | succ n ih =>
    obtain ⟨t', it, hfront, hit, rfl⟩ := foldlM_addJourney_succ h
    have hnode : n.toUInt32.toNat = n := UInt32.toNat_ofNat_of_lt' hn
    rw [getElem?_insert]
    by_cases hnew : (⟨n.toUInt32⟩ : VehicleId) = v
    · rw [if_pos hnew, ← hnew]
      exact ⟨it, hit, rfl⟩
    · rw [if_neg hnew]
      refine ih (by omega) hfront (lt_of_le_of_ne (Nat.lt_succ_iff.1 hv) fun hsame => hnew ?_)
      cases v
      exact congrArg VehicleId.mk (UInt32.toNat_inj.1 (hnode.trans hsame.symm))

theorem generate_cases {t : Itineraries} (h : generate c T = .ok t) :
    c.validate = .ok () ∧ T.isFinite = true ∧ (List.range c.vehicles.toNat).foldlM (c.addJourney T) ∅ = .ok t := by
  unfold generate at h
  cases hv : c.validate with
  | error e =>
    rw [hv] at h
    cases h
  | ok u =>
    rw [hv] at h
    by_cases hf : T.isFinite = true
    · rw [if_pos hf] at h
      exact ⟨rfl, hf, h⟩
    · rw [if_neg hf] at h
      cases h

theorem generate_journey {n : UInt32} {t : Itineraries} (h : generate { c with vehicles := n } T = .ok t) {v : VehicleId}
    (hv : v.node < n) : ∃ it, journey c T v = .ok it ∧ t[v]? = some it := by
  obtain ⟨-, -, hrun⟩ := generate_cases h
  obtain ⟨it, hit, hget⟩ := foldlM_addJourney n.toNat_lt.le hrun (UInt32.lt_iff_toNat_lt.1 hv)
  exact ⟨it, journey_vehicles n T v ▸ hit, hget⟩

/-- Two runs with other numbers of vehicles and other ends agree on every vehicle that both have: the later end only adds
legs that start at the earlier end or later, and the same end gives the same model. -/
theorem generate_prefix {n m : UInt32} {t₁ t₂ : Itineraries} (hle : T₁ ≤ T₂)
    (h₁ : generate { c with vehicles := n } T₁ = .ok t₁) (h₂ : generate { c with vehicles := m } T₂ = .ok t₂)
    (v : VehicleId) (hn : v.node < n) (hm : v.node < m) :
    ∃ it₁ it₂ more, t₁[v]? = some it₁ ∧ t₂[v]? = some it₂ ∧
      it₂.initial = it₁.initial ∧ it₂.legs.toList = it₁.legs.toList ++ more ∧ (∀ leg ∈ more, T₁ ≤ leg.startTime) ∧
      (∀ now, now < T₁ → it₂.position now = it₁.position now ∧ it₂.velocity now = it₁.velocity now) ∧
      (T₂ ≤ T₁ → it₂ = it₁) := by
  obtain ⟨hvalid, hfin₁, -⟩ := generate_cases h₁
  obtain ⟨-, hfin₂, -⟩ := generate_cases h₂
  have hn₁ : T₁.isNaN = false := isNaN_of_isFinite hfin₁
  have hn₂ : T₂.isNaN = false := isNaN_of_isFinite hfin₂
  obtain ⟨it₁, hit₁, hget₁⟩ := generate_journey h₁ hn
  obtain ⟨it₂, hit₂, hget₂⟩ := generate_journey h₂ hm
  have hc : c.Admitted := admitted_of_validate hvalid
  obtain ⟨hinit, ⟨more, hmore, hlate⟩, hshown⟩ := journey_extends hc hle hn₁ hn₂ hit₁ hit₂
  refine ⟨it₁, it₂, more, hget₁, hget₂, hinit, hmore, hlate, hshown, fun hge => ?_⟩
  rw [journey_congr (before_congr hn₁ hn₂ hle hge), hit₂] at hit₁
  cases hit₁
  rfl

def yard : RandomMovement := ⟨0, 100.0, 50.0, 5.0, 15.0, 2.0, 4711⟩

/-- The number of legs that a vehicle of the yard is given until an end. -/
def yardLegs (n : UInt32) (T : Float) (v : VehicleId) : Option Nat :=
  match generate { yard with vehicles := n } T with
  | .error _ => none
  | .ok t => t[v]?.map (·.legs.size)

theorem yardLegs_some {n : UInt32} {T : Float} {v : VehicleId} {k : Nat} (h : yardLegs n T v = some k) :
    ∃ t, generate { yard with vehicles := n } T = .ok t ∧ t[v]?.map (·.legs.size) = some k := by
  unfold yardLegs at h
  split at h
  · cases h
  · exact ⟨_, ‹_›, h⟩

theorem yard_prefix : ∃ t₁ t₂ it₁ it₂ more,
    generate { yard with vehicles := 1 } 8.5 = .ok t₁ ∧ generate { yard with vehicles := 3 } 20.0 = .ok t₂ ∧
      t₁[(⟨0⟩ : VehicleId)]? = some it₁ ∧ t₂[(⟨0⟩ : VehicleId)]? = some it₂ ∧
      it₁.legs.size = 2 ∧ it₂.legs.size = 4 ∧ it₂.legs.toList = it₁.legs.toList ++ more ∧
      (∀ leg ∈ more, 8.5 ≤ leg.startTime) ∧ it₂.position 8.0 = it₁.position 8.0 := by
  have hfirst : yardLegs 1 8.5 ⟨0⟩ = some 2 := by decide +kernel
  have hsecond : yardLegs 3 20.0 ⟨0⟩ = some 4 := by decide +kernel
  obtain ⟨t₁, h₁, hlegs₁⟩ := yardLegs_some hfirst
  obtain ⟨t₂, h₂, hlegs₂⟩ := yardLegs_some hsecond
  obtain ⟨it₁, it₂, more, hget₁, hget₂, -, hmore, hlate, hshown, -⟩ :=
    generate_prefix (by decide +kernel) h₁ h₂ ⟨0⟩ (by decide) (by decide)
  rw [hget₁] at hlegs₁
  rw [hget₂] at hlegs₂
  exact ⟨t₁, t₂, it₁, it₂, more, h₁, h₂, hget₁, hget₂, Option.some.inj hlegs₁, Option.some.inj hlegs₂, hmore, hlate,
    (hshown 8.0 (by decide +kernel)).1⟩

end RandomMovement

end FleetEnergy

import FleetEnergy.Proofs.Mobility.Itinerary

/-! What a vehicle is under way to, and the commands that got it there. A change of place takes the movement over, and
of all the commands those that are not late add one leg each. -/
namespace FleetEnergy
open OrderedScalar
set_option autoImplicit false

namespace Itinerary

variable {α : Type} [Scalar α] {it start : Itinerary α} {leg : Leg α} {c : MoveCommand α} {t now : α}

/-! ## The leg under way -/

/-- Velocity and arrival time of the leg under way; at rest there is nothing left to drive. -/
def underway (it : Itinerary α) (t : α) : Vec3 α × α :=
  match it.legAt t with
  | none => (.zero, t)
  | some leg => if t < leg.arrivalTime then (leg.velocity, leg.arrivalTime) else (.zero, t)

theorem placeLeg_eq (it : Itinerary α) (t : α) (p : Vec3 α) :
    it.placeLeg t p =
      ⟨t, p, p + (it.underway t).1.scale ((it.underway t).2 - t), (it.underway t).1, (it.underway t).2⟩ := by
  unfold placeLeg underway
  cases it.legAt t <;> rfl

theorem underway_of_running (hleg : it.legAt t = some leg) (h : t < leg.arrivalTime) :
    it.underway t = (leg.velocity, leg.arrivalTime) := by
  simp only [underway, hleg, if_pos h]

theorem underway_of_arrived (hleg : it.legAt t = some leg) (h : ¬t < leg.arrivalTime) : it.underway t = (.zero, t) := by
  simp only [underway, hleg, if_neg h]

theorem underway_cases (it : Itinerary α) (t : α) : t < (it.underway t).2 ∨ it.underway t = (.zero, t) := by
  cases hleg : it.legAt t with
  | none => exact .inr (by simp only [underway, hleg])
  | some leg =>
    by_cases h : t < leg.arrivalTime
    · exact .inl (by rwa [underway_of_running hleg h])
    · exact .inr (underway_of_arrived hleg h)

theorem velocity_eq_underway (it : Itinerary α) (t : α) : it.velocity t = (it.underway t).1 := by
  unfold velocity
  cases hleg : it.legAt t with
  | none => simp only [underway, hleg]
  | some leg =>
    by_cases h : t < leg.arrivalTime
    · simp only [underway_of_running hleg h, Leg.velocityAt, if_pos h]
    · simp only [underway_of_arrived hleg h, Leg.velocityAt, if_neg h]

/-! ## Accepted commands -/

/-- The commands that are not late when they are applied one after the other. -/
def accepted (it : Itinerary α) : List (MoveCommand α) → List (MoveCommand α)
  | [] => []
  | c :: cs =>
    if c.time?.any it.isLate then accepted (it.apply c) cs else c :: accepted (it.apply c) cs

theorem accepted_concat (it : Itinerary α) (cs : List (MoveCommand α)) (c : MoveCommand α) :
    accepted it (cs ++ [c]) =
      if c.time?.any (cs.foldl apply it).isLate then accepted it cs else accepted it cs ++ [c] := by
  induction cs generalizing it with
  | nil => rfl
  | cons first cs ih =>
    rw [List.cons_append, accepted, accepted, ih, List.foldl_cons]
    split_ifs <;> rfl

variable [OrderedScalar α]

/-- Commands that are not late, one after the other, each with the leg that it adds. -/
inductive Course (start : Itinerary α) : List (MoveCommand α) → Itinerary α → Prop
  | outset : Course start [] start
  | next {acc : List (MoveCommand α)} {it : Itinerary α} {c : MoveCommand α} {t : α} {leg : Leg α} :
      Course start acc it → c.time? = some t → Defined t → it.isLate t = false → c.leg? it = some leg →
      leg.startTime = t → Course start (acc ++ [c]) (it.addLeg leg)

theorem course_accepted (start : Itinerary α) (cs : List (MoveCommand α))
    (hcs : ∀ c ∈ cs, ∃ t, c.time? = some t ∧ Defined t) : Course start (accepted start cs) (cs.foldl apply start) := by
  induction cs using List.reverseRecOn with
  | nil => exact .outset
  | append_singleton cs c ih =>
    have hcourse := ih fun c' hc' => hcs c' (List.mem_append_left _ hc')
    obtain ⟨t, ht, hd⟩ := hcs c (by simp)
    rw [accepted_concat, List.foldl_append, List.foldl_cons, List.foldl_nil, ht, Option.any_some]
    cases hl : (cs.foldl apply start).isLate t with
    | true =>
      rw [apply_of_late ht hl]
      exact hcourse
    | false =>
      obtain ⟨leg, hleg, happly⟩ := apply_of_timely ht hl
      rw [happly]
      exact .next hcourse ht hd hl hleg (startTime_of_leg? ht hleg)

theorem Ordered.shown_before (h : it.Ordered) (ht : Defined leg.startTime) (hl : it.isLate leg.startTime = false)
    (hn : Defined now) (hlt : ¬leg.startTime ≤ now) :
    (it.addLeg leg).position now = it.position now ∧ (it.addLeg leg).velocity now = it.velocity now :=
  shown_congr (h.legAt_before ht hl hn hlt) fun _ => rfl

theorem Ordered.shown_from (h : it.Ordered) (ht : Defined leg.startTime) (hl : it.isLate leg.startTime = false)
    (hn : Defined now) (hle : leg.startTime ≤ now) :
    (it.addLeg leg).position now = Leg.positionAt leg now ∧ (it.addLeg leg).velocity now = Leg.velocityAt leg now := by
  unfold position velocity
  rw [h.legAt_from ht hl hn hle]
  exact ⟨rfl, rfl⟩

variable {acc : List (MoveCommand α)}

theorem Course.ordered (h : Course start acc it) (hstart : start.Ordered) : it.Ordered := by
  induction h with
  | outset => exact hstart
  | next _ _ hd hl _ hleg ih =>
    subst hleg
    exact ih.addLeg hd hl

/-- Commands of later times do not show yet. -/
theorem Course.shown_start (h : Course start acc it) (hstart : start.Ordered) (hn : Defined now)
    (hlater : ∀ c ∈ acc, ∀ t, c.time? = some t → ¬t ≤ now) :
    it.position now = start.position now ∧ it.velocity now = start.velocity now := by
  induction h with
  | outset => exact ⟨rfl, rfl⟩
  | @next acc it c t leg hcourse ht hd hl _ hleg ih =>
    subst hleg
    have hnot := hlater c (by simp) _ ht
    have hkeep := (hcourse.ordered hstart).shown_before hd hl hn hnot
    have hbefore := ih fun c' hc' => hlater c' (List.mem_append_left _ hc')
    exact ⟨hkeep.1.trans hbefore.1, hkeep.2.trans hbefore.2⟩

end Itinerary

end FleetEnergy

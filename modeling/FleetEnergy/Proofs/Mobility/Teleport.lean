import FleetEnergy.Proofs.Binary64.Zero
import FleetEnergy.Proofs.Clock
import FleetEnergy.Proofs.Mobility.Trace
import FleetEnergy.Proofs.Mobility.Underway
import FleetEnergy.Proofs.Vec3

/-! Coordinates set at one time. Each statement reads the place back and starts a leg of its own; all of them together
are one change of place: each coordinate is the one that was set last, and the movement goes on as it was. -/
namespace FleetEnergy
open Binary64
set_option autoImplicit false

/-! ## Places up to the sign of zeros -/

namespace Vec3

/-- The same place, up to the signs of coordinates that are zero. -/
def Alike (p q : Vec3 Float) : Prop := ∀ axis, SameUpToZero (p.coordinate axis) (q.coordinate axis)

variable {p q r v : Vec3 Float}

theorem Alike.refl (p : Vec3 Float) : Alike p p := fun _ => .refl _

theorem Alike.symm (h : Alike p q) : Alike q p := fun axis => (h axis).symm

theorem Alike.trans (h : Alike p q) (h' : Alike q r) : Alike p r := fun axis => (h axis).trans (h' axis)

theorem coordinate_withAxis (p : Vec3 Float) (axis axis' : Axis) (value : Float) :
    (p.withAxis axis value).coordinate axis' = if axis = axis' then value else p.coordinate axis' := by
  cases axis <;> cases axis' <;> rfl

theorem finite_coordinate (h : v.isFinite = true) (axis : Axis) : (v.coordinate axis).isFinite = true := by
  have hall : (v.x.isFinite = true ∧ v.y.isFinite = true) ∧ v.z.isFinite = true := by
    rw [← Bool.and_eq_true, ← Bool.and_eq_true]
    exact h
  cases axis with
  | x => exact hall.1.1
  | y => exact hall.1.2
  | z => exact hall.2

theorem Alike.withAxis (h : Alike p q) (axis : Axis) (value : Float) :
    Alike (p.withAxis axis value) (q.withAxis axis value) := fun axis' => by
  rw [coordinate_withAxis, coordinate_withAxis]
  split_ifs
  · exact .refl _
  · exact h axis'

theorem Alike.add (h : Alike p q) (w : Vec3 Float) : Alike (p + w) (q + w) := fun axis => by
  rw [coordinate_add, coordinate_add]
  exact (h axis).add _

/-- A movement that has just begun has led nowhere yet. -/
theorem Alike.add_begun (p : Vec3 Float) (hv : v.isFinite = true) {t : Float} (ht : t.isFinite = true) :
    Alike (p + v.scale (t - t)) p := fun axis => by
  rw [coordinate_add, coordinate_scale]
  exact .add_isZero ((isZero_sub_self ht).mul (finite_coordinate hv axis)) _

end Vec3

/-! ## A change of place -/

namespace Itinerary

variable {it it' it'' : Itinerary Float} {leg : Leg Float} {t now : Float} {p q : Vec3 Float}

theorem le_self (ht : t.isNaN = false) : t ≤ t := (le_iff_units ht ht).2 le_rfl

/-- At a time that is none, no leg counts. -/
theorem legAt_nan (it : Itinerary Float) (hn : now.isNaN = true) : it.legAt now = none := by
  have hnot (leg : Leg Float) : started now leg = false := decide_eq_false fun hle => by
    obtain ⟨-, hd⟩ := not_nan_of_le hle
    rw [hn] at hd
    cases hd
  rw [legAt_eq, partitionPoint_list (List.pairwise_of_forall fun a b h => by rw [hnot b] at h; cases h)]
  rw [List.filter_eq_nil_iff.2 fun leg _ => by simp [hnot leg]]
  rfl

/-- What stays as it is when the place changes at `t`, any number of times. -/
structure Kept (it : Itinerary Float) (t : Float) (it' : Itinerary Float) : Prop where
  initial : it'.initial = it.initial
  ordered : it'.Ordered
  timely : it'.isLate t = false
  before : ∀ now : Float, ¬t ≤ now → it'.legAt now = it.legAt now
  underway : it'.underway t = it.underway t

/-- The last of the changes at `t` was one to the place `p`. -/
structure Placed (it : Itinerary Float) (t : Float) (p : Vec3 Float) (it' : Itinerary Float) : Prop
    extends Kept it t it' where
  from_time : ∀ now : Float, t ≤ now → it'.legAt now = some (it.placeLeg t p)

/-- One change more, whatever changes there were before. -/
theorem Kept.place (h : Kept it t it') (ht : t.isNaN = false) (p : Vec3 Float) :
    Placed it t p (it'.setPosition t p) := by
  have hleg : it'.placeLeg t p = it.placeLeg t p := by rw [placeLeg_eq, placeLeg_eq, h.underway]
  have happly : it'.setPosition t p = it'.addLeg (it.placeLeg t p) := by
    rw [setPosition, h.timely, ← hleg]
    rfl
  have hfrom (now : Float) (hle : t ≤ now) : (it'.addLeg (it.placeLeg t p)).legAt now = some (it.placeLeg t p) :=
    h.ordered.legAt_from ht h.timely (not_nan_of_le hle).2 hle
  rw [happly]
  refine ⟨⟨h.initial, h.ordered.addLeg ht h.timely, ?_, fun now hnot => ?_, ?_⟩, hfrom⟩
  · rw [isLate, lastCommandTime_addLeg]
    exact decide_eq_false (lt_irrefl t)
  · rw [← h.before now hnot]
    cases hn : now.isNaN with
    | true => rw [legAt_nan _ hn, legAt_nan _ hn]
    | false => exact h.ordered.legAt_before ht h.timely hn hnot
  · -- The new leg drives on with what was under way, or it is over when it starts.
    have hat := hfrom t (le_self ht)
    obtain hrun | hrest := underway_cases it t
    · have hrun' : t < (it.placeLeg t p).arrivalTime := by rwa [placeLeg_eq]
      rw [underway_of_running hat hrun', placeLeg_eq]
    · rw [hrest]
      refine underway_of_arrived hat ?_
      rw [placeLeg_eq, hrest]
      exact lt_irrefl t

theorem Kept.refl (h : it.Ordered) (hl : it.isLate t = false) : Kept it t it := ⟨rfl, h, hl, fun _ _ => rfl, rfl⟩

/-- Where the vehicle goes after `t` and how fast is what it was under way to, from the new place. -/
theorem Placed.position_from (h : Placed it t p it') (hle : t ≤ now) :
    it'.position now = p + (it.underway t).1.scale
      ((if (it.underway t).2 ≤ now then (it.underway t).2 else now) - t) := by
  unfold position
  rw [h.from_time now hle, placeLeg_eq]
  dsimp only [Leg.positionAt]
  split_ifs <;> rfl

theorem Placed.position_before (h : Placed it t p it') (hnot : ¬t ≤ now) : it'.position now = it.position now :=
  (shown_congr (h.before now hnot) fun _ => h.initial).1

theorem Placed.velocity (h : Placed it t p it') (hit : Kept it t it) (ht : t.isNaN = false) (now : Float) :
    it'.velocity now = it.velocity now := by
  by_cases hle : t ≤ now
  · have hlast : it.legAt now = it.legAt t := by
      rw [hit.ordered.legAt_last ht hit.timely (not_nan_of_le hle).2 hle,
        hit.ordered.legAt_last ht hit.timely ht (le_self ht)]
    unfold Itinerary.velocity
    rw [h.from_time now hle, hlast, placeLeg_eq]
    cases hleg : it.legAt t with
    | none => simp only [underway, hleg, Leg.velocityAt, ite_self]
    | some leg =>
      by_cases hrun : t < leg.arrivalTime
      · simp only [underway_of_running hleg hrun, Leg.velocityAt]
      · have harrived : ¬now < leg.arrivalTime := fun hlt => by
          obtain ⟨hn, ha⟩ := not_nan_of_lt hlt
          exact hrun ((lt_iff_units ht ha).2 (((le_iff_units ht hn).1 hle).trans_lt ((lt_iff_units hn ha).1 hlt)))
        simp only [underway_of_arrived hleg hrun, Leg.velocityAt, ite_self, if_neg harrived]
  · exact (shown_congr (h.before now hle) fun _ => h.initial).2

theorem Placed.position_at (h : Placed it t p it') (ht : t.isFinite = true) (hv : (it.velocity t).isFinite = true) :
    Vec3.Alike (it'.position t) p := by
  have hsame : (if (it.underway t).2 ≤ t then (it.underway t).2 else t) = t := by
    split_ifs with harrived
    · obtain hrun | hrest := underway_cases it t
      · obtain ⟨hn, ha⟩ := not_nan_of_lt hrun
        exact absurd ((lt_iff_units hn ha).1 hrun) ((le_iff_units ha hn).1 harrived).not_gt
      · rw [hrest]
    · rfl
  rw [h.position_from (le_self (isNaN_of_isFinite ht)), hsame, ← velocity_eq_underway]
  exact .add_begun p hv ht

theorem Placed.position_alike (h : Placed it t p it') (h' : Placed it t q it'') (hpq : Vec3.Alike p q) (now : Float) :
    Vec3.Alike (it'.position now) (it''.position now) := by
  by_cases hle : t ≤ now
  · rw [h.position_from hle, h'.position_from hle]
    exact hpq.add _
  · rw [h.position_before hle, h'.position_before hle]
    exact .refl _

theorem Placed.restTime (h : Placed it t p it') (ht : t.isNaN = false) : it'.restTime = some (it.underway t).2 := by
  unfold Itinerary.restTime
  rw [← Array.getLast?_toList, ← h.ordered.legAt_last ht h.timely ht (le_self ht), h.from_time t (le_self ht),
    placeLeg_eq]
  rfl

end Itinerary

/-! ## Statements of one time -/

namespace Statement

/-- A statement that sets a coordinate of a node at a time. -/
def SetsAt (id : VehicleId) (t : Float) (s : Statement) : Prop :=
  s.node = id ∧ s.time = some t ∧ ∃ axis value, s.order = .set axis value

/-- The coordinate that a statement sets, if it is one of the axis. -/
def setting? (axis : Axis) (s : Statement) : Option Float :=
  match s.order with
  | .set axis' value => if axis' = axis then some value else none
  | .setDestination .. => none

end Statement

namespace Trace

variable {ss ss' : List Statement} {s : Statement} {id : VehicleId} {t : Float} {p q : Vec3 Float}

/-- The values that statements set for an axis, one after the other. -/
def settings (axis : Axis) (ss : List Statement) : List Float := ss.filterMap (Statement.setting? axis)

/-- A place with the last of the values that are set for each axis. -/
def target (ss : List Statement) (p : Vec3 Float) : Vec3 Float where
  x := ((settings .x ss).getLast?).getD p.x
  y := ((settings .y ss).getLast?).getD p.y
  z := ((settings .z ss).getLast?).getD p.z

theorem coordinate_target (ss : List Statement) (p : Vec3 Float) (axis : Axis) :
    (target ss p).coordinate axis = ((settings axis ss).getLast?).getD (p.coordinate axis) := by
  cases axis <;> rfl

theorem target_nil (p : Vec3 Float) : target [] p = p := rfl

theorem target_cons {axis : Axis} {value : Float} (hs : s.order = .set axis value) (ss : List Statement)
    (p : Vec3 Float) : target (s :: ss) p = target ss (p.withAxis axis value) := by
  cases axis <;>
    simp [target, settings, Statement.setting?, hs, Vec3.withAxis, List.getLast?_cons]

theorem target_congr (h : ∀ axis, settings axis ss = settings axis ss') (p : Vec3 Float) :
    target ss p = target ss' p := by
  unfold target
  rw [h .x, h .y, h .z]

/-- The last value for an axis does not depend on what is set for the others. -/
theorem settings_swap {s₁ s₂ : Statement} {axis₁ axis₂ : Axis} {v₁ v₂ : Float} (h₁ : s₁.order = .set axis₁ v₁)
    (h₂ : s₂.order = .set axis₂ v₂) (hne : axis₁ ≠ axis₂) (before after : List Statement) (axis : Axis) :
    settings axis (before ++ s₁ :: s₂ :: after) = settings axis (before ++ s₂ :: s₁ :: after) := by
  unfold settings
  rw [List.filterMap_append, List.filterMap_append]
  congr 1
  by_cases ha : axis₁ = axis
  · have hb : axis₂ ≠ axis := fun hb => hne (ha.trans hb.symm)
    simp [Statement.setting?, h₁, h₂, ha, hb]
  · simp [List.filterMap_cons, Statement.setting?, h₁, ha]

open Itinerary

theorem applyTo_of_setsAt {axis : Axis} {value : Float} (ht : s.time = some t) (hs : s.order = .set axis value)
    (it : Itinerary Float) : s.applyTo it = it.setPosition t ((it.position t).withAxis axis value) := by
  simp only [Statement.applyTo, Statement.command?, ht, hs, Itinerary.apply]

/-- A group of statements comes down to the last change of place that it makes. -/
theorem run_of_kept {it it' : Itinerary Float} (h : Kept it t it') (ht : t.isNaN = false) (hne : ss ≠ [])
    (hss : ∀ s ∈ ss, s.SetsAt id t) :
    ∃ q, Placed it t q (ss.foldl (fun it s => s.applyTo it) it') ∧
      (t.isFinite = true → (it.velocity t).isFinite = true →
        ∀ p, Vec3.Alike (it'.position t) p → Vec3.Alike q (target ss p)) := by
  -- From the first change on the invariant is `Placed`, so that the last change is all that remains.
  induction ss generalizing it' with
  | nil => exact absurd rfl hne
  | cons s ss ih =>
    obtain ⟨hs, hrest⟩ := List.forall_mem_cons.1 hss
    obtain ⟨-, htime, axis, value, horder⟩ := hs
    rw [List.foldl_cons, applyTo_of_setsAt htime horder]
    have hplaced := h.place ht ((it'.position t).withAxis axis value)
    by_cases hlast : ss = []
    · subst hlast
      refine ⟨_, hplaced, fun _ _ p hp => ?_⟩
      rw [target_cons horder, target_nil]
      exact hp.withAxis axis value
    · obtain ⟨q, hq, halike⟩ := ih hplaced.toKept hlast hrest
      refine ⟨q, hq, fun hf hv p hp => ?_⟩
      rw [target_cons horder]
      exact halike hf hv _ ((hplaced.position_at hf hv).trans (hp.withAxis axis value))

theorem itinerary_foldl_step (t : Itineraries) (ns : List Notice) (hss : ∀ s ∈ ss, s.node = id) :
    itinerary (ss.foldl step (t, ns)).1 id = ss.foldl (fun it s => s.applyTo it) (itinerary t id) := by
  have hown : ofNode id ss = ss := List.filter_eq_self.2 fun s hs => decide_eq_true (hss s hs)
  rw [itinerary, foldl_step_get, hown, itinerary]
  cases t[id]? with
  | some it => rw [follow_some]; rfl
  | none =>
    rw [follow_none]
    split_ifs with hnil
    · rw [hnil]
      rfl
    · rfl

/-- Of a node that was moved by any commands, statements that set its coordinates at a time not before the last of them
act together as one change of place: the velocity is at any time what it was, a leg under way ends when it would have
ended, and nothing changes before the time. At that time each coordinate is the last that was set for its axis, or what
it was if none was set; so statements for different axes may change places. Places agree up to the sign of zeros. -/
theorem settings_act_as_one_move (world : Itineraries) (ns : List Notice) (id : VehicleId) (home : Vec3 Float)
    (cs : List (MoveCommand Float)) (hcs : ∀ c ∈ cs, ∀ u, c.time? = some u → u.isNaN = false)
    (hmade : itinerary world id = cs.foldl Itinerary.apply (.stay home)) (t : Float) (ht : t.isNaN = false)
    (hl : (itinerary world id).isLate t = false) (ss : List Statement) (hne : ss ≠ [])
    (hss : ∀ s ∈ ss, s.SetsAt id t) :
    let it := itinerary world id
    let after (ss : List Statement) := itinerary (ss.foldl step (world, ns)).1 id
    let moved := it.setPosition t (target ss (it.position t))
    (∀ now, (after ss).velocity now = it.velocity now) ∧
    (∀ leg, it.legAt t = some leg → t < leg.arrivalTime → (after ss).restTime = some leg.arrivalTime) ∧
    (∀ now, ¬t ≤ now → (after ss).position now = it.position now) ∧
    (t.isFinite = true → (it.velocity t).isFinite = true →
      (∀ axis, SameUpToZero (((after ss).position t).coordinate axis)
        (((settings axis ss).getLast?).getD ((it.position t).coordinate axis))) ∧
      (after ss).restTime = moved.restTime ∧
      (∀ now, (after ss).velocity now = moved.velocity now ∧
        Vec3.Alike ((after ss).position now) (moved.position now)) ∧
      ∀ before s₁ s₂ rest axis₁ axis₂ v₁ v₂, ss = before ++ s₁ :: s₂ :: rest →
        s₁.order = .set axis₁ v₁ → s₂.order = .set axis₂ v₂ → axis₁ ≠ axis₂ →
        ∀ now, (after ss).velocity now = (after (before ++ s₂ :: s₁ :: rest)).velocity now ∧
          Vec3.Alike ((after ss).position now) ((after (before ++ s₂ :: s₁ :: rest)).position now)) := by
  intro it after moved
  have hordered : it.Ordered := by
    obtain ⟨es, hj⟩ := exists_journal home cs hcs
    rw [show it = _ from hmade]
    exact (hj.recorded hcs).ordered
  have hkept : Kept it t it := .refl hordered hl
  -- What a group comes down to, for this one and for one in another order.
  have hgroup (ss : List Statement) (hne : ss ≠ []) (hss : ∀ s ∈ ss, s.SetsAt id t) : ∃ q, Placed it t q (after ss) ∧
      (t.isFinite = true → (it.velocity t).isFinite = true → Vec3.Alike q (target ss (it.position t))) := by
    obtain ⟨q, hq, halike⟩ := run_of_kept hkept ht hne hss
    rw [← itinerary_foldl_step world ns fun s hs => (hss s hs).1] at hq
    exact ⟨q, hq, fun hf hv => halike hf hv _ (.refl _)⟩
  obtain ⟨q, hq, hqt⟩ := hgroup ss hne hss
  refine ⟨hq.velocity hkept ht, fun leg hleg hrun => ?_, fun now => hq.position_before, fun hf hv => ?_⟩
  · rw [hq.restTime ht, underway_of_running hleg hrun]
  have hmoved : Placed it t _ moved := hkept.place ht _
  refine ⟨fun axis => ?_, by rw [hq.restTime ht, hmoved.restTime ht], fun now => ⟨?_, ?_⟩, ?_⟩
  · rw [← coordinate_target]
    exact (hq.position_at hf hv).trans (hqt hf hv) axis
  · rw [hq.velocity hkept ht, hmoved.velocity hkept ht]
  · exact hq.position_alike hmoved (hqt hf hv) now
  · rintro before s₁ s₂ rest axis₁ axis₂ v₁ v₂ rfl h₁ h₂ hdiff now
    have hswap : ∀ s ∈ before ++ s₂ :: s₁ :: rest, s.SetsAt id t := fun s hs =>
      hss s (((List.Perm.swap s₁ s₂ rest).append_left before).mem_iff.1 hs)
    obtain ⟨q', hq', hqt'⟩ := hgroup _ (by simp) hswap
    have hsame := target_congr (settings_swap h₁ h₂ hdiff before rest) (it.position t)
    have hboth := (hqt hf hv).trans (hsame ▸ (hqt' hf hv).symm)
    exact ⟨by rw [hq.velocity hkept ht, hq'.velocity hkept ht], hq.position_alike hq' hboth now⟩

/-- A node that has been sent on its way. -/
def errand : List (MoveCommand Float) := [.setDestination 2.0 30.0 40.0 10.0]

def sent : Itineraries := (∅ : Itineraries).insert ⟨7⟩ (errand.foldl Itinerary.apply (.stay .zero))

/-- On its way it is moved along one axis, along another, and once more along the first. -/
def nudges : List Statement :=
  [⟨some 5.0, ⟨7⟩, .set .x 1.0⟩, ⟨some 5.0, ⟨7⟩, .set .z 2.0⟩, ⟨some 5.0, ⟨7⟩, .set .x 3.0⟩]

theorem nudges_act_as_one_move :
    (itinerary sent ⟨7⟩).isLate 5.0 = false ∧ nudges ≠ [] ∧ (∀ s ∈ nudges, s.SetsAt ⟨7⟩ 5.0) ∧
      let after := itinerary (nudges.foldl step (sent, [])).1 ⟨7⟩
      (∀ now, after.velocity now = (itinerary sent ⟨7⟩).velocity now) ∧
      after.restTime = some 7.0 ∧
      SameUpToZero (after.position 5.0).x 3.0 ∧ SameUpToZero (after.position 5.0).z 2.0 ∧
      SameUpToZero (after.position 5.0).y ((itinerary sent ⟨7⟩).position 5.0).y := by
  have hmade : itinerary sent ⟨7⟩ = errand.foldl Itinerary.apply (.stay .zero) := by simp [itinerary, sent]
  have hcs : ∀ c ∈ errand, ∀ u, c.time? = some u → u.isNaN = false := by
    simp only [errand, List.forall_mem_singleton, MoveCommand.time?, Option.some.injEq, forall_eq']
    decide
  have hl : (itinerary sent ⟨7⟩).isLate 5.0 = false := by
    rw [hmade]
    decide +kernel
  have hss : ∀ s ∈ nudges, s.SetsAt ⟨7⟩ 5.0 := by
    simp only [nudges, List.forall_mem_cons]
    exact ⟨⟨rfl, rfl, _, _, rfl⟩, ⟨rfl, rfl, _, _, rfl⟩, ⟨rfl, rfl, _, _, rfl⟩, fun s hs => absurd hs List.not_mem_nil⟩
  have hv : ((itinerary sent ⟨7⟩).velocity 5.0).isFinite = true := by
    rw [hmade]
    decide +kernel
  obtain ⟨hvelocity, -, -, hplace⟩ :=
    settings_act_as_one_move sent [] ⟨7⟩ .zero errand hcs hmade 5.0 rfl hl nudges (by decide) hss
  obtain ⟨hcoordinates, hrest, -⟩ := hplace rfl hv
  refine ⟨hl, by decide, hss, hvelocity, ?_, hcoordinates .x, hcoordinates .z, hcoordinates .y⟩
  rw [hrest, hmade]
  decide +kernel

end Trace

end FleetEnergy

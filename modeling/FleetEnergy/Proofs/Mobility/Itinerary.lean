import FleetEnergy.Mobility.Itinerary
import FleetEnergy.Proofs.OrderedScalar
import FleetEnergy.Proofs.PartitionPoint

/-! What an itinerary shows at a time. Its legs are in the order of their times, so that the binary search finds the
leg of the last command that was accepted up to that time. -/
namespace FleetEnergy
open OrderedScalar
set_option autoImplicit false

variable {α : Type} [Scalar α]

/-! ## Commands -/

namespace MoveCommand

/-- When a command holds; to be somewhere from the beginning has no time. -/
def time? : MoveCommand α → Option α
  | .setInitial _ => none
  | .setPosition t _ => some t
  | .setDestination t _ _ _ => some t

/-- The leg that a command starts for a vehicle with the given movement. -/
def leg? (it : Itinerary α) : MoveCommand α → Option (Leg α)
  | .setInitial _ => none
  | .setPosition t position => some (it.placeLeg t position)
  | .setDestination t x y speed => some (it.driveLeg t x y speed)

end MoveCommand

namespace Itinerary

variable {it : Itinerary α} {c : MoveCommand α} {leg : Leg α} {t now : α}

theorem startTime_of_leg? (ht : c.time? = some t) (hleg : c.leg? it = some leg) : leg.startTime = t := by
  cases c with
  | setInitial position => cases ht
  | setPosition s position =>
    cases ht
    cases hleg
    rfl
  | setDestination s x y speed =>
    cases ht
    cases hleg
    unfold driveLeg
    dsimp only
    split_ifs <;> rfl

theorem apply_of_late (ht : c.time? = some t) (hl : it.isLate t = true) : it.apply c = it := by
  cases c with
  | setInitial position => cases ht
  | setPosition s position =>
    cases ht
    simp [apply, setPosition, hl]
  | setDestination s x y speed =>
    cases ht
    simp [apply, setDestination, hl]

theorem apply_of_timely (ht : c.time? = some t) (hl : it.isLate t = false) :
    ∃ leg, c.leg? it = some leg ∧ it.apply c = it.addLeg leg := by
  cases c with
  | setInitial position => cases ht
  | setPosition s position =>
    cases ht
    exact ⟨_, rfl, by simp [apply, setPosition, hl]⟩
  | setDestination s x y speed =>
    cases ht
    exact ⟨_, rfl, by simp [apply, setDestination, hl]⟩

/-! ## Looking up -/

def started (now : α) (leg : Leg α) : Bool := decide (leg.startTime ≤ now)

theorem legAt_eq (it : Itinerary α) (now : α) :
    it.legAt now =
      match partitionPoint (fun i => (it.legs.toList[i]?).any (started now)) it.legs.toList.length with
      | 0 => none
      | i + 1 => it.legs.toList[i]? := by
  simp only [Array.length_toList, Array.getElem?_toList]
  unfold legAt
  dsimp only
  congr 2
  funext i
  cases it.legs[i]? <;> rfl

omit [Scalar α] in
theorem toList_addLeg (it : Itinerary α) (leg : Leg α) : (it.addLeg leg).legs.toList = it.legs.toList ++ [leg] := by
  simp [addLeg]

omit [Scalar α] in
theorem lastCommandTime_addLeg (it : Itinerary α) (leg : Leg α) :
    (it.addLeg leg).lastCommandTime = some leg.startTime := by
  simp [addLeg, lastCommandTime]

/-- What is shown depends on the leg that counts, and on the beginning if there is none. -/
theorem shown_congr {it' : Itinerary α} (hleg : it'.legAt now = it.legAt now)
    (hinit : it.legAt now = none → it'.initial = it.initial) :
    it'.position now = it.position now ∧ it'.velocity now = it.velocity now := by
  unfold position velocity
  rw [hleg]
  cases hl : it.legAt now with
  | none => exact ⟨hinit hl, rfl⟩
  | some leg => exact ⟨rfl, rfl⟩

/-- The last entry that is not after a time. -/
def lastBy (es : List (α × Leg α)) (now : α) : Option (α × Leg α) :=
  (es.filter fun e => decide (e.1 ≤ now)).getLast?

theorem lastBy_add {es : List (α × Leg α)} (ht : ¬t ≤ now) : lastBy (es ++ [(t, leg)]) now = lastBy es now := by
  simp [lastBy, List.filter_append, ht]

variable [OrderedScalar α]

/-- The legs start at times that are in order. -/
structure Ordered (it : Itinerary α) : Prop where
  defined : ∀ leg ∈ it.legs.toList, Defined leg.startTime
  sorted : it.legs.toList.Pairwise fun a b => a.startTime ≤ b.startTime

theorem Ordered.started_first (h : it.Ordered) (hn : Defined now) :
    it.legs.toList.Pairwise fun a b => started now b = true → started now a = true := by
  refine h.sorted.imp_of_mem fun {a b} ha hb hab hstarted => ?_
  simp only [started, decide_eq_true_eq] at hstarted ⊢
  exact le_trans (h.defined a ha) (h.defined b hb) hn hab hstarted

/-- The search finds the last of the legs that have started. -/
theorem Ordered.legAt (h : it.Ordered) (hn : Defined now) :
    it.legAt now = (it.legs.toList.filter (started now)).getLast? := by
  have hfirst := h.started_first hn
  rw [legAt_eq, partitionPoint_list hfirst]
  cases hk : (it.legs.toList.filter (started now)).length with
  | zero => simp [List.length_eq_zero_iff.1 hk]
  | succ i => exact getElem?_last_filter hfirst hk

/-! ## The record of accepted commands -/

/-- Commands given to a vehicle that stays at `home`, the itinerary that they make, and the times of those that are
accepted with the legs that they start. A command is refused if it is earlier than the last accepted one. -/
inductive Journal (home : Vec3 α) : List (MoveCommand α) → Itinerary α → List (α × Leg α) → Prop
  | outset : Journal home [] (.stay home) []
  | initial {cs : List (MoveCommand α)} {it : Itinerary α} {es : List (α × Leg α)} (position : Vec3 α) :
      Journal home cs it es → Journal home (cs ++ [.setInitial position]) { it with initial := position } es
  | refused {cs : List (MoveCommand α)} {it : Itinerary α} {es : List (α × Leg α)} {c : MoveCommand α} {t : α} :
      Journal home cs it es → c.time? = some t → (∃ e ∈ es.getLast?, t < e.1) → Journal home (cs ++ [c]) it es
  | accepted {cs : List (MoveCommand α)} {it : Itinerary α} {es : List (α × Leg α)} {c : MoveCommand α} {t : α}
      {leg : Leg α} :
      Journal home cs it es → c.time? = some t → (∀ e ∈ es.getLast?, ¬t < e.1) → c.leg? it = some leg →
      Journal home (cs ++ [c]) (it.addLeg leg) (es ++ [(t, leg)])

/-- The entries are the legs of the itinerary, at the times of their commands and in their order. -/
structure Recorded (it : Itinerary α) (es : List (α × Leg α)) : Prop where
  legs : it.legs.toList = es.map Prod.snd
  times : ∀ e ∈ es, e.2.startTime = e.1
  defined : ∀ e ∈ es, Defined e.1
  sorted : es.Pairwise fun a b => a.1 ≤ b.1

variable {es : List (α × Leg α)}

theorem Recorded.isLate_iff (h : it.Recorded es) (t : α) : it.isLate t = true ↔ ∃ e ∈ es.getLast?, t < e.1 := by
  have hlast : it.lastCommandTime = es.getLast?.map fun e => e.1 := by
    unfold lastCommandTime
    rw [← Array.getLast?_toList, h.legs, List.getLast?_map, Option.map_map]
    cases he : es.getLast? with
    | none => rfl
    | some e => exact congrArg some (h.times e (List.mem_of_getLast? he))
  unfold isLate
  rw [hlast]
  cases es.getLast? <;> simp

theorem Recorded.add (h : it.Recorded es) (ht : Defined t) (hnot : ∀ e ∈ es.getLast?, ¬t < e.1)
    (hstart : leg.startTime = t) : (it.addLeg leg).Recorded (es ++ [(t, leg)]) := by
  refine ⟨by simp [toList_addLeg, h.legs], ?_, ?_, ?_⟩
  · intro e he
    rcases List.mem_append.1 he with he | he
    · exact h.times e he
    · obtain rfl := List.mem_singleton.1 he
      exact hstart
  · intro e he
    rcases List.mem_append.1 he with he | he
    · exact h.defined e he
    · obtain rfl := List.mem_singleton.1 he
      exact ht
  · refine List.pairwise_append.2 ⟨h.sorted, List.pairwise_singleton _ _, fun a ha b hb => ?_⟩
    obtain rfl := List.mem_singleton.1 hb
    -- The new entry is not before the last one, and that is not before the others.
    rcases List.eq_nil_or_concat' es with rfl | ⟨front, last, rfl⟩
    · cases ha
    · have hd := h.defined
      have hle : last.1 ≤ t := by
        refine (not_lt ht (hd last (by simp))).1 (hnot last (by simp))
      rcases List.mem_append.1 ha with ha | ha
      · have hfront := (List.pairwise_append.1 h.sorted).2.2 a ha last (by simp)
        exact le_trans (hd a (by simp [ha])) (hd last (by simp)) ht hfront hle
      · obtain rfl := List.mem_singleton.1 ha
        exact hle

theorem Recorded.ordered (h : it.Recorded es) : it.Ordered := by
  refine ⟨fun leg hleg => ?_, ?_⟩
  · rw [h.legs] at hleg
    obtain ⟨e, he, rfl⟩ := List.mem_map.1 hleg
    rw [h.times e he]
    exact h.defined e he
  · rw [h.legs, List.pairwise_map]
    refine h.sorted.imp_of_mem fun {a b} ha hb hab => ?_
    rwa [h.times a ha, h.times b hb]

/-! ## One leg more -/

theorem Ordered.recorded (h : it.Ordered) : it.Recorded (it.legs.toList.map fun leg => (leg.startTime, leg)) := by
  refine ⟨by simp [Function.comp_def], ?_, ?_, ?_⟩
  · rintro e he
    obtain ⟨leg, -, rfl⟩ := List.mem_map.1 he
    rfl
  · rintro e he
    obtain ⟨leg, hleg, rfl⟩ := List.mem_map.1 he
    exact h.defined leg hleg
  · rw [List.pairwise_map]
    exact h.sorted

theorem Ordered.addLeg (h : it.Ordered) (ht : Defined leg.startTime) (hl : it.isLate leg.startTime = false) :
    (it.addLeg leg).Ordered := by
  refine (h.recorded.add ht (fun e he hlt => ?_) rfl).ordered
  rw [(h.recorded.isLate_iff _).2 ⟨e, he, hlt⟩] at hl
  cases hl

/-- Before its start a new leg does not count. -/
theorem Ordered.legAt_before (h : it.Ordered) (ht : Defined leg.startTime) (hl : it.isLate leg.startTime = false)
    (hn : Defined now) (hlt : ¬leg.startTime ≤ now) : (it.addLeg leg).legAt now = it.legAt now := by
  have hnot : started now leg = false := decide_eq_false hlt
  rw [(h.addLeg ht hl).legAt hn, h.legAt hn, toList_addLeg, List.filter_append, List.filter_singleton, hnot]
  simp

/-- From its start on a new leg counts. -/
theorem Ordered.legAt_from (h : it.Ordered) (ht : Defined leg.startTime) (hl : it.isLate leg.startTime = false)
    (hn : Defined now) (hle : leg.startTime ≤ now) : (it.addLeg leg).legAt now = some leg := by
  have hstarted : started now leg = true := decide_eq_true hle
  rw [(h.addLeg ht hl).legAt hn, toList_addLeg, List.filter_append, List.filter_singleton, hstarted]
  exact List.getLast?_concat

/-- At a time that is not late every leg has started. -/
theorem Ordered.legAt_last (h : it.Ordered) (ht : Defined t) (hl : it.isLate t = false) (hn : Defined now)
    (hle : t ≤ now) : it.legAt now = it.legs.toList.getLast? := by
  have hall : it.legs.toList.filter (started now) = it.legs.toList := by
    refine List.filter_eq_self.2 fun leg hleg => decide_eq_true ?_
    -- The last leg is not after `t`, and the others are not after the last.
    obtain ⟨front, last, hlegs⟩ := (List.eq_nil_or_concat' it.legs.toList).resolve_left (List.ne_nil_of_mem hleg)
    have hdefined := h.defined
    have hsorted := h.sorted
    have hlast : last.startTime ≤ t := by
      refine (not_lt ht (hdefined last (by simp [hlegs]))).1 fun hlt => ?_
      rw [(h.recorded.isLate_iff t).2 ⟨(last.startTime, last), by simp [hlegs], hlt⟩] at hl
      cases hl
    have hd := hdefined last (by simp [hlegs])
    have hup := le_trans hd ht hn hlast hle
    rw [hlegs] at hleg hsorted
    rcases List.mem_append.1 hleg with hfront | hsame
    · exact le_trans (hdefined leg (by simp [hlegs, hfront])) hd hn
        ((List.pairwise_append.1 hsorted).2.2 leg hfront last (by simp)) hup
    · obtain rfl := List.mem_singleton.1 hsame
      exact hup
  rw [h.legAt hn, hall]

theorem Journal.recorded {home : Vec3 α} {cs : List (MoveCommand α)} (h : Journal home cs it es)
    (hcs : ∀ c ∈ cs, ∀ t, c.time? = some t → Defined t) : it.Recorded es := by
  induction h with
  | outset => exact ⟨rfl, by simp, by simp, List.Pairwise.nil⟩
  | initial position _ ih =>
    obtain ⟨hlegs, htimes, hdef, hsorted⟩ := ih fun c hc => hcs c (List.mem_append_left _ hc)
    exact ⟨hlegs, htimes, hdef, hsorted⟩
  | refused _ _ _ ih => exact ih fun c hc => hcs c (List.mem_append_left _ hc)
  | @accepted cs it es c t leg _ ht hnot hleg ih =>
    refine (ih fun c hc => hcs c (List.mem_append_left _ hc)).add ?_ hnot (startTime_of_leg? ht hleg)
    exact hcs c (by simp) t ht

/-- The program makes the itinerary of the journal. -/
theorem exists_journal (home : Vec3 α) (cs : List (MoveCommand α))
    (hcs : ∀ c ∈ cs, ∀ t, c.time? = some t → Defined t) : ∃ es, Journal home cs (cs.foldl apply (.stay home)) es := by
  induction cs using List.reverseRecOn with
  | nil => exact ⟨[], .outset⟩
  | append_singleton cs c ih =>
    have hbefore : ∀ c' ∈ cs, ∀ t, c'.time? = some t → Defined t := fun c' hc' =>
      hcs c' (List.mem_append_left _ hc')
    obtain ⟨es, hj⟩ := ih hbefore
    have hr := hj.recorded hbefore
    rw [List.foldl_append, List.foldl_cons, List.foldl_nil]
    cases ht : c.time? with
    | none =>
      cases c with
      | setInitial position => exact ⟨es, .initial position hj⟩
      | setPosition t position => cases ht
      | setDestination t x y speed => cases ht
    | some t =>
      cases hl : (cs.foldl apply (.stay home)).isLate t with
      | true =>
        rw [apply_of_late ht hl]
        exact ⟨es, .refused hj ht ((hr.isLate_iff t).1 hl)⟩
      | false =>
        obtain ⟨leg, hleg, happly⟩ := apply_of_timely ht hl
        rw [happly]
        refine ⟨_, .accepted hj ht (fun e he hlt => ?_) hleg⟩
        rw [(hr.isLate_iff t).2 ⟨e, he, hlt⟩] at hl
        cases hl

/-! ## What is shown -/

/-- Position and velocity at a time as the entry that counts has them. -/
def shownBy (it : Itinerary α) (now : α) : Option (α × Leg α) → Vec3 α × Vec3 α
  | none => (it.initial, .zero)
  | some (t, leg) =>
    (if leg.arrivalTime ≤ now then leg.finish else leg.start + leg.velocity.scale (now - t),
      if now < leg.arrivalTime then leg.velocity else .zero)

theorem Recorded.legAt (h : it.Recorded es) (hn : Defined now) : it.legAt now = (lastBy es now).map Prod.snd := by
  rw [h.ordered.legAt hn, h.legs, List.filter_map, List.getLast?_map, lastBy]
  refine congrArg (Option.map Prod.snd) (congrArg List.getLast? (List.filter_congr fun e he => ?_))
  simp [started, h.times e he]

theorem Recorded.shown (h : it.Recorded es) (hn : Defined now) :
    (it.position now, it.velocity now) = shownBy it now (lastBy es now) := by
  unfold position velocity
  rw [h.legAt hn]
  cases he : lastBy es now with
  | none => rfl
  | some e =>
    have hmem : e ∈ es := List.mem_of_mem_filter (List.mem_of_getLast? he)
    simp only [Option.map_some, shownBy, Leg.positionAt, Leg.velocityAt, h.times e hmem]

/-- A command changes nothing of what is shown before its time. -/
theorem Recorded.shown_before (h : it.Recorded es) (ht : c.time? = some t) (hlt : now < t) :
    (it.apply c).position now = it.position now ∧ (it.apply c).velocity now = it.velocity now := by
  obtain ⟨hn, htd⟩ := defined_of_lt hlt
  cases hl : it.isLate t with
  | true =>
    rw [apply_of_late ht hl]
    exact ⟨rfl, rfl⟩
  | false =>
    obtain ⟨leg, hleg, happly⟩ := apply_of_timely ht hl
    have hnot : ∀ e ∈ es.getLast?, ¬t < e.1 := fun e he hlt' => by
      rw [(h.isLate_iff t).2 ⟨e, he, hlt'⟩] at hl
      cases hl
    have h' := h.add htd hnot (startTime_of_leg? ht hleg)
    have hfuture : ¬t ≤ now := fun hle => (not_lt hn htd).2 hle hlt
    rw [happly]
    refine shown_congr ?_ fun _ => rfl
    rw [h.legAt hn, h'.legAt hn, lastBy_add hfuture]

/-- Where the vehicle is from the beginning does not show from the first command on. -/
theorem Recorded.shown_initial (h : it.Recorded es) {first : α × Leg α} (hfirst : es.head? = some first)
    (hle : first.1 ≤ now) (hn : Defined now) (position : Vec3 α) :
    (it.apply (.setInitial position)).position now = it.position now ∧
      (it.apply (.setInitial position)).velocity now = it.velocity now := by
  refine shown_congr rfl fun hnone => ?_
  rw [h.legAt hn, Option.map_eq_none_iff, lastBy, List.getLast?_eq_none_iff] at hnone
  have hmem : first ∈ es := List.mem_of_head? hfirst
  have := List.filter_eq_nil_iff.1 hnone first hmem
  simp [hle] at this

/-- Of any commands at times that are numbers the accepted ones are recorded in the order of their times; what is
shown at any time is the leg of the last one up to that time, or the beginning; a command before the last one changes
nothing, and a later one nothing before its time; and a change of the beginning shows only before the first. -/
theorem shown_by_last_accepted (home : Vec3 Float) (cs : List (MoveCommand Float))
    (hcs : ∀ c ∈ cs, ∀ t, c.time? = some t → t.isNaN = false) :
    ∃ es, Journal home cs (cs.foldl apply (.stay home)) es ∧
      let it := cs.foldl apply (.stay home)
      it.legs.toList = es.map Prod.snd ∧ (∀ e ∈ es, e.2.startTime = e.1) ∧
      (it.legs.toList.Pairwise fun a b => a.startTime ≤ b.startTime) ∧
      (∀ now : Float, now.isNaN = false → (it.position now, it.velocity now) = shownBy it now (lastBy es now)) ∧
      (∀ c t last, c.time? = some t → es.getLast? = some last → t < last.1 → it.apply c = it) ∧
      (∀ c t now, c.time? = some t → now < t →
        (it.apply c).position now = it.position now ∧ (it.apply c).velocity now = it.velocity now) ∧
      ∀ position first now, now.isNaN = false → es.head? = some first → first.1 ≤ now →
        (it.apply (.setInitial position)).position now = it.position now ∧
          (it.apply (.setInitial position)).velocity now = it.velocity now := by
  obtain ⟨es, hj⟩ := exists_journal home cs hcs
  have h := hj.recorded hcs
  refine ⟨es, hj, h.legs, h.times, h.ordered.sorted, fun now hn => h.shown hn, ?_, ?_, ?_⟩
  · intro c t last ht hlast hlt
    exact apply_of_late ht ((h.isLate_iff t).2 ⟨last, hlast, hlt⟩)
  · exact fun c t now ht hlt => h.shown_before ht hlt
  · exact fun position first now hn hfirst hle => h.shown_initial hfirst hle hn position

/-- A drive, a change of place that comes too late, and one during the drive. -/
def detour : List (MoveCommand Float) :=
  [.setDestination 2.0 30.0 40.0 10.0, .setPosition 1.0 ⟨7.0, 7.0, 7.0⟩, .setPosition 4.0 ⟨0.0, 0.0, 5.0⟩]

/-- Two of the three commands are recorded, and the journal tells where the vehicle is at any time. -/
theorem detour_shown :
    (∀ c ∈ detour, ∀ t, c.time? = some t → t.isNaN = false) ∧
      ∃ es, Journal .zero detour (detour.foldl apply (.stay .zero)) es ∧ es.length = 2 ∧
        ∀ now : Float, now.isNaN = false →
          ((detour.foldl apply (.stay .zero)).position now, (detour.foldl apply (.stay .zero)).velocity now) =
            shownBy (detour.foldl apply (.stay .zero)) now (lastBy es now) := by
  have htimes : ∀ c ∈ detour, ∀ t, c.time? = some t → t.isNaN = false := by
    simp only [detour, List.forall_mem_cons, MoveCommand.time?, Option.some.injEq, forall_eq']
    decide
  obtain ⟨es, hj, hlegs, -, -, hshown, -⟩ := shown_by_last_accepted .zero detour htimes
  have hsize : (detour.foldl apply (.stay .zero)).legs.toList.length = 2 := by decide +kernel
  rw [hlegs, List.length_map] at hsize
  exact ⟨htimes, es, hj, hsize, hshown⟩

end Itinerary

end FleetEnergy

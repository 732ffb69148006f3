import FleetEnergy.Proofs.Agenda
import FleetEnergy.Proofs.Scheduler

/-! The scheduler keeps an agenda: whatever it is asked for, its answers are those of the agenda, and its queue holds
the pending appointments, the earliest first. -/
namespace FleetEnergy
open Binary64
set_option autoImplicit false

namespace Scheduler

/-- Carries out requests one after the other; every taking is answered. -/
def perform (s : Scheduler) : List Agenda.Request → Scheduler × List (Option Firing)
  | [] => (s, [])
  | .order delay vehicle :: r => (s.schedule delay vehicle).perform r
  | .take :: r =>
    match s.next with
    | none => ((s.perform r).1, none :: (s.perform r).2)
    | some (f, s) => ((s.perform r).1, some f :: (s.perform r).2)

/-! ## What is queued -/

def stamped (p : Appointment) : Stamped VehicleId := ⟨.ofFloat p.due, p.number, p.vehicle⟩

/-- Appointments are made earlier or later as their stamps tell, as long as they are not due at the negative zero. -/
theorem before_of_earlier {p q : Appointment} (hp : p.due.isNaN = false) (hq : q.due.isNaN = false)
    (hpz : reading p.due ≠ .zero .negative) (hqz : reading q.due ≠ .zero .negative)
    (h : (stamped p).Earlier (stamped q)) : p.Before q := by
  have hpf : (stamped p).due.toFloat = p.due := Instant.toFloat_ofFloat _
  have hqf : (stamped q).due.toFloat = q.due := Instant.toFloat_ofFloat _
  rcases h with h | ⟨h, hn⟩
  · have hunits := Instant.units_of_rank_lt (by rwa [hpf]) (by rwa [hqf]) h
    rw [hpf, hqf] at hunits
    rcases hunits with hlt | ⟨hp0, hq0⟩
    · exact .inl ((lt_iff_units hp hq).2 hlt)
    · -- Two zeros that are not negative are the same.
      obtain ⟨s, hs⟩ := reading_of_units_zero hp hp0
      obtain ⟨s', hs'⟩ := reading_of_units_zero hq hq0
      have hsame : reading p.due = reading q.due := by
        rw [hs] at hpz
        rw [hs'] at hqz
        cases s <;> cases s' <;> simp_all
      change (Instant.ofFloat p.due).rank < (Instant.ofFloat q.due).rank at h
      rw [eq_of_reading_eq hsame] at h
      omega
  · have hsame : p.due = q.due := by
      have := congrArg Instant.toFloat (Instant.rank_inj h)
      rwa [hpf, hqf] at this
    exact .inr ⟨(beq_iff_units hp hq).2 (by rw [hsame]), hn⟩

/-! ## Scheduler and agenda -/

variable {start : Float} {s : Scheduler} {a : Agenda}

structure Keeps (start : Float) (s : Scheduler) (a : Agenda) : Prop where
  sound : a.Sound start
  clock : s.clock = .ofFloat a.clock
  endTime : s.endTime = a.endTime
  queue : ∃ l, l.Perm (a.pending.map stamped) ∧ s.queue.Holds l

theorem Keeps.now (h : Keeps start s a) : s.now = a.clock := by
  rw [Scheduler.now, h.clock, Instant.toFloat_ofFloat]

theorem Keeps.pending (h : Keeps start s a) : s.pending = a.pending.length := by
  obtain ⟨l, hperm, hq⟩ := h.queue
  rw [Scheduler.pending, hq.size, hperm.length_eq, List.length_map]

theorem keeps_new {start : Instant} {endTime : Float} (hstart : start.toFloat.isFinite = true)
    (hend : endTime.isNaN = false) : Keeps start.toFloat (new start endTime) (.new start.toFloat endTime) where
  sound := Agenda.sound_new hstart hend
  clock := (Instant.ofFloat_toFloat start (isNaN_of_isFinite hstart)).symm
  endTime := rfl
  queue := ⟨[], .nil, TimeQueue.holds_empty⟩

theorem Keeps.order (h : Keeps start s a) (delay : Float) (vehicle : VehicleId) :
    Keeps start (s.schedule delay vehicle) (a.arrange delay vehicle) := by
  obtain ⟨l, hperm, hq⟩ := h.queue
  obtain ⟨hd, -, -⟩ := h.sound.appointment_due delay vehicle
  have hnow : s.clock.toFloat = a.clock := h.now
  have hdue : s.clock.after (Scalar.positivePart delay) = .ofFloat (a.appointment delay vehicle).due := by
    rw [Instant.after_eq]
    · rw [hnow]
      rfl
    · rw [hnow]
      exact h.sound.defined
    · rw [hnow]
      exact hd
  refine ⟨h.sound.arrange delay vehicle, h.clock, h.endTime, ?_⟩
  -- The appointments made before have lesser numbers.
  have hlast : ∀ f ∈ l, f.number < (stamped (a.appointment delay vehicle)).number := by
    intro f hf
    obtain ⟨p, hp, rfl⟩ := List.mem_map.1 (hperm.mem_iff.1 hf)
    have hmem : p.number ∈ Agenda.numbers a.pending := List.mem_map_of_mem hp
    exact List.mem_range.1 (h.sound.accounted.mem_iff.1 (List.mem_append_right _ hmem))
  obtain ⟨l', hperm', hq'⟩ := hq.add (stamped (a.appointment delay vehicle)) hlast
  refine ⟨l', ?_, ?_⟩
  · have hmap : (a.arrange delay vehicle).pending.map stamped =
        a.pending.map stamped ++ [stamped (a.appointment delay vehicle)] := List.map_append
    rw [hmap]
    exact hperm'.trans ((hperm.cons _).trans (List.perm_append_singleton _ _).symm)
  · rw [schedule, hdue]
    exact hq'

theorem Keeps.take_nil (h : Keeps start s a) (hn : s.next = none) : a.pending = [] := by
  obtain ⟨l, hperm, hq⟩ := h.queue
  cases l with
  | nil => exact List.map_eq_nil_iff.1 hperm.symm.eq_nil
  | cons e l =>
    rw [next_cons hq.entries] at hn
    cases hn

theorem Keeps.deliveryTime (h : Keeps start s a) {p : Appointment} (hp : p ∈ a.pending) :
    s.deliveryTime p.due = a.timeOf p := by
  obtain ⟨hd, -, hclock⟩ := h.sound.dues p hp
  have he := h.sound.endDefined
  have hdn : ¬p.due.isNaN = true := Bool.eq_false_iff.1 hd
  have hen : ¬a.endTime.isNaN = true := Bool.eq_false_iff.1 he
  rw [Scheduler.deliveryTime, h.now, h.endTime, Agenda.timeOf, earlier, if_neg hdn]
  by_cases hle : p.due ≤ a.endTime
  · have hlt : ¬p.due < a.clock := by
      rw [lt_iff_units hd h.sound.defined]
      have := hclock hle
      omega
    rw [if_neg ((not_lt_iff_le he hd).2 hle), later, if_neg hdn, if_neg hlt, if_pos hle]
  · rw [if_pos ((not_le_iff_lt hd he).1 hle), later, if_neg hen, if_neg hle]

/-- What is delivered next is the earliest appointment, at its time. -/
theorem Keeps.take (h : Keeps start s a) {f : Firing} {s' : Scheduler} (hn : s.next = some (f, s')) :
    ∃ p rest, a.pending.Perm (p :: rest) ∧ (∀ q ∈ rest, p.Before q) ∧ f = ⟨a.timeOf p, p.vehicle⟩ ∧
      Keeps start s' (a.keep p rest) := by
  obtain ⟨l, hperm, hq⟩ := h.queue
  cases l with
  | nil =>
    rw [next_nil hq.entries] at hn
    cases hn
  | cons e l =>
    obtain ⟨p, hp, rfl⟩ := List.mem_map.1 (hperm.mem_iff.1 List.mem_cons_self)
    obtain ⟨front, back, hsplit⟩ := List.append_of_mem hp
    have hrest : a.pending.Perm (p :: (front ++ back)) := by
      rw [hsplit]
      exact List.perm_middle
    have hl : l.Perm ((front ++ back).map stamped) := (hperm.trans (hrest.map stamped)).cons_inv
    have hfirst : ∀ q ∈ front ++ back, p.Before q := by
      intro q hmem
      obtain ⟨hpd, hpz, -⟩ := h.sound.dues p hp
      obtain ⟨hqd, hqz, -⟩ := h.sound.dues q (hrest.mem_iff.2 (List.mem_cons_of_mem p hmem))
      have hearlier := (List.pairwise_cons.1 hq.sorted).1 (stamped q) (hl.mem_iff.2 (List.mem_map_of_mem hmem))
      exact before_of_earlier hpd hqd hpz hqz hearlier
    have htime : s.deliveryTime (stamped p).due.toFloat = a.timeOf p := by
      rw [← h.deliveryTime hp]
      exact congrArg s.deliveryTime (Instant.toFloat_ofFloat _)
    rw [next_cons hq.entries, htime] at hn
    cases hn
    refine ⟨p, front ++ back, hrest, hfirst, rfl, h.sound.keep hrest hfirst, ?_, h.endTime, l, hl, hq.tail⟩
    have hdef := (h.sound.timeOf_bounds hp).1
    exact if_neg (Bool.eq_false_iff.1 hdef)

/-- Every run of the scheduler is a run of the agenda. -/
theorem Keeps.perform (h : Keeps start s a) (xs : List Agenda.Request) :
    ∃ b, Agenda.Run a xs (s.perform xs).2 b ∧ Keeps start (s.perform xs).1 b := by
  induction xs generalizing s a with
  | nil => exact ⟨a, .nil a, h⟩
  | cons x xs ih =>
    cases x with
    | order delay vehicle =>
      obtain ⟨b, hrun, hb⟩ := ih (h.order delay vehicle)
      exact ⟨b, .cons (.arrange a delay vehicle) hrun, hb⟩
    | take =>
      rw [Scheduler.perform]
      cases hn : s.next with
      | none =>
        obtain ⟨b, hrun, hb⟩ := ih h
        exact ⟨b, .cons (.idle a (h.take_nil hn)) hrun, hb⟩
      | some q =>
        obtain ⟨f, s'⟩ := q
        obtain ⟨p, rest, hperm, hfirst, rfl, hk⟩ := h.take hn
        obtain ⟨b, hrun, hb⟩ := ih hk
        exact ⟨b, .cons (.keep a p rest hperm hfirst) hrun, hb⟩

/-! ## What follows for every run -/

theorem Keeps.isFinished (h : Keeps start s a) : s.isFinished = true ↔ unitsOf a.endTime ≤ unitsOf a.clock := by
  rw [Scheduler.isFinished, decide_eq_true_iff, h.now, h.endTime, le_iff_units h.sound.endDefined h.sound.defined]

/-- Whatever a scheduler is asked for, it keeps an agenda: firings are due after their delays and delivered once, the
earliest first, none is lost, and the clock is led on from delivery to delivery, up to the later of start and end. -/
theorem scheduler_keeps_agenda (start : Instant) (endTime : Float) (hstart : start.toFloat.isFinite = true)
    (hend : endTime.isNaN = false) (xs : List Agenda.Request) :
    let s := ((new start endTime).perform xs).1
    let answers := ((new start endTime).perform xs).2
    ∃ a, Agenda.Run (.new start.toFloat endTime) xs answers a ∧
      s.now = a.clock ∧ a.clock = a.times.getLastD start.toFloat ∧
      (start.toFloat :: a.times).Pairwise (· ≤ ·) ∧
      (∀ t ∈ start.toFloat :: a.times, t ≤ if start.toFloat < endTime then endTime else start.toFloat) ∧
      (Agenda.numbers (a.kept.map Prod.fst) ++ Agenda.numbers a.pending).Perm (List.range a.made) ∧
      a.made = xs.countP Agenda.Request.isOrder ∧ answers.filterMap id = a.firings ∧
      s.pending = a.pending.length ∧ s.pending + (answers.filterMap id).length = a.made ∧
      (s.isFinished = true → ∀ more, (s.perform more).1.isFinished = true) := by
  intro s answers
  obtain ⟨a, hrun, hk⟩ := (keeps_new hstart hend).perform xs
  obtain ⟨hmade, hfired⟩ := hrun.counts
  have hendTime : a.endTime = endTime := (Agenda.sound_new hstart hend |>.run hrun).2.2
  have hfirings : answers.filterMap id = a.firings := hfired.symm
  refine ⟨a, hrun, hk.now, hk.sound.last, hk.sound.ordered, ?_, hk.sound.accounted, hmade.trans (Nat.zero_add _),
    hfirings, hk.pending, ?_, ?_⟩
  · intro t ht
    have := hk.sound.le_bound ht
    rwa [hendTime] at this
  · rw [hk.pending, hfirings, Agenda.firings, List.length_map, Nat.add_comm]
    exact hk.sound.length_made
  · intro hfin more
    obtain ⟨b, hmore, hb⟩ := hk.perform more
    obtain ⟨-, hclock, hsame⟩ := hk.sound.run hmore
    rw [hk.isFinished] at hfin
    rw [hb.isFinished, hsame]
    omega

/-- The second order is due at once and the first past the end; nothing is left for the third taking. -/
def twoOrders : List Agenda.Request := [.order 2.0 ⟨7⟩, .order (-1.0) ⟨9⟩, .take, .take, .take]

theorem two_orders_keep_agenda :
    ∃ a, Agenda.Run (.new (Instant.ofFloat 0.0).toFloat 1.5) twoOrders
        ((new (.ofFloat 0.0) 1.5).perform twoOrders).2 a ∧
      a.made = 2 ∧ a.pending.length = ((new (.ofFloat 0.0) 1.5).perform twoOrders).1.pending := by
  obtain ⟨a, hrun, -, -, -, -, -, hmade, -, hpending, -⟩ :=
    scheduler_keeps_agenda (.ofFloat 0.0) 1.5 (by decide) (by decide) twoOrders
  exact ⟨a, hrun, hmade, hpending.symm⟩

end Scheduler

end FleetEnergy

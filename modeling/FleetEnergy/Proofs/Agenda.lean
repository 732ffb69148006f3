import FleetEnergy.Proofs.Clock

/-! What a scheduler is for, without its queue: a list of appointments, numbered as they are made, of which the
earliest is kept when one is asked for. -/
namespace FleetEnergy
open Binary64
open Float.Model (UnpackedFloat)
set_option autoImplicit false

/-! ## Appointments -/

structure Appointment where
  number : Nat
  due : Float
  vehicle : VehicleId

/-- Due earlier or, at the same time, made earlier. -/
def Appointment.Before (p q : Appointment) : Prop := p.due < q.due ∨ (p.due == q.due) = true ∧ p.number < q.number

theorem Appointment.Before.units_le {p q : Appointment} (hp : p.due.isNaN = false) (hq : q.due.isNaN = false)
    (h : p.Before q) : unitsOf p.due ≤ unitsOf q.due := by
  rcases h with h | ⟨h, -⟩
  · exact ((lt_iff_units hp hq).1 h).le
  · exact ((beq_iff_units hp hq).1 h).le

/-! ## Agendas -/

structure Agenda where
  clock : Float
  endTime : Float
  /-- How many appointments were made. -/
  made : Nat
  pending : List Appointment
  /-- Which appointments were kept and when, in order. -/
  kept : List (Appointment × Float)

namespace Agenda

def new (start endTime : Float) : Agenda := ⟨start, endTime, 0, [], []⟩

/-- An appointment is due after its delay; one that is not above zero counts as zero. -/
def appointment (a : Agenda) (delay : Float) (vehicle : VehicleId) : Appointment :=
  ⟨a.made, a.clock + Scalar.positivePart delay, vehicle⟩

def arrange (a : Agenda) (delay : Float) (vehicle : VehicleId) : Agenda :=
  { a with made := a.made + 1, pending := a.pending ++ [a.appointment delay vehicle] }

/-- An appointment up to the end is kept when it is due, a later one at the end or, past the end, at once. -/
def timeOf (a : Agenda) (p : Appointment) : Float :=
  if p.due ≤ a.endTime then p.due else if a.endTime < a.clock then a.clock else a.endTime

def keep (a : Agenda) (p : Appointment) (rest : List Appointment) : Agenda :=
  { a with clock := a.timeOf p, pending := rest, kept := a.kept ++ [(p, a.timeOf p)] }

/-- What a scheduler is asked to do. -/
inductive Request
  | order (delay : Float) (vehicle : VehicleId)
  | take

/-- One request and the answers to it. -/
inductive Step : Agenda → Request → List (Option Firing) → Agenda → Prop
  | arrange (a : Agenda) (delay : Float) (vehicle : VehicleId) :
      Step a (.order delay vehicle) [] (a.arrange delay vehicle)
  | idle (a : Agenda) : a.pending = [] → Step a .take [none] a
  | keep (a : Agenda) (p : Appointment) (rest : List Appointment) : a.pending.Perm (p :: rest) →
      (∀ q ∈ rest, p.Before q) → Step a .take [some ⟨a.timeOf p, p.vehicle⟩] (a.keep p rest)

/-- Requests one after the other, with all answers to them. -/
inductive Run : Agenda → List Request → List (Option Firing) → Agenda → Prop
  | nil (a : Agenda) : Run a [] [] a
  | cons {a b c : Agenda} {x : Request} {xs : List Request} {answers more : List (Option Firing)} :
      Step a x answers b → Run b xs more c → Run a (x :: xs) (answers ++ more) c

/-! ## The times of an agenda -/

def numbers (ps : List Appointment) : List Nat := ps.map Appointment.number

/-- The times at which appointments were kept. -/
def times (a : Agenda) : List Float := a.kept.map Prod.snd

/-- What holds of an agenda since it was started: every appointment is pending or was kept once, the clock is at the
last one that was kept, and it was not led back nor past the later of start and end. -/
structure Sound (start : Float) (a : Agenda) : Prop where
  startFinite : start.isFinite = true
  endDefined : a.endTime.isNaN = false
  defined : a.clock.isNaN = false
  dues : ∀ p ∈ a.pending, p.due.isNaN = false ∧ reading p.due ≠ .zero .negative ∧
    (p.due ≤ a.endTime → unitsOf a.clock ≤ unitsOf p.due)
  accounted : (numbers (a.kept.map Prod.fst) ++ numbers a.pending).Perm (List.range a.made)
  last : a.clock = a.times.getLastD start
  ordered : (start :: a.times).Pairwise (· ≤ ·)
  past : ∀ t ∈ start :: a.times, t.isNaN = false ∧ unitsOf t ≤ unitsOf a.clock
  bounded : unitsOf a.clock ≤ max (unitsOf start) (unitsOf a.endTime)

theorem sound_new {start endTime : Float} (hstart : start.isFinite = true) (hend : endTime.isNaN = false) :
    (new start endTime).Sound start := by
  have hs : start.isNaN = false := isNaN_of_isFinite hstart
  refine ⟨hstart, hend, hs, nofun, .refl _, rfl, List.pairwise_singleton _ _, ?_, le_max_left _ _⟩
  intro t ht
  obtain rfl := List.mem_singleton.1 ht
  exact ⟨hs, le_refl _⟩

variable {start : Float} {a : Agenda}

theorem Sound.above (h : a.Sound start) : -limit < unitsOf a.clock := by
  have hs := ((isFinite_iff_units (isNaN_of_isFinite h.startFinite)).1 h.startFinite).1
  have hc := (h.past start List.mem_cons_self).2
  omega

/-- A new appointment is due at a defined time that is not before the clock. -/
theorem Sound.appointment_due (h : a.Sound start) (delay : Float) (vehicle : VehicleId) :
    (a.appointment delay vehicle).due.isNaN = false ∧ reading (a.appointment delay vehicle).due ≠ .zero .negative ∧
      unitsOf a.clock ≤ unitsOf (a.appointment delay vehicle).due := by
  obtain ⟨hp, hnonneg⟩ := positivePart_defined delay
  have hz := reading_positivePart delay
  have hlo := h.above
  have hl := limit_pos
  change (a.clock + Scalar.positivePart delay).isNaN = false ∧ reading (a.clock + Scalar.positivePart delay) ≠ _ ∧
    unitsOf a.clock ≤ unitsOf (a.clock + Scalar.positivePart delay)
  by_cases hc : a.clock.isFinite = true
  · obtain ⟨hn, hle⟩ := le_add hc hp hnonneg
    refine ⟨hn, ?_, hle⟩
    by_cases hf : (Scalar.positivePart delay).isFinite = true
    · exact reading_add_ne_neg_zero hc hf hz
    · rw [reading_add_infinity hc (reading_of_infinite hp hf hnonneg)]
      exact nofun
  · -- Past all finite times, every appointment is due at once.
    have hinf : reading a.clock = .infinity .positive := by
      rw [isFinite_iff_units h.defined] at hc
      exact reading_of_infinite h.defined ((isFinite_iff_units h.defined).not.2 hc) (by omega)
    have hsum := reading_infinity_add hinf hp hnonneg
    refine ⟨congrArg UnpackedFloat.isNaN hsum, ?_, ?_⟩
    · rw [hsum]
      exact nofun
    · exact (congrArg units (hinf.trans hsum.symm)).le

theorem Sound.arrange (h : a.Sound start) (delay : Float) (vehicle : VehicleId) :
    (a.arrange delay vehicle).Sound start := by
  obtain ⟨hd, hz, hle⟩ := h.appointment_due delay vehicle
  refine ⟨h.startFinite, h.endDefined, h.defined, ?_, ?_, h.last, h.ordered, h.past, h.bounded⟩
  · intro p hp
    rcases List.mem_append.1 hp with hp | hp
    · exact h.dues p hp
    · obtain rfl := List.mem_singleton.1 hp
      exact ⟨hd, hz, fun _ => hle⟩
  · have hnum : numbers (a.arrange delay vehicle).pending = numbers a.pending ++ [a.made] := List.map_append
    rw [hnum, ← List.append_assoc]
    change (_ : List Nat).Perm (List.range (a.made + 1))
    rw [List.range_succ]
    exact h.accounted.append_right _

/-- The time at which a pending appointment is kept is not before the clock nor past the later of start and end. -/
theorem Sound.timeOf_bounds (h : a.Sound start) {p : Appointment} (hp : p ∈ a.pending) :
    (a.timeOf p).isNaN = false ∧ unitsOf a.clock ≤ unitsOf (a.timeOf p) ∧
      unitsOf (a.timeOf p) ≤ max (unitsOf start) (unitsOf a.endTime) := by
  obtain ⟨hd, -, hclock⟩ := h.dues p hp
  have hb := h.bounded
  have he := h.endDefined
  unfold timeOf
  split_ifs with hle hlt
  · have := (le_iff_units hd he).1 hle
    exact ⟨hd, hclock hle, by omega⟩
  · exact ⟨h.defined, le_refl _, hb⟩
  · rw [lt_iff_units he h.defined] at hlt
    exact ⟨he, by omega, by omega⟩

theorem Sound.keep (h : a.Sound start) {p : Appointment} {rest : List Appointment}
    (hperm : a.pending.Perm (p :: rest)) (hfirst : ∀ q ∈ rest, p.Before q) : (a.keep p rest).Sound start := by
  have hp : p ∈ a.pending := hperm.mem_iff.2 List.mem_cons_self
  obtain ⟨ht, hup, hbound⟩ := h.timeOf_bounds hp
  obtain ⟨hpd, -, -⟩ := h.dues p hp
  have htimes : (a.keep p rest).times = a.times ++ [a.timeOf p] := List.map_append
  refine ⟨h.startFinite, h.endDefined, ht, ?_, ?_, ?_, ?_, ?_, hbound⟩
  · intro q hq
    obtain ⟨hqd, hz, -⟩ := h.dues q (hperm.mem_iff.2 (List.mem_cons_of_mem p hq))
    have hpq := (hfirst q hq).units_le hpd hqd
    refine ⟨hqd, hz, fun hle => ?_⟩
    -- What is due up to the end makes the appointment before it due up to the end too, and kept when it was due.
    change q.due ≤ a.endTime at hle
    have hple : p.due ≤ a.endTime := by
      rw [le_iff_units hqd h.endDefined] at hle
      exact (le_iff_units hpd h.endDefined).2 (by omega)
    change unitsOf (a.timeOf p) ≤ _
    rw [timeOf, if_pos hple]
    exact hpq
  · have hnum : numbers ((a.keep p rest).kept.map Prod.fst) ++ numbers (a.keep p rest).pending =
        numbers (a.kept.map Prod.fst) ++ (p :: rest).map Appointment.number := by
      simp [Agenda.keep, numbers]
    rw [hnum]
    exact ((hperm.symm.map Appointment.number).append_left _).trans h.accounted
  · rw [htimes, List.getLastD_concat]
    rfl
  · rw [htimes, ← List.cons_append, List.pairwise_append]
    refine ⟨h.ordered, List.pairwise_singleton _ _, ?_⟩
    intro t hmem u hu
    obtain rfl := List.mem_singleton.1 hu
    obtain ⟨htn, hle⟩ := h.past t hmem
    exact (le_iff_units htn ht).2 (hle.trans hup)
  · intro t hmem
    rw [htimes, ← List.cons_append] at hmem
    rcases List.mem_append.1 hmem with hmem | hmem
    · obtain ⟨htn, hle⟩ := h.past t hmem
      exact ⟨htn, hle.trans hup⟩
    · obtain rfl := List.mem_singleton.1 hmem
      exact ⟨ht, le_refl _⟩

/-! ## Runs of an agenda -/

variable {b : Agenda} {xs : List Request} {answers : List (Option Firing)}

/-- A step keeps what holds, and leads the clock on. -/
theorem Sound.step {x : Request} (h : a.Sound start) (hs : Step a x answers b) :
    b.Sound start ∧ unitsOf a.clock ≤ unitsOf b.clock ∧ b.endTime = a.endTime := by
  cases hs with
  | arrange delay vehicle => exact ⟨h.arrange delay vehicle, le_refl _, rfl⟩
  | idle => exact ⟨h, le_refl _, rfl⟩
  | keep p rest hperm hfirst =>
    exact ⟨h.keep hperm hfirst, (h.timeOf_bounds (hperm.mem_iff.2 List.mem_cons_self)).2.1, rfl⟩

theorem Sound.run (h : a.Sound start) (hr : Run a xs answers b) :
    b.Sound start ∧ unitsOf a.clock ≤ unitsOf b.clock ∧ b.endTime = a.endTime := by
  induction hr with
  | nil => exact ⟨h, le_refl _, rfl⟩
  | cons hs _ ih =>
    obtain ⟨hb, hclock, hend⟩ := h.step hs
    obtain ⟨hc, hclock', hend'⟩ := ih hb
    exact ⟨hc, hclock.trans hclock', hend'.trans hend⟩

def Request.isOrder : Request → Bool
  | .order .. => true
  | .take => false

/-- The firings by which appointments were kept. -/
def firings (a : Agenda) : List Firing := a.kept.map fun k => ⟨k.2, k.1.vehicle⟩

theorem Step.counts {x : Request} (h : Step a x answers b) :
    b.made = a.made + [x].countP Request.isOrder ∧ b.firings = a.firings ++ answers.filterMap id := by
  cases h with
  | arrange delay vehicle => exact ⟨rfl, (List.append_nil _).symm⟩
  | idle => exact ⟨rfl, (List.append_nil _).symm⟩
  | keep p rest hperm hfirst => exact ⟨rfl, List.map_append⟩

/-- Every order makes an appointment, and every answer with a firing is one that is kept. -/
theorem Run.counts (h : Run a xs answers b) :
    b.made = a.made + xs.countP Request.isOrder ∧ b.firings = a.firings ++ answers.filterMap id := by
  induction h with
  | nil => exact ⟨rfl, (List.append_nil _).symm⟩
  | cons hs _ ih =>
    obtain ⟨hmade, hfired⟩ := hs.counts
    obtain ⟨hmade', hfired'⟩ := ih
    constructor
    · rw [hmade', hmade, Nat.add_assoc, ← List.countP_append]
      rfl
    · rw [hfired', hfired, List.filterMap_append, List.append_assoc]

theorem Sound.le_bound (h : a.Sound start) {t : Float} (ht : t ∈ start :: a.times) :
    t ≤ if start < a.endTime then a.endTime else start := by
  obtain ⟨htn, hle⟩ := h.past t ht
  have hs : start.isNaN = false := isNaN_of_isFinite h.startFinite
  have hb := h.bounded
  split_ifs with hlt
  · rw [lt_iff_units hs h.endDefined] at hlt
    exact (le_iff_units htn h.endDefined).2 (by omega)
  · rw [lt_iff_units hs h.endDefined] at hlt
    exact (le_iff_units htn hs).2 (by omega)

theorem Sound.length_made (h : a.Sound start) : a.kept.length + a.pending.length = a.made := by
  have := h.accounted.length_eq
  simpa [numbers] using this

end Agenda

end FleetEnergy

import Mathlib.Data.List.Basic
import FleetEnergy.Proofs.Binary64.Order
import FleetEnergy.Proofs.Ledger
import FleetEnergy.Scheduler

/-! What an account shows after any entries. Every booking counts for the energies, early or late; what the next step
is computed from is only led on by bookings that come in the order of time. -/
namespace FleetEnergy
open Binary64
set_option autoImplicit false

/-! ## Entries -/

/-- A step as it is booked. -/
structure Booking where
  delta : Float
  time : Float
  snapshot : Snapshot Float

inductive LedgerEntry
  | tick (b : Booking)
  | set (energy : Float)
  | increase (energy : Float)
  | decrease (energy : Float)

namespace LedgerEntry

def booking? : LedgerEntry → Option Booking
  | .tick b => some b
  | _ => none

/-- What an entry makes of the energy that was left. -/
def remainder (left : Float) : LedgerEntry → Float
  | .tick b => left - b.delta
  | .set energy => energy
  | .increase energy => left + energy
  | .decrease energy => left - energy

end LedgerEntry

def bookings (es : List LedgerEntry) : List Booking := es.filterMap LedgerEntry.booking?

def bookedTimes (es : List LedgerEntry) : List Float := (bookings es).map Booking.time

/-- The bookings that are before none of the times seen until then. -/
def timely : List Float → List Booking → List Booking
  | _, [] => []
  | seen, b :: r =>
    if ∀ t ∈ seen, ¬b.time < t then b :: timely (seen ++ [b.time]) r else timely (seen ++ [b.time]) r

theorem bookings_concat (es : List LedgerEntry) (e : LedgerEntry) :
    bookings (es ++ [e]) = bookings es ++ e.booking?.toList := by
  cases e <;> simp [bookings, LedgerEntry.booking?]

theorem bookedTimes_concat (es : List LedgerEntry) (e : LedgerEntry) :
    bookedTimes (es ++ [e]) = bookedTimes es ++ (e.booking?.map Booking.time).toList := by
  rw [bookedTimes, bookings_concat, List.map_append]
  cases e.booking? <;> rfl

theorem timely_concat (seen : List Float) (bs : List Booking) (b : Booking) :
    timely seen (bs ++ [b]) =
      timely seen bs ++ if ∀ t ∈ seen ++ bs.map Booking.time, ¬b.time < t then [b] else [] := by
  induction bs generalizing seen with
  | nil =>
    simp only [List.nil_append, timely, List.map_nil, List.append_nil]
  | cons c bs ih =>
    have hseen : seen ++ [c.time] ++ bs.map Booking.time = seen ++ (c :: bs).map Booking.time := by simp
    rw [List.cons_append, timely, timely, ih, hseen]
    split_ifs <;> simp

/-! ## Accounts -/

namespace Ledger

def enter (l : Ledger Float) : LedgerEntry → Ledger Float
  | .tick b => l.applyTick b.delta b.time b.snapshot
  | .set energy => l.setRemaining energy
  | .increase energy => l.increase energy
  | .decrease energy => l.decrease energy

def enterAll (l : Ledger Float) (es : List LedgerEntry) : Ledger Float := es.foldl enter l

theorem enter_energies (l : Ledger Float) (e : LedgerEntry) :
    (l.enter e).remaining = e.remainder l.remaining ∧
      (l.enter e).total = e.booking?.elim l.total (fun b => l.total + b.delta) ∧
      (l.enter e).last = e.booking?.elim l.last Booking.delta := by
  cases e with
  | tick b => exact ⟨l.applyTick_remaining _ _ _, l.applyTick_total _ _ _, l.applyTick_last _ _ _⟩
  | set energy => exact ⟨rfl, rfl, rfl⟩
  | increase energy => exact ⟨rfl, rfl, rfl⟩
  | decrease energy => exact ⟨rfl, rfl, rfl⟩

/-- The energies follow from the entries alone, whatever their times. -/
theorem enterAll_energies (l : Ledger Float) (es : List LedgerEntry) :
    (l.enterAll es).remaining = es.foldl LedgerEntry.remainder l.remaining ∧
      (l.enterAll es).total = (bookings es).foldl (fun sum b => sum + b.delta) l.total ∧
      (l.enterAll es).last = (bookings es).getLast?.elim l.last Booking.delta := by
  induction es using List.reverseRecOn with
  | nil => exact ⟨rfl, rfl, rfl⟩
  | append_singleton es e ih =>
    obtain ⟨hremaining, htotal, hlast⟩ := ih
    obtain ⟨hremaining', htotal', hlast'⟩ := (l.enterAll es).enter_energies e
    have happend : l.enterAll (es ++ [e]) = (l.enterAll es).enter e := List.foldl_append
    rw [happend, hremaining', htotal', hlast', hremaining, htotal, hlast, bookings_concat]
    refine ⟨by rw [List.foldl_append]; rfl, ?_, ?_⟩ <;> cases e.booking? <;> simp

/-- The account was opened at `start`, and these bookings have led it on. -/
structure Reflects (start : Float) (bs : List Booking) (l : Ledger Float) : Prop where
  previous : l.previous = (timely [start] bs).getLast?.elim .unknown fun b => .ofSnapshot b.snapshot
  attained : l.updateTime ∈ start :: bs.map Booking.time
  latest : ∀ t ∈ start :: bs.map Booking.time, t ≤ l.updateTime

variable {initial start : Float} {bs : List Booking} {es : List LedgerEntry} {l : Ledger Float}

theorem reflects_new (hstart : start.isNaN = false) : Reflects start [] (new initial start) := by
  refine ⟨rfl, List.mem_singleton_self _, fun t ht => ?_⟩
  obtain rfl := List.mem_singleton.1 ht
  exact (le_iff_units hstart hstart).2 (le_refl _)

/-- The latest of all times decides whether a booking is before one of them. -/
theorem Reflects.timely_iff (h : Reflects start bs l) {now : Float}
    (hdef : ∀ t ∈ now :: start :: bs.map Booking.time, t.isNaN = false) :
    (∀ t ∈ start :: bs.map Booking.time, ¬now < t) ↔ ¬now < l.updateTime := by
  have hnow := hdef now List.mem_cons_self
  have hlast := hdef l.updateTime (List.mem_cons_of_mem now h.attained)
  refine ⟨fun hall => hall _ h.attained, fun hnot t ht => ?_⟩
  have htd := hdef t (List.mem_cons_of_mem now ht)
  have hle := h.latest t ht
  rw [lt_iff_units hnow hlast] at hnot
  rw [le_iff_units htd hlast] at hle
  rw [lt_iff_units hnow htd]
  omega

theorem Reflects.timely_concat (h : Reflects start bs l) {b : Booking}
    (hdef : ∀ t ∈ b.time :: start :: bs.map Booking.time, t.isNaN = false) :
    timely [start] (bs ++ [b]) = timely [start] bs ++ if ¬b.time < l.updateTime then [b] else [] := by
  rw [FleetEnergy.timely_concat]
  exact congrArg _ (if_congr (h.timely_iff hdef) rfl rfl)

theorem Reflects.late (h : Reflects start bs l) {b : Booking}
    (hdef : ∀ t ∈ b.time :: start :: bs.map Booking.time, t.isNaN = false) (hlate : b.time < l.updateTime) :
    Reflects start (bs ++ [b]) (l.applyTick b.delta b.time b.snapshot) := by
  have hprevious := applyTick_previous_of_late hlate b.delta b.snapshot
  have hupdate := applyTick_updateTime_of_late hlate b.delta b.snapshot
  refine ⟨?_, ?_, ?_⟩
  · rw [hprevious, h.previous, h.timely_concat hdef, if_neg (not_not.2 hlate), List.append_nil]
  · rw [hupdate, List.map_append, ← List.cons_append]
    exact List.mem_append_left _ h.attained
  · rw [hupdate, List.map_append, ← List.cons_append]
    intro t ht
    rcases List.mem_append.1 ht with ht | ht
    · exact h.latest t ht
    · obtain rfl := List.mem_singleton.1 ht
      have hnow := hdef b.time List.mem_cons_self
      have hlast := hdef l.updateTime (List.mem_cons_of_mem _ h.attained)
      rw [lt_iff_units hnow hlast] at hlate
      exact (le_iff_units hnow hlast).2 hlate.le

theorem Reflects.onTime (h : Reflects start bs l) {b : Booking}
    (hdef : ∀ t ∈ b.time :: start :: bs.map Booking.time, t.isNaN = false) (hnot : ¬b.time < l.updateTime) :
    Reflects start (bs ++ [b]) (l.applyTick b.delta b.time b.snapshot) := by
  have hprevious := applyTick_previous hnot b.delta b.snapshot
  have hupdate := applyTick_updateTime hnot b.delta b.snapshot
  have hnow := hdef b.time List.mem_cons_self
  refine ⟨?_, ?_, ?_⟩
  · rw [hprevious, h.timely_concat hdef, if_pos hnot, List.getLast?_concat]
    rfl
  · rw [hupdate]
    simp
  · rw [hupdate, List.map_append, ← List.cons_append]
    intro t ht
    rcases List.mem_append.1 ht with ht | ht
    · exact (not_lt_iff_le hnow (hdef t (List.mem_cons_of_mem _ ht))).1 ((h.timely_iff hdef).2 hnot t ht)
    · obtain rfl := List.mem_singleton.1 ht
      exact (le_iff_units hnow hnow).2 (le_refl _)

theorem Reflects.enter (h : Reflects start (bookings es) l) (e : LedgerEntry)
    (hdef : ∀ t ∈ start :: bookedTimes (es ++ [e]), t.isNaN = false) :
    Reflects start (bookings (es ++ [e])) (l.enter e) := by
  rw [bookedTimes_concat] at hdef
  rw [bookings_concat]
  cases e with
  | tick b =>
    have htime : b.time.isNaN = false := hdef b.time (by simp [LedgerEntry.booking?])
    have hall : ∀ t ∈ b.time :: start :: bookedTimes es, t.isNaN = false :=
      List.forall_mem_cons.2 ⟨htime, fun t ht => hdef t (List.mem_append_left _ ht)⟩
    by_cases hlate : b.time < l.updateTime
    · exact h.late hall hlate
    · exact h.onTime hall hlate
  | set energy => exact (List.append_nil (bookings es)).symm ▸ ⟨h.previous, h.attained, h.latest⟩
  | increase energy => exact (List.append_nil (bookings es)).symm ▸ ⟨h.previous, h.attained, h.latest⟩
  | decrease energy => exact (List.append_nil (bookings es)).symm ▸ ⟨h.previous, h.attained, h.latest⟩

theorem reflects_enterAll (hstart : start.isNaN = false) (es : List LedgerEntry)
    (hdef : ∀ t ∈ bookedTimes es, t.isNaN = false) :
    Reflects start (bookings es) ((new initial start).enterAll es) := by
  induction es using List.reverseRecOn with
  | nil => exact reflects_new hstart
  | append_singleton es e ih =>
    have hbefore : ∀ t ∈ bookedTimes es, t.isNaN = false := fun t ht =>
      hdef t (by rw [bookedTimes_concat]; exact List.mem_append_left _ ht)
    rw [enterAll, List.foldl_append]
    exact (ih hbefore).enter e (List.forall_mem_cons.2 ⟨hstart, hdef⟩)

/-! ## What every account shows -/

theorem updateTime_le_enterAll (hstart : start.isNaN = false) (es more : List LedgerEntry)
    (hdef : ∀ t ∈ bookedTimes (es ++ more), t.isNaN = false) :
    ((new initial start).enterAll es).updateTime ≤ ((new initial start).enterAll (es ++ more)).updateTime := by
  have hmem : ∀ t ∈ bookedTimes es, t ∈ bookedTimes (es ++ more) := fun t ht => by
    rw [bookedTimes, bookings, List.filterMap_append, List.map_append]
    exact List.mem_append_left _ ht
  have hbefore : Reflects start _ ((new initial start).enterAll es) :=
    reflects_enterAll hstart es fun t ht => hdef t (hmem t ht)
  have hafter : Reflects start _ ((new initial start).enterAll (es ++ more)) :=
    reflects_enterAll hstart (es ++ more) hdef
  rcases List.mem_cons.1 hbefore.attained with hu | hu
  · rw [hu]
    exact hafter.latest start List.mem_cons_self
  · exact hafter.latest _ (List.mem_cons_of_mem start (hmem _ hu))

theorem elapsedSince_beq (l : Ledger Float) (now : Float) :
    (l.elapsedSince now == later (now - l.updateTime) 0.0) = true := by
  have hz : (0.0 : Float).isNaN = false := rfl
  unfold elapsedSince Scalar.positivePart later
  generalize now - l.updateTime = d
  by_cases hn : d.isNaN = true
  · have hnot : ¬(0.0 : Float) < d := fun h => by
      rw [(not_nan_of_lt h).2] at hn
      cases hn
    rw [if_neg hnot, if_pos hn]
    rfl
  · have hd : d.isNaN = false := Bool.eq_false_iff.2 hn
    rw [if_neg hn]
    split_ifs with hpos hneg hneg
    · rw [lt_iff_units hz hd] at hpos
      rw [lt_iff_units hd hz] at hneg
      omega
    · exact (beq_iff_units hd hd).2 rfl
    · rfl
    · rw [beq_iff_units hz hd]
      rw [lt_iff_units hz hd] at hpos
      rw [lt_iff_units hd hz] at hneg
      omega

/-- After any entries at times that are numbers, the total is the sum of all bookings, the rest follows from all
entries in their order, the update time is the latest of the times and is never led back, the state that the next
step is computed from is that of the last booking that was not late, and no time passes before the update time. -/
theorem account_reflects_entries (initial start : Float) (hstart : start.isNaN = false) (es : List LedgerEntry)
    (hes : ∀ t ∈ bookedTimes es, t.isNaN = false) :
    let l := (new initial start).enterAll es
    l.total = (bookings es).foldl (fun sum b => sum + b.delta) 0.0 ∧
    l.remaining = es.foldl LedgerEntry.remainder initial ∧
    l.last = (bookings es).getLast?.elim 0.0 Booking.delta ∧
    (l.updateTime ∈ start :: bookedTimes es ∧ ∀ t ∈ start :: bookedTimes es, t ≤ l.updateTime) ∧
    (∀ front back, es = front ++ back → ((new initial start).enterAll front).updateTime ≤ l.updateTime) ∧
    l.previous = (timely [start] (bookings es)).getLast?.elim .unknown (fun b => .ofSnapshot b.snapshot) ∧
    ∀ now, (l.elapsedSince now == later (now - l.updateTime) 0.0) = true := by
  intro l
  obtain ⟨hremaining, htotal, hlast⟩ := (new initial start).enterAll_energies es
  have h : Reflects start (bookings es) l := reflects_enterAll hstart es hes
  refine ⟨htotal, hremaining, hlast, ⟨h.attained, h.latest⟩, ?_, h.previous, l.elapsedSince_beq⟩
  rintro front back rfl
  exact updateTime_le_enterAll hstart front back hes

def standing (x : Float) : Snapshot Float := ⟨⟨x, 0.0, 0.0⟩, .zero⟩

/-- Two steps of which the second comes late, with the battery filled up between them. -/
def lateEntries : List LedgerEntry :=
  [.tick ⟨5.0, 2.0, standing 1.0⟩, .increase 7.0, .tick ⟨3.0, 1.0, standing 2.0⟩]

theorem late_step_is_booked :
    (∀ t ∈ bookedTimes lateEntries, t.isNaN = false) ∧
      ((new 10.0 0.0).enterAll lateEntries).total = 8.0 ∧
      ((new 10.0 0.0).enterAll lateEntries).remaining = 9.0 ∧
      ((new 10.0 0.0).enterAll lateEntries).last = 3.0 ∧
      ((new 10.0 0.0).enterAll lateEntries).previous = .ofSnapshot (standing 1.0) := by
  have htimes : ∀ t ∈ bookedTimes lateEntries, t.isNaN = false := by decide
  obtain ⟨htotal, hremaining, hlast, -, -, hprevious, -⟩ := account_reflects_entries 10.0 0.0 rfl lateEntries htimes
  refine ⟨htimes, htotal.trans ?_, hremaining.trans ?_, hlast, hprevious.trans rfl⟩
  · rfl
  · rfl

end Ledger

end FleetEnergy

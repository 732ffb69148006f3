import FleetEnergy.Proofs.TimeQueue
import FleetEnergy.Scheduler

/-! What the scheduler does with its queue: a firing is taken from the front of it, and a new one is queued once. -/
namespace FleetEnergy
set_option autoImplicit false

namespace Scheduler

/-! ## Taking firings -/

/-- The clock after a delivery. -/
def clockAt (s : Scheduler) (time : Float) : Instant := if time.isNaN then s.clock else .ofFloat time

theorem next_nil {s : Scheduler} (h : s.queue.toList = []) : s.next = none := by
  simp only [next, TimeQueue.pop, h]

theorem next_cons {s : Scheduler} {due : Instant} {id : VehicleId} {rest : List (Instant × VehicleId)}
    (h : s.queue.toList = (due, id) :: rest) :
    s.next = some (⟨s.deliveryTime due.toFloat, id⟩,
      { s with clock := s.clockAt (s.deliveryTime due.toFloat), queue := ⟨rest⟩ }) := by
  simp only [next, TimeQueue.pop, h, clockAt]

theorem next_cases {s sched : Scheduler} {f : Firing} (h : s.next = some (f, sched)) :
    ∃ due rest, s.queue.toList = (due, f.vehicle) :: rest ∧ f.time = s.deliveryTime due.toFloat ∧
      sched = { s with clock := s.clockAt f.time, queue := ⟨rest⟩ } := by
  cases hq : s.queue.toList with
  | nil =>
    rw [next_nil hq] at h
    cases h
  | cons e rest =>
    rw [next_cons hq] at h
    cases h
    exact ⟨e.1, rest, rfl, rfl, rfl⟩

/-! ## Pending firings -/

/-- The vehicles of the pending firings. -/
def waiting (s : Scheduler) : List VehicleId := s.queue.toList.map Prod.snd

theorem waiting_schedule (s : Scheduler) (delay : Float) (id : VehicleId) :
    (s.schedule delay id).waiting.Perm (id :: s.waiting) :=
  (TimeQueue.insertSorted_perm (_, id) s.queue.toList).map Prod.snd

theorem pending_eq_zero {s : Scheduler} : s.pending = 0 ↔ s.queue.toList = [] := List.length_eq_zero_iff

end Scheduler

end FleetEnergy

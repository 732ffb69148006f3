import FleetEnergy.Proofs.Progress
import FleetEnergy.Proofs.Simulation.Interleaving

/-! When a run ends. All vehicles fire at the times of one clock, so that a run ends if and only if no vehicle was
accepted or the clock advances up to the end; an interval that vanishes against the time keeps it going for ever. -/
namespace FleetEnergy
open Binary64
set_option autoImplicit false

namespace Simulation

variable {s : Simulation} {t : Float} {a : List VehicleId}

/-- After some number of passes nothing is pending, and every vehicle is stopped. -/
def Ends (s : Simulation) : Prop :=
  ∃ n, (passes n s s.startTime).1.1.scheduler.queue.toList = [] ∧
    ∀ id v, (passes n s s.startTime).1.1.garage.get? id = some v → v.loop.state = .stopped

theorem Consistent.passes (hc : s.Consistent) (n : Nat) (report : Float) :
    (Simulation.passes n s report).1.1.Consistent := by
  have hstep (es : List (Float × Event)) (s s' : Simulation) (report report' : Float) (hs : List Happening)
      (hc : s.Consistent) (hp : s.pass report = some ((s', report'), hs)) : s'.Consistent := hc.pass hp
  exact @passes_keep (fun _ s => s.Consistent) hstep n [] s report hc

theorem Consistent.ends_iff (hc : s.Consistent) :
    s.Ends ↔ ∃ n, (Simulation.passes n s s.startTime).1.1.scheduler.queue.toList = [] := by
  constructor
  · rintro ⟨n, hq, -⟩
    exact ⟨n, hq⟩
  · rintro ⟨n, hq⟩
    exact ⟨n, hq, fun id v hv => (hc.passes n s.startTime).stopped hq hv⟩

/-- The run gives an answer just for the simulations that end. -/
theorem InRound.run_isSome_iff (h : s.InRound t [] a) : s.run.isSome = true ↔ s.Ends := by
  rw [h.consistent.ends_iff]
  constructor
  · intro hsome
    obtain ⟨⟨s', hs⟩, hrun⟩ := Option.isSome_iff_exists.1 hsome
    obtain ⟨n, rfl, hq, -⟩ := run_cases hrun
    exact ⟨n, hq⟩
  · rintro ⟨n, hq⟩
    exact h.run_isSome hq

theorem interval_pos (s : Simulation) : 0.0 < s.interval := (normalizeInterval_pos _).1

/-- There is a last round if and only if the clock advances to it. -/
theorem InRound.ends_iff (h : s.InRound t [] a) :
    s.Ends ↔ a = [] ∨ ClockAdvances s.interval s.scheduler.endTime t := by
  have hlast := @exists_last_iff_advances s.interval s.scheduler.endTime t s.interval_pos h.finite
  rw [h.consistent.ends_iff]
  constructor
  · rintro ⟨n, hq⟩
    by_cases hne : a = []
    · exact .inl hne
    · exact .inr (hlast.1 (h.exists_last hne hq))
  · rintro (rfl | hadv)
    · exact ⟨0, h.queue_nil⟩
    · by_cases hne : a = []
      · subst hne
        exact ⟨0, h.queue_nil⟩
      · obtain ⟨k, hlt, hge⟩ := hlast.2 hadv
        obtain ⟨s', report', hs, hp, hq, -⟩ := h.last_round hne k hlt hge s.startTime
        refine ⟨(k + 1) * a.length, ?_⟩
        rw [hp]
        exact hq

/-- A run that does not end always has something pending. -/
theorem InRound.pending_of_not_ends (h : s.InRound t [] a) (hn : ¬s.Ends) (n : Nat) (report : Float) :
    (passes n s report).1.1.scheduler.pending ≠ 0 := by
  intro hp
  exact hn (h.run_isSome_iff.1 (h.run_isSome (Scheduler.pending_eq_zero.1 hp)))

/-- Between finite times a run ends just if no vehicle was accepted or the interval leads on from every time of
the clock before the end. Otherwise something is pending after every number of passes. -/
theorem run_ends_iff_clock_advances (start : Instant) (endTime : Float) (mobility : Mobility) (settings : Settings)
    (ps : List (VehicleId × Profile Float)) (hstart : start.toFloat.isFinite = true)
    (hend : endTime.isFinite = true) :
    let first := new start endTime mobility settings
    let s := (Scenario.enrolAll first ps).1
    (s.run.isSome = true ↔ s.Ends) ∧
    (s.Ends ↔ first.accepted ps = [] ∨
      ClockAdvances (UpdateLoop.normalizeInterval settings.updateInterval) endTime start.toFloat) ∧
    (¬s.Ends → ∀ n report, (passes n s report).1.1.scheduler.pending ≠ 0) := by
  intro first s
  have hin : s.InRound start.toFloat [] ((first.accepted ps).map Prod.fst) :=
    (inRound_new hstart (isNaN_of_isFinite hend) mobility settings).enrolAll ps
  have hint : s.interval = UpdateLoop.normalizeInterval settings.updateInterval := by
    rw [interval, enrolAll_settings]
    rfl
  have hsend : s.scheduler.endTime = endTime := enrolAll_endTime first ps
  refine ⟨hin.run_isSome_iff, ?_, hin.pending_of_not_ends⟩
  rw [← hint, hin.ends_iff, hsend, List.map_eq_nil_iff]

theorem parked_ends : (Scenario.enrolAll parked parkedRequests).1.Ends := by
  obtain ⟨hsome, -, -⟩ := run_ends_iff_clock_advances (.ofFloat 0.0) 1.5
    ((Mobility.empty.add ⟨7⟩ parkedModel).add ⟨9⟩ parkedModel) .default parkedRequests (by decide) (by decide)
  obtain ⟨s, hs, hrun⟩ := run_parked
  exact hsome.1 (Option.isSome_iff_exists.2 ⟨(s, hs), hrun⟩)

/-! ## An interval that vanishes against the time -/

/-- A vehicle that stays where it is, over one second at a time when neighbouring floats are a quarter of a
microsecond apart, with an interval of a tenth of a microsecond. -/
def crawling : Simulation :=
  new (.ofFloat 1700000000.0) 1700000001.0 (Mobility.empty.add ⟨1⟩ parkedModel)
    { Settings.default with updateInterval := 0.0000001 }

def crawlingRequests : List (VehicleId × Profile Float) := [(⟨1⟩, parkedProfile)]

/-- All times are finite and the vehicle is accepted, but the run does not end. -/
theorem crawling_never_ends :
    crawling.startTime.isFinite = true ∧ crawling.scheduler.endTime.isFinite = true ∧
      crawling.accepted crawlingRequests = crawlingRequests ∧
      ¬(Scenario.enrolAll crawling crawlingRequests).1.Ends ∧
      ∀ n report, (passes n (Scenario.enrolAll crawling crawlingRequests).1 report).1.1.scheduler.pending ≠ 0 := by
  have hacc : crawling.accepted crawlingRequests = crawlingRequests := by rfl
  have hin : (Scenario.enrolAll crawling crawlingRequests).1.InRound 1700000000.0 [] [⟨1⟩] :=
    (inRound_new (by decide) (by decide) _ _).enrolAll crawlingRequests
  have hn : ¬(Scenario.enrolAll crawling crawlingRequests).1.Ends := by
    rw [hin.ends_iff]
    rintro (h | h)
    · cases h
    · exact absurd (h 0 (by decide +kernel)) (by decide +kernel)
  exact ⟨by decide, by decide, hacc, hn, hin.pending_of_not_ends hn⟩

end Simulation

end FleetEnergy

import Mathlib.Algebra.Order.Floor.Ring
import Mathlib.Data.Rat.Floor
import FleetEnergy.Proofs.Binary64.Whole
import FleetEnergy.Proofs.Simulation.Ending

/-! Runs on whole seconds. If start, end and interval are whole numbers, nothing is rounded on the clock, and the rounds
of a run can be counted: one at every multiple of the interval after the start and before the end, and the last one at
the end, or at the start if that is not before the end. -/
namespace FleetEnergy
open Binary64
set_option autoImplicit false

/-! ## The clock -/

theorem isWhole_earlier {x y : Float} {v w : Int} (hx : IsWhole x v) (hy : IsWhole y w) :
    IsWhole (earlier x y) (min v w) := by
  rw [earlier, if_neg (Bool.eq_false_iff.1 hx.defined)]
  split_ifs with h
  · rwa [min_eq_right ((hy.lt_iff hx).1 h).le]
  · rwa [min_eq_left (not_lt.1 (mt (hy.lt_iff hx).2 h))]

theorem isWhole_later {x y : Float} {v w : Int} (hx : IsWhole x v) (hy : IsWhole y w) :
    IsWhole (later x y) (max v w) := by
  rw [later, if_neg (Bool.eq_false_iff.1 hx.defined)]
  split_ifs with h
  · rwa [max_eq_right ((hx.lt_iff hy).1 h).le]
  · rwa [max_eq_left (not_lt.1 (mt (hx.lt_iff hy).2 h))]

section Clock

variable {interval endTime t : Float} {z e i : Int}

theorem isWhole_due (ht : IsWhole t z) (hint : IsWhole interval i) (hi : 0 < i) (hsum : (z + i).natAbs ≤ 2 ^ 53)
    (hsize : i ≤ 2 ^ 53) : IsWhole (dueTime interval t) (z + i) := by
  have hdiff : IsWhole (t + interval - t) i := by
    have hback : z + i - z = i := by omega
    have h := (ht.add hint hsum).sub ht (by omega)
    rwa [hback] at h
  have hpart : Scalar.positivePart (t + interval - t) = t + interval - t := if_pos ((isWhole_zero.lt_iff hdiff).2 hi)
  rw [dueTime, hpart]
  exact ht.add hdiff hsum

/-- The second of the `k`-th delivery after `z`: `k` intervals later, but not after the end and not before `z`. -/
def secondOf (z e i : Int) (k : Nat) : Int := max z (min (z + k * i) e)

theorem secondOf_succ (z e : Int) {i : Int} (hi : 0 < i) (k : Nat) :
    secondOf z e i (k + 1) = max (min (secondOf z e i k + i) e) (secondOf z e i k) := by
  have hstep : z + (k + 1 : Nat) * i = z + k * i + i := by
    push_cast
    ring
  have hk : 0 ≤ (k : Int) * i := by positivity
  rw [secondOf, secondOf, hstep]
  omega

theorem isWhole_roundTime (ht : IsWhole t z) (he : IsWhole endTime e) (hint : IsWhole interval i) (hi : 0 < i)
    (hsize : |z| + |e| + i < 2 ^ 53) (k : Nat) : IsWhole (roundTime interval endTime t k) (secondOf z e i k) := by
  have hz := abs_le.1 (le_refl |z|)
  have hend := abs_le.1 (le_refl |e|)
  induction k with
  | zero =>
    have h0 : secondOf z e i 0 = z := by
      rw [secondOf, Nat.cast_zero, zero_mul]
      omega
    rw [h0]
    exact ht
  | succ k ih =>
    have hlo : z ≤ secondOf z e i k := le_max_left _ _
    have hhi : secondOf z e i k ≤ max z e := max_le_max (le_refl z) (min_le_right _ _)
    rw [roundTime_succ, secondOf_succ z e hi k]
    exact isWhole_later (isWhole_earlier (isWhole_due ih hint hi (by omega) (by omega)) he) ih

/-! ## How many rounds there are -/

/-- The multiples of the interval after the start and before the end. -/
def roundCount (z e i : Int) : Nat := (max 0 (⌈((e - z : Int) : ℚ) / i⌉ - 1)).toNat

theorem lt_end_iff (z e : Int) {i : Int} (hi : 0 < i) (k : Nat) :
    z + (k + 1 : Nat) * i < e ↔ k < roundCount z e i := by
  have hq : (0 : ℚ) < i := by exact_mod_cast hi
  have hceil : ((k + 1 : Nat) : Int) < ⌈((e - z : Int) : ℚ) / i⌉ ↔ z + (k + 1 : Nat) * i < e := by
    rw [Int.lt_ceil, lt_div_iff₀ hq]
    have hcast : (((k + 1 : Nat) : Int) : ℚ) * i = (((k + 1 : Nat) * i : Int) : ℚ) := by push_cast; rfl
    rw [hcast, Int.cast_lt]
    omega
  rw [← hceil, roundCount]
  omega

theorem secondOf_eq {k : Nat} (hi : 0 < i) (hk : k < roundCount z e i) :
    secondOf z e i (k + 1) = z + (k + 1 : Nat) * i := by
  have hlt := (lt_end_iff z e hi k).2 hk
  have hpos : 0 ≤ ((k + 1 : Nat) : Int) * i := by positivity
  rw [secondOf]
  omega

theorem secondOf_last (hi : 0 < i) : secondOf z e i (roundCount z e i + 1) = max z e := by
  have hge := mt (lt_end_iff z e hi (roundCount z e i)).1 (Nat.lt_irrefl _)
  rw [secondOf]
  omega

theorem roundTime_lt_end_iff (ht : IsWhole t z) (he : IsWhole endTime e) (hint : IsWhole interval i) (hi : 0 < i)
    (hsize : |z| + |e| + i < 2 ^ 53) (k : Nat) :
    roundTime interval endTime t (k + 1) < endTime ↔ k < roundCount z e i := by
  have hpos : 0 ≤ ((k + 1 : Nat) : Int) * i := by positivity
  rw [(isWhole_roundTime ht he hint hi hsize (k + 1)).lt_iff he, ← lt_end_iff z e hi, secondOf]
  omega

end Clock

/-! ## The times of one vehicle -/

/-- The times of the events of a kind that are about a vehicle. -/
def timesOf (kind : Event.Kind) (id : VehicleId) (ms : List Mark) : List Float :=
  (ms.filter (Mark.isOf kind id)).map Mark.time

theorem timesOf_append (kind : Event.Kind) (id : VehicleId) (ms more : List Mark) :
    timesOf kind id (ms ++ more) = timesOf kind id ms ++ timesOf kind id more := by
  rw [timesOf, List.filter_append, List.map_append]
  rfl

section Times

variable {a : List VehicleId} {id : VehicleId} (hnodup : a.Nodup) (hid : id ∈ a)
include hnodup hid

theorem timesOf_round (kind kind' : Event.Kind) (time : Float) :
    timesOf kind id (round kind' a time) = if kind' = kind then [time] else [] := by
  rw [timesOf, round, List.filter_map, List.map_map]
  split_ifs with hk
  · have hsel : (Mark.isOf kind id ∘ fun v => (⟨time, kind', v⟩ : Mark)) = fun v => decide (v = id) := by
      funext v
      simp [Mark.isOf, hk]
    rw [hsel, List.filter_eq, List.count_eq_one_of_mem hnodup hid]
    rfl
  · rw [List.map_eq_nil_iff, List.filter_eq_nil_iff]
    intro v _
    simp [Mark.isOf, hk]

theorem timesOf_tickRounds (kind : Event.Kind) (times : List Float) :
    timesOf kind id (tickRounds a times) = if .tick = kind then times else [] := by
  induction times with
  | nil => simp [tickRounds, timesOf]
  | cons time times ih =>
    have hcons : timesOf kind id (tickRounds a (time :: times)) =
        timesOf kind id (round .tick a time) ++ timesOf kind id (tickRounds a times) :=
      timesOf_append _ _ _ _
    rw [hcons, ih, timesOf_round hnodup hid]
    split_ifs <;> rfl

/-- In whole rounds every vehicle has the times of the rounds. -/
theorem timesOf_rounds {ms : List Mark} {times : List Float} {last : Float}
    (hmarks : ms = tickRounds a times ++ round .stopped a last) :
    timesOf .tick id ms = times ∧ timesOf .stopped id ms = [last] := by
  rw [hmarks, timesOf_append, timesOf_append, timesOf_tickRounds hnodup hid, timesOf_tickRounds hnodup hid,
    timesOf_round hnodup hid, timesOf_round hnodup hid]
  exact ⟨List.append_nil _, rfl⟩

end Times

namespace Simulation

/-- Between whole seconds and with an interval of whole seconds every run ends. Every accepted vehicle ticks once at each
multiple of the interval after the start that is before the end, and it stops once, at the end or at a later start. -/
theorem whole_seconds_make_a_timetable (start endTime : Float) (mobility : Mobility) (settings : Settings)
    (ps : List (VehicleId × Profile Float)) {z e i : Int} (hstart : IsWhole start z) (hend : IsWhole endTime e)
    (hint : IsWhole settings.updateInterval i) (hi : 0 < i) (hsize : |z| + |e| + i < 2 ^ 53) :
    let first := new (.ofFloat start) endTime mobility settings
    let s := (Scenario.enrolAll first ps).1
    let a := (first.accepted ps).map Prod.fst
    s.Ends ∧ ∃ s' hs, s.run = some (s', hs) ∧ ∃ times last,
      marks (published hs) = tickRounds a times ++ round .stopped a last ∧
      (∀ id ∈ a, timesOf .tick id (marks (published hs)) = times ∧ timesOf .stopped id (marks (published hs)) = [last]) ∧
      times.length = (max 0 (⌈((e - z : Int) : ℚ) / i⌉ - 1)).toNat ∧
      (∀ k (hk : k < times.length), IsWhole times[k] (z + (k + 1 : Nat) * i)) ∧ IsWhole last (max z e) := by
  intro first s a
  have hto : (Instant.ofFloat start).toFloat = start := Instant.toFloat_ofFloat start
  have hin : s.InRound start [] a := by
    have hfin : (Instant.ofFloat start).toFloat.isFinite = true := by
      rw [hto]
      exact hstart.finite
    have h := (inRound_new hfin hend.defined mobility settings).enrolAll ps
    rwa [hto, List.nil_append] at h
  have hsend : s.scheduler.endTime = endTime := enrolAll_endTime first ps
  have hsint : s.interval = settings.updateInterval := by
    have hpos : 0.0 < settings.updateInterval := (isWhole_zero.lt_iff hint).2 hi
    have hset : s.settings = settings := enrolAll_settings first ps
    rw [interval, hset, UpdateLoop.normalizeInterval, if_pos hpos]
    exact if_pos hint.finite
  have hround (k : Nat) : s.roundAt start k = roundTime settings.updateInterval endTime start k := by
    rw [roundAt, hsint, hsend]
  have hbefore (k : Nat) : s.roundAt start (k + 1) < s.scheduler.endTime ↔ k < roundCount z e i := by
    rw [hround, hsend]
    exact roundTime_lt_end_iff hstart hend hint hi hsize k
  have hlt (j : Nat) (hj : j < roundCount z e i) := (hbefore j).2 hj
  have hge := mt (hbefore (roundCount z e i)).1 (Nat.lt_irrefl _)
  have hends : s.Ends := hin.ends_iff.2 (.inr ((exists_last_iff_advances s.interval_pos hin.finite).1 ⟨_, hlt, hge⟩))
  obtain ⟨⟨s', hs⟩, hrun⟩ := Option.isSome_iff_exists.1 (hin.run_isSome_iff.2 hends)
  obtain ⟨n, rfl, hq, hpub⟩ := run_cases hrun
  have hmarks := hin.marks_of_last (roundCount z e i) hlt hge hq
  rw [← hpub] at hmarks
  have hnodup : a.Nodup := (history_of_admissions first ps).audited.nodup
  refine ⟨hends, _, hs, hrun, _, _, hmarks, fun id hid => timesOf_rounds hnodup hid hmarks, ?_, ?_, ?_⟩
  · rw [roundTimes, List.length_map, List.length_range]
    rfl
  · intro k hk
    have hk' : k < roundCount z e i := by simpa [roundTimes] using hk
    have hget : (s.roundTimes start (roundCount z e i))[k] = s.roundAt start (k + 1) := by simp [roundTimes]
    rw [hget, hround, ← secondOf_eq hi hk']
    exact isWhole_roundTime hstart hend hint hi hsize (k + 1)
  · rw [hround, ← secondOf_last hi]
    exact isWhole_roundTime hstart hend hint hi hsize _

/-- Two vehicles that stay where they are, for seven seconds with an interval of two. -/
def parkedForSeven : Simulation :=
  new (.ofFloat 0.0) 7.0 ((Mobility.empty.add ⟨7⟩ parkedModel).add ⟨9⟩ parkedModel)
    { Settings.default with updateInterval := 2.0 }

/-- They tick at 2, 4 and 6 and stop at 7. -/
theorem parked_for_seven_seconds :
    ∃ s hs, (Scenario.enrolAll parkedForSeven parkedRequests).1.run = some (s, hs) ∧ ∃ times last,
      marks (published hs) = tickRounds [⟨9⟩, ⟨7⟩] times ++ round .stopped [⟨9⟩, ⟨7⟩] last ∧
      times.length = 3 ∧ (∀ k (hk : k < times.length), IsWhole times[k] (0 + (k + 1 : Nat) * 2)) ∧ IsWhole last 7 := by
  have h0 : IsWhole 0.0 0 := isWhole_zero
  have h2 : IsWhole 2.0 2 := ⟨by decide, by decide +kernel⟩
  have h7 : IsWhole 7.0 7 := ⟨by decide, by decide +kernel⟩
  obtain ⟨-, s, hs, hrun, times, last, hm, -, hlen, htimes, hlast⟩ := whole_seconds_make_a_timetable 0.0 7.0
    ((Mobility.empty.add ⟨7⟩ parkedModel).add ⟨9⟩ parkedModel) { Settings.default with updateInterval := 2.0 }
    parkedRequests h0 h7 h2 (by norm_num) (by norm_num)
  have ha : (parkedForSeven.accepted parkedRequests).map Prod.fst = [⟨9⟩, ⟨7⟩] := by rfl
  change marks _ = tickRounds ((parkedForSeven.accepted parkedRequests).map Prod.fst) times ++
    round .stopped ((parkedForSeven.accepted parkedRequests).map Prod.fst) last at hm
  rw [ha] at hm
  have hthree : (max 0 (⌈((7 - 0 : Int) : ℚ) / (2 : Int)⌉ - 1)).toNat = 3 := by
    norm_num
    rfl
  exact ⟨s, hs, hrun, times, last, hm, hlen.trans hthree, htimes, hlast⟩

end Simulation

end FleetEnergy

import FleetEnergy.Proofs.Simulation.Books
import FleetEnergy.Proofs.Simulation.Rounds

/-! The stream of events of a run, vehicle by vehicle and round by round: ticks of all vehicles in the order of
admission, again and again, and at the end one round of stops. -/
namespace FleetEnergy
open Binary64
set_option autoImplicit false

/-! ## Rounds of events -/

inductive Event.Kind
  | admitted
  | rejected
  | tick
  | stopped
deriving DecidableEq

def Event.kind : Event → Event.Kind
  | .admitted .. => .admitted
  | .rejected .. => .rejected
  | .tick _ => .tick
  | .stopped .. => .stopped

def Event.vehicle : Event → VehicleId
  | .admitted id _ => id
  | .rejected id _ => id
  | .tick t => t.vehicle
  | .stopped id _ _ => id

/-- When something happened to a vehicle, and what. -/
structure Mark where
  time : Float
  kind : Event.Kind
  vehicle : VehicleId

def marks (es : List (Float × Event)) : List Mark := es.map fun e => ⟨e.1, e.2.kind, e.2.vehicle⟩

theorem marks_append (es more : List (Float × Event)) : marks (es ++ more) = marks es ++ marks more :=
  List.map_append

/-- Some vehicles one after the other, all at one time. -/
def round (kind : Event.Kind) (a : List VehicleId) (time : Float) : List Mark := a.map fun id => ⟨time, kind, id⟩

/-- All vehicles tick once at each of the times. -/
def tickRounds (a : List VehicleId) (times : List Float) : List Mark := times.flatMap (round .tick a)

theorem tickRounds_append (a : List VehicleId) (times more : List Float) :
    tickRounds a (times ++ more) = tickRounds a times ++ tickRounds a more := List.flatMap_append

theorem vehicle_mem_of_rounds {a : List VehicleId} {times : List Float} {last : Float} {m : Mark}
    (h : m ∈ tickRounds a times ++ round .stopped a last) : m.vehicle ∈ a := by
  rcases List.mem_append.1 h with h | h
  · obtain ⟨time, -, h⟩ := List.mem_flatMap.1 h
    obtain ⟨id, hid, rfl⟩ := List.mem_map.1 h
    exact hid
  · obtain ⟨id, hid, rfl⟩ := List.mem_map.1 h
    exact hid

/-- Whether a mark is of a kind and of a vehicle. -/
def Mark.isOf (kind : Event.Kind) (id : VehicleId) (m : Mark) : Bool := decide (m.kind = kind) && decide (m.vehicle = id)

theorem countP_round (kind kind' : Event.Kind) (id : VehicleId) (a : List VehicleId) (time : Float) :
    (round kind' a time).countP (Mark.isOf kind id) = if kind' = kind then a.count id else 0 := by
  rw [round, List.countP_map, List.count]
  split_ifs with hk
  · refine List.countP_congr fun v _ => ?_
    simp [Mark.isOf, hk]
  · rw [List.countP_eq_zero]
    intro v _
    simp [Mark.isOf, hk]

theorem countP_tickRounds (kind : Event.Kind) (id : VehicleId) (a : List VehicleId) (times : List Float) :
    (tickRounds a times).countP (Mark.isOf kind id) = if .tick = kind then times.length * a.count id else 0 := by
  induction times with
  | nil => simp [tickRounds]
  | cons time times ih =>
    have hcons : tickRounds a (time :: times) = round .tick a time ++ tickRounds a times := List.flatMap_cons
    rw [hcons, List.countP_append, ih, countP_round, List.length_cons]
    split_ifs
    · rw [Nat.succ_mul, Nat.add_comm]
    · rfl

theorem marks_cons (time : Float) (e : Event) (es : List (Float × Event)) :
    marks ((time, e) :: es) = ⟨time, e.kind, e.vehicle⟩ :: marks es := rfl

theorem length_stopsIn (id : VehicleId) (es : List (Float × Event)) :
    (stopsIn id es).length = (marks es).countP (Mark.isOf .stopped id) := by
  induction es with
  | nil => rfl
  | cons e es ih =>
    obtain ⟨time, e⟩ := e
    have hs : stopsIn id ((time, e) :: es) = stopsIn id [(time, e)] ++ stopsIn id es := stopsIn_append id [(time, e)] es
    rw [hs, List.length_append, ih, marks_cons, List.countP_cons, Nat.add_comm]
    congr 1
    cases e with
    | stopped v remaining total =>
      rw [stopsIn_stopped]
      by_cases hv : v = id <;> simp [Mark.isOf, Event.kind, Event.vehicle, hv]
    | _ => simp [Mark.isOf, Event.kind, stopsIn]

/-- The times of the rounds of a run: they do not decrease, all but the last are before the end, and the last is
at the end, or at the start of a run that does not start before its end. -/
structure RoundTimes (start endTime : Float) (times : List Float) (last : Float) : Prop where
  ordered : (start :: times ++ [last]).Pairwise (· ≤ ·)
  early : ∀ t ∈ times, t < endTime
  final : (last == if start < endTime then endTime else start) = true

namespace Simulation

variable {s : Simulation} {t : Float} {fired rest a : List VehicleId}

/-! ## Whole rounds -/

/-- The time of the `k`-th round after the one at `t`. -/
def roundAt (s : Simulation) (t : Float) (k : Nat) : Float := roundTime s.interval s.scheduler.endTime t k

/-- The times of the first rounds. -/
def roundTimes (s : Simulation) (t : Float) (k : Nat) : List Float := (List.range k).map fun j => s.roundAt t (j + 1)

theorem roundTimes_succ (s : Simulation) (t : Float) (k : Nat) :
    s.roundTimes t (k + 1) = s.roundTimes t k ++ [s.roundAt t (k + 1)] := by
  rw [roundTimes, List.range_succ, List.map_append]
  rfl

theorem roundAt_succ (s : Simulation) (t : Float) (k : Nat) : s.roundAt t (k + 1) = s.roundAfter (s.roundAt t k) :=
  roundTime_succ _ _ _ _

/-- The rest of a round before the end ticks. -/
theorem InRound.tick_all (h : s.InRound t fired rest) (hlt : s.roundAfter t < s.scheduler.endTime) (report : Float) :
    ∃ s' report' hs, passes rest.length s report = ((s', report'), hs) ∧ s'.InRound t (fired ++ rest) [] ∧
      s'.settings = s.settings ∧ s'.scheduler.endTime = s.scheduler.endTime ∧
      marks (published hs) = round .tick rest (s.roundAfter t) := by
  induction rest generalizing s fired report with
  | nil =>
    refine ⟨s, report, [], rfl, ?_, rfl, rfl, rfl⟩
    rw [List.append_nil]
    exact h
  | cons id rest ih =>
    obtain ⟨r, hs, v, m, -, -, -, hid, -, hp, hpub, hnext⟩ := h.tick hlt report
    obtain ⟨s', r', more, hps, hin, hset, hend, hm⟩ := ih hnext hlt r
    refine ⟨s', r', hs ++ more, ?_, ?_, hset, hend, ?_⟩
    · rw [List.length_cons, passes_step hp, hps]
    · rw [List.append_cons]
      exact hin
    · rw [published_append, marks_append, hm, hpub]
      exact congrArg (fun w => (⟨s.roundAfter t, .tick, w⟩ : Mark) :: round .tick rest (s.roundAfter t)) hid

/-- The rest of a round at the end stops. -/
theorem InRound.stop_all (h : s.InRound t fired rest) (hge : ¬s.roundAfter t < s.scheduler.endTime) (report : Float) :
    ∃ s' report' hs, passes rest.length s report = ((s', report'), hs) ∧ s'.scheduler.queue.toList = [] ∧
      marks (published hs) = round .stopped rest (s.roundAfter t) := by
  induction rest generalizing s fired report with
  | nil =>
    refine ⟨s, report, [], rfl, ?_, rfl⟩
    rw [h.queue, if_neg hge]
    rfl
  | cons id rest ih =>
    obtain ⟨r, hs, v, m, -, -, -, -, -, hp, hpub, hnext⟩ := h.stop hge report
    obtain ⟨s', r', more, hps, hq, hm⟩ := ih hnext hge r
    refine ⟨s', r', hs ++ more, ?_, hq, ?_⟩
    · rw [List.length_cons, passes_step hp, hps]
    · rw [published_append, marks_append, hm, hpub]
      rfl

/-- As long as the rounds are before the end, all vehicles tick in each of them. -/
theorem InRound.tick_rounds (h : s.InRound t [] a) (hne : a ≠ []) (k : Nat)
    (hlt : ∀ j < k, s.roundAt t (j + 1) < s.scheduler.endTime) (report : Float) :
    ∃ s' report' hs, passes (k * a.length) s report = ((s', report'), hs) ∧ s'.InRound (s.roundAt t k) [] a ∧
      s'.settings = s.settings ∧ s'.scheduler.endTime = s.scheduler.endTime ∧
      marks (published hs) = tickRounds a (s.roundTimes t k) := by
  induction k with
  | zero =>
    rw [Nat.zero_mul]
    exact ⟨s, report, [], rfl, h, rfl, rfl, rfl⟩
  | succ k ih =>
    -- The last round is the one that the first `k` lead to; when it is over, the next one has begun.
    obtain ⟨s₁, r₁, hs₁, hp₁, hin₁, hset₁, hend₁, hm₁⟩ := ih fun j hj => hlt j (by omega)
    have hround : s₁.roundAfter (s.roundAt t k) = s.roundAt t (k + 1) := by
      rw [roundAt_succ, roundAfter_congr hset₁ hend₁]
    have hlt₁ : s₁.roundAfter (s.roundAt t k) < s₁.scheduler.endTime := by
      rw [hround, hend₁]
      exact hlt k (by omega)
    obtain ⟨s₂, r₂, hs₂, hp₂, hin₂, hset₂, hend₂, hm₂⟩ := hin₁.tick_all hlt₁ r₁
    have hround₂ : s₂.roundAfter (s.roundAt t k) = s.roundAt t (k + 1) := by
      rw [← hround, roundAfter_congr hset₂ hend₂]
    have hturn := hin₂.turn hne (by rw [hround₂, hend₂, hend₁]; exact hlt k (by omega))
    rw [hround₂] at hturn
    refine ⟨s₂, r₂, hs₁ ++ hs₂, ?_, hturn, hset₂.trans hset₁, hend₂.trans hend₁, ?_⟩
    · rw [Nat.succ_mul, passes_add, hp₁]
      simp only [hp₂]
    · rw [published_append, marks_append, hm₁, hm₂, hround, roundTimes_succ, tickRounds_append]
      exact congrArg (tickRounds a (s.roundTimes t k) ++ ·) (List.append_nil _).symm

/-- The first round that is not before the end stops all vehicles, and nothing is left to do. -/
theorem InRound.last_round (h : s.InRound t [] a) (hne : a ≠ []) (k : Nat)
    (hlt : ∀ j < k, s.roundAt t (j + 1) < s.scheduler.endTime) (hge : ¬s.roundAt t (k + 1) < s.scheduler.endTime)
    (report : Float) :
    ∃ s' report' hs, passes ((k + 1) * a.length) s report = ((s', report'), hs) ∧
      s'.scheduler.queue.toList = [] ∧
      marks (published hs) = tickRounds a (s.roundTimes t k) ++ round .stopped a (s.roundAt t (k + 1)) := by
  obtain ⟨s₁, r₁, hs₁, hp₁, hin₁, hset₁, hend₁, hm₁⟩ := h.tick_rounds hne k hlt report
  have hround : s₁.roundAfter (s.roundAt t k) = s.roundAt t (k + 1) := by
    rw [roundAt_succ, roundAfter_congr hset₁ hend₁]
  have hge₁ : ¬s₁.roundAfter (s.roundAt t k) < s₁.scheduler.endTime := by
    rw [hround, hend₁]
    exact hge
  obtain ⟨s₂, r₂, hs₂, hp₂, hq, hm₂⟩ := hin₁.stop_all hge₁ r₁
  refine ⟨s₂, r₂, hs₁ ++ hs₂, ?_, hq, ?_⟩
  · rw [Nat.succ_mul, passes_add, hp₁]
    simp only [hp₂]
  · rw [published_append, marks_append, hm₁, hm₂, hround]

/-! ## The order of the times -/

theorem mem_roundTimes {k : Nat} {x : Float} (hx : x ∈ s.roundTimes t k) : ∃ j < k, s.roundAt t (j + 1) = x := by
  obtain ⟨j, hj, hx⟩ := List.mem_map.1 hx
  exact ⟨j, List.mem_range.1 hj, hx⟩

theorem InRound.roundTimes_ordered (h : s.InRound t fired rest) (k : Nat) {last : Float}
    (hn : last.isNaN = false) (hlast : ∀ j ≤ k, unitsOf (s.roundAt t j) ≤ unitsOf last) :
    (t :: s.roundTimes t k ++ [last]).Pairwise (· ≤ ·) := by
  have htn : t.isNaN = false := isNaN_of_isFinite h.finite
  have hdef (j : Nat) : (s.roundAt t j).isNaN = false := roundTime_defined _ _ htn j
  have hall : t :: s.roundTimes t k = (List.range (k + 1)).map (s.roundAt t) := by
    rw [List.range_succ_eq_map, List.map_cons, List.map_map]
    rfl
  rw [hall, List.pairwise_append]
  refine ⟨?_, List.pairwise_singleton _ _, ?_⟩
  · rw [List.pairwise_map]
    refine List.pairwise_lt_range.imp fun {i j} hij => ?_
    exact (le_iff_units (hdef i) (hdef j)).2 (units_roundTime_mono _ _ htn hij.le)
  · intro x hx y hy
    obtain ⟨j, hj, rfl⟩ := List.mem_map.1 hx
    rw [List.mem_singleton] at hy
    subst hy
    exact (le_iff_units (hdef j) hn).2 (hlast j (by have := List.mem_range.1 hj; omega))

/-- The rounds of a run that has reached its end. -/
theorem InRound.roundTimes_last (h : s.InRound t fired rest) (k : Nat)
    (hlt : ∀ j < k, s.roundAt t (j + 1) < s.scheduler.endTime) (hge : ¬s.roundAt t (k + 1) < s.scheduler.endTime) :
    RoundTimes t s.scheduler.endTime (s.roundTimes t k) (s.roundAt t (k + 1)) := by
  have htn : t.isNaN = false := isNaN_of_isFinite h.finite
  have hdef (j : Nat) : (s.roundAt t j).isNaN = false := roundTime_defined _ _ htn j
  refine ⟨?_, ?_, ?_⟩
  · exact h.roundTimes_ordered k (hdef _) fun j hj => units_roundTime_mono _ _ htn (by omega)
  · intro x hx
    obtain ⟨j, hj, rfl⟩ := mem_roundTimes hx
    exact hlt j hj
  · have hfin : (s.roundAt t k).isFinite = true := roundTime_finite h.finite hlt
    rw [roundAt_succ] at hge ⊢
    have hbeq := next_beq_end hfin h.defined hge
    cases k with
    | zero => exact hbeq
    | succ k =>
      have hk := hlt k (by omega)
      have ht : t < s.scheduler.endTime := by
        have hu := (lt_iff_units (hdef _) h.defined).1 hk
        have hmono := units_roundTime_mono s.interval s.scheduler.endTime htn (Nat.zero_le (k + 1))
        exact (lt_iff_units htn h.defined).2 (lt_of_le_of_lt hmono hu)
      rw [if_pos hk] at hbeq
      rw [if_pos ht]
      exact hbeq

/-- The rounds of a run that has not reached its end yet, with the end as the time of the last one. -/
theorem InRound.roundTimes_early (h : s.InRound t fired rest) (k : Nat)
    (hlt : ∀ j < k, s.roundAt t (j + 1) < s.scheduler.endTime) :
    RoundTimes t s.scheduler.endTime (s.roundTimes t k) (if t < s.scheduler.endTime then s.scheduler.endTime else t) := by
  have htn : t.isNaN = false := isNaN_of_isFinite h.finite
  have hdef (j : Nat) : (s.roundAt t j).isNaN = false := roundTime_defined _ _ htn j
  have hto : (if t < s.scheduler.endTime then s.scheduler.endTime else t).isNaN = false := by
    split_ifs
    · exact h.defined
    · exact htn
  refine ⟨h.roundTimes_ordered k hto fun j hj => ?_, ?_, (beq_iff_units hto hto).2 rfl⟩
  · cases j with
    | zero =>
      change unitsOf t ≤ _
      split_ifs with ht
      · exact ((lt_iff_units htn h.defined).1 ht).le
      · exact le_refl _
    | succ j =>
      have hj' := (lt_iff_units (hdef _) h.defined).1 (hlt j (by omega))
      have hmono := units_roundTime_mono s.interval s.scheduler.endTime htn (Nat.zero_le (j + 1))
      have ht : t < s.scheduler.endTime := (lt_iff_units htn h.defined).2 (lt_of_le_of_lt hmono hj')
      rw [if_pos ht]
      exact hj'.le
  · intro x hx
    obtain ⟨j, hj, rfl⟩ := mem_roundTimes hx
    exact hlt j hj

/-! ## Passes and runs -/

theorem InRound.queue_nil (h : s.InRound t [] []) : s.scheduler.queue.toList = [] := by
  rw [h.queue, List.map_nil, List.map_nil, ite_self]
  rfl

theorem InRound.queue_ne_nil (h : s.InRound t [] a) (hne : a ≠ []) : s.scheduler.queue.toList ≠ [] := by
  rw [h.queue]
  intro hc
  exact hne (List.map_eq_nil_iff.1 (List.append_eq_nil_iff.1 hc).1)

/-- The rounds before the end all are, or there is a first one that is not. -/
theorem early_or_last (s : Simulation) (t : Float) (n : Nat) :
    (∀ j < n, s.roundAt t (j + 1) < s.scheduler.endTime) ∨
      ∃ k < n, (∀ j < k, s.roundAt t (j + 1) < s.scheduler.endTime) ∧ ¬s.roundAt t (k + 1) < s.scheduler.endTime := by
  induction n with
  | zero =>
    left
    intro j hj
    omega
  | succ n ih =>
    rcases ih with hall | ⟨k, hk, hlt, hge⟩
    · by_cases hn : s.roundAt t (n + 1) < s.scheduler.endTime
      · left
        intro j hj
        rcases Nat.lt_succ_iff_lt_or_eq.1 hj with hj | rfl
        · exact hall j hj
        · exact hn
      · exact .inr ⟨n, by omega, hall, hn⟩
    · exact .inr ⟨k, by omega, hlt, hge⟩

/-- Every number of passes publishes a prefix of rounds. -/
theorem InRound.marks_of_passes (h : s.InRound t [] a) (n : Nat) (report : Float) :
    ∃ times last, RoundTimes t s.scheduler.endTime times last ∧
      marks (published (passes n s report).2) <+: tickRounds a times ++ round .stopped a last := by
  by_cases hne : a = []
  · subst hne
    have hstuck := passes_stuck (pass_of_next_none (Scheduler.next_nil h.queue_nil) report) n
    refine ⟨_, _, h.roundTimes_early 0 (by omega), ?_⟩
    rw [hstuck]
    exact List.nil_prefix
  · have hn : n ≤ n * a.length := Nat.le_mul_of_pos_right n (List.length_pos_iff.2 hne)
    have hpre : marks (published (passes n s report).2) <+: marks (published (passes (n * a.length) s report).2) :=
      ((passes_mono hn s report).filterMap _).map _
    rcases early_or_last s t n with hlt | ⟨k, hk, hlt, hge⟩
    · obtain ⟨s', r', hs, hp, -, -, -, hm⟩ := h.tick_rounds hne n hlt report
      refine ⟨_, _, h.roundTimes_early n hlt, ?_⟩
      rw [hp, hm] at hpre
      exact hpre.trans (List.prefix_append _ _)
    · -- The passes after the last round publish nothing, so that its stream is all there is to be a prefix of.
      obtain ⟨s', r', hs, hp, hq, hm⟩ := h.last_round hne k hlt hge report
      have hle : (k + 1) * a.length ≤ n * a.length := Nat.mul_le_mul_right _ hk
      rw [passes_of_drained (by rw [hp]; exact hq) hle, hp, hm] at hpre
      exact ⟨_, _, h.roundTimes_last k hlt hge, hpre⟩

/-- If passes leave nothing pending, there is a last round. -/
theorem InRound.exists_last (h : s.InRound t [] a) (hne : a ≠ []) {n : Nat} {report : Float}
    (hq : (passes n s report).1.1.scheduler.queue.toList = []) :
    ∃ k, (∀ j < k, s.roundAt t (j + 1) < s.scheduler.endTime) ∧ ¬s.roundAt t (k + 1) < s.scheduler.endTime := by
  rcases early_or_last s t n with hlt | ⟨k, -, hlt, hge⟩
  · -- After rounds before the end all vehicles wait again.
    obtain ⟨s', r', hs, hp, hin, -, -, -⟩ := h.tick_rounds hne n hlt report
    have hn : n ≤ n * a.length := Nat.le_mul_of_pos_right n (List.length_pos_iff.2 hne)
    rw [← passes_of_drained hq hn, hp] at hq
    exact absurd hq (hin.queue_ne_nil hne)
  · exact ⟨k, hlt, hge⟩

/-- Passes that leave nothing pending have published all rounds up to the last one. -/
theorem InRound.marks_of_last (h : s.InRound t [] a) (k : Nat)
    (hlt : ∀ j < k, s.roundAt t (j + 1) < s.scheduler.endTime)
    (hge : ¬s.roundAt t (k + 1) < s.scheduler.endTime) {n : Nat} {report : Float}
    (hq : (passes n s report).1.1.scheduler.queue.toList = []) :
    marks (published (passes n s report).2) =
      tickRounds a (s.roundTimes t k) ++ round .stopped a (s.roundAt t (k + 1)) := by
  by_cases hne : a = []
  · subst hne
    rw [passes_stuck (pass_of_next_none (Scheduler.next_nil h.queue_nil) report) n]
    simp [published, marks, tickRounds, round]
  · obtain ⟨s', r', hs, hp, hq', hm⟩ := h.last_round hne k hlt hge report
    have hsame : passes n s report = passes ((k + 1) * a.length) s report := by
      rcases Nat.le_total n ((k + 1) * a.length) with hle | hle
      · exact (passes_of_drained hq hle).symm
      · exact passes_of_drained (by rw [hp]; exact hq') hle
    rw [hsame, hp]
    exact hm

/-- Passes that leave nothing pending have published whole rounds. -/
theorem InRound.marks_of_drained (h : s.InRound t [] a) {n : Nat} {report : Float}
    (hq : (passes n s report).1.1.scheduler.queue.toList = []) :
    ∃ times last, RoundTimes t s.scheduler.endTime times last ∧
      marks (published (passes n s report).2) = tickRounds a times ++ round .stopped a last := by
  by_cases hne : a = []
  · subst hne
    have hstuck := passes_stuck (pass_of_next_none (Scheduler.next_nil h.queue_nil) report) n
    refine ⟨_, _, h.roundTimes_early 0 (by omega), ?_⟩
    rw [hstuck]
    rfl
  · obtain ⟨k, hlt, hge⟩ := h.exists_last hne hq
    exact ⟨_, _, h.roundTimes_last k hlt hge, h.marks_of_last k hlt hge hq⟩

/-- A run returns if any number of passes leaves nothing pending. -/
theorem InRound.run_isSome (h : s.InRound t [] a) {n : Nat} {report : Float}
    (hq : (passes n s report).1.1.scheduler.queue.toList = []) : s.run.isSome = true := by
  by_cases hne : a = []
  · subst hne
    exact run_of_drained (n := 0) (Nat.zero_le _) h.queue_nil
  · obtain ⟨k, hlt, hge⟩ := h.exists_last hne hq
    obtain ⟨s', r', hs, hp, hq', -⟩ := h.last_round hne k hlt hge s.startTime
    -- Every round before the end is at a later float, and there are not more of them than the bound allows.
    have hk : k + 1 ≤ Nat.pow 2 64 := rounds_bounded h.finite hlt hge
    have hpending : s.scheduler.pending = a.length := by
      rw [Scheduler.pending, TimeQueue.size, h.queue, List.map_nil, ite_self, List.append_nil, List.length_map]
    have hle : (k + 1) * a.length ≤ s.firingBound := by
      rw [firingBound, hpending, Nat.mul_comm]
      exact Nat.mul_le_mul (Nat.le_succ _) hk
    refine run_of_drained hle ?_
    rw [hp]
    exact hq'

/-- What a run publishes are rounds of the accepted vehicles, in the order of admission: rounds of ticks before
the end and, if the run ends, one round of stops. A run that gives no answer goes on publishing for ever. -/
theorem run_goes_in_rounds (start : Instant) (endTime : Float) (mobility : Mobility) (settings : Settings)
    (ps : List (VehicleId × Profile Float)) (hstart : start.toFloat.isFinite = true) (hend : endTime.isNaN = false) :
    let first := new start endTime mobility settings
    let s := (Scenario.enrolAll first ps).1
    let a := (first.accepted ps).map Prod.fst
    a.Nodup ∧
    (∀ n report, ∃ times last, RoundTimes start.toFloat endTime times last ∧
      marks (published (passes n s report).2) <+: tickRounds a times ++ round .stopped a last) ∧
    (∀ s' hs, s.run = some (s', hs) →
      (∃ times last, RoundTimes start.toFloat endTime times last ∧
        marks (published hs) = tickRounds a times ++ round .stopped a last) ∧
      s'.scheduler.queue.toList = [] ∧
      (∀ e ∈ published hs, e.2.vehicle ∈ a) ∧
      ∀ id ∈ a, (stopsIn id (published hs)).length = 1 ∧
        ∃ v, s'.garage.get? id = some v ∧ v.loop.state = .stopped) ∧
    (s.run = none → ∀ n report, (passes n s report).1.1.scheduler.pending ≠ 0 ∧
      (published (passes n s report).2).length = n) := by
  intro first s a
  have hin : s.InRound start.toFloat [] a := (inRound_new hstart hend mobility settings).enrolAll ps
  have hsend : s.scheduler.endTime = endTime := enrolAll_endTime first ps
  have hist : History first (first.accepted ps) (Scenario.enrolAll first ps).2 s := history_of_admissions first ps
  have hnodup : a.Nodup := hist.audited.nodup
  refine ⟨hnodup, ?_, ?_, ?_⟩
  · intro n report
    rw [← hsend]
    exact hin.marks_of_passes n report
  · intro s' hs hrun
    obtain ⟨n, rfl, hq, hpub⟩ := run_cases hrun
    obtain ⟨times, last, htimes, hm⟩ := hin.marks_of_drained hq
    rw [← hpub] at hm
    have haud := (hist.ran hrun).audited
    refine ⟨⟨times, last, by rw [← hsend]; exact htimes, hm⟩, hq, ?_, ?_⟩
    · intro e he
      have hmark : (⟨e.1, e.2.kind, e.2.vehicle⟩ : Mark) ∈ marks (published hs) := List.mem_map_of_mem he
      rw [hm] at hmark
      exact vehicle_mem_of_rounds hmark
    · intro id hid
      obtain ⟨v, hv⟩ := (haud.enrolled id).1 hid
      refine ⟨?_, v, hv, haud.consistent.stopped hq hv⟩
      rw [length_stopsIn, hm, List.countP_append, countP_tickRounds, countP_round, if_pos rfl,
        List.count_eq_one_of_mem hnodup hid]
      rfl
  · intro hnone n report
    have hpending : (passes n s report).1.1.scheduler.pending ≠ 0 := by
      intro hp
      have hsome := hin.run_isSome (Scheduler.pending_eq_zero.1 hp)
      rw [hnone] at hsome
      cases hsome
    exact ⟨hpending, hin.consistent.length_passes n report hpending⟩

theorem parked_goes_in_rounds :
    ∃ s hs, (Scenario.enrolAll parked parkedRequests).1.run = some (s, hs) ∧ ∃ times last,
      RoundTimes (Instant.ofFloat 0.0).toFloat 1.5 times last ∧
        marks (published hs) = tickRounds [⟨9⟩, ⟨7⟩] times ++ round .stopped [⟨9⟩, ⟨7⟩] last := by
  obtain ⟨s, hs, hrun⟩ := run_parked
  obtain ⟨-, -, hall, -⟩ := run_goes_in_rounds (.ofFloat 0.0) 1.5
    ((Mobility.empty.add ⟨7⟩ parkedModel).add ⟨9⟩ parkedModel) .default parkedRequests (by decide) (by decide)
  obtain ⟨⟨times, last, htimes, hm⟩, -⟩ := hall s hs hrun
  have ha : ((new (.ofFloat 0.0) 1.5 ((Mobility.empty.add ⟨7⟩ parkedModel).add ⟨9⟩ parkedModel) .default).accepted
      parkedRequests).map Prod.fst = [⟨9⟩, ⟨7⟩] := congrArg (List.map Prod.fst) accepted_parked
  rw [ha] at hm
  exact ⟨s, hs, hrun, times, last, htimes, hm⟩

end Simulation

end FleetEnergy

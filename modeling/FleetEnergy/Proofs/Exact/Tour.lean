import FleetEnergy.Proofs.Exact.Scalar
import FleetEnergy.Proofs.UpdateLoop

/-! A loop that is armed and then fired at one time after the other, in exact arithmetic. Each tick before the end is
charged from the state that the tick before it ended with. -/
namespace FleetEnergy
set_option autoImplicit false

/-- The watt hours that a call answers, if it books a tick. -/
def Turn.charge? {α : Type} (t : Turn α) : Option α :=
  match t.answer with
  | .ok (.transition (.rearm delta _ _)) => some delta
  | _ => none

/-- How a loop is armed and when it is fired: each firing with its time and whether the scenario is finished. -/
structure Tour where
  profile : Profile ℝ
  rule : Recuperation
  start : ℝ
  baseline : Bool
  firings : List (ℝ × Bool)

namespace Tour

def opening (tour : Tour) (m : MovementModel ℝ) : Option (Snapshot ℝ) :=
  if tour.baseline then some (m.snapshot tour.start) else none

def firingCalls (tour : Tour) (m : MovementModel ℝ) (firings : List (ℝ × Bool)) : List (LoopCall ℝ) :=
  firings.map fun f => .fire f.1 f.2 m tour.profile tour.rule

def calls (tour : Tour) (m : MovementModel ℝ) : List (LoopCall ℝ) :=
  .arm tour.start tour.profile (tour.opening m) :: tour.firingCalls m tour.firings

noncomputable def charges (tour : Tour) (interval : ℝ) (l : Ledger ℝ) (m : MovementModel ℝ) : List ℝ :=
  (turns (UpdateLoop.new interval, l) (tour.calls m)).filterMap Turn.charge?

def InOrder (tour : Tour) : Prop := (tour.start :: tour.firings.map Prod.fst).IsChain (· ≤ ·)

/-- The times of the firings before the end. -/
def ticks (firings : List (ℝ × Bool)) : List ℝ := (firings.takeWhile fun f => !f.2).map Prod.fst

/-- The times whose snapshots are remembered. -/
def samples (tour : Tour) : List ℝ := (if tour.baseline then [tour.start] else []) ++ ticks tour.firings

noncomputable def departure (tour : Tour) (m : MovementModel ℝ) : PreviousState ℝ :=
  if tour.baseline then .ofSnapshot (m.snapshot tour.start) else .unknown

/-- What is booked at the times of a list, one after the other, after a state and its time. -/
noncomputable def bills (tour : Tour) (m : MovementModel ℝ) : PreviousState ℝ → ℝ → List ℝ → List ℝ
  | _, _, [] => []
  | previous, s, t :: ts =>
    energyDelta tour.profile previous (m.snapshot t) (t - s) tour.rule ::
      bills tour m (.ofSnapshot (m.snapshot t)) t ts

/-! ## The account in time -/

theorem elapsedSince_eq {l : Ledger ℝ} {now : ℝ} (h : l.updateTime ≤ now) :
    l.elapsedSince now = now - l.updateTime := by
  unfold Ledger.elapsedSince Scalar.positivePart
  rw [Exact.zero_lit]
  split_ifs with hpos
  · rfl
  · exact le_antisymm (sub_nonneg.2 h) (not_lt.1 hpos)

theorem openLedger_opening (tour : Tour) (m : MovementModel ℝ) :
    (UpdateLoop.openLedger tour.profile tour.start (tour.opening m)).previous = tour.departure m ∧
      (UpdateLoop.openLedger tour.profile tour.start (tour.opening m)).updateTime = tour.start := by
  unfold opening departure
  cases tour.baseline with
  | false => exact ⟨rfl, rfl⟩
  | true =>
    have hnow : ¬tour.start < (Ledger.new tour.profile.initialEnergy tour.start).updateTime := not_lt.2 le_rfl
    exact ⟨Ledger.applyTick_previous hnow 0.0 _, Ledger.applyTick_updateTime hnow 0.0 _⟩

/-! ## The charges -/

variable (tour : Tour) (m : MovementModel ℝ)

theorem charges_of_stopped {k : Keeper ℝ} (hk : k.1.state = .stopped) (firings : List (ℝ × Bool)) :
    (turns k (tour.firingCalls m firings)).filterMap Turn.charge? = [] := by
  induction firings with
  | nil => rfl
  | cons f firings ih =>
    have hp := LoopCall.perform_fire_stopped k f.1 m tour.profile tour.rule f.2 hk
    have hcharge : (Turn.of k (.fire f.1 f.2 m tour.profile tour.rule)).charge? = none := by
      rw [Turn.charge?, Turn.of, hp]
    change (Turn.of k (.fire f.1 f.2 m tour.profile tour.rule) :: turns _ _).filterMap Turn.charge? = _
    rw [List.filterMap_cons_none hcharge, hp]
    exact ih

theorem charges_of_armed {k : Keeper ℝ} {next : ℝ} (hk : k.1.state = .armed next) {firings : List (ℝ × Bool)}
    (hs : (k.2.updateTime :: firings.map Prod.fst).IsChain (· ≤ ·)) :
    (turns k (tour.firingCalls m firings)).filterMap Turn.charge? =
      tour.bills m k.2.previous k.2.updateTime (ticks firings) := by
  -- The account carries the induction: after each tick it remembers just the state and time that the bills go on from.
  induction firings generalizing k next with
  | nil => rfl
  | cons f firings ih =>
    obtain ⟨now, finished⟩ := f
    obtain ⟨hle, hrest⟩ := List.isChain_cons_cons.1 hs
    change (Turn.of k (.fire now finished m tour.profile tour.rule) :: turns _ _).filterMap Turn.charge? = _
    cases finished with
    | true =>
      have hp := LoopCall.perform_fire_finished k now m tour.profile tour.rule hk
      have hcharge : (Turn.of k (.fire now true m tour.profile tour.rule)).charge? = none := by
        rw [Turn.charge?, Turn.of, hp]
      rw [List.filterMap_cons_none hcharge, hp]
      exact charges_of_stopped tour m rfl firings
    | false =>
      have hp := LoopCall.perform_fire_armed k now m tour.profile tour.rule hk
      have hcharge : (Turn.of k (.fire now false m tour.profile tour.rule)).charge? =
          some (energyDelta tour.profile k.2.previous (m.snapshot now) (now - k.2.updateTime) tour.rule) := by
        rw [Turn.charge?, Turn.of, hp, LoopCall.stepCharge, elapsedSince_eq hle]
      rw [List.filterMap_cons_some hcharge, hp]
      have hprevious := Ledger.applyTick_previous (not_lt.2 hle)
        (LoopCall.stepCharge now m tour.profile tour.rule k.2) (m.snapshot now)
      have htime := Ledger.applyTick_updateTime (not_lt.2 hle)
        (LoopCall.stepCharge now m tour.profile tour.rule k.2) (m.snapshot now)
      refine congrArg _ ((ih rfl (by rwa [htime])).trans ?_)
      rw [hprevious, htime]
      rfl

theorem charges_eq (hs : tour.InOrder) (interval : ℝ) (l : Ledger ℝ) :
    tour.charges interval l m = tour.bills m (tour.departure m) tour.start (ticks tour.firings) := by
  obtain ⟨hprevious, htime⟩ := openLedger_opening tour m
  have hp := LoopCall.perform_arm (UpdateLoop.new interval, l) tour.start tour.profile (tour.opening m) rfl
  have hcharge : (Turn.of (.new interval, l) (.arm tour.start tour.profile (tour.opening m))).charge? = none := by
    rw [Turn.charge?, Turn.of, hp]
  unfold charges calls
  change (Turn.of _ (.arm _ _ _) :: turns _ _).filterMap Turn.charge? = _
  rw [List.filterMap_cons_none hcharge, hp]
  refine (charges_of_armed tour m rfl (by rwa [htime])).trans ?_
  rw [hprevious, htime]

theorem isChain_ticks {tour : Tour} (h : tour.InOrder) : (tour.start :: ticks tour.firings).IsChain (· ≤ ·) := by
  have hpre : ticks tour.firings <+: tour.firings.map Prod.fst :=
    (List.takeWhile_prefix fun f : ℝ × Bool => !f.2).map Prod.fst
  exact List.IsChain.prefix h (List.prefix_cons_inj tour.start |>.2 hpre)

end Tour

end FleetEnergy

import FleetEnergy.Proofs.Binary64.Difference
import FleetEnergy.Proofs.UpdateLoop

/-! Firings that come late or once more. No time passes for them, so they charge nothing and leave the account as it
was, but for the note of the last charge; without them the other firings are answered in the same way. -/
namespace FleetEnergy
open Binary64
set_option autoImplicit false

/-! ## No time and no charge -/

theorem energyDelta_of_no_time (p : Profile Float) (previous : PreviousState Float) (s : Snapshot Float)
    (rule : Recuperation) : energyDelta p previous s 0.0 rule = 0.0 := by
  have hn : ¬(0.0 : Float) < 0.0 := by decide
  rw [energyDelta, breakdown, if_neg hn]
  rfl

namespace Ledger

theorem elapsedSince_of_late {l : Ledger Float} {now : Float} (h : now < l.updateTime) :
    l.elapsedSince now = 0.0 :=
  if_neg (not_pos_sub h)

theorem elapsedSince_updateTime (l : Ledger Float) : l.elapsedSince l.updateTime = 0.0 :=
  if_neg (not_pos_sub_self _)

/-- An account apart from the note of the last charge. -/
def lasting (l : Ledger Float) : Ledger Float := { l with last := 0.0 }

theorem lasting_of_last {l : Ledger Float} (h : l.last = 0.0) : l.lasting = l := by
  rw [lasting, ← h]

theorem lasting_applyTick (l : Ledger Float) (delta now : Float) (s : Snapshot Float) :
    (l.applyTick delta now s).lasting = (l.lasting.applyTick delta now s).lasting := by
  have hu : l.lasting.updateTime = l.updateTime := rfl
  unfold applyTick
  rw [hu]
  split_ifs <;> rfl

/-- To book nothing changes nothing, as the sum of the bookings is not the negative zero. -/
theorem lasting_applyTick_zero {l : Ledger Float} (ht : reading l.total ≠ .zero .negative) {now : Float}
    {s : Snapshot Float} (h : now < l.updateTime ∨ l.updateTime = now ∧ l.previous = .ofSnapshot s) :
    (l.applyTick 0.0 now s).lasting = l.lasting := by
  have hr : l.remaining - 0.0 = l.remaining := sub_zero _
  have hs : l.total + 0.0 = l.total := add_positive_zero ht
  unfold applyTick lasting decrease
  rw [hr, hs]
  split_ifs with hlate
  · rfl
  · obtain ⟨ht, hp⟩ := h.resolve_left hlate
    rw [← ht, ← hp]

theorem total_applyTick {l : Ledger Float} (ht : reading l.total ≠ .zero .negative) (delta now : Float)
    (s : Snapshot Float) : reading (l.applyTick delta now s).total ≠ .zero .negative := by
  rw [applyTick_total]
  exact add_stays_ne_neg_zero ht delta

end Ledger

/-! ## Firings of a loop -/

/-- The loop and the account after all calls. -/
def leave {α : Type} [Scalar α] (k : Keeper α) (cs : List (LoopCall α)) : Keeper α :=
  cs.foldl (fun k c => (c.perform k).1) k

namespace Turn

/-- The time of the last firing that was not late, before and after a call. -/
def heard (last : Option Float) (t : Turn Float) : Option Float :=
  match t.call with
  | .fire now _ _ _ _ => if now < t.before.2.updateTime then last else some now
  | .arm _ _ _ => last

/-- A firing before the time that the account has reached, or at the time of the last one that was not. -/
def Idle (last : Option Float) (t : Turn Float) : Prop :=
  match t.call with
  | .fire now _ _ _ _ => now < t.before.2.updateTime ∨ last = some now
  | .arm _ _ _ => False

end Turn

/-- The time of the last firing of a list that was not late. -/
def lastHeard (ts : List (Turn Float)) : Option Float := ts.foldl Turn.heard none

variable (m : MovementModel Float) (p : Profile Float) (rule : Recuperation)

/-- A firing before the end of the scenario. -/
def firingAt (now : Float) : LoopCall Float := .fire now false m p rule

/-- What every firing of an armed loop leaves in order; `last` is the time of the last one that was not late. -/
structure Steady (k : Keeper Float) (last : Option Float) : Prop where
  armed : ∃ next, k.1.state = .armed next
  total : reading k.2.total ≠ .zero .negative
  seen : ∀ now, last = some now → k.2.updateTime = now ∧ k.2.previous = .ofSnapshot (m.snapshot now)

/-- Two loops that answer alike from here on. -/
structure Alike (k k' : Keeper Float) : Prop where
  armed : ∃ next, k.1.state = .armed next
  armed' : ∃ next, k'.1.state = .armed next
  interval : k.1.interval = k'.1.interval
  lasting : k.2.lasting = k'.2.lasting

variable {m p rule} {k k' : Keeper Float} {last : Option Float}

theorem perform_firingAt (h : ∃ next, k.1.state = .armed next) (now : Float) :
    (firingAt m p rule now).perform k =
      (({ k.1 with state := .armed (now + k.1.interval) },
          k.2.applyTick (LoopCall.stepCharge now m p rule k.2) now (m.snapshot now)),
        .ok (.transition (.rearm (LoopCall.stepCharge now m p rule k.2) (m.snapshot now) (now + k.1.interval)))) :=
  LoopCall.perform_fire_armed k now m p rule h.choose_spec

theorem Steady.perform (h : Steady m k last) (now : Float) :
    Steady m ((firingAt m p rule now).perform k).1 (Turn.heard last (.of k (firingAt m p rule now))) := by
  rw [perform_firingAt h.armed]
  refine ⟨⟨_, rfl⟩, Ledger.total_applyTick h.total _ _ _, fun t ht => ?_⟩
  change (if now < k.2.updateTime then last else some now) = some t at ht
  split_ifs at ht with hlate
  · rw [Ledger.applyTick_updateTime_of_late hlate, Ledger.applyTick_previous_of_late hlate]
    exact h.seen t ht
  · obtain rfl := Option.some.inj ht
    exact ⟨Ledger.applyTick_updateTime hlate _ _, Ledger.applyTick_previous hlate _ _⟩

section Idle

variable {now : Float} (h : Steady m k last) (hi : now < k.2.updateTime ∨ last = some now)
include h hi

theorem Steady.stepCharge_idle : LoopCall.stepCharge now m p rule k.2 = 0.0 := by
  have he : k.2.elapsedSince now = 0.0 := by
    obtain hlate | hlast := hi
    · exact Ledger.elapsedSince_of_late hlate
    · rw [← (h.seen now hlast).1]
      exact Ledger.elapsedSince_updateTime _
  rw [LoopCall.stepCharge, he]
  exact energyDelta_of_no_time _ _ _ _

theorem Steady.perform_idle : (firingAt m p rule now).perform k =
    (({ k.1 with state := .armed (now + k.1.interval) }, { k.2 with last := 0.0 }),
      .ok (.transition (.rearm 0.0 (m.snapshot now) (now + k.1.interval)))) := by
  have hsame := Ledger.lasting_applyTick_zero h.total (hi.imp_right (h.seen now))
  have hledger : k.2.applyTick 0.0 now (m.snapshot now) = { k.2 with last := 0.0 } :=
    (Ledger.lasting_of_last (Ledger.applyTick_last _ _ _ _)).symm.trans hsame
  rw [perform_firingAt h.armed, h.stepCharge_idle hi, hledger]

end Idle

theorem Alike.perform (h : Alike k k') (now : Float) :
    ((firingAt m p rule now).perform k).2 = ((firingAt m p rule now).perform k').2 ∧
      Alike ((firingAt m p rule now).perform k).1 ((firingAt m p rule now).perform k').1 := by
  have hc := congrArg (LoopCall.stepCharge now m p rule) h.lasting
  change LoopCall.stepCharge now m p rule k.2 = LoopCall.stepCharge now m p rule k'.2 at hc
  rw [perform_firingAt h.armed, perform_firingAt h.armed', hc, h.interval]
  refine ⟨rfl, ⟨_, rfl⟩, ⟨_, rfl⟩, h.interval, ?_⟩
  change (k.2.applyTick _ now _).lasting = (k'.2.applyTick _ now _).lasting
  rw [Ledger.lasting_applyTick, h.lasting, ← Ledger.lasting_applyTick]

/-! ## Rows of firings -/

theorem steady_of_split (h : Steady m k last) {times : List Float} {pre post : List (Turn Float)} {t : Turn Float}
    (hs : turns k (times.map (firingAt m p rule)) = pre ++ t :: post) :
    ∃ now, t.call = firingAt m p rule now ∧ t = .of t.before t.call ∧
      t.before.1.interval = k.1.interval ∧ Steady m t.before (pre.foldl Turn.heard last) := by
  induction times generalizing k last pre with
  | nil => cases pre <;> cases hs
  | cons now times ih =>
    cases pre with
    | nil =>
      obtain ⟨rfl, -⟩ := List.cons.inj hs
      exact ⟨now, rfl, rfl, rfl, h⟩
    | cons t' pre =>
      obtain ⟨rfl, hrest⟩ := List.cons.inj hs
      obtain ⟨now', hc, hof, hint, hst⟩ := ih (h.perform now) hrest
      refine ⟨now', hc, hof, ?_, hst⟩
      rw [hint, perform_firingAt h.armed]

/-- Firings that are left out although the row goes on as before: only idle ones. -/
theorem thinned (hst : Steady m k last) (h : Alike k k') {marked : List (Float × Bool)}
    (hout : ∀ pre t stays post, (turns k (marked.map fun f => firingAt m p rule f.1)).zip (marked.map Prod.snd) =
      pre ++ (t, stays) :: post → stays = false → t.Idle ((pre.map Prod.fst).foldl Turn.heard last)) :
    (turns k' ((marked.filter Prod.snd).map fun f => firingAt m p rule f.1)).map Turn.answer =
        (((turns k (marked.map fun f => firingAt m p rule f.1)).zip (marked.map Prod.snd)).filter Prod.snd).map
          (fun t => t.1.answer) ∧
      (leave k (marked.map fun f => firingAt m p rule f.1)).2.lasting =
        (leave k' ((marked.filter Prod.snd).map fun f => firingAt m p rule f.1)).2.lasting := by
  -- Both rows go on from loops that are alike; a firing that is left out is made by the first one only.
  induction marked generalizing k k' last with
  | nil => exact ⟨rfl, h.lasting⟩
  | cons f marked ih =>
    obtain ⟨now, stays⟩ := f
    have hrest := fun pre t s post hs => hout ((.of k (firingAt m p rule now), stays) :: pre) t s post
      (congrArg (List.cons (Turn.of k (firingAt m p rule now), stays)) hs)
    cases stays with
    | true =>
      obtain ⟨hans, halike⟩ : ((firingAt m p rule now).perform k).2 = _ ∧ _ := h.perform now
      obtain ⟨hrow, hend⟩ := ih (hst.perform now) halike hrest
      exact ⟨congrArg₂ List.cons hans.symm hrow, hend⟩
    | false =>
      have hidle := hout [] _ false _ rfl rfl
      have halike : Alike ((firingAt m p rule now).perform k).1 k' :=
        ⟨(hst.perform now).armed, h.armed', by rw [hst.perform_idle hidle]; exact h.interval,
          by rw [hst.perform_idle hidle]; exact h.lasting⟩
      exact ih (hst.perform now) halike hrest

theorem total_openLedger (start : Float) (baseline : Option (Snapshot Float)) :
    reading (UpdateLoop.openLedger p start baseline).total ≠ .zero .negative := by
  have h0 : reading (Ledger.new p.initialEnergy start).total ≠ .zero .negative := by
    change reading 0.0 ≠ _
    rw [reading_zero]
    exact nofun
  cases baseline with
  | none => exact h0
  | some s => exact Ledger.total_applyTick h0 0.0 start s

/-- A loop is armed and fired in a row. A firing that is late, or comes at the time of the last one that was not,
charges exactly nothing and changes the account only in the note of the last charge. If some of these firings are left
out (those marked `false`), the others are answered as before, and the account ends as before apart from that note. -/
theorem idle_firings_leave_no_trace (interval start : Float) (p₀ : Profile Float) (baseline : Option (Snapshot Float))
    (l₀ : Ledger Float) (m : MovementModel Float) (p : Profile Float) (rule : Recuperation)
    (marked : List (Float × Bool)) :
    let k := ((LoopCall.arm start p₀ baseline).perform (UpdateLoop.new interval, l₀)).1
    let calls := marked.map fun f => firingAt m p rule f.1
    let kept := (marked.filter Prod.snd).map fun f => firingAt m p rule f.1
    let row := (turns k calls).zip (marked.map Prod.snd)
    (∀ pre t post, turns k calls = pre ++ t :: post → t.Idle (lastHeard pre) → ∃ now, t.call = firingAt m p rule now ∧
      t.answer = .ok (.transition (.rearm 0.0 (m.snapshot now) (now + UpdateLoop.normalizeInterval interval))) ∧
      t.after.2 = { t.before.2 with last := 0.0 }) ∧
    ((∀ pre t stays post, row = pre ++ (t, stays) :: post → stays = false → t.Idle (lastHeard (pre.map Prod.fst))) →
      (turns k kept).map Turn.answer = (row.filter Prod.snd).map (fun t => t.1.answer) ∧
      (leave k calls).2.lasting = (leave k kept).2.lasting) := by
  intro k calls kept row
  have hk : k = ((({ UpdateLoop.new interval with
      state := .armed (start + UpdateLoop.normalizeInterval interval) } : UpdateLoop Float),
        UpdateLoop.openLedger p₀ start baseline) : Keeper Float) :=
    congrArg Prod.fst (LoopCall.perform_arm (UpdateLoop.new interval, l₀) start p₀ baseline rfl)
  have harmed : ∃ next, k.1.state = .armed next := ⟨_, by rw [hk]⟩
  have hst : Steady m k none := ⟨harmed, by rw [hk]; exact total_openLedger start baseline, nofun⟩
  refine ⟨fun pre t post hs hidle => ?_, fun hout => thinned hst ⟨harmed, harmed, rfl, rfl⟩ hout⟩
  have hcalls : calls = (marked.map Prod.fst).map (firingAt m p rule) := by
    rw [List.map_map]
    rfl
  rw [hcalls] at hs
  obtain ⟨now, hcall, hof, hint, hsteady⟩ := steady_of_split hst hs
  have hi : now < t.before.2.updateTime ∨ lastHeard pre = some now := by
    rw [Turn.Idle, hcall] at hidle
    exact hidle
  have hinterval : t.before.1.interval = UpdateLoop.normalizeInterval interval := by rw [hint, hk]; rfl
  have hfire : (firingAt m p rule now).perform t.before = _ := hsteady.perform_idle hi
  rw [hinterval, ← hcall] at hfire
  refine ⟨now, hcall, ?_, ?_⟩
  · rw [hof]
    exact congrArg Prod.snd hfire
  · rw [hof]
    exact congrArg (fun r => r.1.2) hfire

def strolling : MovementModel Float := ⟨fun t => ⟨t, 0.0, 0.0⟩, fun _ => ⟨1.0, 0.0, 0.0⟩⟩

def strollingKeeper : Keeper Float :=
  ((LoopCall.arm 0.0 .blank none).perform (UpdateLoop.new 1.0, Ledger.new 0.0 0.0)).1

def strollingRow : List (Turn Float) :=
  turns strollingKeeper ([1.0, 0.5, 1.0, 2.0].map (firingAt strolling .blank .additive))

/-- Fired at the seconds 1, 0.5, 1 and 2, a loop answers at 1 and 2 as if it were fired only there. -/
theorem fired_late_and_again :
    (turns strollingKeeper ([1.0, 2.0].map (firingAt strolling .blank .additive))).map Turn.answer =
      (strollingRow.take 1 ++ strollingRow.drop 3).map Turn.answer := by
  refine ((idle_firings_leave_no_trace 1.0 0.0 .blank none (Ledger.new 0.0 0.0) strolling .blank .additive
    [(1.0, true), (0.5, false), (1.0, false), (2.0, true)]).2 ?_).1
  intro pre t stays post hs hstays
  subst hstays
  match pre, hs with
  | [], hs => cases hs
  | [_], hs =>
    cases hs
    left
    decide
  | [_, _], hs =>
    cases hs
    right
    have hlate : (0.5 : Float) < (1.0 : Float) := by decide
    change (if (0.5 : Float) < 1.0 then some (1.0 : Float) else some 0.5) = some 1.0
    exact if_pos hlate
  | [_, _, _], hs => cases hs
  | [_, _, _, _], hs => cases hs
  | _ :: _ :: _ :: _ :: _ :: _, hs => cases hs

end FleetEnergy

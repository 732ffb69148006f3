import FleetEnergy.Proofs.Ledger
import FleetEnergy.Proofs.Progress

/-! The life of an update loop under calls in any order and with any arguments. It is armed once, fires until it is
stopped and then rests for good; what it is not meant for fails before anything is written. -/
namespace FleetEnergy
set_option autoImplicit false

variable {α : Type} [Scalar α]

/-! ## Calls -/

inductive LoopCall (α : Type)
  | arm (now : α) (p : Profile α) (baseline : Option (Snapshot α))
  | fire (now : α) (finished : Bool) (m : MovementModel α) (p : Profile α) (rule : Recuperation)

inductive LoopAnswer (α : Type)
  | firstFire (time : α)
  | transition (t : Transition α)

abbrev Keeper (α : Type) := UpdateLoop α × Ledger α

namespace LoopCall

/-- The loop and the account after a call, and the answer. -/
def perform (c : LoopCall α) (k : Keeper α) : Keeper α × Except LoopFault (LoopAnswer α) :=
  match c with
  | .arm now p baseline =>
    match k.1.arm now p baseline with
    | .ok (u, l, t) => ((u, l), .ok (.firstFire t))
    | .error e => (k, .error e)
  | .fire now finished m p rule =>
    match k.1.fire k.2 now finished m p rule with
    | .ok (u, l, t) => ((u, l), .ok (.transition t))
    | .error e => (k, .error e)

/-! ## Calls in place -/

/-- Work on a loop and its account that may break off: what was written before a fault stays written. -/
abbrev Work (α β : Type) := ExceptT LoopFault (StateM (Keeper α)) β

def setLedger (f : Ledger α → Ledger α) : Work α Unit := modify fun k => (k.1, f k.2)

def setState (s : LoopState α) : Work α Unit := modify fun k => ({ k.1 with state := s }, k.2)

def armInPlace (now : α) (p : Profile α) (baseline : Option (Snapshot α)) : Work α α := do
  let (u, _) ← get
  match u.state with
  | .uninitialized => pure ()
  | _ => throw .armedAgain
  -- From here on the old account is lost, so the check must come first.
  setLedger fun _ => .new p.initialEnergy now
  match baseline with
  | none => pure ()
  | some s => setLedger fun l => l.applyTick 0.0 now s
  setState (.armed (now + u.interval))
  return now + u.interval

def fireInPlace (now : α) (finished : Bool) (m : MovementModel α) (p : Profile α) (rule : Recuperation) :
    Work α (Transition α) := do
  let (u, l) ← get
  match u.state with
  | .uninitialized => throw .firedBeforeArmed
  | .stopped => return .stop
  | .armed _ =>
    if finished then
      setState .stopped
      return .stop
    else
      let s := m.snapshot now
      let delta := energyDelta p l.previous s (l.elapsedSince now) rule
      setLedger fun l => l.applyTick delta now s
      setState (.armed (now + u.interval))
      return .rearm delta s (now + u.interval)

def inPlace : LoopCall α → Work α (LoopAnswer α)
  | .arm now p baseline => .firstFire <$> armInPlace now p baseline
  | .fire now finished m p rule => .transition <$> fireInPlace now finished m p rule

/-- Done in place, a call leaves the loop, the account and the answer that it is to give. -/
theorem inPlace_run (c : LoopCall α) (k : Keeper α) :
    c.inPlace.run.run k = ((c.perform k).2, (c.perform k).1) := by
  obtain ⟨⟨i, s⟩, l⟩ := k
  cases c with
  | arm now p baseline =>
    cases s with
    | uninitialized => cases baseline <;> rfl
    | armed next => rfl
    | stopped => rfl
  | fire now finished m p rule =>
    cases s with
    | uninitialized => rfl
    | armed next => cases finished <;> rfl
    | stopped => rfl

/-! ## One call -/

theorem perform_arm (k : Keeper α) (now : α) (p : Profile α) (baseline : Option (Snapshot α))
    (h : k.1.state = .uninitialized) :
    (arm now p baseline).perform k =
      (({ k.1 with state := .armed (now + k.1.interval) }, UpdateLoop.openLedger p now baseline),
        .ok (.firstFire (now + k.1.interval))) := by
  simp only [perform, UpdateLoop.arm, h, UpdateLoop.start]

theorem perform_arm_again (k : Keeper α) (now : α) (p : Profile α) (baseline : Option (Snapshot α))
    (h : k.1.state ≠ .uninitialized) : (arm now p baseline).perform k = (k, .error .armedAgain) := by
  cases hs : k.1.state with
  | uninitialized => exact absurd hs h
  | armed next => simp only [perform, UpdateLoop.arm, hs]
  | stopped => simp only [perform, UpdateLoop.arm, hs]

variable (k : Keeper α) (now : α) (m : MovementModel α) (p : Profile α) (rule : Recuperation)

theorem perform_fire_unarmed (finished : Bool) (h : k.1.state = .uninitialized) :
    (fire now finished m p rule).perform k = (k, .error .firedBeforeArmed) := by
  simp only [perform, UpdateLoop.fire, h]

theorem perform_fire_stopped (finished : Bool) (h : k.1.state = .stopped) :
    (fire now finished m p rule).perform k = (k, .ok (.transition .stop)) := by
  simp only [perform, UpdateLoop.fire, h]

theorem perform_fire_finished {next : α} (h : k.1.state = .armed next) :
    (fire now true m p rule).perform k = (({ k.1 with state := .stopped }, k.2), .ok (.transition .stop)) := by
  simp only [perform, UpdateLoop.fire, h, if_true]

def stepCharge (l : Ledger α) : α := energyDelta p l.previous (m.snapshot now) (l.elapsedSince now) rule

theorem perform_fire_armed {next : α} (h : k.1.state = .armed next) :
    (fire now false m p rule).perform k =
      (({ k.1 with state := .armed (now + k.1.interval) },
          k.2.applyTick (stepCharge now m p rule k.2) now (m.snapshot now)),
        .ok (.transition (.rearm (stepCharge now m p rule k.2) (m.snapshot now) (now + k.1.interval)))) := by
  simp only [perform, UpdateLoop.fire, h, Bool.false_eq_true, if_false, stepCharge]

end LoopCall

/-! ## Sequences of calls -/

/-- A call of a sequence: what it finds, what it leaves and what it answers. -/
structure Turn (α : Type) where
  before : Keeper α
  call : LoopCall α
  after : Keeper α
  answer : Except LoopFault (LoopAnswer α)

def Turn.of (k : Keeper α) (c : LoopCall α) : Turn α := ⟨k, c, (c.perform k).1, (c.perform k).2⟩

def turns (k : Keeper α) : List (LoopCall α) → List (Turn α)
  | [] => []
  | c :: cs => .of k c :: turns (c.perform k).1 cs

theorem mem_turns {k : Keeper α} {cs : List (LoopCall α)} {t : Turn α} (h : t ∈ turns k cs) :
    ∃ k c, t = .of k c := by
  induction cs generalizing k with
  | nil => cases h
  | cons c cs ih =>
    obtain rfl | h := List.mem_cons.1 h
    · exact ⟨k, c, rfl⟩
    · exact ih h

theorem turns_split {k : Keeper α} {cs : List (LoopCall α)} {pre post : List (Turn α)} {t : Turn α}
    (h : turns k cs = pre ++ t :: post) : ∃ k' c rest, t = .of k' c ∧ post = turns t.after rest := by
  induction pre generalizing k cs with
  | nil =>
    cases cs with
    | nil => cases h
    | cons c cs =>
      obtain ⟨rfl, rfl⟩ := List.cons.inj h
      exact ⟨k, c, cs, rfl, rfl⟩
  | cons t' pre ih =>
    cases cs with
    | nil => cases h
    | cons c cs => exact ih (List.cons.inj h).2

/-! ## Phases -/

inductive Phase
  | uninitialized
  | armed
  | stopped
deriving DecidableEq, Repr

def LoopState.phase : LoopState α → Phase
  | .uninitialized => .uninitialized
  | .armed _ => .armed
  | .stopped => .stopped

/-- The phases of a loop from the beginning through all calls. -/
def phases (k : Keeper α) (cs : List (LoopCall α)) : List Phase :=
  k.1.state.phase :: (turns k cs).map fun t => t.after.1.state.phase

theorem phases_cons (k : Keeper α) (c : LoopCall α) (cs : List (LoopCall α)) :
    phases k (c :: cs) = k.1.state.phase :: phases (c.perform k).1 cs := rfl

theorem perform_of_stopped {k : Keeper α} (h : k.1.state = .stopped) (c : LoopCall α) : (c.perform k).1 = k := by
  cases c with
  | arm now p baseline => rw [LoopCall.perform_arm_again k now p baseline (by simp [h])]
  | fire now finished m p rule => rw [LoopCall.perform_fire_stopped k now m p rule finished h]

theorem phase_of_armed {k : Keeper α} {next : α} (h : k.1.state = .armed next) (c : LoopCall α) :
    (∃ next, (c.perform k).1.1.state = .armed next) ∨ (c.perform k).1.1.state = .stopped := by
  cases c with
  | arm now p baseline =>
    rw [LoopCall.perform_arm_again k now p baseline (by simp [h])]
    exact .inl ⟨next, h⟩
  | fire now finished m p rule =>
    cases finished with
    | false =>
      rw [LoopCall.perform_fire_armed k now m p rule h]
      exact .inl ⟨_, rfl⟩
    | true =>
      rw [LoopCall.perform_fire_finished k now m p rule h]
      exact .inr rfl

theorem phase_of_uninitialized {k : Keeper α} (h : k.1.state = .uninitialized) (c : LoopCall α) :
    (c.perform k).1.1.state = .uninitialized ∨ ∃ next, (c.perform k).1.1.state = .armed next := by
  cases c with
  | arm now p baseline =>
    rw [LoopCall.perform_arm k now p baseline h]
    exact .inr ⟨_, rfl⟩
  | fire now finished m p rule =>
    rw [LoopCall.perform_fire_unarmed k now m p rule finished h]
    exact .inl h

theorem phases_stopped {k : Keeper α} (h : k.1.state = .stopped) (cs : List (LoopCall α)) :
    phases k cs = List.replicate (cs.length + 1) .stopped := by
  induction cs with
  | nil => simp [phases, turns, h, LoopState.phase]
  | cons c cs ih => rw [phases_cons, perform_of_stopped h, ih, h, List.length_cons, List.replicate_succ]; rfl

theorem phases_armed {k : Keeper α} {next : α} (h : k.1.state = .armed next) (cs : List (LoopCall α)) :
    ∃ j l, phases k cs = List.replicate (j + 1) Phase.armed ++ List.replicate l Phase.stopped := by
  induction cs generalizing k next with
  | nil => exact ⟨0, 0, by simp [phases, turns, h, LoopState.phase]⟩
  | cons c cs ih =>
    obtain ⟨next', ha⟩ | hs := phase_of_armed h c
    · obtain ⟨j, l, hp⟩ := ih ha
      exact ⟨j + 1, l, by rw [phases_cons, hp, h, List.replicate_succ (n := j + 1)]; rfl⟩
    · exact ⟨0, cs.length + 1, by rw [phases_cons, phases_stopped hs, h]; rfl⟩

/-- First uninitialized, then armed, then stopped, and not stopped without having been armed. -/
def Phase.InOrder (ps : List Phase) : Prop :=
  ∃ i j l, ps = List.replicate (i + 1) Phase.uninitialized ++ List.replicate j Phase.armed ++
    List.replicate l Phase.stopped ∧ (j = 0 → l = 0)

theorem phases_uninitialized {k : Keeper α} (h : k.1.state = .uninitialized) (cs : List (LoopCall α)) :
    Phase.InOrder (phases k cs) := by
  induction cs generalizing k with
  | nil => exact ⟨0, 0, 0, by simp [phases, turns, h, LoopState.phase], fun _ => rfl⟩
  | cons c cs ih =>
    obtain hu | ⟨next, ha⟩ := phase_of_uninitialized h c
    · obtain ⟨i, j, l, hp, hjl⟩ := ih hu
      exact ⟨i + 1, j, l, by rw [phases_cons, hp, h, List.replicate_succ (n := i + 1)]; rfl, hjl⟩
    · obtain ⟨j, l, hp⟩ := phases_armed ha cs
      exact ⟨0, j + 1, l, by rw [phases_cons, hp, h]; rfl, fun hj => by omega⟩

/-! ## What every call keeps to -/

namespace Turn

/-- An arming at `now` fails unless the loop is new, and names the first firing. -/
structure Arms (now : α) (t : Turn α) : Prop where
  fails_iff : (∃ e, t.answer = .error e) ↔ t.before.1.state ≠ .uninitialized
  arms : ∀ a, t.answer = .ok a →
    a = .firstFire (now + t.before.1.interval) ∧ t.after.1.state = .armed (now + t.before.1.interval)

/-- A firing at `now` fails if the loop is new, and asks for another one if the loop is armed and not finished. -/
structure Fires (now : α) (finished : Bool) (t : Turn α) : Prop where
  fails_iff : (∃ e, t.answer = .error e) ↔ t.before.1.state = .uninitialized
  rearms_iff : (∃ d s next, t.answer = .ok (.transition (.rearm d s next))) ↔
    t.before.1.state.phase = .armed ∧ finished = false
  rearm : ∀ d s next, t.answer = .ok (.transition (.rearm d s next)) →
    next = now + t.before.1.interval ∧ t.after.1.state = .armed next ∧ d = t.after.2.last
  frame : (∀ d s next, t.answer ≠ .ok (.transition (.rearm d s next))) → t.after.2 = t.before.2

structure Orderly (t : Turn α) : Prop where
  /-- Nothing more is written in place, also if the call fails. -/
  inPlace : t.call.inPlace.run.run t.before = (t.answer, t.after)
  interval : t.after.1.interval = t.before.1.interval
  fault : ∀ e, t.answer = .error e → t.after = t.before
  kind : match t.call with
    | .arm now _ _ => t.Arms now
    | .fire now finished _ _ _ => t.Fires now finished

variable (k : Keeper α) (now : α) (m : MovementModel α) (p : Profile α) (rule : Recuperation)

theorem orderly_arm (baseline : Option (Snapshot α)) : (of k (.arm now p baseline)).Orderly := by
  by_cases hs : k.1.state = .uninitialized
  · have hp := LoopCall.perform_arm k now p baseline hs
    refine ⟨LoopCall.inPlace_run _ _, ?_, ?_, ?_, ?_⟩ <;> simp [of, hp, hs]
  · have hp := LoopCall.perform_arm_again k now p baseline hs
    refine ⟨LoopCall.inPlace_run _ _, ?_, ?_, ?_, ?_⟩ <;> simp [of, hp, hs]

theorem orderly_fire (finished : Bool) : (of k (.fire now finished m p rule)).Orderly := by
  cases hs : k.1.state with
  | uninitialized =>
    have hp := LoopCall.perform_fire_unarmed k now m p rule finished hs
    refine ⟨LoopCall.inPlace_run _ _, ?_, ?_, ?_, ?_, ?_, ?_⟩ <;> simp [of, hp, hs, LoopState.phase]
  | stopped =>
    have hp := LoopCall.perform_fire_stopped k now m p rule finished hs
    refine ⟨LoopCall.inPlace_run _ _, ?_, ?_, ?_, ?_, ?_, ?_⟩ <;> simp [of, hp, hs, LoopState.phase]
  | armed next =>
    cases finished with
    | true =>
      have hp := LoopCall.perform_fire_finished k now m p rule hs
      refine ⟨LoopCall.inPlace_run _ _, ?_, ?_, ?_, ?_, ?_, ?_⟩ <;> simp [of, hp, hs, LoopState.phase]
    | false =>
      have hp := LoopCall.perform_fire_armed k now m p rule hs
      refine ⟨LoopCall.inPlace_run _ _, ?_, ?_, ?_, ?_, ?_, ?_⟩ <;>
        simp [of, hp, hs, LoopState.phase, Ledger.applyTick_last]

theorem orderly (c : LoopCall α) : (of k c).Orderly := by
  cases c with
  | arm now p baseline => exact orderly_arm k now p baseline
  | fire now finished m p rule => exact orderly_fire k now m p rule finished

end Turn

theorem interval_of_mem_turns {k : Keeper α} {cs : List (LoopCall α)} {t : Turn α} (h : t ∈ turns k cs) :
    t.after.1.interval = k.1.interval := by
  induction cs generalizing k with
  | nil => cases h
  | cons c cs ih =>
    have hc : (c.perform k).1.1.interval = k.1.interval := (Turn.orderly k c).interval
    obtain rfl | h := List.mem_cons.1 h
    · exact hc
    · exact (ih h).trans hc

/-! ## Rest -/

/-- A stopped loop and its account stay as they are, and every firing stops. -/
theorem turns_of_stopped {k : Keeper α} (h : k.1.state = .stopped) {cs : List (LoopCall α)} {t : Turn α}
    (ht : t ∈ turns k cs) : t.before = k ∧ t.after = k ∧
      ∀ now finished m p rule, t.call = .fire now finished m p rule → t.answer = .ok (.transition .stop) := by
  induction cs with
  | nil => cases ht
  | cons c cs ih =>
    obtain rfl | ht := List.mem_cons.1 ht
    · refine ⟨rfl, perform_of_stopped h c, fun now finished m p rule hc => ?_⟩
      change c = _ at hc
      change (c.perform k).2 = _
      rw [hc, LoopCall.perform_fire_stopped k now m p rule finished h]
    · rw [perform_of_stopped h] at ht
      exact ih ht

/-- A loop that is made with any interval and called in any way goes through its phases in order, every call keeps
to its rules, and once a firing has found it armed at the end, it and its account rest for good. -/
theorem loop_lives_in_phases (interval : Float) (l : Ledger Float) (cs : List (LoopCall Float)) :
    Phase.InOrder (phases (UpdateLoop.new interval, l) cs) ∧
    (∀ t ∈ turns (UpdateLoop.new interval, l) cs,
      t.Orderly ∧ t.after.1.interval = UpdateLoop.normalizeInterval interval) ∧
    (0.0 < UpdateLoop.normalizeInterval interval ∧ (UpdateLoop.normalizeInterval interval).isFinite = true) ∧
    ∀ (pre : List (Turn Float)) (t : Turn Float) (post : List (Turn Float)),
      turns (UpdateLoop.new interval, l) cs = pre ++ t :: post →
      (∃ now m p rule, t.call = .fire now true m p rule) → t.before.1.state.phase = .armed →
        t.after.1.state = .stopped ∧ t.after.2 = t.before.2 ∧ ∀ t' ∈ post, t'.before = t.after ∧ t'.after = t.after ∧
          ∀ now finished m p rule, t'.call = .fire now finished m p rule →
            t'.answer = .ok (.transition .stop) := by
  refine ⟨phases_uninitialized rfl cs, fun t ht => ?_, normalizeInterval_pos interval, ?_⟩
  · obtain ⟨k, c, rfl⟩ := mem_turns ht
    exact ⟨Turn.orderly k c, interval_of_mem_turns ht⟩
  · rintro pre t post hsplit ⟨now, m, p, rule, hcall⟩ harmed
    obtain ⟨k, c, rest, rfl, rfl⟩ := turns_split hsplit
    obtain rfl : c = .fire now true m p rule := hcall
    cases hs : k.1.state with
    | uninitialized => simp [Turn.of, hs, LoopState.phase] at harmed
    | stopped => simp [Turn.of, hs, LoopState.phase] at harmed
    | armed next =>
      have hp := LoopCall.perform_fire_finished k now m p rule hs
      have hstopped : (Turn.of k (.fire now true m p rule)).after.1.state = .stopped := by simp [Turn.of, hp]
      exact ⟨hstopped, by simp [Turn.of, hp], fun t' ht' => turns_of_stopped hstopped ht'⟩

end FleetEnergy

import FleetEnergy.Proofs.Simulation.Firing
import FleetEnergy.Scenario

/-! The histories of a simulation: admissions and passes in any order, whole runs among them. A run is the
passes that it consists of. -/
namespace FleetEnergy
set_option autoImplicit false

namespace Simulation

/-! ## Many passes -/

/-- At most `n` passes, fewer if nothing is pending any more. -/
def passes : Nat → Simulation → Float → (Simulation × Float) × List Happening
  | 0, s, report => ((s, report), [])
  | n + 1, s, report =>
    match s.pass report with
    | none => ((s, report), [])
    | some ((s, report), hs) => ((passes n s report).1, hs ++ (passes n s report).2)

theorem passes_stuck {s : Simulation} {report : Float} (h : s.pass report = none) (n : Nat) :
    passes n s report = ((s, report), []) := by
  cases n with
  | zero => rfl
  | succ n => rw [passes, h]

theorem passes_step {s s' : Simulation} {report report' : Float} {hs : List Happening}
    (h : s.pass report = some ((s', report'), hs)) (n : Nat) :
    passes (n + 1) s report = ((passes n s' report').1, hs ++ (passes n s' report').2) := by
  rw [passes, h]

theorem passes_add (j k : Nat) (s : Simulation) (report : Float) :
    passes (j + k) s report = ((passes k (passes j s report).1.1 (passes j s report).1.2).1,
      (passes j s report).2 ++ (passes k (passes j s report).1.1 (passes j s report).1.2).2) := by
  induction j generalizing s report with
  | zero =>
    rw [Nat.zero_add]
    rfl
  | succ j ih =>
    rw [Nat.add_right_comm]
    cases h : s.pass report with
    | none => rw [passes_stuck h, passes_stuck h, passes_stuck h, List.append_nil]
    | some q =>
      obtain ⟨⟨s', report'⟩, hs⟩ := q
      rw [passes_step h, passes_step h, ih]
      simp only [List.append_assoc]

/-- What every pass keeps, passes keep. -/
theorem passes_keep {P : List (Float × Event) → Simulation → Prop}
    (step : ∀ es s s' report report' hs, P es s → s.pass report = some ((s', report'), hs) →
      P (es ++ published hs) s')
    (n : Nat) {es : List (Float × Event)} {s : Simulation} (report : Float) (h : P es s) :
    P (es ++ published (passes n s report).2) (passes n s report).1.1 := by
  induction n generalizing es s report with
  | zero =>
    change P (es ++ []) s
    rwa [List.append_nil]
  | succ n ih =>
    cases hp : s.pass report with
    | none =>
      rw [passes_stuck hp]
      change P (es ++ []) s
      rwa [List.append_nil]
    | some q =>
      obtain ⟨⟨s', report'⟩, hs⟩ := q
      rw [passes_step hp, published_append, ← List.append_assoc]
      exact ih report' (step es s s' report report' hs h hp)

theorem passes_mono {j n : Nat} (h : j ≤ n) (s : Simulation) (report : Float) :
    (passes j s report).2 <+: (passes n s report).2 := by
  obtain ⟨k, rfl⟩ := Nat.exists_eq_add_of_le h
  rw [passes_add]
  exact List.prefix_append _ _

/-- When nothing is pending, further passes do nothing. -/
theorem passes_of_drained {j n : Nat} {s : Simulation} {report : Float}
    (hq : (passes j s report).1.1.scheduler.queue.toList = []) (h : j ≤ n) : passes n s report = passes j s report := by
  obtain ⟨k, rfl⟩ := Nat.exists_eq_add_of_le h
  rw [passes_add, passes_stuck (pass_of_next_none (Scheduler.next_nil hq) _), List.append_nil]

/-! ## Runs -/

theorem pending_of_pass_none {s : Simulation} {report : Float} (h : s.pass report = none) :
    s.scheduler.pending = 0 := by
  rw [Scheduler.pending_eq_zero]
  cases hq : s.scheduler.queue.toList with
  | nil => rfl
  | cons e rest =>
    obtain ⟨r, hs, hp, -⟩ := pass_of_next (Scheduler.next_cons hq) report
    rw [hp] at h
    cases h

theorem runFor_eq (n : Nat) (s : Simulation) (report : Float) (out : Array Happening) :
    s.runFor report out n =
      if (passes n s report).1.1.scheduler.pending = 0 then
        some ((passes n s report).1.1, out ++ (passes n s report).2.toArray)
      else none := by
  induction n generalizing s report out with
  | zero => simp only [runFor, passes, Array.append_empty]
  | succ n ih =>
    unfold runFor
    cases h : s.pass report with
    | none =>
      rw [passes_stuck h]
      simp only [pending_of_pass_none h, if_true, Array.append_empty]
    | some q =>
      obtain ⟨⟨s', report'⟩, hs⟩ := q
      rw [passes_step h]
      simp only [ih, Array.append_assoc, List.append_toArray]

/-- A run that returns has made its passes until nothing was pending, and nothing else. -/
theorem runWithin_cases {s s' : Simulation} {n : Nat} {hs : List Happening} (h : s.runWithin n = some (s', hs)) :
    s' = (passes n s s.startTime).1.1 ∧ s'.scheduler.queue.toList = [] ∧
      published hs = published (passes n s s.startTime).2 := by
  rw [runWithin, runFor_eq] at h
  split_ifs at h with hp
  · cases h
    refine ⟨rfl, Scheduler.pending_eq_zero.1 hp, ?_⟩
    rw [published_append, Array.toList_append]
    exact List.append_nil _
  · cases h

theorem runWithin_of_pending {s : Simulation} {n : Nat} (h : (passes n s s.startTime).1.1.scheduler.pending = 0) :
    (s.runWithin n).isSome = true := by
  rw [runWithin, runFor_eq, if_pos h]
  rfl

theorem run_of_drained {s : Simulation} {n : Nat} (hn : n ≤ s.firingBound)
    (hq : (passes n s s.startTime).1.1.scheduler.queue.toList = []) : s.run.isSome = true := by
  rw [run]
  refine runWithin_of_pending ?_
  rw [passes_of_drained hq hn, Scheduler.pending_eq_zero]
  exact hq

theorem run_cases {s s' : Simulation} {hs : List Happening} (h : s.run = some (s', hs)) :
    ∃ n, s' = (passes n s s.startTime).1.1 ∧ s'.scheduler.queue.toList = [] ∧
      published hs = published (passes n s s.startTime).2 := by
  rw [run] at h
  exact ⟨_, runWithin_cases h⟩

/-! ## Histories -/

/-- What can happen to a simulation from a first state on: the vehicles that were accepted, what happened so
far, and the state that was reached. -/
inductive History (first : Simulation) :
    List (VehicleId × Profile Float) → List Happening → Simulation → Prop
  | start : History first [] [] first
  | accepted {acc : List (VehicleId × Profile Float)} {hs more : List Happening} {s s' : Simulation}
      {id : VehicleId} {p : Profile Float} :
      History first acc hs s → s.enrol id p = (s', .ok (), more) →
      History first (acc ++ [(id, p)]) (hs ++ more) s'
  | refused {acc : List (VehicleId × Profile Float)} {hs more : List Happening} {s s' : Simulation}
      {id : VehicleId} {p : Profile Float} {e : AdmissionFault} :
      History first acc hs s → s.enrol id p = (s', .error e, more) → History first acc (hs ++ more) s'
  | passed {acc : List (VehicleId × Profile Float)} {hs more : List Happening} {s s' : Simulation}
      {report report' : Float} :
      History first acc hs s → s.pass report = some ((s', report'), more) →
      History first acc (hs ++ more) s'
  | ran {acc : List (VehicleId × Profile Float)} {hs more : List Happening} {s s' : Simulation} :
      History first acc hs s → s.run = some (s', more) → History first acc (hs ++ more) s'

/-- What holds at first and is kept by every admission, refusal and pass, holds along every history. -/
theorem History.keeps {first : Simulation}
    {P : List (VehicleId × Profile Float) → List (Float × Event) → Simulation → Prop}
    (start : P [] [] first)
    (accepted : ∀ acc es s id p m, P acc es s → s.mobility.get? id = some m → s.garage.get? id = none →
      P (acc ++ [(id, p)]) (es ++ [(s.scheduler.now, .admitted id p.initialEnergy)]) (s.take id p m))
    (refused : ∀ acc es s id e, P acc es s →
      P acc (es ++ [(s.scheduler.now, .rejected id (AdmissionFault.message e))]) s)
    (passed : ∀ acc es s s' report report' hs, P acc es s → s.pass report = some ((s', report'), hs) →
      P acc (es ++ published hs) s')
    {acc : List (VehicleId × Profile Float)} {hs : List Happening} {s : Simulation}
    (h : History first acc hs s) : P acc (published hs) s := by
  induction h with
  | start => exact start
  | accepted _ he ih =>
    obtain ⟨m, hm, hg, rfl, hpub⟩ := enrol_accepted he
    rw [published_append, hpub]
    exact accepted _ _ _ _ _ m ih hm hg
  | refused _ he ih =>
    obtain ⟨rfl, hpub⟩ := enrol_refused he
    rw [published_append, hpub]
    exact refused _ _ _ _ _ ih
  | passed _ hp ih =>
    rw [published_append]
    exact passed _ _ _ _ _ _ _ ih hp
  | ran _ hr ih =>
    obtain ⟨n, rfl, -, hpub⟩ := run_cases hr
    rw [published_append, hpub]
    exact passes_keep (passed _) _ _ ih

/-! ## Many admissions -/

/-- Those of the vehicles that are accepted when they are admitted one after the other. -/
def accepted (s : Simulation) : List (VehicleId × Profile Float) → List (VehicleId × Profile Float)
  | [] => []
  | (id, p) :: r =>
    match s.enrol id p with
    | (s, .ok (), _) => (id, p) :: accepted s r
    | (s, .error _, _) => accepted s r

/-- Admissions do not touch the settings nor the end of the scenario. -/
theorem enrol_keeps {s s' : Simulation} {id : VehicleId} {p : Profile Float}
    {r : Except AdmissionFault Unit × List Happening} (h : s.enrol id p = (s', r)) :
    s'.settings = s.settings ∧ s'.scheduler.endTime = s.scheduler.endTime := by
  obtain ⟨r, hs⟩ := r
  cases r with
  | error e =>
    obtain ⟨rfl, -⟩ := enrol_refused h
    exact ⟨rfl, rfl⟩
  | ok u =>
    obtain ⟨m, -, -, rfl, -⟩ := enrol_accepted h
    exact ⟨rfl, rfl⟩

theorem enrolAll_keeps (s : Simulation) (ps : List (VehicleId × Profile Float)) :
    (Scenario.enrolAll s ps).1.settings = s.settings ∧
      (Scenario.enrolAll s ps).1.scheduler.endTime = s.scheduler.endTime := by
  induction ps generalizing s with
  | nil => exact ⟨rfl, rfl⟩
  | cons q ps ih =>
    obtain ⟨hset, hend⟩ := @enrol_keeps s _ q.1 q.2 _ rfl
    rw [Scenario.enrolAll]
    exact ⟨(ih _).1.trans hset, (ih _).2.trans hend⟩

theorem enrolAll_settings (s : Simulation) (ps : List (VehicleId × Profile Float)) :
    (Scenario.enrolAll s ps).1.settings = s.settings := (enrolAll_keeps s ps).1

theorem enrolAll_endTime (s : Simulation) (ps : List (VehicleId × Profile Float)) :
    (Scenario.enrolAll s ps).1.scheduler.endTime = s.scheduler.endTime := (enrolAll_keeps s ps).2

theorem history_enrolAll {first : Simulation} (ps : List (VehicleId × Profile Float))
    {acc : List (VehicleId × Profile Float)} {hs : List Happening} {s : Simulation} (h : History first acc hs s) :
    History first (acc ++ s.accepted ps) (hs ++ (Scenario.enrolAll s ps).2) (Scenario.enrolAll s ps).1 := by
  induction ps generalizing acc hs s with
  | nil =>
    rw [accepted, Scenario.enrolAll, List.append_nil, List.append_nil]
    exact h
  | cons q ps ih =>
    obtain ⟨id, p⟩ := q
    rw [accepted, Scenario.enrolAll]
    cases he : s.enrol id p with
    | mk s' q =>
      obtain ⟨r, more⟩ := q
      cases r with
      | error e =>
        simp only []
        rw [← List.append_assoc]
        exact ih (h.refused he)
      | ok u =>
        simp only []
        rw [← List.append_assoc, List.append_cons]
        exact ih (h.accepted he)

theorem history_of_admissions (first : Simulation) (ps : List (VehicleId × Profile Float)) :
    History first (first.accepted ps) (Scenario.enrolAll first ps).2 (Scenario.enrolAll first ps).1 :=
  history_enrolAll ps .start

/-! ## Two parked vehicles -/

def parkedModel : MovementModel Float := ⟨fun _ => .zero, fun _ => .zero⟩

def parkedProfile : Profile Float := ⟨1.0, 1.0, 1.0, 1.0, 1.0, 1.0, 1.0, 1.0, 1.0, 1.0, 1.0⟩

/-- A scenario of two vehicles that stay where they are, from 0 to 1.5 seconds. -/
def parked : Simulation :=
  new (.ofFloat 0.0) 1.5 ((Mobility.empty.add ⟨7⟩ parkedModel).add ⟨9⟩ parkedModel) .default

/-- The second request for a vehicle is refused. -/
def parkedRequests : List (VehicleId × Profile Float) :=
  [(⟨9⟩, parkedProfile), (⟨7⟩, parkedProfile), (⟨9⟩, parkedProfile)]

theorem accepted_parked : parked.accepted parkedRequests = [(⟨9⟩, parkedProfile), (⟨7⟩, parkedProfile)] := by rfl

theorem run_parked : ∃ s hs, (Scenario.enrolAll parked parkedRequests).1.run = some (s, hs) := by
  have hsome : (Scenario.enrolAll parked parkedRequests).1.run.isSome = true := by
    refine run_of_drained (n := 4) ?_ ?_
    · exact Nat.le_trans (by decide : 4 ≤ 1 * Nat.pow 2 64) (Nat.mul_le_mul_right _ (Nat.succ_pos _))
    · rw [← Scheduler.pending_eq_zero]
      decide +kernel
  obtain ⟨⟨s, hs⟩, hrun⟩ := Option.isSome_iff_exists.1 hsome
  exact ⟨s, hs, hrun⟩

end Simulation

end FleetEnergy

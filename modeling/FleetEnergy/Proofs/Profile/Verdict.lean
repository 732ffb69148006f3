import FleetEnergy.Proofs.Profile

/-! The verdict on a profile. What can be wrong with one is a list of complaints; the first that applies is the fault
that is reported, and a profile of which none applies is accepted. -/
namespace FleetEnergy
open Binary64
set_option autoImplicit false

namespace Profile

/-! ## Complaints -/

/-- Whether a violation is true of the value that it names. -/
def Violation.Applies : Violation Float → Prop
  | .notFinite _ x => x.isFinite = false
  | .negative _ x => x < 0.0
  | .notPositive _ x => ¬0.0 < x
  | .efficiencyOutOfRange _ x => ¬(0.0 < x ∧ x ≤ 1.0)

instance (v : Violation Float) : Decidable v.Applies :=
  match v with
  | .notFinite _ x => inferInstanceAs (Decidable (x.isFinite = false))
  | .negative _ x => inferInstanceAs (Decidable (x < 0.0))
  | .notPositive _ x => inferInstanceAs (Decidable (¬0.0 < x))
  | .efficiencyOutOfRange _ x => inferInstanceAs (Decidable (¬(0.0 < x ∧ x ≤ 1.0)))

/-- All that can be wrong with a profile, in the order in which it is looked for. -/
def complaints (p : Profile Float) : List (Violation Float) :=
  (p.fields.flatMap fun f => [.notFinite f.1 f.2, .negative f.1 f.2]) ++
    [.notPositive "vehicleMass" p.vehicleMass,
     .notPositive "maximumBatteryCapacity" p.maximumBatteryCapacity,
     .efficiencyOutOfRange "propulsionEfficiency" p.propulsionEfficiency,
     .efficiencyOutOfRange "recuperationEfficiency" p.recuperationEfficiency]

/-- Reports the first complaint that applies. -/
def verdict (l : List (Violation Float)) : Except (Violation Float) Unit :=
  match l.find? (·.Applies) with
  | none => .ok ()
  | some v => .error v

theorem verdict_append (l l' : List (Violation Float)) :
    verdict (l ++ l') = (verdict l >>= fun _ => verdict l') := by
  unfold verdict
  rw [List.find?_append]
  cases l.find? (·.Applies) with
  | none => rfl
  | some v => rfl

theorem forM_eq_verdict {α : Type} {check : α → Except (Violation Float) Unit} {g : α → List (Violation Float)}
    {l : List α} (h : ∀ x ∈ l, check x = verdict (g x)) : l.forM check = verdict (l.flatMap g) := by
  induction l with
  | nil => rfl
  | cons x l ih =>
    obtain ⟨hx, hl⟩ := List.forall_mem_cons.1 h
    change (check x >>= fun _ => l.forM check) = _
    rw [List.flatMap_cons, verdict_append, hx, ih hl]

theorem verdict_eq_error_iff {l : List (Violation Float)} {v : Violation Float} :
    verdict l = .error v ↔ l.find? (·.Applies) = some v := by
  unfold verdict
  cases l.find? (·.Applies) <;> simp

/-! ## One parameter -/

variable {f : String × Float}

theorem checkMagnitude_eq_verdict (f : String × Float) :
    checkMagnitude f = verdict [.notFinite f.1 f.2, .negative f.1 f.2] := by
  change (if f.2.isFinite = true then if f.2 < 0.0 then _ else _ else _) = _
  cases hf : f.2.isFinite with
  | false => simp [verdict, Violation.Applies, hf]
  | true => by_cases hneg : f.2 < 0.0 <;> simp [verdict, Violation.Applies, hf, hneg]

theorem checkPositive_eq_verdict (hn : f.2.isNaN = false) : checkPositive f = verdict [.notPositive f.1 f.2] := by
  change (if f.2 ≤ 0.0 then _ else _) = _
  have hlt : ¬f.2 ≤ 0.0 ↔ 0.0 < f.2 := not_le_iff_lt hn rfl
  by_cases hle : f.2 ≤ 0.0 <;> simp [verdict, Violation.Applies, hle, ← hlt]

theorem checkEfficiency_eq_verdict (hn : f.2.isNaN = false) :
    checkEfficiency f = verdict [.efficiencyOutOfRange f.1 f.2] := by
  change (if f.2 ≤ 0.0 then _ else if 1.0 < f.2 then _ else _) = _
  have hlt : ¬f.2 ≤ 0.0 ↔ 0.0 < f.2 := not_le_iff_lt hn rfl
  have hle : ¬1.0 < f.2 ↔ f.2 ≤ 1.0 := not_lt_iff_le rfl hn
  by_cases h0 : f.2 ≤ 0.0
  · simp [verdict, Violation.Applies, h0, ← hlt]
  · by_cases h1 : 1.0 < f.2 <;> simp [verdict, Violation.Applies, h0, h1, ← hlt, ← hle]

/-! ## Profiles -/

theorem complaints_eq (p : Profile Float) : p.complaints =
    (p.fields.flatMap fun f => [Violation.notFinite f.1 f.2, Violation.negative f.1 f.2]) ++
      (([("vehicleMass", p.vehicleMass), ("maximumBatteryCapacity", p.maximumBatteryCapacity)].flatMap fun f =>
        [Violation.notPositive f.1 f.2]) ++
      [("propulsionEfficiency", p.propulsionEfficiency),
        ("recuperationEfficiency", p.recuperationEfficiency)].flatMap fun f =>
        [Violation.efficiencyOutOfRange f.1 f.2]) := rfl

theorem validate_eq_verdict (p : Profile Float) : p.validate = verdict p.complaints := by
  have hall : p.fields.forM checkMagnitude =
      verdict (p.fields.flatMap fun f => [.notFinite f.1 f.2, .negative f.1 f.2]) :=
    forM_eq_verdict fun f _ => checkMagnitude_eq_verdict f
  rw [validate_eq, complaints_eq, verdict_append, ← hall]
  cases hm : p.fields.forM checkMagnitude with
  | error v => rfl
  | ok u =>
    -- From here on every parameter is a number.
    rw [forM_eq_ok] at hm
    have hdef {f : String × Float} (hf : f ∈ p.fields) : f.2.isNaN = false :=
      isNaN_of_isFinite ((checkMagnitude_eq_ok f).1 (hm f hf)).1
    have hpositive := forM_eq_verdict fun f hf => checkPositive_eq_verdict (hdef (p.amounts_subset hf))
    have hefficient := forM_eq_verdict fun f hf => checkEfficiency_eq_verdict (hdef (p.efficiencies_subset hf))
    rw [verdict_append, ← hpositive, ← hefficient]

/-- A profile is accepted if and only if it is valid, and else the first complaint that applies is reported; there is
something to say about it just if it is accepted with more energy than its battery holds. -/
theorem first_complaint_decides (p : Profile Float) :
    (p.validate = .ok () ↔ p.Valid) ∧
    (∀ v, p.validate = .error v ↔ p.complaints.find? (·.Applies) = some v) ∧
    p.review.1 = p.validate ∧
    p.review.2.length ≤ 1 ∧
    ((∃ text, .warning text ∈ p.review.2) ↔ p.validate = .ok () ∧ p.maximumBatteryCapacity < p.initialEnergy) := by
  refine ⟨p.validate_eq_ok_iff, fun v => ?_, ?_⟩
  · rw [validate_eq_verdict, verdict_eq_error_iff]
  · unfold review
    cases p.validate with
    | error v => simp
    | ok u =>
      unfold remarks
      by_cases h : p.maximumBatteryCapacity < p.initialEnergy <;> simp [h]

/-- A zero with a minus sign is a zero; it is the mass that is refused. -/
example : (⟨-0.0, -0.0, 0.0, 0.0, 0.0, 0.0, 0.0, 2.0, 0.5, 1.0, 0.0⟩ : Profile Float).validate =
    .error (.notPositive "vehicleMass" (-0.0)) := by rfl

end Profile

end FleetEnergy

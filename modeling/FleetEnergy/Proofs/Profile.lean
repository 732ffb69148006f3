import FleetEnergy.Profile
import FleetEnergy.Proofs.Binary64.Order

/-! The parameters of a profile, each of them once under its name, and the profiles that are accepted: all parameters
are finite and not below zero, mass and capacity are above zero, and the efficiencies are above zero and at most one. -/
namespace FleetEnergy
open Binary64
set_option autoImplicit false

namespace Profile

/-! ## Parameters by name -/

section Fields

variable {α : Type}

/-- The names of the parameters, in the order in which they are declared. -/
def names : List String :=
  ["vehicleMass", "frontSurfaceArea", "airDragCoefficient", "internalMomentOfInertia", "radialDragCoefficient",
    "rollDragCoefficient", "constantPowerIntake", "propulsionEfficiency", "recuperationEfficiency",
    "maximumBatteryCapacity", "initialEnergy"]

theorem nodup_names : names.Nodup := by decide

theorem map_fst_fields (p : Profile α) : p.fields.map Prod.fst = names := rfl

theorem amounts_subset (p : Profile α) :
    [("vehicleMass", p.vehicleMass), ("maximumBatteryCapacity", p.maximumBatteryCapacity)] ⊆ p.fields := by
  simp [fields]

theorem efficiencies_subset (p : Profile α) :
    [("propulsionEfficiency", p.propulsionEfficiency),
      ("recuperationEfficiency", p.recuperationEfficiency)] ⊆ p.fields := by
  simp [fields]

/-- The values of the fields. -/
def values (p : Profile α) : List α := p.fields.map Prod.snd

/-- The values are what the profile is made of, each parameter once and in the order of declaration. -/
theorem values_mk (mass area air inertia radial roll power propulsion recuperation capacity initial : α) :
    (mk mass area air inertia radial roll power propulsion recuperation capacity initial).values =
      [mass, area, air, inertia, radial, roll, power, propulsion, recuperation, capacity, initial] := rfl

theorem values_injective : Function.Injective (values : Profile α → List α) := by
  rintro ⟨_⟩ ⟨_⟩ h
  rw [values_mk, values_mk] at h
  simpa using h

/-- What holds of all fields holds of every parameter. -/
theorem forall_fields {p : Profile α} {P : α → Prop} :
    (∀ f ∈ p.fields, P f.2) ↔
      P p.vehicleMass ∧ P p.frontSurfaceArea ∧ P p.airDragCoefficient ∧ P p.internalMomentOfInertia ∧
      P p.radialDragCoefficient ∧ P p.rollDragCoefficient ∧ P p.constantPowerIntake ∧ P p.propulsionEfficiency ∧
      P p.recuperationEfficiency ∧ P p.maximumBatteryCapacity ∧ P p.initialEnergy := by
  rw [← List.forall_mem_map (f := Prod.snd)]
  change (∀ x ∈ p.values, P x) ↔ _
  obtain ⟨_⟩ := p
  rw [values_mk]
  simp only [List.forall_mem_cons, List.not_mem_nil, false_implies, implies_true, and_true]

/-- The parameter of a name is set in its place, and the other ones stay. -/
theorem values_set? (p : Profile α) (name : String) (x : α) :
    (p.set? name x).map values = if name ∈ names then some (p.values.set (names.idxOf name) x) else none := by
  obtain ⟨_⟩ := p
  unfold set?
  split
  case h_12 => simp_all [names]
  all_goals simp [names, values_mk]

end Fields

/-! ## Checks one after the other -/

theorem andThen_eq_ok {ε : Type} {first second : Except ε Unit} :
    (first >>= fun _ => second) = .ok () ↔ first = .ok () ∧ second = .ok () := by
  cases first with
  | error e => simp [bind, Except.bind]
  | ok u => simp [bind, Except.bind]

theorem forM_eq_ok {α ε : Type} (check : α → Except ε Unit) (l : List α) :
    l.forM check = .ok () ↔ ∀ x ∈ l, check x = .ok () := by
  induction l with
  | nil => simp [List.forM, pure, Except.pure]
  | cons x l ih =>
    change (check x >>= fun _ => l.forM check) = .ok () ↔ _
    rw [andThen_eq_ok, ih, List.forall_mem_cons]

/-! ## One parameter -/

theorem checkMagnitude_eq_ok (f : String × Float) :
    checkMagnitude f = .ok () ↔ f.2.isFinite = true ∧ 0.0 ≤ f.2 := by
  change (if f.2.isFinite = true then if f.2 < 0.0 then _ else _ else _) = Except.ok () ↔ _
  by_cases hf : f.2.isFinite = true
  · have hn : f.2.isNaN = false := isNaN_of_isFinite hf
    have hle : ¬f.2 < 0.0 ↔ 0.0 ≤ f.2 := not_lt_iff_le hn rfl
    by_cases hneg : f.2 < 0.0 <;> simp [hf, hneg, ← hle]
  · simp [hf]

theorem checkPositive_eq_ok {f : String × Float} (hn : f.2.isNaN = false) :
    checkPositive f = .ok () ↔ 0.0 < f.2 := by
  change (if f.2 ≤ 0.0 then _ else _) = Except.ok () ↔ _
  have hlt : ¬f.2 ≤ 0.0 ↔ 0.0 < f.2 := not_le_iff_lt hn rfl
  by_cases hle : f.2 ≤ 0.0 <;> simp [hle, ← hlt]

theorem checkEfficiency_eq_ok {f : String × Float} (hn : f.2.isNaN = false) :
    checkEfficiency f = .ok () ↔ 0.0 < f.2 ∧ f.2 ≤ 1.0 := by
  change (if f.2 ≤ 0.0 then _ else if 1.0 < f.2 then _ else _) = Except.ok () ↔ _
  have hlt : ¬f.2 ≤ 0.0 ↔ 0.0 < f.2 := not_le_iff_lt hn rfl
  have hle : ¬1.0 < f.2 ↔ f.2 ≤ 1.0 := not_lt_iff_le rfl hn
  by_cases h0 : f.2 ≤ 0.0
  · simp [h0, ← hlt]
  · by_cases h1 : 1.0 < f.2 <;> simp [h0, h1, ← hlt, ← hle]

/-! ## Accepted profiles -/

structure Valid (p : Profile Float) : Prop where
  /-- All parameters, in the order in which they are declared. -/
  magnitudes : ∀ f ∈ p.fields, f.2.isFinite = true ∧ 0.0 ≤ f.2
  mass : 0.0 < p.vehicleMass
  capacity : 0.0 < p.maximumBatteryCapacity
  propulsion : 0.0 < p.propulsionEfficiency ∧ p.propulsionEfficiency ≤ 1.0
  recuperation : 0.0 < p.recuperationEfficiency ∧ p.recuperationEfficiency ≤ 1.0

theorem validate_eq (p : Profile Float) :
    p.validate = (do
      p.fields.forM checkMagnitude
      [("vehicleMass", p.vehicleMass), ("maximumBatteryCapacity", p.maximumBatteryCapacity)].forM checkPositive
      [("propulsionEfficiency", p.propulsionEfficiency),
        ("recuperationEfficiency", p.recuperationEfficiency)].forM checkEfficiency) := rfl

theorem valid_iff (p : Profile Float) : p.Valid ↔
    (∀ f ∈ p.fields, f.2.isFinite = true ∧ 0.0 ≤ f.2) ∧
    (∀ f ∈ [("vehicleMass", p.vehicleMass), ("maximumBatteryCapacity", p.maximumBatteryCapacity)], 0.0 < f.2) ∧
    ∀ f ∈ [("propulsionEfficiency", p.propulsionEfficiency), ("recuperationEfficiency", p.recuperationEfficiency)],
      0.0 < f.2 ∧ f.2 ≤ 1.0 := by
  simp only [List.mem_cons, List.not_mem_nil, or_false, forall_eq_or_imp, forall_eq]
  constructor
  · intro h
    exact ⟨h.magnitudes, ⟨h.mass, h.capacity⟩, h.propulsion, h.recuperation⟩
  · rintro ⟨hall, ⟨hmass, hcap⟩, hprop, hrec⟩
    exact ⟨hall, hmass, hcap, hprop, hrec⟩

/-- The profiles that are accepted are those that are valid. -/
theorem validate_eq_ok_iff (p : Profile Float) : p.validate = .ok () ↔ p.Valid := by
  rw [validate_eq, andThen_eq_ok, andThen_eq_ok, forM_eq_ok, forM_eq_ok, forM_eq_ok, valid_iff]
  simp only [checkMagnitude_eq_ok]
  -- The other checks are about parameters that have passed the first one, and so are numbers.
  refine and_congr_right fun hall => ?_
  have hdef {f : String × Float} (hf : f ∈ p.fields) : f.2.isNaN = false := isNaN_of_isFinite (hall f hf).1
  exact and_congr (forall₂_congr fun f hf => checkPositive_eq_ok (hdef (p.amounts_subset hf)))
    (forall₂_congr fun f hf => checkEfficiency_eq_ok (hdef (p.efficiencies_subset hf)))

end Profile

end FleetEnergy

import FleetEnergy.Proofs.Simulation.Admission
import FleetEnergy.Proofs.Sorting

/-! Which vehicles of a list of records take part in a simulation. Each record is judged on its own, so that of the
records of a vehicle the first valid one decides, and records of different vehicles may stand in any order. -/
namespace FleetEnergy
set_option autoImplicit false

/-! ## The records of one vehicle -/

namespace Records

variable {vs : Vehicles} {id : VehicleId} {p : Profile Float}

/-- The records of a vehicle that are not broken, in their order. -/
def ofVehicle (vs : Vehicles) (id : VehicleId) : List (VehicleId × Profile Float) :=
  (vs.filterMap Except.toOption).filter fun q => q.1 = id

/-- Whether a record is one of the vehicle and has a profile that is accepted. -/
def serves (id : VehicleId) (q : VehicleId × Profile Float) : Bool := decide (q.1 = id) && q.2.validate.isOk

/-- The profile is that of the first record of the vehicle that has a valid one. -/
structure Decides (vs : Vehicles) (id : VehicleId) (p : Profile Float) : Prop where
  valid : p.Valid
  first : ∃ front back, vs = front ++ .ok (id, p) :: back ∧ ∀ q, .ok (id, q) ∈ front → ¬q.Valid

theorem isOk_validate_iff (p : Profile Float) : p.validate.isOk = true ↔ p.Valid := by
  rw [← p.validate_eq_ok_iff]
  cases p.validate with
  | error e => simp [Except.isOk, Except.toBool]
  | ok u => simp [Except.isOk, Except.toBool]

theorem serves_iff {q : VehicleId × Profile Float} : serves id q = true ↔ q.1 = id ∧ q.2.Valid := by
  rw [serves, Bool.and_eq_true, decide_eq_true_eq, isOk_validate_iff]

theorem decides_iff_find : Decides vs id p ↔ (vs.filterMap Except.toOption).find? (serves id) = some (id, p) := by
  rw [List.find?_filterMap]
  constructor
  · rintro ⟨hp, front, back, rfl, hfront⟩
    have hfind : (front ++ .ok (id, p) :: back).find? (fun r => r.toOption.any (serves id)) = some (.ok (id, p)) := by
      rw [List.find?_eq_some_iff_append]
      refine ⟨serves_iff.2 ⟨rfl, hp⟩, front, back, rfl, fun r hr => ?_⟩
      cases r with
      | error e => rfl
      | ok q =>
        obtain ⟨n, q⟩ := q
        rw [Bool.not_eq_true']
        refine Bool.eq_false_iff.2 fun hserves => ?_
        obtain ⟨rfl, hq⟩ := serves_iff.1 hserves
        exact hfront q hr hq
    rw [hfind]
    rfl
  · intro h
    obtain ⟨r, hfind, hr⟩ := Option.bind_eq_some_iff.1 h
    cases r with
    | error e => cases hr
    | ok q =>
      cases hr
      rw [List.find?_eq_some_iff_append] at hfind
      obtain ⟨hserves, front, back, hvs, hfront⟩ := hfind
      refine ⟨(serves_iff.1 hserves).2, front, back, hvs, fun q hq hvalid => ?_⟩
      have hskip := hfront _ hq
      have hq : serves id (id, q) = true := serves_iff.2 ⟨rfl, hvalid⟩
      simp [Except.toOption, hq] at hskip

theorem exists_decides_iff : (∃ p, Decides vs id p) ↔ ∃ p, .ok (id, p) ∈ vs ∧ p.Valid := by
  constructor
  · rintro ⟨p, hp, front, back, rfl, -⟩
    exact ⟨p, by simp, hp⟩
  · rintro ⟨p, hmem, hp⟩
    have hin : (id, p) ∈ vs.filterMap Except.toOption := List.mem_filterMap.2 ⟨_, hmem, rfl⟩
    have hsome : ((vs.filterMap Except.toOption).find? (serves id)).isSome = true :=
      List.find?_isSome.2 ⟨_, hin, serves_iff.2 ⟨rfl, hp⟩⟩
    obtain ⟨⟨n, q⟩, hq⟩ := Option.isSome_iff_exists.1 hsome
    obtain ⟨rfl, -⟩ := serves_iff.1 (List.find?_some hq)
    exact ⟨q, decides_iff_find.2 hq⟩

end Records

/-! ## Sorting the records -/

namespace Scenario
open Records

variable {vs vs' : Vehicles} {id : VehicleId}

def nodeRank (q : VehicleId × Profile Float) : Int := q.1.node.toNat

theorem usable_eq (vs : Vehicles) : usable vs = byRank nodeRank (vs.filterMap Except.toOption) := by
  have hle (a b : VehicleId × Profile Float) : decide (a.1.node ≤ b.1.node) = decide (nodeRank a ≤ nodeRank b) := by
    simp [nodeRank, UInt32.le_iff_toNat_le]
  simp only [usable, byRank, hle]

theorem nodeRank_eq_iff (q : VehicleId × Profile Float) : nodeRank q = id.node.toNat ↔ q.1 = id := by
  obtain ⟨⟨n⟩, p⟩ := q
  obtain ⟨m⟩ := id
  simp [nodeRank, UInt32.toNat_inj]

theorem filter_rank_eq_ofVehicle (vs : Vehicles) (id : VehicleId) :
    (vs.filterMap Except.toOption).filter (fun q => decide (nodeRank q = id.node.toNat)) = ofVehicle vs id := by
  simp only [ofVehicle, nodeRank_eq_iff]

/-- The records of one vehicle keep their order. -/
theorem filter_usable (vs : Vehicles) (id : VehicleId) : (usable vs).filter (fun q => q.1 = id) = ofVehicle vs id := by
  rw [← filter_rank_eq_ofVehicle, ← filter_rank_byRank, ← usable_eq]
  simp only [nodeRank_eq_iff]

theorem find?_usable (vs : Vehicles) (id : VehicleId) :
    (usable vs).find? (serves id) = (vs.filterMap Except.toOption).find? (serves id) := by
  have hsplit (l : List (VehicleId × Profile Float)) :
      l.find? (serves id) = (l.filter fun q => q.1 = id).find? (fun q => q.2.validate.isOk) := by
    rw [List.find?_filter]
    congr 1
    funext q
    simp [serves]
  rw [hsplit, filter_usable, hsplit]
  rfl

/-- What is simulated depends on the records of each vehicle only, not on how they are mixed. -/
theorem usable_congr (h : ∀ id, ofVehicle vs' id = ofVehicle vs id) : usable vs' = usable vs := by
  rw [usable_eq, usable_eq]
  refine eq_of_filter_rank_eq nodeRank (byRank_sorted _ _) (byRank_sorted _ _) fun r => ?_
  rw [filter_rank_byRank, filter_rank_byRank]
  by_cases hr : ∃ id : VehicleId, (id.node.toNat : Int) = r
  · obtain ⟨id, rfl⟩ := hr
    rw [filter_rank_eq_ofVehicle, filter_rank_eq_ofVehicle, h]
  · have hnone (l : List (VehicleId × Profile Float)) : l.filter (fun q => decide (nodeRank q = r)) = [] := by
      rw [List.filter_eq_nil_iff]
      intro q _ hq
      exact hr ⟨q.1, of_decide_eq_true hq⟩
    rw [hnone, hnone]

end Scenario

/-! ## Admissions one after the other -/

namespace Simulation
open Records

theorem accepted_cons_ok {s s' : Simulation} {id : VehicleId} {p : Profile Float} (h : s.tryEnrol id p = .ok s')
    (ps : List (VehicleId × Profile Float)) : s.accepted ((id, p) :: ps) = (id, p) :: s'.accepted ps := by
  simp [accepted, enrol, h]

theorem accepted_cons_error {s : Simulation} {id : VehicleId} {p : Profile Float} {e : AdmissionFault}
    (h : s.tryEnrol id p = .error e) (ps : List (VehicleId × Profile Float)) :
    s.accepted ((id, p) :: ps) = s.accepted ps := by
  simp [accepted, enrol, h]

/-- A vehicle that moves and is not yet there is accepted with the first valid profile that is asked for. -/
theorem mem_accepted_iff (s : Simulation) (ps : List (VehicleId × Profile Float)) (id : VehicleId) (p : Profile Float) :
    (id, p) ∈ s.accepted ps ↔
      (s.mobility.get? id).isSome = true ∧ s.garage.get? id = none ∧ ps.find? (serves id) = some (id, p) := by
  induction ps generalizing s with
  | nil => simp [accepted]
  | cons q ps ih =>
    obtain ⟨n, q⟩ := q
    rw [List.find?_cons]
    obtain ⟨m, hm, hadm, htry⟩ | ⟨e, -, hnot, htry⟩ := s.tryEnrol_verdict n q
    · have hget (other : VehicleId) : (s.take n q m).garage.get? other =
          if n = other then some (s.newcomer n q m) else s.garage.get? other := s.garage.get?_put (s.newcomer n q m) other
      have hmob : (s.take n q m).mobility = s.mobility := rfl
      rw [accepted_cons_ok htry, List.mem_cons, ih, hget, hmob]
      by_cases hid : n = id
      · subst hid
        have hserves : serves n (n, q) = true := serves_iff.2 ⟨rfl, hadm.valid⟩
        rw [hserves]
        simp [hm, hadm.new, eq_comm]
      · have hskip : serves id (n, q) = false := Bool.eq_false_iff.2 fun h => hid (serves_iff.1 h).1
        rw [hskip, if_neg hid]
        simp [Ne.symm hid]
    · rw [accepted_cons_error htry, ih]
      cases hserves : serves id (n, q) with
      | false => rfl
      | true =>
        obtain ⟨rfl, hq⟩ := serves_iff.1 hserves
        constructor
        · rintro ⟨hm, hg, -⟩
          exact absurd ⟨hq, hm, hg⟩ hnot
        · rintro ⟨hm, hg, -⟩
          exact absurd ⟨hq, hm, hg⟩ hnot

end Simulation

/-! ## Simulations of records -/

namespace Scenario
open Records

variable {span : Config.TimeSpan} {m : Mobility} {settings : Settings} {vs vs' : Vehicles} {s : Simulation}
  {hs : List Happening}

theorem simulate_congr (h : ∀ id, ofVehicle vs' id = ofVehicle vs id) :
    simulate span m settings vs' = simulate span m settings vs := by
  rw [simulate, simulate, usable_congr h]

theorem simulate_cases (h : simulate span m settings vs = some (s, hs)) :
    Simulation.History (.new (.ofFloat span.startTime) span.endTime m settings)
      ((Simulation.new (.ofFloat span.startTime) span.endTime m settings).accepted (usable vs)) hs s := by
  unfold simulate at h
  obtain ⟨⟨s', more⟩, hrun, hout⟩ := Option.map_eq_some_iff.1 h
  cases hout
  exact (Simulation.history_of_admissions _ _).ran hrun

theorem mem_accepted_usable (id : VehicleId) (p : Profile Float) :
    (id, p) ∈ (Simulation.new (.ofFloat span.startTime) span.endTime m settings).accepted (usable vs) ↔
      (m.get? id).isSome = true ∧ Decides vs id p := by
  rw [Simulation.mem_accepted_iff, find?_usable, decides_iff_find]
  simp [Simulation.new, Garage.get?_empty]

/-- A vehicle is in the summary just if it moves and has a valid record. -/
theorem mem_summary_iff (h : simulate span m settings vs = some (s, hs)) (id : VehicleId) :
    id ∈ s.summary.vehicles.map (·.vehicle) ↔ (m.get? id).isSome = true ∧ ∃ p, .ok (id, p) ∈ vs ∧ p.Valid := by
  rw [(simulate_cases h).audited.summary_perm.mem_iff, ← exists_decides_iff, List.mem_map]
  constructor
  · rintro ⟨⟨n, p⟩, hmem, rfl⟩
    obtain ⟨hm, hp⟩ := (mem_accepted_usable n p).1 hmem
    exact ⟨hm, p, hp⟩
  · rintro ⟨hm, p, hp⟩
    exact ⟨(id, p), (mem_accepted_usable id p).2 ⟨hm, hp⟩, rfl⟩

/-- A vehicle in the summary has the profile of its first valid record. -/
theorem profile_decides (h : simulate span m settings vs = some (s, hs)) {id : VehicleId}
    (hid : id ∈ s.summary.vehicles.map (·.vehicle)) :
    ∃ v, s.garage.get? id = some v ∧ Simulation.vehicleSummary v ∈ s.summary.vehicles ∧ Decides vs id v.profile := by
  have haud := (simulate_cases h).audited
  rw [Simulation.summary_vehicles, List.map_map] at hid
  obtain ⟨v, hv, rfl⟩ := List.mem_map.1 hid
  have hget := (haud.consistent.keyed.mem_toList v).1 hv
  refine ⟨v, hget, List.mem_map.2 ⟨v, hv, rfl⟩, ?_⟩
  obtain ⟨⟨n, p⟩, hmem, hn⟩ := List.mem_map.1 ((haud.enrolled v.id).2 ⟨v, hget⟩)
  cases hn
  obtain ⟨w, hw, hacc⟩ := haud.account v.id p hmem
  rw [hget] at hw
  cases hw
  rw [hacc.profile]
  exact ((mem_accepted_usable v.id p).1 hmem).2

end Scenario

end FleetEnergy

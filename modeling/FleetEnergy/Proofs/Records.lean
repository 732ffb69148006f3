import Mathlib.Data.List.Forall2
import FleetEnergy.Proofs.Profile
import FleetEnergy.Proofs.VehicleId
import FleetEnergy.Records

/-! What records tell. Every record has an outcome of its own: the vehicle that it describes, whose parameters are the
last that are set for their keys, or the first fault that is in its way. -/
namespace FleetEnergy
set_option autoImplicit false

namespace Records

/-! ## Parameters -/

/-- The parameter sets a key to a number. -/
inductive Parameter.Sets : Parameter → String × Float → Prop
  | number {key value : String} {x : Float} :
      Decimal.readNumber (Text.trim value.toList) = .ok x → Sets ⟨some key, some value⟩ (key, x)

/-- What is wrong with a parameter, which is number `index` of a vehicle. -/
inductive Parameter.Spoils (id : VehicleId) (index : Nat) : Parameter → RecordFault → Prop
  | keyless {value : Option String} : Spoils id index ⟨none, value⟩ (.malformedParameter id index)
  | valueless {key : Option String} : Spoils id index ⟨key, none⟩ (.malformedParameter id index)
  | noNumber {key value : String} {e : Decimal.NumberError} :
      Decimal.readNumber (Text.trim value.toList) = .error e →
      Spoils id index ⟨some key, some value⟩ (.invalidValue id key value)

/-- The number that a key is set to last, or zero. -/
def latest (l : List (String × Float)) (key : String) : Float :=
  ((l.filter (·.1 == key)).getLast?.map (·.2)).getD 0.0

/-- The profile in which every parameter is what it is set to last. -/
def profileOf (l : List (String × Float)) : Profile Float where
  vehicleMass := latest l "vehicleMass"
  frontSurfaceArea := latest l "frontSurfaceArea"
  airDragCoefficient := latest l "airDragCoefficient"
  internalMomentOfInertia := latest l "internalMomentOfInertia"
  radialDragCoefficient := latest l "radialDragCoefficient"
  rollDragCoefficient := latest l "rollDragCoefficient"
  constantPowerIntake := latest l "constantPowerIntake"
  propulsionEfficiency := latest l "propulsionEfficiency"
  recuperationEfficiency := latest l "recuperationEfficiency"
  maximumBatteryCapacity := latest l "maximumBatteryCapacity"
  initialEnergy := latest l "initialEnergy"

variable {id : VehicleId} {key : String} {x : Float} {q : Parameter} {fault : RecordFault}
  {l : List (String × Float)} {ps before after : List Parameter}

theorem latest_concat (l : List (String × Float)) (key : String) (x : Float) :
    latest (l ++ [(key, x)]) = Function.update (latest l) key x := by
  funext k
  rw [Function.update_apply]
  unfold latest
  rw [List.filter_append]
  by_cases h : k = key
  · simp [h]
  · simp [h, Ne.symm h]

theorem values_profileOf (l : List (String × Float)) :
    (profileOf l).values = Profile.names.map (latest l) := rfl

/-- To set a parameter is to add to what has been set. -/
theorem set?_profileOf (l : List (String × Float)) (key : String) (x : Float) :
    ((profileOf l).set? key x).getD (profileOf l) = profileOf (l ++ [(key, x)]) := by
  refine Profile.values_injective ?_
  rw [← Option.getD_map Profile.values, Profile.values_set?, values_profileOf, values_profileOf, latest_concat,
    Profile.nodup_names.map_update]
  split_ifs <;> rfl

/-! ## Records -/

/-- A parameter that sets a key to a number is added to what has been set. -/
theorem setParameters_step (hq : q.Sets (key, x)) (id : VehicleId) (index : Nat) (done : List (String × Float))
    (ps : List Parameter) (notices : List Notice) :
    ∃ more, setParameters id index (q :: ps) (profileOf done) notices =
      setParameters id (index + 1) ps (profileOf (done ++ [(key, x)])) more := by
  obtain ⟨hx⟩ := hq
  have hset := set?_profileOf done key x
  rw [setParameters]
  simp only [hx]
  cases hp : (profileOf done).set? key x with
  | none =>
    rw [hp, Option.getD_none] at hset
    exact ⟨_, by rw [hset]⟩
  | some p =>
    rw [hp, Option.getD_some] at hset
    exact ⟨_, by rw [hset]⟩

theorem setParameters_of_sets (h : List.Forall₂ Parameter.Sets ps l) (id : VehicleId) (rest : List Parameter)
    (index : Nat) (done : List (String × Float)) (notices : List Notice) :
    ∃ more, setParameters id index (ps ++ rest) (profileOf done) notices =
      setParameters id (index + ps.length) rest (profileOf (done ++ l)) more := by
  induction h generalizing index done notices with
  | nil => exact ⟨notices, by rw [List.append_nil]; rfl⟩
  | @cons q a ps l hq _ ih =>
    obtain ⟨more, hstep⟩ := setParameters_step hq id index done (ps ++ rest) notices
    obtain ⟨more', hrest⟩ := ih (index + 1) (done ++ [a]) more
    refine ⟨more', ?_⟩
    rw [List.cons_append, hstep, hrest, List.append_assoc, List.length_cons, Nat.add_assoc, Nat.add_comm 1]
    rfl

theorem setParameters_of_spoils {index : Nat} (h : q.Spoils id index fault) (ps : List Parameter)
    (p : Profile Float) (notices : List Notice) : (setParameters id index (q :: ps) p notices).1 = .error fault := by
  cases h with
  | keyless => rw [setParameters]
  | @valueless key => cases key <;> rw [setParameters]
  | noNumber he =>
    rw [setParameters]
    simp only [he]

/-- Every parameter sets a key to a number, or there is a first one that does not. -/
theorem parameters_cases (id : VehicleId) (index : Nat) (ps : List Parameter) :
    (∃ l, List.Forall₂ Parameter.Sets ps l) ∨ ∃ before q after l fault, ps = before ++ q :: after ∧
      List.Forall₂ Parameter.Sets before l ∧ q.Spoils id (index + before.length) fault := by
  induction ps generalizing index with
  | nil => exact .inl ⟨[], .nil⟩
  | cons q ps ih =>
    have hq : (∃ a, q.Sets a) ∨ ∃ fault, q.Spoils id index fault := by
      obtain ⟨_ | key, value⟩ := q
      · exact .inr ⟨_, .keyless⟩
      · cases value with
        | none => exact .inr ⟨_, .valueless⟩
        | some value =>
          cases hx : Decimal.readNumber (Text.trim value.toList) with
          | error e => exact .inr ⟨_, .noNumber hx⟩
          | ok x => exact .inl ⟨_, .number hx⟩
    obtain ⟨a, ha⟩ | ⟨fault, hf⟩ := hq
    · obtain ⟨l, hl⟩ | ⟨before, q', after, l, fault, rfl, hl, hf⟩ := ih (index + 1)
      · exact .inl ⟨a :: l, .cons ha hl⟩
      · refine .inr ⟨q :: before, q', after, a :: l, fault, rfl, .cons ha hl, ?_⟩
        rwa [List.length_cons, Nat.add_comm before.length, ← Nat.add_assoc]
    · exact .inr ⟨[], q, ps, [], fault, rfl, .nil, hf⟩

/-- The number of a node, with blanks around it or none. -/
def NodeNumber (node : String) (id : VehicleId) : Prop :=
  Decimal.readWhole UInt32.size (Text.trim node.toList) = .ok id.node.toNat

/-- A record describes a vehicle: it names its node and sets keys to numbers. -/
inductive Record.Describes : Record → VehicleId → Profile Float → Prop
  | mk {node : String} {id : VehicleId} {ps : List Parameter} {l : List (String × Float)} :
      NodeNumber node id → List.Forall₂ Parameter.Sets ps l → Describes ⟨some node, ps⟩ id (profileOf l)

/-- The first fault of a record, which is number `index` of a document: that of its node or else of a parameter. -/
inductive Record.Broken (index : Nat) : Record → RecordFault → Prop
  | nodeless {ps : List Parameter} : Broken index ⟨none, ps⟩ (.missingNode index)
  | noNode {node : String} {ps : List Parameter} {e : Decimal.WholeError} :
      Decimal.readWhole UInt32.size (Text.trim node.toList) = .error e →
      Broken index ⟨some node, ps⟩ (.invalidNode index node)
  | parameter {node : String} {id : VehicleId} {before after : List Parameter} {q : Parameter}
      {l : List (String × Float)} {fault : RecordFault} :
      NodeNumber node id → List.Forall₂ Parameter.Sets before l → q.Spoils id before.length fault →
      Broken index ⟨some node, before ++ q :: after⟩ fault

theorem vehicleOf_eq {node : String} (h : NodeNumber node id) (index : Nat) (ps : List Parameter) :
    (vehicleOf index ⟨some node, ps⟩).1 = (setParameters id 0 ps (profileOf []) []).1.map fun p => (id, p) := by
  have hread : VehicleId.read node.toList = .ok id := VehicleId.read_eq_ok_iff.2 h
  simp only [vehicleOf, hread]
  rfl

theorem Record.Describes.vehicleOf {r : Record} {p : Profile Float} (h : r.Describes id p) (index : Nat) :
    (vehicleOf index r).1 = .ok (id, p) := by
  obtain ⟨hnode, hsets⟩ := h
  obtain ⟨more, hset⟩ := setParameters_of_sets hsets id [] 0 [] []
  rw [List.append_nil, List.nil_append] at hset
  rw [vehicleOf_eq hnode, hset]
  rfl

theorem Record.Broken.vehicleOf {r : Record} {index : Nat} (h : r.Broken index fault) :
    (vehicleOf index r).1 = .error fault := by
  cases h with
  | nodeless => rfl
  | noNode he =>
    simp only [Records.vehicleOf, VehicleId.read, he]
    rfl
  | @parameter _ id before after q l _ hnode hsets hf =>
    obtain ⟨more, hset⟩ := setParameters_of_sets hsets id (q :: after) 0 [] []
    rw [Nat.zero_add] at hset
    rw [vehicleOf_eq hnode, hset]
    have herror := setParameters_of_spoils hf after (profileOf ([] ++ l)) more
    rw [herror]
    rfl

theorem record_cases (index : Nat) (r : Record) : (∃ id p, r.Describes id p) ∨ ∃ fault, r.Broken index fault := by
  obtain ⟨_ | node, ps⟩ := r
  · exact .inr ⟨_, .nodeless⟩
  · cases hn : VehicleId.read node.toList with
    | error e => exact .inr ⟨_, .noNode (VehicleId.read_eq_error_iff.1 hn)⟩
    | ok id =>
      have hnode : NodeNumber node id := VehicleId.read_eq_ok_iff.1 hn
      obtain ⟨l, hl⟩ | ⟨before, q, after, l, fault, rfl, hl, hf⟩ := parameters_cases id 0 ps
      · exact .inl ⟨id, _, hnode, hl⟩
      · rw [Nat.zero_add] at hf
        exact .inr ⟨fault, .parameter hnode hl hf⟩

/-! ## Lists of records -/

theorem vehiclesFrom_eq (start : Nat) (records : List Record) :
    (vehiclesFrom start records).1 = records.mapIdx fun i r => (vehicleOf (start + i) r).1 := by
  induction records generalizing start with
  | nil => rfl
  | cons r records ih =>
    rw [vehiclesFrom, List.mapIdx_cons]
    simp only [ih (start + 1), Nat.add_assoc, Nat.add_comm 1, Nat.add_zero]

/-! ## Files -/

theorem toList_loop (bytes : ByteArray) (i : ℕ) (done : List UInt8) :
    ByteArray.toList.loop bytes i done = done.reverse ++ bytes.data.toList.drop i := by
  induction i, done using ByteArray.toList.loop.induct bytes with
  | case1 i done hi ih =>
    have hlen : i < bytes.data.toList.length := hi
    have hget : bytes.get! i = bytes.data.toList[i] := getElem!_pos bytes.data i hi
    rw [ByteArray.toList.loop, if_pos hi, ih, List.drop_eq_getElem_cons hlen, hget, List.reverse_cons,
      List.append_assoc, List.singleton_append]
  | case2 i done hi =>
    have hlen : bytes.data.toList.length ≤ i := not_lt.1 hi
    rw [ByteArray.toList.loop, if_neg hi, List.drop_eq_nil_of_le hlen, List.append_nil]

/-- The vehicles of a file that is not packed are those of the records of its document. -/
theorem ofFile_of_document {path : String} {bytes : ByteArray} {records : List Record}
    (hplain : path.endsWith ".xml" = true) (hpacked : path.endsWith ".xml.gz" = false)
    (h : ofDocument bytes.data.toList = .ok records) : (ofFile path (.ok bytes)).1 = .ok (vehicles records).1 := by
  have hbytes : bytes.toList = bytes.data.toList := by rw [ByteArray.toList, toList_loop]; rfl
  unfold ofFile
  simp [hplain, hpacked, hbytes, h]

/-! ## Keys -/

/-- Whether a profile has a parameter of this name. -/
def isParameter (key : String) : Bool := (Profile.blank (α := Float)).fields.any (·.1 == key)

theorem isParameter_iff {key : String} : isParameter key = true ↔ key ∈ Profile.names := by
  rw [isParameter, List.any_eq_true, ← Profile.map_fst_fields (Profile.blank (α := Float)), List.mem_map]
  simp only [beq_iff_eq]

/-- The record without the parameters whose keys no profile has. -/
def Record.relevant (r : Record) : Record := ⟨r.node, r.parameters.filter fun q => q.key.any isParameter⟩

theorem latest_filter (l : List (String × Float)) {key : String} (h : isParameter key = true) :
    latest (l.filter fun a => isParameter a.1) key = latest l key := by
  have hsame : (l.filter fun a => isParameter a.1).filter (·.1 == key) = l.filter (·.1 == key) := by
    rw [List.filter_filter]
    refine List.filter_congr fun a _ => ?_
    by_cases hk : a.1 = key
    · rw [hk, h, Bool.and_true]
    · rw [beq_eq_false_iff_ne.2 hk, Bool.false_and]
  rw [latest, latest, hsame]

theorem profileOf_filter (l : List (String × Float)) :
    profileOf (l.filter fun a => isParameter a.1) = profileOf l := by
  refine Profile.values_injective ?_
  rw [values_profileOf, values_profileOf]
  exact List.map_congr_left fun key hkey => latest_filter l (isParameter_iff.2 hkey)

theorem Record.Describes.relevant {r : Record} {p : Profile Float} (h : r.Describes id p) :
    r.relevant.Describes id p := by
  obtain ⟨hnode, hsets⟩ := h
  have hknown : Relator.LiftFun Parameter.Sets (· ↔ ·) (fun q => q.key.any isParameter = true)
      fun a => isParameter a.1 = true := by
    rintro _ _ ⟨-⟩
    exact Iff.rfl
  have hrelevant := List.rel_filter hknown hsets
  have hdescribes := Record.Describes.mk hnode hrelevant
  rw [profileOf_filter] at hdescribes
  exact hdescribes

/-- Every record has an outcome of its own, in order. It is the vehicle that the record describes, or the first fault
of the record; keys that are no parameters of vehicles do not matter. -/
theorem records_have_outcomes (records : List Record) :
    (vehicles records).1 = records.mapIdx (fun index r => (vehicleOf index r).1) ∧
    (∀ index r, (∀ id p, (vehicleOf index r).1 = .ok (id, p) ↔ r.Describes id p) ∧
      ∀ fault, (vehicleOf index r).1 = .error fault ↔ r.Broken index fault) ∧
    ∀ (r : Record) id p, r.Describes id p → r.relevant.Describes id p := by
  refine ⟨?_, fun index r => ⟨fun id p => ⟨fun h => ?_, fun h => h.vehicleOf index⟩,
    fun fault => ⟨fun h => ?_, fun h => h.vehicleOf⟩⟩, fun _ _ _ h => h.relevant⟩
  · have hfrom := vehiclesFrom_eq 0 records
    simp only [Nat.zero_add] at hfrom
    exact hfrom
  · obtain ⟨id', p', hd⟩ | ⟨fault, hb⟩ := record_cases index r
    · have hsame := h.symm.trans (hd.vehicleOf index)
      cases hsame
      exact hd
    · rw [hb.vehicleOf] at h
      cases h
  · obtain ⟨id', p', hd⟩ | ⟨fault', hb⟩ := record_cases index r
    · rw [hd.vehicleOf index] at h
      cases h
    · have hsame := h.symm.trans hb.vehicleOf
      cases hsame
      exact hb

/-- A record that sets a key twice and one that is nobody's, around a blank. -/
def repainted : Record :=
  ⟨some " 7", [⟨some "vehicleMass", some "1"⟩, ⟨some "colour", some "3"⟩, ⟨some "vehicleMass", some " 2.5 "⟩]⟩

/-- The last mass counts, the colour does not; after it, a record without a node and one without a value are refused. -/
theorem repainted_has_outcome :
    repainted.Describes ⟨7⟩ { Profile.blank with vehicleMass := 2.5 } ∧
    repainted.relevant.Describes ⟨7⟩ { Profile.blank with vehicleMass := 2.5 } ∧
    (vehicles [repainted, ⟨none, []⟩, ⟨some "1", [⟨some "colour", none⟩]⟩]).1 =
      [.ok (⟨7⟩, { Profile.blank with vehicleMass := 2.5 }), .error (.missingNode 1),
        .error (.malformedParameter ⟨1⟩ 0)] := by
  obtain ⟨hlist, houtcomes, hrelevant⟩ :=
    records_have_outcomes [repainted, ⟨none, []⟩, ⟨some "1", [⟨some "colour", none⟩]⟩]
  have hsets : repainted.Describes ⟨7⟩ { Profile.blank with vehicleMass := 2.5 } :=
    .mk (by rfl) (.cons (.number (x := 1.0) (by rfl)) (.cons (.number (x := 3.0) (by rfl))
      (.cons (.number (x := 2.5) (by rfl)) .nil)))
  have hfirst := ((houtcomes 0 repainted).1 _ _).2 hsets
  have hsecond := ((houtcomes 1 ⟨none, []⟩).2 _).2 .nodeless
  have hthird : (vehicleOf 2 ⟨some "1", [⟨some "colour", none⟩]⟩).1 = .error (.malformedParameter ⟨1⟩ 0) :=
    ((houtcomes 2 _).2 _).2 (@Record.Broken.parameter _ _ ⟨1⟩ [] _ _ _ _ (by rfl) .nil .valueless)
  refine ⟨hsets, hrelevant _ _ _ hsets, ?_⟩
  rw [hlist, List.mapIdx_cons, List.mapIdx_cons, List.mapIdx_cons, List.mapIdx_nil, hfirst, hsecond, hthird]

end Records

end FleetEnergy

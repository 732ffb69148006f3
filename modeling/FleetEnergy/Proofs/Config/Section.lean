import FleetEnergy.Config.Section
import FleetEnergy.Proofs.Document.Value

/-! Sections are read back as they were written: the entries of each kind of section are fields with the names that its
reader knows, and each field holds the value it was written for. -/
namespace FleetEnergy.Config
open Document
set_option autoImplicit false

/-! ## Names -/

theorem lookup_recuperation (r : Recuperation) : recuperationNames.lookup (nameIn recuperationNames r) = some r := by
  cases r <;> decide

theorem lookup_logging (l : Logging) : loggingNames.lookup (nameIn loggingNames l) = some l := by
  cases l <;> decide

theorem lookup_events (e : EventOutput) : eventNames.lookup (nameIn eventNames e) = some e := by
  cases e <;> decide

/-! ## Entries as fields -/

theorem fields_field (name : String) (value : Atom) (es : List (Atom × Outline)) :
    Outline.fields (field name value :: es) = (name, (Outline.leaf value).value) :: Outline.fields es := rfl

/-- A reader that knows the names of the entries keeps all of them. -/
theorem known?_fields (names : List String) (es : List (Atom × Outline)) (h : es.map (fun e => e.1.text) = names)
    (hn : names.Nodup) : Fields.known? names (Outline.fields es) = some (Outline.fields es) :=
  Fields.known?_self ((List.map_map).trans h) hn

/-! ## Kinds of sections -/

theorem read_timeSpan (t : TimeSpan) : TimeSpan.read (Outline.fields (Section.simulation t).entries) = some t := by
  have hknown := known?_fields ["start_time", "end_time"] (Section.simulation t).entries rfl (by decide)
  rw [TimeSpan.read, hknown]
  simp only [Section.entries, fields_field, Option.bind_eq_bind, Option.bind_some, Fields.need_cons, String.reduceEq,
    if_true, if_false, Value.float?_ofFloat]
  rfl

theorem read_consumption (c : Consumption) :
    Consumption.read (Outline.fields (Section.consumption c).entries) = some c := by
  have hknown := known?_fields ["vehicle_attributes", "update_interval", "recuperation", "baseline"]
     (Section.consumption c).entries rfl (by decide)
  rw [Consumption.read, hknown]
  simp only [Section.entries, fields_field, Option.bind_eq_bind, Option.bind_some, Fields.need_cons, Fields.given_cons,
    String.reduceEq, if_true, if_false, Value.text?_ofText, Value.float?_ofFloat, Value.name?_ofText,
    lookup_recuperation, Value.flag?_ofFlag]
  rfl

theorem readTrace_outline (file : String) :
    readTrace (Outline.branch none [field "trace_file" (.ofText file)]).value = some (.trace file) := by
  have hknown := known?_fields ["trace_file"] [field "trace_file" (.ofText file)] rfl (by decide)
  rw [readTrace, Value.fields?_branch, hknown]
  simp only [fields_field, Option.bind_eq_bind, Option.bind_some, Fields.need_cons, if_true, Value.text?_ofText]
  rfl

theorem readRandom_outline (r : RandomMovement) :
    readRandom (Outline.branch none
      [field "num_vehicles" (.ofNat r.vehicles.toNat), field "width" (.ofFloat r.width),
       field "height" (.ofFloat r.height), field "min_speed" (.ofFloat r.minSpeed),
       field "max_speed" (.ofFloat r.maxSpeed), field "pause_time" (.ofFloat r.pauseTime),
       field "seed" (.ofNat r.seed.toNat)]).value = some (.random r) := by
  have hvehicles : Value.whole? (Nat.pow 2 32) (Outline.leaf (.ofNat r.vehicles.toNat)).value =
      some r.vehicles.toNat := Value.whole?_ofNat r.vehicles.toNat_lt
  have hseed : Value.whole? (Nat.pow 2 64) (Outline.leaf (.ofNat r.seed.toNat)).value = some r.seed.toNat :=
    Value.whole?_ofNat r.seed.toNat_lt
  rw [readRandom, Value.fields?_branch, known?_fields]
  · simp only [fields_field, Option.bind_eq_bind, Option.bind_some, Fields.need_cons, Fields.given_cons,
      String.reduceEq, if_true, if_false, Value.float?_ofFloat, hvehicles, hseed, UInt32.ofNat_toNat, UInt64.ofNat_toNat,
      Nat.toUInt32_eq, Nat.toUInt64_eq]
    rfl
  · rfl
  · decide

theorem read_source (s : Source) : Source.read s.outline.value = some s := by
  cases s with
  | trace file =>
    rw [Source.outline, Source.read, Value.alternative?_branch]
    exact readTrace_outline file
  | random r =>
    rw [Source.outline, Source.read, Value.alternative?_branch]
    exact readRandom_outline r

theorem read_mobility (s : Source) : readMobility (Outline.fields (Section.mobility s).entries) = some s := by
  have hknown := known?_fields ["source"] (Section.mobility s).entries rfl (by decide)
  rw [readMobility, hknown]
  change Fields.need (("source", s.outline.value) :: []) "source" Source.read = some s
  rw [Fields.need_cons, if_pos rfl, read_source]

theorem read_output (o : Output) : Output.read (Outline.fields (Section.output o).entries) = some o := by
  have hknown := known?_fields ["output_dir", "logging", "write_events"] (Section.output o).entries rfl (by decide)
  rw [Output.read, hknown]
  simp only [Section.entries, fields_field, Option.bind_eq_bind, Option.bind_some, Fields.need_cons, Fields.given_cons,
    String.reduceEq, if_true, if_false, Value.text?_ofText, Value.name?_ofText, lookup_logging, lookup_events]
  rfl

/-! ## Sections -/

/-- Every section is read back from its outline. -/
theorem Section.ofDocument_outline (s : Section) : Section.ofDocument s.outline.document = some s := by
  have hkind : Value.kind? "type" layerLimit ⟨.asWanted, s.outline.document⟩ =
      some (s.kind, Outline.fields s.entries) :=
    Value.kind?_branch (.ofText "type") (.ofText s.kind) layerLimit s.entries
  rw [ofDocument, hkind, Option.bind_eq_bind, Option.bind_some]
  cases s with
  | simulation t =>
    change (TimeSpan.read (Outline.fields (Section.simulation t).entries)).bind _ = _
    rw [read_timeSpan]
    rfl
  | consumption c =>
    change (Consumption.read (Outline.fields (Section.consumption c).entries)).bind _ = _
    rw [read_consumption]
    rfl
  | mobility m =>
    change (readMobility (Outline.fields (Section.mobility m).entries)).bind _ = _
    rw [read_mobility]
    rfl
  | output o =>
    change (Output.read (Outline.fields (Section.output o).entries)).bind _ = _
    rw [read_output]
    rfl

end FleetEnergy.Config

import FleetEnergy.Proofs.Host
import FleetEnergy.Proofs.Records
import FleetEnergy.Proofs.Scenario.Participation

/-! Runs of scenarios on a host that is a value. A run first reads movement and records; whatever it does afterwards
depends on these and on the shape of the tree. -/
namespace FleetEnergy
open File (Tree)
set_option autoImplicit false

namespace Scenario
open HostState

/-! ## The parts of a run -/

/-- The directory that a run writes into. -/
def directory (c : Config) : String := outputDirectory c.output.2

def span (c : Config) : Config.TimeSpan := c.output.2.simulation.1

/-- The configuration with the usual values put in. -/
def completed (c : Config) : Config := c.output.2.simulation.2

/-- What a run takes from its files. -/
structure Readings where
  settings : Settings
  mobility : Mobility
  records : Records.Vehicles

def movementIn (c : Config) (source : Config.Source) (endTime : Float) (t : Tree) : Except Mobility.Fault Mobility :=
  match source with
  | .random r => (Mobility.ofRandom r endTime).1
  | .trace file => (Mobility.ofTrace (c.resolve file) (t.read (c.resolve file))).1

def recordsIn (c : Config) (file : String) (t : Tree) : Except Records.DocumentFault Records.Vehicles :=
  (Records.ofFile (c.resolve file) (t.read (c.resolve file))).1

def gathered (c : Config) (t : Tree) : Except Fault Readings := do
  let consumption ← (completed c).consumption.mapError .config
  let source ← (completed c).mobility.mapError .config
  let mobility ← (movementIn (completed c) source (span c).endTime t).mapError .mobility
  let records ← (recordsIn (completed c) consumption.vehicleAttributes t).mapError .attributes
  return ⟨consumption.settings, mobility, records⟩

/-- What a run takes from a tree, after it has made the output directory. -/
def readings (c : Config) (t : Tree) : Except Fault Readings := do
  gathered c (← (t.makeDirectories (directory c)).mapError unwritable)

section Parts

variable {m : Type → Type} [Monad m] [Host m]

def gather (c : Config) : ExceptT Fault m Readings := do
  let consumption ← orFail .config (pure (completed c).consumption)
  let source ← orFail .config (pure (completed c).mobility)
  let mobility ← movement (completed c) source (span c).endTime
  let records ← vehicles (completed c) consumption.vehicleAttributes
  return ⟨consumption.settings, mobility, records⟩

/-- Writes out what a simulation that has ended has come to. -/
def publish (c : Config) : Option (Simulation × List Happening) → ExceptT Fault m Simulation.Summary
  | none => throw .endless
  | some (s, hs) => do
    let (listeners, notices) := (audience c.output.1.events).hearAll hs
    for text in listeners.tables do write .table (tablePath (directory c)) text
    ExceptT.lift (Host.noteAll notices)
    report (completed c) (directory c) s.summary
    return s.summary

def conclude (c : Config) (outcome : Option (Simulation × List Happening)) : ExceptT Fault m Simulation.Summary := do
  if c.output.1.events = .table then startTable (directory c)
  publish c outcome

theorem gather_bind {α : Type} [LawfulMonad m] (c : Config) (k : Readings → ExceptT Fault m α) :
    gather c >>= k = (do
      let consumption ← orFail .config (pure (completed c).consumption)
      let source ← orFail .config (pure (completed c).mobility)
      let mobility ← movement (completed c) source (span c).endTime
      let records ← vehicles (completed c) consumption.vehicleAttributes
      k ⟨consumption.settings, mobility, records⟩) := by
  simp only [gather, bind_assoc, pure_bind]

theorem execute_eq [LawfulMonad m] (c : Config) : execute (m := m) c = (do
    makeDirectories unwritable (directory c)
    let r ← gather c
    conclude c (simulate (span c) r.mobility r.settings r.records)) := by
  rcases ho : c.output with ⟨output, filled⟩
  rcases hs : filled.simulation with ⟨timeSpan, whole⟩
  have hdirectory : directory c = outputDirectory filled := by rw [directory, ho]
  have hspan : span c = timeSpan := by rw [span, ho, hs]
  have hcompleted : completed c = whole := by rw [completed, ho, hs]
  simp only [gather_bind]
  rw [hdirectory, hspan, hcompleted]
  unfold execute
  rw [ho]
  refine bind_congr fun _ => ?_
  rw [hs]
  refine bind_congr fun consumption => bind_congr fun source => bind_congr fun mobility => bind_congr fun records => ?_
  -- The outcome is a variable from here on, so that nothing runs the simulation.
  unfold conclude
  generalize simulate timeSpan mobility consumption.settings records = outcome
  cases outcome with
  | none =>
    rw [ho, hdirectory]
    rfl
  | some o =>
    unfold publish
    rw [ho, hdirectory, hcompleted]

/-- Makes the directory of a table. -/
def makeParent (path : String) : ExceptT Fault m Unit :=
  match File.Path.parent? path with
  | some above => makeDirectories .table above
  | none => pure ()

theorem startTable_eq [LawfulMonad m] (directory : String) : startTable (m := m) directory = (do
    makeParent (tablePath directory)
    say (.info ("Writing energy trace to " ++ Text.quotedPath (tablePath directory)))
    write .table (tablePath directory) "") := by
  unfold startTable makeParent
  dsimp only
  cases File.Path.parent? (tablePath directory) with
  | none =>
    dsimp only
    rw [pure_bind]
  | some above => rfl

end Parts

/-- A run on a host that is a value: its result, and the host as it leaves it. -/
def runOn (c : Config) (w : HostState) : Except Fault Simulation.Summary × HostState := run (m := StateM HostState) c w

/-- A part of such a run. -/
abbrev Part (α : Type) : Type := ExceptT Fault (StateM HostState) α

/-! ## What is read -/

variable {ε α : Type}

theorem reads_orFail {x : StateM HostState (Except ε α)} {g : Tree → Except ε α} (h : Reads x g) (fault : ε → Fault) :
    Reads (orFail fault x).run fun t => (g t).mapError fault := h.bind fun r => reads_pure (r.mapError fault)

theorem reads_told (fault : ε → Fault) (x : Except ε α × List Notice) :
    Reads (told fault x : Part α).run fun _ => x.1.mapError fault :=
  reads_orFail ((reads_noteAll x.2).bind fun _ => reads_pure x.1) fault

theorem reads_movement (c : Config) (source : Config.Source) (endTime : Float) :
    Reads (movement c source endTime).run fun t => (movementIn c source endTime t).mapError .mobility := by
  cases source with
  | random r => exact reads_told .mobility (Mobility.ofRandom r endTime)
  | trace file => exact (reads_lift (reads_readFile _)).andThen fun content => reads_told .mobility _

theorem reads_vehicles (c : Config) (file : String) :
    Reads (vehicles c file).run fun t => (recordsIn c file t).mapError .attributes := by
  have hread : Reads (vehicles c file).run fun t =>
      (recordsIn c file t).mapError .attributes >>= fun vs => .ok () >>= fun _ => .ok vs :=
    (reads_lift (reads_readFile (c.resolve file))).andThen fun content =>
      (reads_told .attributes (Records.ofFile (c.resolve file) content)).andThen fun vs =>
        (reads_lift (reads_noteAll (skipped vs))).andThen fun _ => reads_pure (Except.ok vs)
  exact hread.congr fun t => bind_pure ((recordsIn c file t).mapError Fault.attributes)

theorem reads_gather (c : Config) : Reads (gather c).run (gathered c) :=
  (reads_orFail (reads_pure _) .config).andThen fun consumption =>
    (reads_orFail (reads_pure _) .config).andThen fun source =>
      (reads_movement _ source _).andThen fun mobility =>
        (reads_vehicles _ consumption.vehicleAttributes).andThen fun records =>
          reads_pure (Except.ok (Readings.mk consumption.settings mobility records))

theorem andThen_eq_ok {β : Type} {x : Except ε α} {fault : ε → Fault} {k : α → Except Fault β} {b : β} :
    (x.mapError fault >>= k) = .ok b ↔ ∃ a, x = .ok a ∧ k a = .ok b := by
  constructor
  · intro h
    cases x with
    | error e => cases h
    | ok a => exact ⟨a, rfl, h⟩
  · rintro ⟨a, rfl, h⟩
    exact h

theorem gathered_cases {c : Config} {t : Tree} {r : Readings} (h : gathered c t = .ok r) :
    ∃ consumption source, (completed c).consumption = .ok consumption ∧ (completed c).mobility = .ok source ∧
      movementIn (completed c) source (span c).endTime t = .ok r.mobility ∧
      recordsIn (completed c) consumption.vehicleAttributes t = .ok r.records ∧ r.settings = consumption.settings := by
  obtain ⟨consumption, hconsumption, h⟩ := andThen_eq_ok.1 h
  obtain ⟨source, hsource, h⟩ := andThen_eq_ok.1 h
  obtain ⟨mobility, hmobility, h⟩ := andThen_eq_ok.1 h
  obtain ⟨records, hrecords, h⟩ := andThen_eq_ok.1 h
  cases h
  exact ⟨consumption, source, hconsumption, hsource, hmobility, hrecords, rfl⟩

theorem readings_cases {c : Config} {t : Tree} {r : Readings} (h : readings c t = .ok r) :
    ∃ t', t.makeDirectories (directory c) = .ok t' ∧ gathered c t' = .ok r := andThen_eq_ok.1 h

theorem readings_of_parts {c : Config} {t t' : Tree} {consumption : Config.Consumption} {source : Config.Source}
    {mobility : Mobility} {records : Records.Vehicles} (ht : t.makeDirectories (directory c) = .ok t')
    (hconsumption : (completed c).consumption = .ok consumption) (hsource : (completed c).mobility = .ok source)
    (hmobility : movementIn (completed c) source (span c).endTime t' = .ok mobility)
    (hrecords : recordsIn (completed c) consumption.vehicleAttributes t' = .ok records) :
    readings c t = .ok ⟨consumption.settings, mobility, records⟩ := by
  refine andThen_eq_ok.2 ⟨t', ht, ?_⟩
  refine andThen_eq_ok.2 ⟨consumption, hconsumption, ?_⟩
  refine andThen_eq_ok.2 ⟨source, hsource, ?_⟩
  refine andThen_eq_ok.2 ⟨mobility, hmobility, ?_⟩
  exact andThen_eq_ok.2 ⟨records, hrecords, rfl⟩

/-- The settings are those of the configuration. -/
theorem readings_settings {c : Config} {t t' : Tree} {r r' : Readings} (h : readings c t = .ok r)
    (h' : readings c t' = .ok r') : r'.settings = r.settings := by
  obtain ⟨_, -, h⟩ := readings_cases h
  obtain ⟨_, -, h'⟩ := readings_cases h'
  obtain ⟨_, _, hc, -, -, -, hs⟩ := gathered_cases h
  obtain ⟨_, _, hc', -, -, -, hs'⟩ := gathered_cases h'
  rw [hc] at hc'
  cases hc'
  rw [hs, hs']

/-! ## What is written -/

theorem blind_orFail {x : StateM HostState (Except ε α)} (h : Blind x) (fault : ε → Fault) :
    Blind (orFail fault x).run := h.bind fun _ => (reads_pure _).blind

theorem blind_say (n : Notice) : Blind (say n : Part Unit).run :=
  (reads_lift (reads_note n)).blind

theorem blind_write (fault : File.Fault → Fault) (path text : String) :
    Blind (write fault path text : Part Unit).run :=
  blind_orFail (blind_writeText path text) fault

theorem blind_makeDirectories (fault : File.Fault → Fault) (path : String) :
    Blind (makeDirectories fault path : Part Unit).run :=
  blind_orFail (HostState.blind_makeDirectories path) fault

theorem blind_report (c : Config) (directory : String) (s : Simulation.Summary) :
    Blind (report c directory s : Part Unit).run := by
  have hconfig : Blind (c.write directory : StateM HostState (Except Config.Fault Unit)) :=
    (reads_note _).blind.bind fun _ => (blind_writeText _ c.text).bind fun _ => (reads_pure _).blind
  exact (reads_lift (reads_noteAll _)).blind.andThen fun _ => (blind_say _).andThen fun _ =>
    (blind_say _).andThen fun _ => (blind_write _ _ _).andThen fun _ => (blind_say _).andThen fun _ =>
      blind_orFail hconfig .config

theorem blind_publish (c : Config) (outcome : Option (Simulation × List Happening)) :
    Blind (publish c outcome : Part Simulation.Summary).run := by
  cases outcome with
  | none => exact blind_throw _
  | some o =>
    exact (blind_forIn _ fun text => blind_write _ _ text).andThen fun _ =>
      (reads_lift (reads_noteAll _)).blind.andThen fun _ => (blind_report _ _ _).andThen fun _ => (reads_pure _).blind

theorem change_of_orFail {f : Tree → Except File.Fault Tree} {fault : File.Fault → Fault} {w v : HostState}
    (h : (orFail fault (HostState.change f) : Part Unit).run w = (.ok (), v)) : f w.tree = .ok v.tree := by
  change ((HostState.change f w).1.mapError fault, (HostState.change f w).2) = _ at h
  unfold HostState.change at h
  cases hf : f w.tree with
  | error e =>
    rw [hf] at h
    cases h
  | ok t =>
    rw [hf] at h
    cases h
    rfl

theorem tree_of_write {fault : File.Fault → Fault} {path text : String} {w v : HostState}
    (h : (write fault path text : Part Unit).run w = (.ok (), v)) : w.tree.write path text.toUTF8 = .ok v.tree :=
  change_of_orFail (f := (·.write path text.toUTF8)) h

theorem tree_of_makeDirectories {fault : File.Fault → Fault} {path : String} {w v : HostState}
    (h : (makeDirectories fault path : Part Unit).run w = (.ok (), v)) : w.tree.makeDirectories path = .ok v.tree :=
  change_of_orFail (f := (·.makeDirectories path)) h

/-! ## Two runs -/

variable {c : Config} {known : List String} {w v w' : HostState}

theorem blind_makeParent (path : String) : Blind (makeParent path : Part Unit).run := by
  unfold makeParent
  split
  · exact blind_makeDirectories _ _
  · exact (reads_pure _).blind

theorem startTable_follow {directory : String} (halike : w.tree.Alike known w'.tree)
    (h : (startTable directory : Part Unit).run w = (.ok (), v)) :
    ∃ v', (startTable directory : Part Unit).run w' = (.ok (), v') ∧
      v.tree.Alike (tablePath directory :: known) v'.tree := by
  rw [startTable_eq] at h ⊢
  obtain ⟨_, u, hu, h⟩ := run_bind_cases h
  obtain ⟨u', hu', halike⟩ := (blind_makeParent _).follow halike hu
  obtain ⟨_, x, hx, h⟩ := run_bind_cases h
  obtain ⟨x', hx', halike⟩ := (blind_say _).follow halike hx
  obtain ⟨v', hv', -⟩ := (blind_write _ _ _).follow halike h
  refine ⟨v', ?_, halike.write_known (tree_of_write h) (tree_of_write hv')⟩
  rw [run_bind_of_ok hu', run_bind_of_ok hx', hv']

/-- What follows the reading goes the same way on hosts of the same shape, and leaves the same table. -/
theorem conclude_follow {outcome : Option (Simulation × List Happening)} {summary : Simulation.Summary}
    (halike : w.tree.Alike [] w'.tree) (h : (conclude c outcome : Part Simulation.Summary).run w = (.ok summary, v)) :
    ∃ v', (conclude c outcome : Part Simulation.Summary).run w' = (.ok summary, v') ∧
      (c.output.1.events = .table → v.tree.Alike [tablePath (directory c)] v'.tree) := by
  have hrest := blind_publish c outcome
  unfold conclude at h ⊢
  by_cases htable : c.output.1.events = .table
  · simp only [if_pos htable] at h ⊢
    obtain ⟨_, u, hu, h⟩ := run_bind_cases h
    obtain ⟨u', hu', halike⟩ := startTable_follow halike hu
    obtain ⟨v', hv', halike⟩ := hrest.follow halike h
    exact ⟨v', (run_bind_of_ok hu').trans hv', fun _ => halike⟩
  · simp only [if_neg htable] at h ⊢
    obtain ⟨v', hv', -⟩ := hrest.follow halike h
    exact ⟨v', hv', fun h => absurd h htable⟩

/-- A run makes its directory, reads, and then concludes. -/
theorem runOn_cases {summary : Simulation.Summary} (h : runOn c w = (.ok summary, v)) :
    ∃ r u x, readings c w.tree = .ok r ∧
      (makeDirectories unwritable (directory c) : Part Unit).run w = (.ok (), u) ∧ x.tree = u.tree ∧
      (conclude c (simulate (span c) r.mobility r.settings r.records) : Part Simulation.Summary).run x =
        (.ok summary, v) := by
  have hrun : (execute c : Part Simulation.Summary).run w = (.ok summary, v) := h
  rw [execute_eq] at hrun
  obtain ⟨_, u, hu, hrun⟩ := run_bind_cases hrun
  obtain ⟨r, x, hx, hrun⟩ := run_bind_cases hrun
  obtain ⟨hres, htree⟩ := reads_gather c u
  change ((gather c : Part Readings).run u).1 = _ at hres
  change ((gather c : Part Readings).run u).2.tree = _ at htree
  rw [hx] at hres htree
  refine ⟨r, u, x, ?_, hu, htree, hrun⟩
  rw [readings, tree_of_makeDirectories hu]
  exact hres.symm

theorem runOn_of_parts {u x : HostState} {r : Readings} {summary : Simulation.Summary}
    (hu : (makeDirectories unwritable (directory c) : Part Unit).run w = (.ok (), u))
    (hx : (gather c : Part Readings).run u = (.ok r, x))
    (hv : (conclude c (simulate (span c) r.mobility r.settings r.records) : Part Simulation.Summary).run x =
      (.ok summary, v)) : runOn c w = (.ok summary, v) := by
  change (execute c : Part Simulation.Summary).run w = _
  rw [execute_eq, run_bind_of_ok hu, run_bind_of_ok hx, hv]

/-- After its directory is made, a run goes on to read just what is to be read. -/
theorem gather_of_readings {u : HostState} {r : Readings}
    (hu : (makeDirectories unwritable (directory c) : Part Unit).run w = (.ok (), u)) (hr : readings c w.tree = .ok r) :
    ∃ x, (gather c : Part Readings).run u = (.ok r, x) ∧ x.tree = u.tree := by
  obtain ⟨hres, htree⟩ := reads_gather c u
  obtain ⟨t, ht, hgathered⟩ := readings_cases hr
  rw [tree_of_makeDirectories hu] at ht
  cases ht
  exact ⟨_, Prod.ext (hres.trans hgathered) rfl, htree⟩

/-- Where it is known what is to be read, the run comes to what is concluded from it. -/
theorem runOn_of_readings {u : HostState} {r : Readings} {summary : Simulation.Summary}
    (hu : (makeDirectories unwritable (directory c) : Part Unit).run w = (.ok (), u)) (hr : readings c w.tree = .ok r)
    (hv : (conclude c (simulate (span c) r.mobility r.settings r.records) : Part Simulation.Summary).run u =
      (.ok summary, v)) : ∃ v', runOn c w = (.ok summary, v') := by
  obtain ⟨x, hx, htree⟩ := gather_of_readings hu hr
  have hshape : u.tree.SameShape x.tree := by
    rw [htree]
    exact ⟨rfl, fun _ => rfl⟩
  obtain ⟨v', hv', -⟩ := conclude_follow (Tree.Alike.of_sameShape hshape) hv
  exact ⟨v', runOn_of_parts hu hx hv'⟩

theorem publish_cases {outcome : Option (Simulation × List Happening)} {summary : Simulation.Summary}
    (h : (publish c outcome : Part Simulation.Summary).run w = (.ok summary, v)) :
    ∃ s hs, outcome = some (s, hs) ∧ s.summary = summary := by
  cases outcome with
  | none => cases h
  | some o =>
    obtain ⟨s, hs⟩ := o
    unfold publish at h
    obtain ⟨_, _, -, h⟩ := run_bind_cases h
    obtain ⟨_, _, -, h⟩ := run_bind_cases h
    obtain ⟨_, _, -, h⟩ := run_bind_cases h
    cases h
    exact ⟨s, hs, rfl, rfl⟩

theorem conclude_cases {outcome : Option (Simulation × List Happening)} {summary : Simulation.Summary}
    (h : (conclude c outcome : Part Simulation.Summary).run w = (.ok summary, v)) :
    ∃ s hs, outcome = some (s, hs) ∧ s.summary = summary := by
  unfold conclude at h
  by_cases htable : c.output.1.events = .table
  · simp only [if_pos htable] at h
    obtain ⟨_, _, -, h⟩ := run_bind_cases h
    exact publish_cases h
  · simp only [if_neg htable] at h
    exact publish_cases h

theorem run_follows_first_valid_records (c : Config) (w w' : HostState) (summary : Simulation.Summary)
    (h : runOn c w = (.ok summary, w')) :
    ∃ r s hs, readings c w.tree = .ok r ∧ simulate (span c) r.mobility r.settings r.records = some (s, hs) ∧
      s.summary = summary ∧
      (∀ id, id ∈ summary.vehicles.map (·.vehicle) ↔
        (r.mobility.get? id).isSome = true ∧ ∃ p, .ok (id, p) ∈ r.records ∧ p.Valid) ∧
      (∀ id ∈ summary.vehicles.map (·.vehicle), ∃ v, s.garage.get? id = some v ∧
        Simulation.vehicleSummary v ∈ summary.vehicles ∧ Records.Decides r.records id v.profile) ∧
      ∀ (w₂ : HostState) (r₂ : Readings), w.tree.SameShape w₂.tree → readings c w₂.tree = .ok r₂ →
        r₂.mobility = r.mobility → (∀ id, Records.ofVehicle r₂.records id = Records.ofVehicle r.records id) →
        ∃ w₂', runOn c w₂ = (.ok summary, w₂') ∧
          simulate (span c) r₂.mobility r₂.settings r₂.records = some (s, hs) ∧
          (c.output.1.events = .table → ∃ rows, w'.tree.read (tablePath (directory c)) = .ok rows ∧
            w₂'.tree.read (tablePath (directory c)) = .ok rows) := by
  obtain ⟨r, u, x, hr, hu, htree, hconclude⟩ := runOn_cases h
  obtain ⟨s, hs, hsim, hsummary⟩ := conclude_cases hconclude
  subst hsummary
  refine ⟨r, s, hs, hr, hsim, rfl, mem_summary_iff hsim, fun id => profile_decides hsim, ?_⟩
  intro w₂ r₂ hshape hr₂ hmobility hrecords
  have hsame : simulate (span c) r₂.mobility r₂.settings r₂.records =
      simulate (span c) r.mobility r.settings r.records := by
    rw [hmobility, readings_settings hr hr₂, simulate_congr hrecords]
  obtain ⟨u₂, hu₂, halike⟩ := (blind_makeDirectories _ _).follow (Tree.Alike.of_sameShape hshape) hu
  obtain ⟨x₂, hx₂, htree₂⟩ := gather_of_readings hu₂ hr₂
  rw [← hsame] at hconclude
  rw [← htree, ← htree₂] at halike
  obtain ⟨w₂', hw₂', htable⟩ := conclude_follow halike hconclude
  refine ⟨w₂', runOn_of_parts hu₂ hx₂ hw₂', hsame.trans hsim, fun hevents => ?_⟩
  exact (htable hevents).known _ List.mem_cons_self

/-! ## Two vehicles, whose records stand in two orders -/

open Markup (Bytes ascii)

deriving instance DecidableEq for Profile
deriving instance DecidableEq for Records.Parameter
deriving instance DecidableEq for Records.Record

/-- A record of a node that gives its mass, or one without a node. -/
abbrev Entry : Type := Option (String × String)

namespace Entry

def parameters (mass : String) : List (String × String) :=
  [("vehicleMass", mass), ("maximumBatteryCapacity", "1"), ("propulsionEfficiency", "1"),
    ("recuperationEfficiency", "1")]

def parameterBytes (q : String × String) : Bytes :=
  ascii "<param key='" ++ ascii q.1 ++ ascii "' value='" ++ ascii q.2 ++ ascii "'/>"

def bytes : Entry → Bytes
  | none => ascii "<vehicle/>"
  | some (node, mass) => ascii "<vehicle node='" ++ ascii node ++ ascii "'>" ++
      (parameters mass).flatMap parameterBytes ++ ascii "</vehicle>"

def record : Entry → Records.Record
  | none => ⟨none, []⟩
  | some (node, mass) => ⟨some node, (parameters mass).map fun q => ⟨some q.1, some q.2⟩⟩

def document (l : List Entry) : Bytes := ascii "<f>" ++ l.flatMap bytes ++ ascii "</f>"

end Entry

def wandering : RandomMovement := ⟨2, 10.0, 10.0, 1.0, 2.0, 0.0, 1⟩

def depot : Config :=
  (((Config.empty.put "simulation" (.simulation ⟨0.0, 0.5⟩)).put "consumption" (.consumption ⟨"f.xml", .default⟩)).put
    "mobility" (.mobility (.random wandering))).put "output" (.output ⟨"out", .off, .table⟩)

/-- A host with nothing but a file of these records. -/
def depotHost (l : List Entry) : HostState := .ofTree ⟨[(["f.xml"], ⟨(Entry.document l).toArray⟩)], []⟩

/-- The depot when the directory of the run has been made. -/
def depotOpened (l : List Entry) : HostState := .ofTree ⟨[(["f.xml"], ⟨(Entry.document l).toArray⟩)], [["out"]]⟩

theorem depotHost_sameShape (l l' : List Entry) : (depotHost l).tree.SameShape (depotHost l').tree where
  directories := rfl
  present := fun p => by
    change ([(["f.xml"], _)].lookup p).isSome = ([(["f.xml"], _)].lookup p).isSome
    rw [Tree.lookup_cons_eq, Tree.lookup_cons_eq]
    split_ifs <;> rfl

theorem makeDirectories_depot (l : List Entry) :
    (makeDirectories unwritable (directory depot) : Part Unit).run (depotHost l) = (.ok (), depotOpened l) := rfl

/-- The vehicles that the records describe. -/
def described (l : List Entry) : Records.Vehicles := (Records.vehicles (l.map Entry.record)).1

theorem readings_depot {m : Mobility} {l : List Entry} (hm : (Mobility.ofRandom wandering (span depot).endTime).1 = .ok m)
    (hl : Records.ofDocument (Entry.document l) = .ok (l.map Entry.record)) :
    readings depot (depotHost l).tree = .ok ⟨.default, m, described l⟩ := by
  have hrecords : (Records.ofFile "f.xml" (.ok ⟨(Entry.document l).toArray⟩)).1 = .ok (described l) :=
    Records.ofFile_of_document (by decide +kernel) (by decide +kernel) hl
  exact readings_of_parts (tree_of_makeDirectories (makeDirectories_depot l)) rfl rfl hm hrecords

def ofMass (mass : Float) : Profile Float := ⟨mass, 0.0, 0.0, 0.0, 0.0, 0.0, 0.0, 1.0, 1.0, 1.0, 0.0⟩

/-- A vehicle without a mass, its first valid record, a broken record, the vehicle once more, and another one. -/
def firstOrder : List Entry := [some ("0", "0"), some ("0", "2"), none, some ("0", "4"), some ("1", "3")]

/-- The records of each vehicle as before, with the other vehicle and the broken record in other places. -/
def secondOrder : List Entry := [some ("0", "0"), some ("1", "3"), some ("0", "2"), some ("0", "4"), none]

def inFirstOrder : List (VehicleId × Profile Float) :=
  [(⟨0⟩, ofMass 0.0), (⟨0⟩, ofMass 2.0), (⟨0⟩, ofMass 4.0), (⟨1⟩, ofMass 3.0)]

def inSecondOrder : List (VehicleId × Profile Float) :=
  [(⟨0⟩, ofMass 0.0), (⟨1⟩, ofMass 3.0), (⟨0⟩, ofMass 2.0), (⟨0⟩, ofMass 4.0)]

theorem unbroken_firstOrder : (described firstOrder).filterMap Except.toOption = inFirstOrder := by decide +kernel

theorem unbroken_secondOrder : (described secondOrder).filterMap Except.toOption = inSecondOrder := by decide +kernel

theorem ofVehicle_secondOrder (id : VehicleId) :
    Records.ofVehicle (described secondOrder) id = Records.ofVehicle (described firstOrder) id := by
  rw [Records.ofVehicle, Records.ofVehicle, unbroken_firstOrder, unbroken_secondOrder]
  by_cases h0 : (⟨0⟩ : VehicleId) = id
  · subst h0
    rfl
  · by_cases h1 : (⟨1⟩ : VehicleId) = id
    · subst h1
      rfl
    · simp [inFirstOrder, inSecondOrder, h0, h1]

/-- The first order is that of the nodes already. -/
theorem usable_firstOrder : usable (described firstOrder) = inFirstOrder := by
  rw [usable, unbroken_firstOrder]
  exact List.mergeSort_of_pairwise (by decide)

/-- A simulation at the depot of vehicles that are asked for in this order. -/
def simulated (m : Mobility) (ps : List (VehicleId × Profile Float)) : Option (Simulation × List Happening) :=
  let (s, admissions) := enrolAll (.new (.ofFloat (span depot).startTime) (span depot).endTime m .default) ps
  s.run.map fun (s, hs) => (s, admissions ++ hs)

theorem simulate_firstOrder (m : Mobility) :
    simulate (span depot) m .default (described firstOrder) = simulated m inFirstOrder := by
  rw [simulate, usable_firstOrder]
  rfl

/-- The vehicles in the summary that a run has given. -/
def summarized : Except Fault Simulation.Summary × HostState → Option (List VehicleId)
  | (.ok summary, _) => some (summary.vehicles.map (·.vehicle))
  | (.error _, _) => none

theorem summarized_some {q : Except Fault Simulation.Summary × HostState} {ids : List VehicleId}
    (h : summarized q = some ids) : ∃ summary w, q = (.ok summary, w) ∧ summary.vehicles.map (·.vehicle) = ids := by
  obtain ⟨result, w⟩ := q
  cases result with
  | error e => cases h
  | ok summary => exact ⟨summary, w, rfl, Option.some.inj h⟩

theorem ok_of_toOption {x : Except ε α} {a : α} (h : x.toOption = some a) : x = .ok a := by
  cases x with
  | error e => cases h
  | ok b => exact congrArg Except.ok (Option.some.inj h)

theorem concluded_firstOrder : ∃ m summary w, (Mobility.ofRandom wandering (span depot).endTime).1 = .ok m ∧
    (conclude depot (simulated m inFirstOrder) : Part Simulation.Summary).run (depotOpened firstOrder) =
      (.ok summary, w) ∧ summary.vehicles.map (·.vehicle) = [⟨0⟩, ⟨1⟩] := by
  have h : ((Mobility.ofRandom wandering (span depot).endTime).1.toOption.bind fun m =>
      summarized ((conclude depot (simulated m inFirstOrder) : Part Simulation.Summary).run
        (depotOpened firstOrder))) = some [⟨0⟩, ⟨1⟩] := by decide +kernel
  obtain ⟨m, hm, hm'⟩ := Option.bind_eq_some_iff.1 h
  obtain ⟨summary, w, hw, hids⟩ := summarized_some hm'
  exact ⟨m, summary, w, ok_of_toOption hm, hw, hids⟩

theorem depot_follows_first_valid_record : ∃ summary w w₂ r s hs,
    runOn depot (depotHost firstOrder) = (.ok summary, w) ∧ runOn depot (depotHost secondOrder) = (.ok summary, w₂) ∧
      summary.vehicles.map (·.vehicle) = [⟨0⟩, ⟨1⟩] ∧ readings depot (depotHost firstOrder).tree = .ok r ∧
      simulate (span depot) r.mobility r.settings r.records = some (s, hs) ∧ s.summary = summary ∧
      (∃ v, s.garage.get? ⟨0⟩ = some v ∧ v.profile = ofMass 2.0) ∧
      (∃ v, s.garage.get? ⟨1⟩ = some v ∧ v.profile = ofMass 3.0) ∧
      ∃ rows, w.tree.read (tablePath (directory depot)) = .ok rows ∧
        w₂.tree.read (tablePath (directory depot)) = .ok rows := by
  obtain ⟨m, summary, v, hm, hv, hids⟩ := concluded_firstOrder
  have hr : readings depot (depotHost firstOrder).tree = .ok ⟨.default, m, described firstOrder⟩ :=
    readings_depot hm (by decide +kernel)
  have hr₂ : readings depot (depotHost secondOrder).tree = .ok ⟨.default, m, described secondOrder⟩ :=
    readings_depot hm (by decide +kernel)
  rw [← simulate_firstOrder] at hv
  obtain ⟨w, hrun⟩ := runOn_of_readings (makeDirectories_depot firstOrder) hr hv
  obtain ⟨r, s, hs, hr', hsim, hsummary, -, hprofile, hother⟩ :=
    run_follows_first_valid_records depot _ w summary hrun
  rw [hr] at hr'
  cases hr'
  obtain ⟨w₂, hrun₂, -, hrows⟩ := hother _ _ (depotHost_sameShape _ _) hr₂ rfl ofVehicle_secondOrder
  have hdecided {id : VehicleId} {p : Profile Float} (hid : id ∈ summary.vehicles.map (·.vehicle))
      (hp : inFirstOrder.find? (Records.serves id) = some (id, p)) : ∃ v, s.garage.get? id = some v ∧ v.profile = p := by
    obtain ⟨v, hv, -, hd⟩ := hprofile id hid
    rw [Records.decides_iff_find, unbroken_firstOrder, hp] at hd
    cases hd
    exact ⟨v, hv, rfl⟩
  rw [hids] at hdecided
  exact ⟨summary, w, w₂, _, s, hs, hrun, hrun₂, hids, hr, hsim, hsummary, hdecided (by decide) (by decide +kernel),
    hdecided (by decide) (by decide +kernel), hrows rfl⟩

end Scenario

end FleetEnergy

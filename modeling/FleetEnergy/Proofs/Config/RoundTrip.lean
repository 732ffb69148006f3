import FleetEnergy.Config
import FleetEnergy.Proofs.Config.Section
import FleetEnergy.Proofs.Host

/-! What a configuration answers. Asking may put usual values into it, but changes no answer, and a configuration that
has been written into a directory answers in the same way when it is read from there. -/
namespace FleetEnergy.Config
open Document (Atom Outline)
set_option autoImplicit false

/-! ## Answers -/

/-- What is asked of a configuration. -/
inductive Question
  | simulation
  | consumption
  | mobility
  | output

/-- The configuration after a question. -/
def ask (c : Config) : Question → Config
  | .simulation => c.simulation.2
  | .consumption => c
  | .mobility => c
  | .output => c.output.2

/-- The configuration after questions, the first of them asked first. -/
def askAll (c : Config) (qs : List Question) : Config := qs.foldl ask c

/-- The answers to all questions. -/
structure Answers where
  simulation : TimeSpan
  consumption : Except Fault Consumption
  mobility : Except Fault Source
  output : Output

def answers (c : Config) : Answers := ⟨c.simulation.1, c.consumption, c.mobility, c.output.1⟩

theorem answers_eq (c : Config) :
    c.answers = ⟨c.timeSpan?.getD .default, c.consumption, c.mobility, c.output?.getD .default⟩ := by
  have hsimulation : c.simulation.1 = c.timeSpan?.getD .default := by
    rw [simulation]
    cases c.timeSpan? <;> rfl
  have houtput : c.output.1 = c.output?.getD .default := by
    rw [output]
    cases c.output? <;> rfl
  rw [answers, hsimulation, houtput]

/-- Both configurations have the same sections. -/
def SameSections (c c' : Config) : Prop := ∀ name : String, c'.sections[name]? = c.sections[name]?

theorem SameSections.answers_eq {c c' : Config} (h : c.SameSections c') : c'.answers = c.answers := by
  simp only [Config.answers_eq, timeSpan?, consumption, mobility, output?, h "simulation", h "consumption",
    h "mobility", h "output"]

theorem section_put (c : Config) (name other : String) (s : Section) :
    (c.put name s).sections[other]? = if name = other then some s else c.sections[other]? := by
  rw [put, Std.TreeMap.getElem?_insert]
  simp only [Std.LawfulEqCmp.compare_eq_iff_eq]

/-! ## Asking -/

theorem answers_putTimeSpan {c : Config} (h : c.timeSpan? = none) :
    (c.put "simulation" (.simulation .default)).answers = c.answers := by
  have hput : (c.put "simulation" (.simulation .default)).timeSpan? = some .default := by
    rw [timeSpan?, section_put, if_pos rfl]
  rw [answers_eq, answers_eq, hput, h]
  simp only [consumption, mobility, output?, section_put, String.reduceEq, if_false, Option.getD]

theorem answers_putOutput {c : Config} (h : c.output? = none) :
    (c.put "output" (.output .default)).answers = c.answers := by
  have hput : (c.put "output" (.output .default)).output? = some .default := by
    rw [output?, section_put, if_pos rfl]
  rw [answers_eq, answers_eq, hput, h]
  simp only [timeSpan?, consumption, mobility, section_put, String.reduceEq, if_false, Option.getD]

theorem answers_ask (c : Config) (q : Question) : (c.ask q).answers = c.answers := by
  cases q with
  | consumption => rfl
  | mobility => rfl
  | simulation =>
    cases h : c.timeSpan? with
    | some t => rw [ask, simulation, h]
    | none =>
      rw [ask, simulation, h]
      exact answers_putTimeSpan h
  | output =>
    cases h : c.output? with
    | some o => rw [ask, output, h]
    | none =>
      rw [ask, output, h]
      exact answers_putOutput h

theorem answers_askAll (c : Config) (qs : List Question) : (c.askAll qs).answers = c.answers := by
  induction qs generalizing c with
  | nil => rfl
  | cons q qs ih =>
    change ((c.ask q).askAll qs).answers = c.answers
    rw [ih, answers_ask]

/-! ## Reading back -/

theorem ofEntries_outlines (es : List (String × Section)) (c : Config) :
    (es.map fun e => (e.1, e.2.outline.document)).foldlM
      (fun c (e : String × Document) => (Section.ofDocument e.2).map (c.put e.1)) c =
        some { c with sections := c.sections.insertMany es } := by
  induction es generalizing c with
  | nil => rfl
  | cons e es ih =>
    rw [List.map_cons, List.foldlM_cons, Section.ofDocument_outline, Option.map_some, Option.bind_eq_bind,
      Option.bind_some, ih, Std.TreeMap.insertMany_cons]
    rfl

theorem sections_insertMany (c : Config) (name : String) :
    ((∅ : Std.TreeMap String Section).insertMany c.sections.toList)[name]? = c.sections[name]? := by
  cases h : c.sections[name]? with
  | some s =>
    -- No two sections have one name, so that none is put over another.
    exact Std.TreeMap.getElem?_insertMany_list_of_mem Std.ReflCmp.compare_self Std.TreeMap.distinct_keys_toList
      (Std.TreeMap.mem_toList_iff_getElem?_eq_some.2 h)
  | none =>
    rw [Std.TreeMap.getElem?_insertMany_list_of_contains_eq_false, Std.TreeMap.getElem?_emptyc]
    rw [Std.TreeMap.map_fst_toList_eq_keys, Std.TreeMap.contains_keys, Std.TreeMap.contains_eq_isSome_getElem?, h]
    rfl

theorem ofDocument_outline (c : Config) :
    ∃ c', ofDocument (.mapping (Outline.documents c.outline)) = some c' ∧ c.SameSections c' := by
  have hvalue : (Outline.branch none c.outline).value = ⟨.asWanted, .mapping (Outline.documents c.outline)⟩ :=
    congrArg (Document.Value.mk .asWanted) (Outline.document_branch none c.outline)
  have hfields := Document.Value.fields?_branch ["modules"] c.outline
  rw [hvalue, known?_fields ["modules"] c.outline rfl (by decide)] at hfields
  have hsections := Document.Value.textEntries?_branch c.sectionEntries
  refine ⟨{ empty with sections := empty.sections.insertMany c.sections.toList }, ?_, sections_insertMany c⟩
  rw [ofDocument, hfields, Option.bind_eq_bind, Option.bind_some]
  change (Document.Fields.need (("modules", (Outline.branch none c.sectionEntries).value) :: [])
    "modules" Document.Value.textEntries?).bind ofEntries = _
  rw [Document.Fields.need_cons, if_pos rfl, hsections, Option.bind_some, sectionEntries, List.map_map]
  exact ofEntries_outlines c.sections.toList empty

/-- What has been written is found at its path. -/
theorem read_of_write {c : Config} {directory : String} {w w' : HostState}
    (h : (c.write directory : StateM HostState (Except Fault Unit)) w = (.ok (), w')) :
    w'.tree.read (File.Path.join directory "output_config.yml") = .ok c.text.toUTF8 := by
  obtain ⟨n, hrun⟩ : ∃ n, (c.write directory : StateM HostState (Except Fault Unit)) w =
      Prod.map (Except.mapError .unwritable) id
        (HostState.change (·.write (File.Path.join directory "output_config.yml") c.text.toUTF8) (w.note n)) := ⟨_, rfl⟩
  rw [hrun, HostState.change] at h
  split at h
  · rename_i t ht
    cases h
    exact File.Tree.read_write ht
  · cases h

theorem fromUTF8?_toUTF8 (s : String) : String.fromUTF8? s.toUTF8 = some s := by
  have hvalid : s.toUTF8.IsValidUTF8 := s.isValidUTF8
  rw [String.fromUTF8?, dif_pos hvalid]
  rfl

/-- No answer of a configuration changes, whatever has been asked before. Once it has been written into a directory, the
configuration that is read from there gives the same answers, if the text is read as the tree it was written for. -/
theorem read_back_answers_the_same (c : Config) :
    (∀ qs, (c.askAll qs).answers = c.answers) ∧
    ∀ (before : List Question) (directory : String) (w w' : HostState),
      ((c.askAll before).write directory : StateM HostState (Except Fault Unit)) w = (.ok (), w') →
      Document.read (c.askAll before).text = some (.mapping (Outline.documents (c.askAll before).outline)) →
      ∃ c', ((read (File.Path.join directory "output_config.yml") : StateM HostState (Except Fault Config)) w').1 =
          .ok c' ∧ ∀ qs, (c'.askAll qs).answers = c.answers := by
  refine ⟨answers_askAll c, fun before directory w w' hwrite htree => ?_⟩
  obtain ⟨c', hread, hsame⟩ := ofDocument_outline (c.askAll before)
  have hfile := read_of_write hwrite
  have hbytes : (Document.ofBytes (c.askAll before).text.toUTF8).bind ofDocument = some c' := by
    rw [Document.ofBytes, fromUTF8?_toUTF8, Option.bind_some, htree, Option.bind_some, hread]
  refine ⟨{ c' with context := some (File.Path.join directory "output_config.yml") }, ?_, fun qs => ?_⟩
  · change ofFile _ (w'.tree.read _) = _
    rw [hfile, ofFile, hbytes]
  · -- From which file it was read is no part of an answer.
    have hsame' : (c.askAll before).SameSections
        { c' with context := some (File.Path.join directory "output_config.yml") } := hsame
    rw [answers_askAll, hsame'.answers_eq, answers_askAll]

/-- An output where movement is looked for. -/
def misplacedOutput : Config := empty.put "mobility" (.output .default)

/-- It is written after the usual time span has been put into it. -/
theorem misplacedOutput_read_back : ∃ w' c',
    ((misplacedOutput.askAll [.mobility, .simulation]).write "." : StateM HostState (Except Fault Unit))
      (HostState.ofTree .empty) = (.ok (), w') ∧
    ((read "./output_config.yml" : StateM HostState (Except Fault Config)) w').1 = .ok c' ∧
    c'.answers = misplacedOutput.answers ∧ c'.mobility = .error (.missing "mobility") := by
  have htree : Document.read (misplacedOutput.askAll [.mobility, .simulation]).text =
      some (.mapping (Outline.documents (misplacedOutput.askAll [.mobility, .simulation]).outline)) :=
    Outline.read_of_isTree (by decide +kernel)
  obtain ⟨c', hread, hanswers⟩ := (read_back_answers_the_same misplacedOutput).2 [.mobility, .simulation] "."
    (HostState.ofTree .empty) _ rfl htree
  have hmobility : c'.mobility = misplacedOutput.mobility := congrArg Answers.mobility (hanswers [])
  exact ⟨_, c', rfl, hread, hanswers [], hmobility.trans rfl⟩

end FleetEnergy.Config

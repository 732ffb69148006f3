import FleetEnergy.Config.Section
import FleetEnergy.Document.Reader
import FleetEnergy.Host
import FleetEnergy.Text.Quoted

/-! Configurations: sections by name. Each section that a scenario asks for has a name of its own; what
stands there counts only if it is of the right kind. Time span and output have usual values, which are
put into the configuration when they are asked for in vain. -/
namespace FleetEnergy
set_option autoImplicit false

structure Config where
  sections : Std.TreeMap String Config.Section
  /-- The file that it was read from. Relative paths start from the directory of this file. -/
  context : Option String

namespace Config

def empty : Config := ⟨∅, none⟩

/-! ## Faults -/

inductive Fault
  | unreadable (path : String) (cause : File.Fault)
  | malformed (path : String)
  | missing (name : String)
  | unwritable (cause : File.Fault)

/-- The message; of a malformed file it ends before the cause. -/
def Fault.message : Fault → String
  | .unreadable path cause =>
    "Failed to open config file at " ++ Text.quotedPath path ++ ". Original error was " ++ cause.message
  | .malformed path => "Failed to parse config at " ++ Text.quotedPath path ++ ". Original error was:"
  | .missing name => "Config module '" ++ name ++ "' was not set."
  | .unwritable cause => "Failed to write output: " ++ cause.message

/-! ## Sections -/

def put (c : Config) (name : String) (s : Section) : Config :=
  { c with sections := c.sections.insert name s }

def timeSpan? (c : Config) : Option TimeSpan :=
  match c.sections["simulation"]? with
  | some (.simulation t) => some t
  | _ => none

def output? (c : Config) : Option Output :=
  match c.sections["output"]? with
  | some (.output o) => some o
  | _ => none

/-- The time span, and the configuration that holds it. -/
def simulation (c : Config) : TimeSpan × Config :=
  match c.timeSpan? with
  | some t => (t, c)
  | none => (.default, c.put "simulation" (.simulation .default))

/-- What is put out, and the configuration that holds it. -/
def output (c : Config) : Output × Config :=
  match c.output? with
  | some o => (o, c)
  | none => (.default, c.put "output" (.output .default))

def consumption (c : Config) : Except Fault Consumption :=
  match c.sections["consumption"]? with
  | some (.consumption s) => .ok s
  | _ => .error (.missing "consumption")

def mobility (c : Config) : Except Fault Source :=
  match c.sections["mobility"]? with
  | some (.mobility s) => .ok s
  | _ => .error (.missing "mobility")

/-- The path that the configuration means by a file name. -/
def resolve (c : Config) (file : String) : String :=
  match c.context with
  | some document => File.Path.resolve document file
  | none => file

/-! ## Documents -/

open Document (Atom Outline Value)

def sectionEntries (c : Config) : List (Atom × Outline) :=
  c.sections.toList.map fun (name, s) => (.ofText name, s.outline)

def outline (c : Config) : List (Atom × Outline) := [(.ofText "modules", .branch none c.sectionEntries)]

/-- The configuration as a document. -/
def text (c : Config) : String := Outline.text c.outline

/-- Puts in sections one after the other; of several with one name the last one stays. -/
def ofEntries (es : List (String × Document)) : Option Config :=
  es.foldlM (fun c (name, d) => (Section.ofDocument d).map (c.put name)) empty

/-- Reads a document. Beside the sections it may hold other entries. -/
def ofDocument (d : Document) : Option Config := do
  let fs ← Value.fields? ["modules"] ⟨.asWanted, d⟩
  ofEntries (← fs.need "modules" Value.textEntries?)

/-! ## Files -/

/-- Reads a configuration from what was found at a path. -/
def ofFile (path : String) (content : Except File.Fault ByteArray) : Except Fault Config :=
  match content with
  | .error .isDirectory => .error (.malformed path)
  | .error e => .error (.unreadable path e)
  | .ok bytes =>
    match (Document.ofBytes bytes).bind ofDocument with
    | none => .error (.malformed path)
    | some c => .ok { c with context := some path }

variable {m : Type → Type} [Monad m] [Host m]

def read (path : String) : m (Except Fault Config) := do return ofFile path (← Host.readFile path)

/-- Writes the configuration into a directory. -/
def write (c : Config) (directory : String) : m (Except Fault Unit) := do
  let path := File.Path.join directory "output_config.yml"
  Host.note (.info ("Writing config to " ++ Text.quotedPath path))
  return (← Host.writeText path c.text).mapError .unwritable

end Config

end FleetEnergy

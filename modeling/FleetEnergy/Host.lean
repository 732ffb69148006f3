import FleetEnergy.File.Tree
import FleetEnergy.Notice
import FleetEnergy.Text.Json

/-! Where programs run: files by path, and a log of notices. A log file can be opened; from then on, until
it is closed, notices go there too. -/
namespace FleetEnergy
set_option autoImplicit false

class Host (m : Type → Type) where
  readFile : String → m (Except File.Fault ByteArray)
  /-- Writes a file, new or in place of the one that was there. -/
  writeFile : String → ByteArray → m (Except File.Fault Unit)
  /-- Makes a directory and all that are missing above it. -/
  makeDirectories : String → m (Except File.Fault Unit)
  note : Notice → m Unit
  openLog : String → m (Except File.Fault Unit)
  closeLog : m Unit

namespace Host

def noteAll {m : Type → Type} [Monad m] [Host m] (ns : List Notice) : m Unit := ns.forM Host.note

def writeText {m : Type → Type} [Host m] (path text : String) : m (Except File.Fault Unit) :=
  Host.writeFile path text.toUTF8

end Host

/-- A notice as a line of a log file. -/
def Notice.logLine (n : Notice) : String :=
  (Text.Json.object [("level", .text n.level.text),
    ("fields", .object [("message", .text n.text)])]).compact ++ "\n"

/-! ## A host that is a value -/

/-- A tree of files, what has been noted, and what waits to be written to a log file. -/
structure HostState where
  tree : File.Tree
  notices : Array Notice
  logFile : Option (String × Array Notice)

namespace HostState

def ofTree (t : File.Tree) : HostState := ⟨t, #[], none⟩

def note (s : HostState) (n : Notice) : HostState :=
  { s with notices := s.notices.push n, logFile := s.logFile.map fun (path, ns) => (path, ns.push n) }

/-- Carries out a change of the tree. -/
def change (f : File.Tree → Except File.Fault File.Tree) : StateM HostState (Except File.Fault Unit) :=
  fun s => match f s.tree with
    | .ok t => (.ok (), { s with tree := t })
    | .error e => (.error e, s)

/-- Writes at the end of a file, new or not. -/
def append (path : String) (content : ByteArray) (t : File.Tree) : Except File.Fault File.Tree :=
  match t.read path with
  | .ok before => t.write path (before ++ content)
  | .error .notFound => t.write path content
  | .error e => .error e

def logText (ns : Array Notice) : String := String.join (ns.toList.map Notice.logLine)

def closeLog (s : HostState) : HostState :=
  match s.logFile with
  | none => s
  | some (path, ns) =>
    let s := { s with logFile := none }
    match append path (logText ns).toUTF8 s.tree with
    | .ok t => { s with tree := t }
    | .error _ => s

instance : Host (StateM HostState) where
  readFile path := fun s => (s.tree.read path, s)
  writeFile path content := change (·.write path content)
  makeDirectories path := change (·.makeDirectories path)
  note n := modify (·.note n)
  openLog path := do
    match ← change (append path .empty) with
    | .ok () =>
      modify fun s => { s with logFile := some (path, #[]) }
      return .ok ()
    | .error e => return .error e
  closeLog := modify closeLog

end HostState

end FleetEnergy

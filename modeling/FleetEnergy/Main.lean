import FleetEnergy.CommandLine

/-! The program: the command line on the files of this machine. -/
namespace FleetEnergy
set_option autoImplicit false

/-- Actions on this machine, with the log file if one is open. -/
abbrev Machine : Type → Type := ReaderT (IO.Ref (Option IO.FS.Handle)) IO

namespace Machine

def faultOf (e : IO.Error) : File.Fault :=
  match e with
  | .noFileOrDirectory .. => .notFound
  | .alreadyExists .. => .alreadyExists
  | .inappropriateType _ code _ => if code = 20 then .notDirectory else .isDirectory
  | .invalidArgument (some _) 36 _ => .nameTooLong
  | e => .other (toString e)

/-- An action at a path, whose error is a result. -/
def attempt {α : Type} (path : String) (x : IO α) : Machine (Except File.Fault α) := fun _ => do
  if path.toList.contains '\x00' then return .error .zeroInName
  match ← x.toBaseIO with
  | .ok a => return .ok a
  | .error e => return .error (faultOf e)

/-- A directory that cannot be made is no fault if it is there. -/
def ensureDirectory (path : String) : Machine (Except File.Fault Unit) := do
  match ← attempt path (IO.FS.createDir path) with
  | .ok () => return .ok ()
  | .error e =>
    match ← attempt path (IO.FS.realPath path) with
    | .ok there => if ← there.isDir then return .ok () else return .error e
    | .error _ => return .error e

/-- Makes a directory after those above it, where they are missing; `fuel` bounds their number. -/
def makeAll (path : String) : Nat → Machine (Except File.Fault Unit)
  | 0 => ensureDirectory path
  | fuel + 1 => do
    if path.isEmpty then return .ok ()
    match ← ensureDirectory path, File.Path.parent? path with
    | .error .notFound, some above =>
      match ← makeAll above fuel with
      | .ok () => ensureDirectory path
      | .error e => return .error e
    | result, _ => return result

/-- Shows a notice, and writes it to the log file. -/
def note (n : Notice) : Machine Unit := fun log => do
  IO.println n.line
  match ← log.get with
  | some h => h.putStr n.logLine
  | none => return ()

instance : Host Machine where
  readFile path := attempt path (IO.FS.readBinFile path)
  writeFile path content := attempt path (IO.FS.writeBinFile path content)
  makeDirectories path := makeAll path (path.length + 1)
  note := note
  openLog path := fun log => do
    match ← attempt path (IO.FS.Handle.mk path .append) log with
    | .ok h =>
      log.set (some h)
      return .ok ()
    | .error e => return .error e
  closeLog := fun log => do
    match ← log.get with
    | some h => h.flush
    | none => return ()
    log.set none

end Machine

end FleetEnergy

def main (arguments : List String) : IO UInt32 := do
  let outcome ← (FleetEnergy.CommandLine.run arguments : FleetEnergy.Machine _).run (← IO.mkRef none)
  IO.print outcome.stdout
  IO.eprint outcome.stderr
  return outcome.exitCode.toUInt32

import FleetEnergy.File.Fault
import FleetEnergy.File.Path

/-! A tree of files and directories, and the operations on it by path. Every directory on the way has to
exist; names that are dots stay where they are or go up. What lies above the tree is empty at first. -/
namespace FleetEnergy.File
set_option autoImplicit false

/-- The place of a node: the names from the top of the tree. Above the tree it starts with steps up. -/
abbrev Place : Type := List String

/-- The place above a place. -/
def Place.up (p : Place) : Place := if p.all (· == "..") then p ++ [".."] else p.dropLast

/-- Above the tree, or somewhere on another way down from there. -/
def Place.isOutside (p : Place) : Bool := p.head? == some ".."

/-- Files with their contents, and directories, each by its place. The top of the tree is always
there. -/
structure Tree where
  files : List (Place × ByteArray)
  directories : List Place

namespace Tree

def empty : Tree := ⟨[], []⟩

def file? (t : Tree) (p : Place) : Option ByteArray := t.files.lookup p

def isDirectory (t : Tree) (p : Place) : Bool := p.all (· == "..") || t.directories.contains p

/-! ## Walking -/

/-- The greatest number of bytes of a name. -/
def nameLimit : Nat := 255

/-- The greatest number of bytes of a path. -/
def pathLimit : Nat := 4095

/-- Goes from a directory to what a name means there. -/
def enter (t : Tree) (p : Place) (name : String) : Except Fault Place :=
  if t.isDirectory p then
    if name == "" || name == "." then .ok p
    else if name == ".." then .ok p.up
    else if nameLimit < name.utf8ByteSize then .error .nameTooLong
    else .ok (p ++ [name])
  else if (t.file? p).isSome then .error .notDirectory
  else .error .notFound

/-- The place that a path means. What it names last need not exist. The empty path means nothing, and
no path from the root but the root itself is known. -/
def locate (t : Tree) (path : String) : Except Fault Place :=
  if path.toList.contains '\x00' then .error .zeroInName
  else if pathLimit < path.utf8ByteSize then .error .nameTooLong
  else if path.isEmpty || (Path.isAbsolute path && Path.steps path != ["", ""]) then .error .notFound
  else (Path.steps path).foldlM t.enter []

/-! ## Reading and writing -/

def read (t : Tree) (path : String) : Except Fault ByteArray := do
  let p ← t.locate path
  if t.isDirectory p then .error .isDirectory
  else match t.file? p with
    | some content => .ok content
    | none => .error .notFound

/-- The directory of a new node has to exist. -/
def checkParent (t : Tree) (p : Place) : Except Fault Unit :=
  if t.isDirectory p.dropLast then .ok ()
  else if (t.file? p.dropLast).isSome then .error .notDirectory
  else .error .notFound

def putFile (t : Tree) (p : Place) (content : ByteArray) : Tree :=
  { t with files := t.files.filter (·.1 != p) ++ [(p, content)] }

/-- Writes a file, new or in place of the one that was there. -/
def write (t : Tree) (path : String) (content : ByteArray) : Except Fault Tree := do
  let p ← t.locate path
  if t.isDirectory p || path.toList.getLast? == some '/' then .error .isDirectory
  else do
    t.checkParent p
    return t.putFile p content

/-- Makes one directory. Slashes at the end of its path do not count. -/
def makeDirectory (t : Tree) (path : String) : Except Fault Tree := do
  let p ← t.locate (Path.dropSlashes path)
  if t.isDirectory p || (t.file? p).isSome then .error .alreadyExists
  else do
    t.checkParent p
    return { t with directories := t.directories ++ [p] }

def pathIsDirectory (t : Tree) (path : String) : Bool :=
  match t.locate path with
  | .ok p => t.isDirectory p
  | .error _ => false

/-- A directory that cannot be made is no fault if it is there. -/
def ensureDirectory (t : Tree) (path : String) : Except Fault Tree :=
  match t.makeDirectory path with
  | .ok t => .ok t
  | .error e => if t.pathIsDirectory path then .ok t else .error e

/-- Makes a directory after those above it, where they are missing; `fuel` bounds their number. -/
def makeAll (t : Tree) (path : String) : Nat → Except Fault Tree
  | 0 => t.ensureDirectory path
  | fuel + 1 =>
    if path.isEmpty then .ok t
    else match t.ensureDirectory path with
      | .error .notFound =>
        match Path.parent? path with
        | none => .error .notFound
        | some above => do
          let t ← t.makeAll above fuel
          t.ensureDirectory path
      | result => result

/-- Makes a directory and all that are missing above it. -/
def makeDirectories (t : Tree) (path : String) : Except Fault Tree := t.makeAll path (path.length + 1)

/-- Puts a file there with all directories above it. -/
def place (t : Tree) (path : String) (content : ByteArray) : Tree :=
  let names := (Path.steps path).filter (fun n => n != "" && n != ".")
  let above := (List.range names.length).map fun n => names.take n
  let t := { t with directories := t.directories ++ above.filter fun p => !t.isDirectory p }
  t.putFile names content

def pathText (p : Place) : String := "/".intercalate p

end Tree

end FleetEnergy.File

import FleetEnergy.Text.Blank

/-! Paths as texts. A path starts at the root (`/`), at the current directory by name (`.`), or with its
first name; after that start come names with slashes between them. Empty names and dots among them do
not count. -/
namespace FleetEnergy.File
set_option autoImplicit false

namespace Path

def isSlash (c : Char) : Bool := c == '/'

/-- The start of a path and what follows it. -/
def splitHead (cs : List Char) : List Char × List Char :=
  match cs with
  | '/' :: r => (['/'], r)
  | ['.'] => (['.'], [])
  | '.' :: '/' :: r => (['.'], '/' :: r)
  | _ => ([], cs)

/-- Names that stand for nothing. -/
def isVoid (name : List Char) : Bool := name.isEmpty || name == ['.']

/-- The names of a body, without those at its end that stand for nothing. -/
def bodyNames (body : List Char) : List (List Char) :=
  ((Text.splitAtEvery isSlash body).reverse.dropWhile isVoid).reverse

def joinNames (names : List (List Char)) : List Char := ['/'].intercalate names

/-- The path without its last name. The root and the empty path have no parent. -/
def parent? (path : String) : Option String :=
  let (head, body) := splitHead path.toList
  match bodyNames body with
  | [] => if head == ['.'] then some "" else none
  | names =>
    let names := (names.dropLast.reverse.dropWhile isVoid).reverse
    some (String.ofList (head ++ joinNames names))

/-- The last name, unless it leads upwards. -/
def fileName? (path : String) : Option (List Char) :=
  match (bodyNames (splitHead path.toList).2).getLast? with
  | none => none
  | some name => if name == ['.', '.'] then none else some name

/-- What follows the last dot of the last name; a dot at its beginning does not count. -/
def extension? (path : String) : Option String :=
  match fileName? path with
  | none => none
  | some name =>
    let after := (name.reverse.takeWhile (· != '.')).reverse
    if name.length ≤ after.length + 1 then none else some (String.ofList after)

def isAbsolute (path : String) : Bool := path.toList.head? == some '/'

/-- Whether a path names the current directory at its start. -/
def startsHere (path : String) : Bool := (splitHead path.toList).1 == ['.']

/-- A relative path below a directory. -/
def join (base path : String) : String :=
  if isAbsolute path then path
  else if base.isEmpty || base.toList.getLast? == some '/' then base ++ path
  else base ++ "/" ++ path

/-- The path that a document means by a file name: absolute names and names that start at the current
directory mean themselves, all others are below the directory of the document. -/
def resolve (document file : String) : String :=
  if isAbsolute file || startsHere file then file
  else match parent? document with
    | none => file
    | some directory => join directory file

/-- A path without the slashes at its end; the root keeps one. -/
def dropSlashes (path : String) : String :=
  let kept := Text.dropRight isSlash path.toList
  if kept.isEmpty && isAbsolute path then "/" else String.ofList kept

/-- The names that are walked through from the root or the current directory. -/
def steps (path : String) : List String :=
  (Text.splitAtEvery isSlash path.toList).map String.ofList

end Path

end FleetEnergy.File

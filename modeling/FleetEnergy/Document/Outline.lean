import FleetEnergy.Document

/-! Writing documents. What is written has no sequences: an outline is an atom, or entries below a tag
or none. Every text is written in the plainest way in which it is read back as it was. -/
namespace FleetEnergy.Document
set_option autoImplicit false

/-! ## How a text can be written -/

/-- A character that can be written as it is. -/
def isShown (c : Char) : Bool :=
  let n := c.toNat
  n == 0x0A || (0x20 ≤ n && n ≤ 0x7E) || (0xA0 ≤ n && n ≤ 0xFFFD && n != 0xFEFF)

/-- Whether a character of one class comes directly before one of another. -/
def hasPair (p q : Char → Bool) : List Char → Bool
  | a :: b :: r => (p a && q b) || hasPair p q (b :: r)
  | _ => false

/-- The character at an end of a text is a blank or ends a line. -/
def isOpen (c : Option Char) : Bool := c.any fun c => c == ' ' || isBreak c

/-- A text that is the same between double marks only. -/
def needsEscapes (cs : List Char) : Bool := cs.any (! isShown ·) || hasPair (· == ' ') isBreak cs

/-- A text that could be taken for another value, and digits with a zero before them. -/
def isAmbiguous (cs : List Char) : Bool := meaning cs != .text || isPadded cs

/-- A plain text could not begin in this way. -/
def startsWithSign : List Char → Bool
  | [] => false
  | c :: r =>
    isSign c || ((c == '-' || c == '?') && r.head?.all (· == ' '))
      || [['-', '-', '-'], ['.', '.', '.']].contains ((c :: r).take 3)

/-- A plain text would end before its end. -/
def holdsSign (cs : List Char) : Bool :=
  hasPair (· == ':') (· == ' ') cs || cs.getLast? == some ':' || hasPair (· == ' ') (· == '#') cs

def canBePlain (cs : List Char) : Bool :=
  !needsEscapes cs && !cs.any isBreak && !isOpen cs.head? && !isOpen cs.getLast? && !startsWithSign cs
    && !holdsSign cs

def canBeSingle (cs : List Char) : Bool := !needsEscapes cs && !hasPair isBreak (· == ' ') cs

def canBeLiteral (cs : List Char) : Bool := !needsEscapes cs && cs.getLast? != some ' '

/-- How a text is written. -/
def Style.ofText (cs : List Char) : Style :=
  if cs.contains '\n' then if canBeLiteral cs then .literal else .double
  else if canBePlain cs && !isAmbiguous cs then .plain
  else if canBeSingle cs then .single
  else .double

namespace Atom

/-- The atom for a text. -/
def ofText (s : String) : Atom := ⟨.ofText s.toList, s⟩

def ofNat (n : Nat) : Atom := ⟨.plain, toString n⟩

def ofFloat (x : Float) : Atom := ⟨.plain, Decimal.Layout.document.write x⟩

def ofFlag (b : Bool) : Atom := ⟨.plain, if b then "true" else "false"⟩

end Atom

/-! ## Texts -/

def blanks (n : Nat) : List Char := List.replicate n ' '

/-- Puts an indentation before what follows the end of a line. `broken` says whether a line has just
ended. -/
def indented (indent : Nat) (broken : Bool) (c : Char) : List Char :=
  if broken && !isBreak c then blanks indent ++ [c] else [c]

/-- The characters of lines, with their indentation. -/
def lines (indent : Nat) : Bool → List Char → List Char
  | _, [] => []
  | broken, c :: r => indented indent broken c ++ lines indent (isBreak c) r

/-- Between single marks a mark is doubled. -/
def singleText (indent : Nat) (cs : List Char) : List Char :=
  let doubled := cs.flatMap fun c => if c == '\'' then ['\'', '\''] else [c]
  lines indent false ('\'' :: doubled ++ ['\''])

/-- The number of a character in so many upper case hexadecimal digits. -/
def upperHex (digits n : Nat) : List Char :=
  (List.range digits).reverse.map fun i => (Nat.digitChar (n / Nat.pow 16 i % 16)).toUpper

/-- A character between double marks. -/
def escaped (c : Char) : List Char :=
  if c != '"' && c != '\\' && isShown c && !isBreak c then [c]
  else match namedEscapes.find? (·.2 == c) with
    | some (name, _) => ['\\', name]
    | none =>
      if c.toNat < 0x100 then '\\' :: 'x' :: upperHex 2 c.toNat
      else if c.toNat < 0x10000 then '\\' :: 'u' :: upperHex 4 c.toNat
      else '\\' :: 'U' :: upperHex 8 c.toNat

def doubleText (cs : List Char) : List Char := '"' :: cs.flatMap escaped ++ ['"']

/-- What stands after the bar: that the text begins with a blank or an empty line, and how it ends. -/
def hints (cs : List Char) : List Char :=
  let start := if isOpen cs.head? then ['2'] else []
  let ending := match cs.reverse with
    | c :: r => if !isBreak c then ['-'] else if r.head?.all isBreak then ['+'] else []
    | [] => ['-']
  start ++ ending

/-- A text after a bar with its lines at an indentation. -/
def literalText (indent : Nat) (cs : List Char) : List Char :=
  '|' :: hints cs ++ '\n' :: lines indent true cs

/-- An atom; its further lines are indented. -/
def Atom.written (indent : Nat) (s : Atom) : List Char :=
  match s.style with
  | .plain => s.text.toList
  | .single => singleText indent s.text.toList
  | .double => doubleText s.text.toList
  | .literal | .folded => literalText indent s.text.toList

/-! ## Outlines -/

inductive Outline
  | leaf (s : Atom)
  | branch (tag : Option String) (entries : List (Atom × Outline))

namespace Outline

/-- A key that stands on the line of its colon: it has no line end of any kind and is not long. -/
def isShort (key : Atom) : Bool :=
  !key.text.toList.any (fun c => isBreak c || c == '\r' || c == '\x85') && key.text.utf8ByteSize ≤ 128

/-- An atom with the end of its line. -/
def line (indent : Nat) (s : Atom) : List Char :=
  let cs := s.written indent
  if cs.getLast?.any isBreak then cs else cs ++ ['\n']

def tagText (tag : Option String) : List Char := tag.elim [] fun t => ' ' :: '!' :: t.toList

mutual

/-- What stands after the colon of an entry at an indentation. After a long key entries without a tag
begin on the line of the colon. -/
def valueText (indent : Nat) (isInline : Bool) : Outline → List Char
  | .leaf s => ' ' :: line (indent + 2) s
  | .branch tag [] => tagText tag ++ " \x7b\x7d\n".toList
  | .branch tag (e :: es) =>
    let start := if isInline && tag.isNone then [' '] else '\n' :: blanks (indent + 2)
    tagText tag ++ start ++ entryText (indent + 2) e ++ entriesText (indent + 2) es

/-- An entry without the indentation before it. -/
def entryText (indent : Nat) : Atom × Outline → List Char
  | (k, v) =>
    if isShort k then k.written (indent + 2) ++ ':' :: valueText indent false v
    else '?' :: ' ' :: line (indent + 2) k ++ blanks indent ++ ':' :: valueText indent true v

def entriesText (indent : Nat) : List (Atom × Outline) → List Char
  | [] => []
  | e :: es => blanks indent ++ entryText indent e ++ entriesText indent es

end

/-- The document that consists of these entries. -/
def text (entries : List (Atom × Outline)) : String := String.ofList (entriesText 0 entries)

mutual

/-- The tree that an outline is read back as. -/
def document : Outline → Document
  | .leaf s => .atom s
  | .branch tag entries => withTag (tag.map .name) (.mapping (documents entries))

def documents : List (Atom × Outline) → List (Document × Document)
  | [] => []
  | (k, v) :: es => (.atom k, document v) :: documents es

end

end Outline

end FleetEnergy.Document

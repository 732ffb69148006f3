import FleetEnergy.Document.Atom
import FleetEnergy.Text.Blank

/-! Texts, names and tags as they are written. A text may go over several lines: a line end in it counts
as a blank, and of several the first does not count. -/
namespace FleetEnergy.Document
set_option autoImplicit false

/-! ## Between words -/

/-- What line ends between two words stand for. -/
def joined : List Char → List Char
  | ['\n'] => [' ']
  | '\n' :: breaks => breaks
  | breaks => breaks

/-- What was read since the last word. -/
inductive Gap
  | blanks (cs : List Char)
  /-- Line ends; the blanks around them do not count. -/
  | breaks (cs : List Char)
  /-- Line ends after one that a backslash hides. -/
  | hidden (cs : List Char)

namespace Gap

def nothing : Gap := .blanks []

def isNothing : Gap → Bool
  | .blanks cs => cs.isEmpty
  | _ => false

/-- Whether a new line has begun. -/
def isBroken : Gap → Bool
  | .blanks _ => false
  | _ => true

def add (c : Char) : Gap → Gap
  | .blanks cs => if isBreak c then .breaks [c] else .blanks (cs ++ [c])
  | .breaks cs => .breaks (if isBreak c then cs ++ [c] else cs)
  | .hidden cs => .hidden (if isBreak c then cs ++ [c] else cs)

def text : Gap → List Char
  | .blanks cs => cs
  | .breaks cs => joined cs
  | .hidden cs => cs

end Gap

/-- A text with what follows it. -/
abbrev Passage : Type := List Char × List Glyph

/-- Puts a gap and a word before a text. -/
def Passage.after (p : Passage) (gap : Gap) (word : List Char) : Passage :=
  (gap.text ++ word ++ p.1, p.2)

/-! ## Plain texts -/

/-- The colon or another sign that ends a plain text. `flow` says whether the text stands between
brackets. -/
def endsPlain (flow : Bool) (gs : List Glyph) : Bool :=
  first gs == finish || atMarker gs || (first gs == ':' && atGap (gs.drop 1))
    || (flow && isFlowSign (first gs))

/-- Reads a plain text, further lines of which are indented by `floor` at least if it stands in a
block. Also gives whether the text ended with a line. -/
def plainText (flow : Bool) (floor : Nat) : Gap → List Glyph → Option (Passage × Bool)
  | gap, [] => some (([], []), gap.isBroken)
  | gap, g :: r =>
    if isGap g.char || isBreak g.char then
      if g.char == '\t' && gap.isBroken && g.column < floor then none
      else plainText flow floor (gap.add g.char) r
    else if endsPlain flow (g :: r) || (g.char == '#' && !gap.isNothing)
        || (!flow && gap.isBroken && g.column < floor) then
      some (([], g :: r), gap.isBroken)
    else if flow && g.char == ':' && (first r == '?' || isFlowSign (first r)) then none
    else (plainText flow floor .nothing r).map fun (p, broken) => (p.after gap [g.char], broken)

/-! ## Texts between marks -/

/-- Reads to the closing mark; two marks stand for one. -/
def singleMarked : Gap → List Glyph → Option Passage
  | _, [] => none
  | gap, g :: r =>
    if g.char == finish || atMarker (g :: r) then none
    else if isGap g.char || isBreak g.char then singleMarked (gap.add g.char) r
    else if g.char == '\'' then
      match r with
      | [] => some (gap.text, [])
      | h :: s =>
        if h.char == '\'' then (singleMarked .nothing s).map (·.after gap ['\''])
        else some (gap.text, h :: s)
    else (singleMarked .nothing r).map (·.after gap [g.char])

/-- Reads to the closing mark. `pending` digits are still to come of the number of a character, whose
digits so far give `value`. -/
def doubleMarked : Nat → Nat → Gap → List Glyph → Option Passage
  | _, _, _, [] => none
  | pending + 1, value, gap, g :: r =>
    let value := value * 16 + digitOf g.char
    if 16 ≤ digitOf g.char then none
    else if 0 < pending then doubleMarked pending value gap r
    else if value.isValidChar then (doubleMarked 0 0 .nothing r).map (·.after gap [Char.ofNat value])
    else none
  | 0, _, gap, g :: r =>
    if g.char == finish || atMarker (g :: r) then none
    else if isGap g.char || isBreak g.char then doubleMarked 0 0 (gap.add g.char) r
    else if g.char == '"' then some (gap.text, r)
    else if g.char == '\\' then
      match r with
      | [] => none
      | h :: s =>
        if isBreak h.char then (doubleMarked 0 0 (.hidden []) s).map (·.after gap [])
        else match namedEscapes.lookup h.char, numberedEscapes.lookup h.char with
          | some c, _ => (doubleMarked 0 0 .nothing s).map (·.after gap [c])
          | none, some n => doubleMarked n 0 gap s
          | none, none => none
    else (doubleMarked 0 0 .nothing r).map (·.after gap [g.char])

/-! ## Blocks of lines -/

def isHint (c : Char) : Bool := c == '+' || c == '-' || c.isDigit

/-- How far the lines of a block are indented, if that has to be found: as far as the first, or as an
empty line before it. -/
def leadingColumn : Nat → List Glyph → Option Nat
  | most, [] => some most
  | most, g :: r =>
    if g.char == ' ' then leadingColumn most r
    else if isBreak g.char then leadingColumn (max most g.column) r
    else if g.char == '\t' then none
    else some (max most g.column)

/-- The lines that are indented by `n`, without their indentation and with all line ends. `within` says
whether a line has begun. -/
def blockLines (n : Nat) : Bool → List Glyph → Option Passage
  | _, [] => some ([], [])
  | within, g :: r =>
    if isBreak g.char then (blockLines n false r).map (·.after .nothing [g.char])
    else if g.char == finish then some ([], g :: r)
    else if within || n ≤ g.column then (blockLines n true r).map (·.after .nothing [g.char])
    else if g.char == ' ' then blockLines n false r
    else if g.char == '\t' then none
    else some ([], g :: r)

/-- Joins the lines of a folded text. Around lines that begin with a blank all line ends stay; `inset`
says whether the last line is such, `breaks` are the line ends after it. -/
def foldLines : Bool → List Char → List Char → List Char
  | _, breaks, [] => breaks
  | inset, breaks, c :: r =>
    if isBreak c then foldLines inset (breaks ++ [c]) r
    else if breaks.isEmpty then c :: foldLines inset [] r
    else (if inset || isGap c then breaks else joined breaks) ++ c :: foldLines (isGap c) [] r

/-- A block of lines as a text. The line ends after the last line are kept or dropped, or the first of
them is kept. -/
def blockText (folded : Bool) (hints lines : List Char) : List Char :=
  let body := Text.dropRight isBreak lines
  let breaks := lines.drop body.length
  (if folded then foldLines (body.head?.any isAnyGap) [] body else body)
    ++ if hints.contains '+' then breaks
      else if hints.contains '-' || body.isEmpty then []
      else breaks.take 1

/-- Reads a block of lines after its bar. `parent` is the column of the block around it. -/
def block? (folded : Bool) (parent : Option Nat) (gs : List Glyph) : Option Passage := do
  let hints := (gs.takeWhile fun g => isHint g.char).map (·.char)
  let digits := hints.filter Char.isDigit
  let floor := parent.elim 0 (· + 1)
  if 1 < digits.length || 1 < hints.length - digits.length || digits == ['0'] then none
  else
    let r ← lineEnd? false (gs.drop hints.length)
    let n ← match digits with
      | d :: _ => some (parent.getD 0 + digitOf d)
      | [] => (leadingColumn 0 r).map (max (max floor 1))
    let (lines, rest) ← blockLines n false r
    return (blockText folded hints lines, rest)

/-! ## Names and tags -/

def isNameCharacter (c : Char) : Bool := c.isAlphanum || c == '-' || c == '_'

/-- The characters that belong to a class, and what follows. -/
def span (p : Char → Bool) (gs : List Glyph) : Passage :=
  ((gs.takeWhile fun g => p g.char).map (·.char), gs.dropWhile fun g => p g.char)

/-- The name of a value that is used several times. -/
def name? (gs : List Glyph) : Option (String × List Glyph) :=
  let (name, r) := span isNameCharacter gs
  if name.isEmpty || !(atGap r || ['?', ':', ',', ']', '\x7d', '%', '@', '\x60'].contains (first r)) then none
  else some (String.ofList name, r)

def isTagCharacter (c : Char) : Bool := isNameCharacter c || ";/?:@&=+$.!~*'()".toList.contains c

/-- Characters that may stand in a tag between angle brackets. -/
def isVerbatim (c : Char) : Bool := isTagCharacter c || c == ',' || c == '[' || c == ']'

/-- The bytes of a part of a tag. A percent sign and two digits stand for a byte. -/
def tagBytes (p : Char → Bool) : List Glyph → Option (List UInt8 × List Glyph)
  | [] => some ([], [])
  | g :: r =>
    if g.char == '%' then
      match r with
      | h :: i :: s =>
        if 16 ≤ digitOf h.char || 16 ≤ digitOf i.char then none
        else (tagBytes p s).map fun (bs, rest) => ((16 * digitOf h.char + digitOf i.char).toUInt8 :: bs, rest)
      | _ => none
    else if p g.char then (tagBytes p r).map fun (bs, rest) => (g.char.toUInt8 :: bs, rest)
    else some ([], g :: r)

def tagPart? (p : Char → Bool) (gs : List Glyph) : Option (String × List Glyph) := do
  let (bs, r) ← tagBytes p gs
  return (← String.fromUTF8? ⟨bs.toArray⟩, r)

/-- A tag after its exclamation mark: a handle and what it is put before. -/
def tag? (gs : List Glyph) : Option ((String × String) × List Glyph) := do
  let (word, r) := span isNameCharacter gs
  if first gs == '<' then
    let (text, r) ← tagPart? isVerbatim (gs.drop 1)
    if text.isEmpty || first r != '>' then none else some (("", text), r.drop 1)
  else if first r == '!' then
    let (text, r) ← tagPart? isTagCharacter (r.drop 1)
    if text.isEmpty then none else some (("!" ++ String.ofList word ++ "!", text), r)
  else
    let (text, r) ← tagPart? isTagCharacter r
    let text := String.ofList word ++ text
    some (if text.isEmpty then ("", "!") else ("!", text), r)

/-! ## Directives -/

inductive Directive
  | version (major minor : Nat)
  /-- The text that a handle stands for. -/
  | handle (name target : String)
deriving DecidableEq

def number? (gs : List Glyph) : Option (Nat × List Glyph) :=
  let (digits, r) := span Char.isDigit gs
  if digits.isEmpty || 9 < digits.length then none
  else some (digits.foldl (fun n c => n * 10 + digitOf c) 0, r)

/-- The handle of tags in a directive. -/
def handle? (gs : List Glyph) : Option (String × List Glyph) :=
  let (word, r) := span isNameCharacter (gs.drop 1)
  if first gs != '!' then none
  else if first r == '!' then some ("!" ++ String.ofList word ++ "!", r.drop 1)
  else if word.isEmpty then some ("!", r)
  else none

/-- A directive after its percent sign, with its line. -/
def directive? (gs : List Glyph) : Option (Directive × List Glyph) := do
  let (name, r) := span isNameCharacter gs
  let (gap, r) := span isGap r
  match if gap.isEmpty then "" else String.ofList name with
  | "YAML" =>
    let (major, r) ← number? r
    let (minor, r) ← if first r == '.' then number? (r.drop 1) else none
    return (.version major minor, ← lineEnd? false r)
  | "TAG" =>
    let (name, r) ← handle? r
    let (target, s) ← tagPart? isVerbatim (span isGap r).2
    if isGap (first r) && !target.isEmpty && atGap s then return (.handle name target, ← lineEnd? false s)
    else none
  | _ => none

end FleetEnergy.Document

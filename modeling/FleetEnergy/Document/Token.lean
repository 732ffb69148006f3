import FleetEnergy.Document.Lexeme

/-! The tokens of a document. In blocks the indentation of a line tells where blocks begin and end, which
tokens of their own say. A token that begins a key is known as such only when the colon is met; the token
for the key is then put in before it. -/
namespace FleetEnergy.Document
set_option autoImplicit false

inductive Token
  | directive (d : Directive)
  | documentStart
  | documentEnd
  | blockSequence
  | blockMapping
  | blockEnd
  | flowSequence
  | flowSequenceEnd
  | flowMapping
  | flowMappingEnd
  | item
  | comma
  | key
  | value
  | alias (name : String)
  | anchor (name : String)
  | tag (handle text : String)
  | atom (s : Atom)
deriving DecidableEq

/-- A place where a key may have begun. -/
structure Candidate where
  /-- The number of tokens before it. -/
  position : Nat
  line : Nat
  column : Nat
  /-- Whether something else than a key would be wrong here. -/
  required : Bool

/-- A key ends on the line where it began, after 1024 characters at most. -/
def Candidate.isLate (c : Candidate) (g : Glyph) : Bool := c.line < g.line || c.column + 1024 < g.column

/-- Gives a candidate up, which is wrong where a key is required. -/
def abandon : Option Candidate → Option (Option Candidate)
  | some c => if c.required then none else some none
  | none => some none

/-- What has been read of a document. -/
structure Progress where
  /-- The tokens so far, the last one first. -/
  tokens : List Token
  /-- Their number. -/
  count : Nat
  rest : List Glyph
  /-- The columns of the open blocks, the innermost first. -/
  columns : List Nat
  /-- Whether a key may begin here. -/
  keyAllowed : Bool
  candidate : Option Candidate
  /-- The candidates outside of each open bracket, the innermost first. -/
  outer : List (Option Candidate)

namespace Progress

def start (cs : List Char) : Progress :=
  { tokens := [], count := 0, rest := glyphs cs, columns := [], keyAllowed := true, candidate := none
    outer := [] }

/-- Between brackets. -/
def inFlow (p : Progress) : Bool := !p.outer.isEmpty

/-! ## Tokens and blocks -/

/-- Puts in a token behind the first `position` ones. -/
def insert (p : Progress) (position : Nat) (t : Token) : Progress :=
  let later := p.count - position
  { p with tokens := p.tokens.take later ++ t :: p.tokens.drop later, count := p.count + 1 }

def emit (p : Progress) (t : Token) : Progress := { p with tokens := t :: p.tokens, count := p.count + 1 }

/-- Opens a block at a column, unless one is open there. -/
def openBlock (p : Progress) (column position : Nat) (t : Token) : Progress :=
  if p.inFlow || p.columns.head?.any (column ≤ ·) then p
  else { p.insert position t with columns := column :: p.columns }

/-- Closes the blocks from a column on. -/
def closeBlocks (p : Progress) (column : Nat) : Progress :=
  if p.inFlow then p
  else
    let closed := p.columns.takeWhile (column ≤ ·)
    closed.foldl (fun p _ => p.emit .blockEnd) { p with columns := p.columns.drop closed.length }

/-! ## Keys -/

def abandonKey (p : Progress) : Option Progress :=
  (abandon p.candidate).map fun c => { p with candidate := c }

/-- Notes that a key may begin here. -/
def noteKey (p : Progress) (g : Glyph) : Option Progress :=
  if p.keyAllowed then
    (abandon p.candidate).map fun _ =>
      { p with
        candidate := some
          { position := p.count, line := g.line, column := g.column
            required := !p.inFlow && p.columns.head? == some g.column } }
  else some p

/-- Gives up the candidates that are too far away. -/
def abandonLate (p : Progress) (g : Glyph) : Option Progress := do
  let check (c : Option Candidate) := if c.any (·.isLate g) then abandon c else some c
  return { p with candidate := ← check p.candidate, outer := ← p.outer.mapM check }

/-- Opens the block of an entry whose key, or whose value without a key, has a sign before it. -/
def openEntry (p : Progress) (g : Glyph) : Option Progress :=
  if p.inFlow || p.keyAllowed then some (p.openBlock g.column p.count .blockMapping) else none

/-! ## One token -/

/-- A sign alone. After it a key may begin or not. -/
def sign (p : Progress) (rest : List Glyph) (keyAllowed : Bool) (t : Token) : Progress :=
  { p.emit t with rest := rest, keyAllowed := keyAllowed }

/-- A line that stands outside of all blocks. -/
def outside (p : Progress) (rest : List Glyph) (t : Token) : Option Progress :=
  ((p.closeBlocks 0).abandonKey).map (·.sign rest false t)

def openBracket (p : Progress) (g : Glyph) (rest : List Glyph) (t : Token) : Option Progress :=
  (p.noteKey g).map fun p => { p.sign rest true t with candidate := none, outer := p.candidate :: p.outer }

def closeBracket (p : Progress) (rest : List Glyph) (t : Token) : Option Progress :=
  p.abandonKey.map fun p => match p.outer with
    | [] => p.sign rest false t
    | c :: cs => { p.sign rest false t with candidate := c, outer := cs }

def itemSign (p : Progress) (g : Glyph) (rest : List Glyph) : Option Progress :=
  if p.inFlow || p.keyAllowed then
    (p.openBlock g.column p.count .blockSequence).abandonKey.map (·.sign rest true .item)
  else none

def keySign (p : Progress) (g : Glyph) (rest : List Glyph) : Option Progress := do
  let p ← (← p.openEntry g).abandonKey
  return p.sign rest (!p.inFlow) .key

def valueSign (p : Progress) (g : Glyph) (rest : List Glyph) : Option Progress :=
  match p.candidate with
  | some c =>
    let p := (p.insert c.position .key).openBlock c.column c.position .blockMapping
    some { p.sign rest false .value with candidate := none }
  | none => (p.openEntry g).map fun p => p.sign rest (!p.inFlow) .value

/-- A part of a value that may begin a key. -/
def part {α : Type} (p : Progress) (g : Glyph) (read : Option (α × List Glyph)) (t : α → Token) :
    Option Progress := do
  let (a, rest) ← read
  return (← p.noteKey g).sign rest false (t a)

def marked (style : Style) (text : List Char) : Token := .atom ⟨style, String.ofList text⟩

/-- A tag, behind which there is a gap or, between brackets, a comma. -/
def tagPart (p : Progress) (g : Glyph) (rest : List Glyph) : Option Progress := do
  let (t, rest) ← tag? rest
  if atGap rest || (p.inFlow && first rest == ',') then p.part g (some (t, rest)) fun t => .tag t.1 t.2
  else none

def blockPart (p : Progress) (folded : Bool) (rest : List Glyph) : Option Progress := do
  let (text, rest) ← block? folded p.columns.head? rest
  return (← p.abandonKey).sign rest true (marked (if folded then .folded else .literal) text)

/-- A plain text. A key may begin after it if a line ended. -/
def plainPart (p : Progress) (g : Glyph) : Option Progress := do
  let ((text, rest), broken) ← plainText p.inFlow (p.columns.head?.elim 0 (· + 1)) .nothing p.rest
  return (← p.noteKey g).sign rest broken (marked .plain text)

/-- The token that begins at the character that comes next. -/
def token (p : Progress) (g : Glyph) (r : List Glyph) : Option Progress :=
  if g.column == 0 && g.char == '%' then do
    let (d, rest) ← directive? r
    p.outside rest (.directive d)
  else if atMarker (g :: r) then
    p.outside (r.drop 2) (if g.char == '-' then .documentStart else .documentEnd)
  else if g.char == '-' && atGap r then p.itemSign g r
  else if g.char == '?' && (p.inFlow || atGap r) then p.keySign g r
  else if g.char == ':' && (p.inFlow || atGap r) then p.valueSign g r
  else match g.char with
    | '[' => p.openBracket g r .flowSequence
    | ']' => p.closeBracket r .flowSequenceEnd
    | '\x7b' => p.openBracket g r .flowMapping
    | '\x7d' => p.closeBracket r .flowMappingEnd
    | ',' => p.abandonKey.map (·.sign r true .comma)
    | '*' => p.part g (name? r) .alias
    | '&' => p.part g (name? r) .anchor
    | '!' => p.tagPart g r
    | '\'' => p.part g (singleMarked .nothing r) (marked .single)
    | '"' => p.part g (doubleMarked 0 0 .nothing r) (marked .double)
    | c =>
      if !p.inFlow && (c == '|' || c == '>') then p.blockPart (c == '>') r
      else if isSign c || isGap c then none
      else p.plainPart g

/-! ## All tokens -/

/-- Passes over blanks, comments and ends of lines. In a block a key may begin on a new line, and no tab
may stand where a key may begin. -/
def skipGaps (inFlow : Bool) : Bool → Bool → List Glyph → Bool × List Glyph
  | keyAllowed, _, [] => (keyAllowed, [])
  | keyAllowed, comment, g :: r =>
    if isBreak g.char then skipGaps inFlow (keyAllowed || !inFlow) false r
    else if g.char == '#' || (comment && g.char != finish) then skipGaps inFlow keyAllowed true r
    else if g.char == ' ' || (g.char == '\t' && (inFlow || !keyAllowed))
        || (g.char == '\ufeff' && g.column == 0) then
      skipGaps inFlow keyAllowed false r
    else (keyAllowed, g :: r)

/-- Reads all tokens; `fuel` bounds their number. -/
def tokensWithin : Nat → Progress → Option (List Token)
  | 0, _ => none
  | fuel + 1, p => do
    let (keyAllowed, rest) := skipGaps p.inFlow p.keyAllowed false p.rest
    match rest with
    | [] => none
    | g :: r =>
      let p := { p with keyAllowed := keyAllowed, rest := rest }
      if g.char == finish then
        let p ← (p.closeBlocks 0).abandonKey
        return p.tokens.reverse
      else
        let p ← p.abandonLate g
        tokensWithin fuel (← (p.closeBlocks (g.column + 1)).token g r)

end Progress

/-- The tokens of a text. -/
def tokens? (cs : List Char) : Option (List Token) :=
  if cs.all isAllowed then Progress.tokensWithin (cs.length + 1) (.start cs) else none

end FleetEnergy.Document

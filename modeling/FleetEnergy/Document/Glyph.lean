/-! The characters of a document with their places, and the classes that reading and writing need. -/
namespace FleetEnergy.Document
set_option autoImplicit false

/-! ## Classes -/

/-- Characters that may stand in a document. -/
def isAllowed (c : Char) : Bool :=
  let n := c.toNat
  n == 0x09 || n == 0x0A || n == 0x0D || (0x20 ≤ n && n ≤ 0x7E) || n == 0x85
    || (0xA0 ≤ n && n ≤ 0xFFFD) || 0x10000 ≤ n

/-- The mark behind the last character, which may not stand in a document. -/
def finish : Char := '\x00'

def isGap (c : Char) : Bool := c == ' ' || c == '\t'

/-- The ends of lines. A line feed may be folded away, the others stay. -/
def isBreak (c : Char) : Bool := c == '\n' || c == '\u2028' || c == '\u2029'

/-- The signs that end a plain text between brackets. -/
def isFlowSign (c : Char) : Bool := [',', '[', ']', '\x7b', '\x7d'].contains c

/-- The signs that begin something else than a plain text. -/
def isSign (c : Char) : Bool :=
  isFlowSign c || ['#', '&', '*', '!', '|', '>', '\'', '"', '%', '@', '\x60'].contains c

/-- The value of a digit in any base up to sixteen. -/
def digitOf (c : Char) : Nat :=
  if c.isDigit then c.toNat - 48
  else if 'a' ≤ c && c ≤ 'f' then c.toNat - 87
  else if 'A' ≤ c && c ≤ 'F' then c.toNat - 55
  else 16

/-- The characters that a backslash and a letter stand for. -/
def namedEscapes : List (Char × Char) :=
  [('0', '\x00'), ('a', '\x07'), ('b', '\x08'), ('t', '\t'), ('\t', '\t'), ('n', '\n'), ('v', '\x0b'),
   ('f', '\x0c'), ('r', '\r'), ('e', '\x1b'), (' ', ' '), ('"', '"'), ('/', '/'), ('\\', '\\'),
   ('N', '\x85'), ('_', '\xa0'), ('L', '\u2028'), ('P', '\u2029')]

/-- How many digits of its number follow in the escape of a character. -/
def numberedEscapes : List (Char × Nat) := [('x', 2), ('u', 4), ('U', 8)]

/-! ## Places -/

structure Glyph where
  char : Char
  line : Nat
  column : Nat

/-- The simple line ends as line feeds. -/
def joinBreaks : List Char → List Char
  | '\r' :: '\n' :: r => '\n' :: joinBreaks r
  | c :: r => (if c == '\r' || c == '\x85' then '\n' else c) :: joinBreaks r
  | [] => []

/-- The characters from a place on, and the mark behind them. -/
def glyphsFrom (line column : Nat) : List Char → List Glyph
  | [] => [⟨finish, line, column⟩]
  | c :: r =>
    ⟨c, line, column⟩ :: if isBreak c then glyphsFrom (line + 1) 0 r else glyphsFrom line (column + 1) r

def glyphs (cs : List Char) : List Glyph := glyphsFrom 0 0 (joinBreaks cs)

/-- The character that comes next. -/
def first : List Glyph → Char
  | [] => finish
  | g :: _ => g.char

def isAnyGap (c : Char) : Bool := isGap c || isBreak c || c == finish

/-- At a gap, at the end of a line or behind the last character. -/
def atGap (gs : List Glyph) : Bool := isAnyGap (first gs)

/-- At a line that begins or ends a document. -/
def atMarker : List Glyph → Bool
  | g :: h :: i :: r =>
    g.column == 0 && (g.char == '-' || g.char == '.') && h.char == g.char && i.char == g.char && atGap r
  | _ => false

/-- What follows the end of the line, if only blanks and a comment are left of it. `comment` says whether
the comment has begun. -/
def lineEnd? (comment : Bool) : List Glyph → Option (List Glyph)
  | [] => some []
  | g :: r =>
    if isBreak g.char then some r
    else if g.char == finish then some (g :: r)
    else if comment || g.char == '#' then lineEnd? true r
    else if isGap g.char then lineEnd? false r
    else none

end FleetEnergy.Document

/-! Markup documents as a sequence of tokens: tags, text, verbatim sections, and what a reader of the data
passes over. -/
namespace FleetEnergy.Markup
set_option autoImplicit false

abbrev Bytes : Type := List UInt8

def code (c : Char) : UInt8 := c.toNat.toUInt8

def ascii (s : String) : Bytes := s.toList.map code

/-- Blank, tab, carriage return and line feed. -/
def isBlank (b : UInt8) : Bool := b == 32 || b == 9 || b == 13 || b == 10

/-- A document that is not well formed, or not of the form that is asked for. -/
inductive Fault
  /-- A construct that is not ended. -/
  | unended
  /-- `<!` or `<?` followed by nothing that is known. -/
  | unknownMarkup
  /-- An end tag without its start tag. -/
  | mismatchedEnd
  /-- Text or an end tag where an element is needed, or no element at all. -/
  | noElement
  | badAttribute
  /-- A name space with a name that is not its own. -/
  | badSpace
  | badReference
  | notText
  /-- A field that is given twice, or a list that is interrupted. -/
  | duplicateField
  /-- Text between the members of a list. -/
  | textInList
deriving DecidableEq, Repr

inductive Token
  /-- A start tag: its name and what follows the name. -/
  | opening (name rest : Bytes)
  /-- A tag that is start and end at once. -/
  | closed (name rest : Bytes)
  | closing (name : Bytes)
  | text (raw : Bytes)
  | verbatim (raw : Bytes)
  /-- A declaration of the document type. -/
  | doctype
  /-- A comment or an instruction. -/
  | void

namespace Token

/-! ## Ends of constructs -/

/-- The end of a tag: the first `>` outside of quotation marks. Gives the tag and what follows. -/
def splitTag : Option UInt8 → Bytes → Bytes → Option (Bytes × Bytes)
  | _, _, [] => none
  | none, done, b :: r =>
    if b == code '>' then some (done.reverse, r)
    else splitTag (if b == code '"' || b == code '\'' then some b else none) (b :: done) r
  | some q, done, b :: r => splitTag (if b == q then none else some q) (b :: done) r

/-- The first `>` at which what is before it fits; `done` is what is before it, backwards. -/
def splitWhere (fits : Bytes → Bool) : Bytes → Bytes → Option (Bytes × Bytes)
  | _, [] => none
  | done, b :: r =>
    if b == code '>' && fits done then some (done.reverse, r) else splitWhere fits (b :: done) r

/-- The end of a declaration that may hold others. -/
def splitNested : Nat → Bytes → Bytes → Option (Bytes × Bytes)
  | _, _, [] => none
  | depth, done, b :: r =>
    if b == code '<' then splitNested (depth + 1) (b :: done) r
    else if b == code '>' then
      match depth with
      | 0 => some (done.reverse, r)
      | d + 1 => splitNested d (b :: done) r
    else splitNested depth (b :: done) r

def orUnended {α : Type} : Option α → Except Fault α
  | some a => .ok a
  | none => .error .unended

def lower (b : UInt8) : UInt8 := if 65 ≤ b && b ≤ 90 then b + 32 else b

/-- Whether bytes begin with a word in any letter case. -/
def startsWith (word : String) (bytes : Bytes) : Bool :=
  (ascii word).isPrefixOf (bytes.map lower)

/-! ## Tokens -/

/-- A verbatim section, a comment or a declaration; `input` starts after the `!`. -/
def readBang (input : Bytes) : Except Fault (Token × Bytes) :=
  match input with
  | [] => .error .unended
  | b :: _ =>
    if b == code '[' then do
      let (body, rest) ← orUnended (splitWhere (fun d => (ascii "]]").isPrefixOf d) [] input)
      if (ascii "[CDATA[").isPrefixOf body then
        return (.verbatim ((body.drop 7).take (body.length - 9)), rest)
      else .error .unknownMarkup
    else if b == code '-' then do
      let fits (d : Bytes) : Bool := 4 ≤ d.length && (ascii "--").isPrefixOf d
      let (body, rest) ← orUnended (splitWhere fits [] input)
      if startsWith "--" body then return (.void, rest) else .error .unknownMarkup
    else if lower b == code 'd' then do
      let (body, rest) ← orUnended (splitNested 0 [] input)
      if startsWith "doctype" body && (body.drop 7).any (! isBlank ·) then return (.doctype, rest)
      else .error .unknownMarkup
    else .error .unknownMarkup

/-- An instruction; `input` starts with the question mark. -/
def readInstruction (input : Bytes) : Except Fault (Token × Bytes) := do
  let (body, rest) ← orUnended (splitWhere (fun d => d.head? == some (code '?')) [] input)
  if 1 < body.length then return (.void, rest) else .error .unknownMarkup

/-- The name of a tag and what follows it. -/
def splitName (tag : Bytes) : Bytes × Bytes := (tag.takeWhile (! isBlank ·), tag.dropWhile (! isBlank ·))

def readTag (input : Bytes) : Except Fault (Token × Bytes) := do
  let (tag, rest) ← orUnended (splitTag none [] input)
  match tag.getLast? with
  | some 47 =>
    let (name, attributes) := splitName tag.dropLast
    return (.closed name attributes, rest)
  | _ =>
    let (name, attributes) := splitName tag
    return (.opening name attributes, rest)

/-- An end tag; `input` starts after the slash. -/
def readEnd (input : Bytes) : Except Fault (Token × Bytes) := do
  let (tag, rest) ← orUnended (splitTag none [] input)
  return (.closing (if tag.all isBlank then tag else (tag.reverse.dropWhile isBlank).reverse), rest)

/-- The next token and what follows it; none at the end. -/
def next? (input : Bytes) : Except Fault (Option (Token × Bytes)) :=
  match input with
  | [] => .ok none
  | 60 :: r =>
    match r with
    | 33 :: r => some <$> readBang r
    | 63 :: _ => some <$> readInstruction r
    | 47 :: r => some <$> readEnd r
    | [] => .error .unended
    | _ => some <$> readTag r
  | _ => .ok (some (.text (input.takeWhile (· != 60)), input.dropWhile (· != 60)))

end Token

end FleetEnergy.Markup

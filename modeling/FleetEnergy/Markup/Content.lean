import FleetEnergy.Markup.Space

/-! The content of an element as data is read from it: attributes and lists of elements of one name. What
is not asked for is passed over. -/
namespace FleetEnergy.Markup
set_option autoImplicit false

/-- An element: its name, what follows the name in its tag, and its content. -/
structure Element where
  name : Bytes
  attributes : Bytes
  content : List Node
  /-- What is declared in the element and around it. -/
  scope : Scope

def Element.within (outer : Scope) (name attributes : Bytes) (content : List Node) : Element :=
  ⟨name, attributes, content, declarations attributes ++ outer⟩

/-- A piece of content: an element, or a stretch of text with its parts. -/
inductive Piece
  | element (e : Element)
  | text (parts : List Node)

/-! ## Stretches of text -/

def isBlankText : Node → Bool
  | .text raw => raw.all isBlank
  | _ => false

/-- A stretch of text counts unless all of it is blank. The parts are in reverse order. -/
def stretch (parts : List Node) : List Piece :=
  match parts.reverse.dropWhile isBlankText with
  | [] => []
  | ps => [.text ps]

/-- Puts neighbouring texts together; `parts` are the last ones, in reverse order. -/
def piecesFrom (scope : Scope) (parts : List Node) : List Node → List Piece
  | [] => stretch parts
  | .element name attributes content :: r =>
    stretch parts ++ .element (.within scope name attributes content) :: piecesFrom scope [] r
  | .separator :: r => stretch parts ++ piecesFrom scope [] r
  | n :: r => piecesFrom scope (n :: parts) r

def Element.pieces (e : Element) : List Piece := piecesFrom e.scope [] e.content

/-- Whether a text can be read. -/
def checkText (parts : List Node) : Except Fault Unit :=
  parts.forM fun
    | .text raw => (unescape raw).map fun _ => ()
    | .verbatim raw => (decode raw).map fun _ => ()
    | _ => .ok ()

def Element.check (e : Element) : Except Fault Unit := checkDeclarations e.attributes

/-- Checks the declarations of an element with which content begins. -/
def checkFirst : List Piece → Except Fault Unit
  | .element e :: _ => e.check
  | _ => .ok ()

/-- Passes over an element. Only the beginning of it is looked at: a text, or an element, and what
follows directly. -/
def Element.skip (e : Element) : Except Fault Unit := do
  let _ ← decode (localName e.name)
  e.check
  match e.pieces with
  | [] => return
  | .text parts :: r =>
    checkText parts
    checkFirst r
  | .element child :: r =>
    child.check
    checkFirst child.pieces
    checkFirst r

/-! ## Texts of elements -/

def dropRight (p : UInt8 → Bool) (raw : Bytes) : Bytes := (raw.reverse.dropWhile p).reverse

/-- The text of what is left of a stretch; blanks at its end do not count. -/
def restText : List Node → Except Fault String
  | [] => .ok ""
  | [.text raw] => unescape (dropRight isBlank raw)
  | .text raw :: r => do return (← unescape raw) ++ (← restText r)
  | .verbatim raw :: r => do return (← decode raw) ++ (← restText r)
  | _ :: r => restText r

/-- The text of a stretch. Blanks around it do not count, unless they are verbatim. -/
def stretchText : List Node → Except Fault String
  | .text raw :: r => restText (.text (raw.dropWhile isBlank) :: r)
  | parts => restText parts

/-- The text of an element that holds nothing else. -/
def Element.text (e : Element) : Except Fault String :=
  match e.pieces with
  | [] => .ok ""
  | [.text parts] => stretchText parts
  | _ => .error .notText

/-! ## Fields -/

/-- The values of the attributes of the given names; the others are only checked for their form. -/
def Element.attributeFields (e : Element) (names : List String) : Except Fault (List (String × String)) := do
  let all ← Markup.attributes e.attributes
  let named ← all.mapM fun (name, value) => do return (← decode (attributeName name), value)
  let known := named.filter fun (name, _) => names.contains name
  known.mapM fun (name, value) => do return (name, ← unescape value)

def Element.isNil (e : Element) : Bool := saysNil e.scope e.attributes

/-- The texts of the elements that stand in the place of attributes: they have the name of the attribute
after an `@`. An element that stands for no value, or that stands in such a one, has no text. -/
def Element.elementFields (e : Element) (names : List String) :
    Except Fault (List (String × Option String)) := do
  let values ← e.pieces.mapM fun
    | .text _ => .ok none
    | .element child =>
      match names.find? fun name => localName child.name == ascii ("@" ++ name) with
      | none => .ok none
      | some name => do
        child.check
        if e.isNil || child.isNil then
          child.skip
          return some (name, none)
        else return some (name, some (← child.text))
  return values.filterMap fun value => value

/-- The values of the fields of the given names; each may be there once. -/
def Element.fields (e : Element) (names : List String) : Except Fault (List (String × String)) := do
  e.check
  let values := (← e.attributeFields names).map (fun (name, value) => (name, some value))
    ++ (← e.elementFields names)
  if (values.map (·.1)).Nodup then return values.filterMap fun (name, value) => value.map (name, ·)
  else .error .duplicateField

/-- Passes over content in which nothing is looked for. -/
def skipPieces : List Piece → Except Fault Unit
  | [] => .ok ()
  | .text parts :: r => do
    checkText parts
    skipPieces r
  | .element e :: r => do
    e.skip
    skipPieces r

/-- The neighbouring elements of one full name, and what follows them. -/
def takeList (name : Bytes) : List Piece → Except Fault (List Element × List Piece)
  | .element e :: r =>
    if e.name == name then do
      let (es, rest) ← takeList name r
      return (e :: es, rest)
    else .ok ([], .element e :: r)
  | .text _ :: _ => .error .textInList
  | [] => .ok ([], [])

/-- Passes over content in which the listed name must not come up again. -/
def skipWithout (name : Bytes) : List Piece → Except Fault Unit
  | [] => .ok ()
  | .text parts :: r => do
    checkText parts
    skipWithout name r
  | .element e :: r =>
    if localName e.name == name then .error .duplicateField
    else do
      e.skip
      skipWithout name r

/-- The list of the elements with a local name. They have to be neighbours with the same full name and
without text between them. -/
def listOf (name : Bytes) : List Piece → Except Fault (List Element)
  | [] => .ok []
  | .text parts :: r => do
    checkText parts
    listOf name r
  | .element e :: r =>
    if localName e.name == name then do
      let (es, rest) ← takeList e.name (.element e :: r)
      skipWithout name rest
      return es
    else do
      e.skip
      listOf name r

end FleetEnergy.Markup

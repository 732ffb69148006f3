import FleetEnergy.Document
import FleetEnergy.Document.Token

/-! Documents from their tokens. A value may have a name, by which later places repeat it, and a tag. A
text holds one document. -/
namespace FleetEnergy.Document
set_option autoImplicit false

/-! ## Tags -/

/-- What a whole tag says. -/
def Tag.ofText (text : String) : Tag :=
  match text with
  | "tag:yaml.org,2002:null" => .null
  | "tag:yaml.org,2002:bool" => .flag
  | "tag:yaml.org,2002:int" => .whole
  | "tag:yaml.org,2002:float" => .number
  | _ => match text.toList with
    | ['!'] => .name text
    | '!' :: r => .name (String.ofList r)
    | _ => .other

/-- The handles that need no directive. -/
def usualHandles : List (String × String) := [("", ""), ("!", "!"), ("!!", "tag:yaml.org,2002:")]

/-- The handles that directives declare, each of them once. A version may be named once too. -/
def handles? (ds : List Directive) : Option (List (String × String)) :=
  let versions := ds.filterMap fun
    | .version major minor => some (major, minor)
    | .handle .. => none
  let handles := ds.filterMap fun
    | .version .. => none
    | .handle name target => some (name, target)
  if versions.length ≤ 1 && versions.all (fun v => v == (1, 1) || v == (1, 2))
      && (handles.map (·.1)).Nodup then
    some (handles ++ usualHandles)
  else none

/-! ## Reading on -/

structure Reading where
  tokens : List Token
  /-- What the handles of tags stand for. -/
  handles : List (String × String)
  /-- The names of values with the numbers of these, the last one first. -/
  names : List (String × Nat)
  /-- The values that are complete, by number, with the number of repetitions that make up each. -/
  values : List (Nat × Document × Nat)
  /-- The number of repetitions so far. -/
  repeats : Nat
  /-- How many repetitions may make up a value. -/
  limit : Nat

abbrev Reader : Type → Type := StateT Reading Option

/-- Takes the next token if it is of a kind. -/
def take? {α : Type} (kind : Token → Option α) : Reader (Option α) := fun s =>
  match s.tokens with
  | [] => some (none, s)
  | t :: r => match kind t with
    | some a => some (some a, { s with tokens := r })
    | none => some (none, s)

/-- Whether the next token is one of these. -/
def isAt (ts : List Token) : Reader Bool := do return (← get).tokens.head?.any ts.contains

/-- Passes over a token if it is the next one. -/
def skip? (t : Token) : Reader Bool := do
  return (← take? fun u => if u = t then some () else none).isSome

/-- Passes over a token, which has to be there. -/
def expect (t : Token) : Reader Unit := do if ← skip? t then return else failure

/-- No value before certain tokens, else one that is read. -/
def unlessAt (ts : List Token) (value : Reader Document) : Reader Document := do
  if ← isAt ts then return .empty else value

/-! ## Names and tags of values -/

/-- The value that a name repeats. -/
def repeated (name : String) : Reader Document := do
  let s ← get
  match s.names.lookup name with
  | some n => match s.values.lookup n with
    | some (d, repeats) =>
      set { s with repeats := s.repeats + repeats + 1 }
      return d
    | none => return .endless
  | none => failure

/-- Gives a number to the value with this name. -/
def declare (name : String) : Reader Nat := do
  let n := (← get).names.length
  modify fun s => { s with names := (name, n) :: s.names }
  return n

/-- Notes a value that is complete, since the beginning of which there were so many repetitions. -/
def complete (n : Nat) (d : Document) (repeats : Nat) : Reader Unit :=
  modify fun s => { s with values := (n, if repeats ≤ s.limit then d else .endless, repeats) :: s.values }

def anchor? : Reader (Option String) :=
  take? fun
    | .anchor name => some name
    | _ => none

/-- The text of the tag that comes next. Its handle has to be declared. -/
def tagText? : Reader (Option String) := do
  let t ← take? fun
    | .tag handle text => some (handle, text)
    | _ => none
  match t with
  | none => return none
  | some (handle, text) => match (← get).handles.lookup handle with
    | some target => return some (target ++ text)
    | none => failure

/-- The name and the tag before a value, in either order. -/
def properties : Reader (Option String × Option String) := do
  match ← anchor? with
  | some name => return (some name, ← tagText?)
  | none =>
    let tag ← tagText?
    return (← anchor?, tag)

/-! ## Values -/

/-- Where a value stands: between brackets, in a block, or in a mapping in a block, where the items of a
sequence may stand at the column of their key. -/
inductive Position
  | flow
  | block
  | entry
deriving DecidableEq

mutual

/-- Reads a value; `fuel` bounds the number of steps. -/
def value : Nat → Position → Reader Document
  | 0, _ => failure
  | fuel + 1, position => do
    let name? ← take? fun
      | .alias name => some name
      | _ => none
    match name? with
    | some name => repeated name
    | none =>
      let (name?, tag?) ← properties
      let n? ← name?.mapM declare
      let before := (← get).repeats
      let d ← content fuel position (name?.isSome || tag?.isSome) tag?
      let after := (← get).repeats
      n?.forM (complete · d (after - before))
      return d

/-- What follows the name and the tag of a value. It may be missing if it has one of them. A mere
exclamation mark counts as no tag of an atom. -/
def content : Nat → Position → Bool → Option String → Reader Document
  | 0, _, _, _ => failure
  | fuel + 1, position, mayBeMissing, tag? => do
    let atom? ← take? fun
      | .atom s => some s
      | _ => none
    let tag := tag?.map Tag.ofText
    match atom? with
    | some s => return if tag? = some "!" then .atom s else withTag tag (.atom s)
    | none =>
      if position = .entry && (← isAt [.item]) then
        return withTag tag (.sequence (← looseItems fuel))
      else if ← skip? .flowSequence then return withTag tag (.sequence (← flowItems fuel true))
      else if ← skip? .flowMapping then return withTag tag (.mapping (← flowEntries fuel true))
      else if position = .flow then
        if mayBeMissing then return withTag tag .empty else failure
      else if ← skip? .blockSequence then return withTag tag (.sequence (← items fuel))
      else if ← skip? .blockMapping then return withTag tag (.mapping (← entries fuel))
      else if mayBeMissing then return withTag tag .empty
      else failure

/-- The items of a block. -/
def items : Nat → Reader (List Document)
  | 0 => failure
  | fuel + 1 => do
    if ← skip? .item then
      let d ← unlessAt [.item, .blockEnd] (value fuel .block)
      return d :: (← items fuel)
    else
      expect .blockEnd
      return []

/-- Items that stand at the column of their key, and so have no block of their own. -/
def looseItems : Nat → Reader (List Document)
  | 0 => failure
  | fuel + 1 => do
    if ← skip? .item then
      let d ← unlessAt [.item, .key, .value, .blockEnd] (value fuel .block)
      return d :: (← looseItems fuel)
    else return []

/-- The entries of a block. -/
def entries : Nat → Reader (List (Document × Document))
  | 0 => failure
  | fuel + 1 => do
    if ← skip? .key then
      let part := unlessAt [.key, .value, .blockEnd] (value fuel .entry)
      let k ← part
      let d ← if ← skip? .value then part else pure .empty
      return (k, d) :: (← entries fuel)
    else
      expect .blockEnd
      return []

/-- The items up to the closing bracket. -/
def flowItems : Nat → Bool → Reader (List Document)
  | 0, _ => failure
  | fuel + 1, isFirst => do
    if ← skip? .flowSequenceEnd then return []
    if !isFirst then expect .comma
    if ← skip? .flowSequenceEnd then return []
    let d ← if ← skip? .key then pair fuel else value fuel .flow
    return d :: (← flowItems fuel false)

/-- A mapping of one entry as an item. Where its key is missing, the next token counts as the key. -/
def pair : Nat → Reader Document
  | 0 => failure
  | fuel + 1 => do
    let k ← if ← isAt [.value, .comma, .flowSequenceEnd] then do
        modify fun s => { s with tokens := s.tokens.drop 1 }
        pure .empty
      else value fuel .flow
    let d ← if ← skip? .value then unlessAt [.comma, .flowSequenceEnd] (value fuel .flow) else pure .empty
    return .mapping [(k, d)]

/-- The entries up to the closing brace. An entry may be a key alone. -/
def flowEntries : Nat → Bool → Reader (List (Document × Document))
  | 0, _ => failure
  | fuel + 1, isFirst => do
    if ← skip? .flowMappingEnd then return []
    if !isFirst then expect .comma
    if ← skip? .flowMappingEnd then return []
    if ← skip? .key then
      let k ← unlessAt [.value, .comma, .flowMappingEnd] (value fuel .flow)
      let d ← if ← skip? .value then unlessAt [.comma, .flowMappingEnd] (value fuel .flow)
        else pure .empty
      return (k, d) :: (← flowEntries fuel false)
    else
      let k ← value fuel .flow
      return (k, .empty) :: (← flowEntries fuel false)

end

/-! ## Documents -/

def Token.asDirective? : Token → Option Directive
  | .directive d => some d
  | _ => none

/-- Reads a document. Its value may be missing only if a line says that it begins. -/
def document (fuel : Nat) : Reader Document := do
  if ← skip? .documentStart then
    let ends (t : Token) : Bool := t.asDirective?.isSome || t = .documentStart || t = .documentEnd
    if (← get).tokens.head?.all ends then return .empty else value fuel .block
  else value fuel .block

/-- The document that tokens make up. -/
def ofTokens? (ts : List Token) : Option Document := do
  let ds := (ts.map Token.asDirective?).takeWhile Option.isSome |>.filterMap id
  let rest := ts.drop ds.length
  if !ds.isEmpty && rest.head? != some .documentStart then none
  else
    let start : Reading :=
      { tokens := rest, handles := ← handles? ds, names := [], values := [], repeats := 0
        limit := 100 * ts.length }
    let (d, s) ← (document (4 * ts.length + 4)).run start
    if (s.tokens.dropWhile (· = .documentEnd)).isEmpty then some d else none

/-- Reads a text that holds exactly one document. -/
def read (text : String) : Option Document := (tokens? text.toList).bind ofTokens?

/-- Reads a file that holds exactly one document. -/
def ofBytes (bytes : ByteArray) : Option Document := (String.fromUTF8? bytes).bind read

end FleetEnergy.Document

import FleetEnergy.Document

/-! Values of documents, read as what a field wants. Where the wish is known when a value is met, it
decides; where it is not, the value alone decides what it is, and the wish has to fit. -/
namespace FleetEnergy.Document
set_option autoImplicit false

inductive Typing
  | asWanted
  | asWritten
deriving DecidableEq

/-- A value, and what decides its type. -/
structure Value where
  typing : Typing
  document : Document

namespace Value

/-- A text. Any atom is one where a text is wanted. -/
def text? (v : Value) : Option String :=
  match v.typing, v.document.untagged with
  | .asWanted, .atom s => some s.text
  | .asWritten, .atom s => if v.document.meaning? == some .text then some s.text else none
  | _, _ => none

/-- The characters of a value that is wanted to be no text. It is plain, or a block of lines under a tag
that says what it is. -/
def characters? (type : Tag) (d : Document) : Option (List Char) :=
  match d with
  | .atom s => if s.style = .plain then some s.text.toList else none
  | .tagged t (.atom s) =>
    if s.style = .plain || (s.style = .literal && t = type) then some s.text.toList else none
  | _ => none

def float? (v : Value) : Option Float :=
  match v.typing with
  | .asWanted => (characters? .number v.document).bind Document.float?
  | .asWritten => match v.document.meaning? with
    | some (.number x) => some x
    | some (.whole n) => some (Decimal.nearest n 0)
    | some (.negative n) => some (0.0 - Decimal.nearest n 0)
    | _ => none

/-- A whole number below a limit of at most 64 bits. -/
def whole? (limit : Nat) (v : Value) : Option Nat :=
  let n? := match v.typing with
    | .asWanted => (characters? .whole v.document).bind unsigned?
    | .asWritten => match v.document.meaning? with
      | some (.whole n) => some n
      | some (.negative 0) => some 0
      | _ => none
  n?.filter (· < limit)

def flag? (v : Value) : Option Bool :=
  let meaning? := match v.typing with
    | .asWanted => (characters? .flag v.document).bind flagMeaning?
    | .asWritten => v.document.meaning?
  match meaning? with
  | some (.flag b) => some b
  | _ => none

/-! ## Alternatives -/

/-- The name of an alternative and what it is made of: a tag with its content, a name alone, or, where
the value alone decides, an entry. -/
def alternative? (v : Value) : Option (String × Option Value) :=
  match v.typing, v.document, v.document.untagged with
  | .asWanted, .tagged (.name name) d, _ => some (name, some ⟨.asWanted, d⟩)
  | .asWritten, _, .mapping [(k, d)] =>
    (text? ⟨.asWritten, k⟩).map fun name => (name, some ⟨.asWritten, d⟩)
  | _, _, _ => v.text?.map fun name => (name, none)

/-- One of several names. -/
def name? {α : Type} (names : List (String × α)) (v : Value) : Option α :=
  match v.alternative? with
  | some (name, none) => names.lookup name
  | some (name, some content) => if content.document.isNull then names.lookup name else none
  | none => none

/-! ## Fields -/

/-- The entries of a mapping. Where a mapping is wanted, a value that is not written has none. -/
def entries? (v : Value) : Option (List (Document × Document)) :=
  match v.typing, v.document.untagged with
  | _, .mapping es => some es
  | .asWanted, .atom s => if s = .empty then some [] else none
  | _, _ => none

/-- Entries whose keys are texts. -/
def textEntries? (v : Value) : Option (List (String × Document)) :=
  v.entries?.bind fun es => es.mapM fun (k, d) => (text? ⟨v.typing, k⟩).map fun name => (name, d)

end Value

/-- The fields of a record. -/
abbrev Fields : Type := List (String × Value)

namespace Fields

/-- The entries whose keys are known; each of them may be there once. -/
def known? (names : List String) (fs : Fields) : Option Fields :=
  let known := fs.filter fun f => names.contains f.1
  if (known.map (·.1)).Nodup then some known else none

/-- A field that has to be there. -/
def need {α : Type} (fs : Fields) (name : String) (read : Value → Option α) : Option α :=
  (fs.lookup name).bind read

/-- A field that has a value if it is not there. -/
def given {α : Type} (fs : Fields) (name : String) (default : α) (read : Value → Option α) : Option α :=
  match fs.lookup name with
  | none => some default
  | some v => read v

end Fields

/-- The fields of a record whose names are known. Where the value alone decides, a sequence holds them in
their order. -/
def Value.fields? (names : List String) (v : Value) : Option Fields :=
  match v.typing, v.document.untagged with
  | .asWritten, .sequence items =>
    if items.length ≤ names.length then some (names.zip (items.map fun d => ⟨.asWritten, d⟩)) else none
  | _, _ => v.textEntries?.bind fun es =>
    Fields.known? names (es.map fun (name, d) => (name, ⟨v.typing, d⟩))

/-! ## Fields around a field that decides -/

mutual

/-- Whether a value alone decides what it is, and is made of at most `depth` layers. Names of alternatives
and whole numbers of more than 64 bits leave it open. -/
def isDecided (depth : Nat) : Document → Bool
  | .atom s => s.meaning != .wide
  | .sequence items => 0 < depth && areDecided (depth - 1) items
  | .mapping entries => 0 < depth && entriesAreDecided (depth - 1) entries
  | .tagged (.name _) _ => false
  | .tagged t (.atom s) => (s.meaningAs? t).any (· != .wide)
  | .tagged _ d => isDecided depth d
  | .endless => false

def areDecided (depth : Nat) : List Document → Bool
  | [] => true
  | d :: ds => isDecided depth d && areDecided depth ds

def entriesAreDecided (depth : Nat) : List (Document × Document) → Bool
  | [] => true
  | (k, d) :: es => isDecided depth k && isDecided depth d && entriesAreDecided depth es

end

/-- The other entries of a record whose kind stands behind some of them. They have to be read without
knowing the kind. -/
def decided? (depth : Nat) (es : List (String × Document)) : Option Fields :=
  if es.all fun e => isDecided depth e.2 then some (es.map fun (name, d) => (name, ⟨.asWritten, d⟩))
  else none

/-- Splits the entries of a record at the field that says of which kind it is. If that is the first one,
the others are read as is wanted. -/
def Value.kind? (name : String) (depth : Nat) (v : Value) : Option (String × Fields) := do
  let es ← v.textEntries?
  let before := es.takeWhile (·.1 != name)
  match es.drop before.length with
  | [] => none
  | (_, d) :: after =>
    let kind ← Value.text? ⟨.asWanted, d⟩
    let fields ← if before.isEmpty then some (after.map fun (name, d) => (name, ⟨.asWanted, d⟩))
      else decided? depth (before ++ after)
    return (kind, fields)

end FleetEnergy.Document

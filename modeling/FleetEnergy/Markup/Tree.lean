import FleetEnergy.Markup.Token

/-! The tree of elements of a markup document. Reading ends with the end of the outermost element; what
follows it does not count. -/
namespace FleetEnergy.Markup
set_option autoImplicit false

inductive Node
  /-- An element: its name, what follows the name in its tag, and its content. -/
  | element (name attributes : Bytes) (content : List Node)
  | text (raw : Bytes)
  | verbatim (raw : Bytes)
  /-- A declaration, which separates the texts around it. -/
  | separator

/-! ## Building the tree -/

/-- An element whose end has not been reached; its content is in reverse order. -/
structure OpenElement where
  name : Bytes
  attributes : Bytes
  content : List Node

def OpenElement.close (e : OpenElement) : Node := .element e.name e.attributes e.content.reverse

/-- Where the builder stands: among the content of open elements, innermost first, or at the end. -/
inductive Progress
  | inside (stack : List OpenElement)
  | complete (root : Node)

/-- Adds a node to the innermost open element. Outside of all elements an element completes the
document, and blank text is passed over. -/
def addNode (n : Node) : List OpenElement → Except Fault Progress
  | e :: stack => .ok (.inside ({ e with content := n :: e.content } :: stack))
  | [] =>
    match n with
    | .element .. => .ok (.complete n)
    | .text raw => if raw.all isBlank then .ok (.inside []) else .error .noElement
    | .verbatim _ => .error .noElement
    | .separator => .ok (.inside [])

def addToken (stack : List OpenElement) : Token → Except Fault Progress
  | .opening name rest => .ok (.inside (⟨name, rest, []⟩ :: stack))
  | .closed name rest => addNode (.element name rest []) stack
  | .closing name =>
    match stack with
    | [] => .error .mismatchedEnd
    | e :: stack => if e.name == name then addNode e.close stack else .error .mismatchedEnd
  | .text raw => addNode (.text raw) stack
  | .verbatim raw => addNode (.verbatim raw) stack
  | .doctype => addNode .separator stack
  | .void => .ok (.inside stack)

/-- Adds tokens until the document is complete. Every token takes a byte at least, so that the length
of the input is fuel enough. -/
def build (stack : List OpenElement) (input : Bytes) : Nat → Except Fault Node
  | 0 => .error .noElement
  | fuel + 1 =>
    match Token.next? input with
    | .error e => .error e
    | .ok none => .error (if stack.isEmpty then .noElement else .unended)
    | .ok (some (token, rest)) =>
      match addToken stack token with
      | .error e => .error e
      | .ok (.complete root) => .ok root
      | .ok (.inside stack) => build stack rest fuel

/-- The byte order mark, which may stand before a document. -/
def byteOrderMark : Bytes := [0xEF, 0xBB, 0xBF]

/-- The outermost element of a document. -/
def Node.read (input : Bytes) : Except Fault Node :=
  let input := if byteOrderMark.isPrefixOf input then input.drop 3 else input
  build [] input (input.length + 1)

/-! ## References -/

def decode (raw : Bytes) : Except Fault String :=
  match String.fromUTF8? ⟨raw.toArray⟩ with
  | some s => .ok s
  | none => .error .notText

def hexValue? (c : Char) : Option Nat :=
  if c.isDigit then some (c.toNat - 48)
  else if 'a' ≤ c && c ≤ 'f' then some (c.toNat - 87)
  else if 'A' ≤ c && c ≤ 'F' then some (c.toNat - 55)
  else none

/-- The number that digits of a base denote; a character number is below 2³². -/
def codeNumber (base : Nat) (digits : List Char) : Option Nat :=
  if digits.isEmpty then none
  else digits.foldlM (fun n c =>
    match hexValue? c with
    | none => none
    | some d => if d < base && n * base + d < Nat.pow 2 32 then some (n * base + d) else none) 0

/-- The character of a number; zero and the surrogates are none. -/
def character (n : Nat) : Option Char :=
  if n = 0 then none else if h : n.isValidChar then some (Char.ofNatAux n h) else none

/-- What a reference stands for. -/
def reference (name : List Char) : Option Char :=
  match name with
  | '#' :: 'x' :: ds => (codeNumber 16 ds).bind character
  | '#' :: ds => (codeNumber 10 ds).bind character
  | _ =>
    match String.ofList name with
    | "lt" => some '<'
    | "gt" => some '>'
    | "amp" => some '&'
    | "apos" => some '\''
    | "quot" => some '"'
    | _ => none

/-- Puts characters in the place of references, which go from `&` to the next `;`. The fuel bounds the
number of references. -/
def expand : List Char → Nat → Except Fault (List Char)
  | _, 0 => .error .badReference
  | cs, fuel + 1 =>
    let before := cs.takeWhile (· != '&')
    match cs.dropWhile (· != '&') with
    | [] => .ok before
    | _ :: r =>
      let name := r.takeWhile fun c => c != ';' && c != '&'
      match r.dropWhile (fun c => c != ';' && c != '&'), reference name with
      | ';' :: rest, some c => do return before ++ c :: (← expand rest fuel)
      | _, _ => .error .badReference

/-- The text that raw bytes mean. -/
def unescape (raw : Bytes) : Except Fault String := do
  let s ← decode raw
  let cs ← expand s.toList (s.length + 1)
  return String.ofList cs

/-! ## Names and attributes -/

/-- A name without what stands before its first colon. -/
def localName (name : Bytes) : Bytes :=
  match name.dropWhile (· != code ':') with
  | [] => name
  | _ :: r => r

/-- The name under which an attribute is looked up; declarations of name spaces keep their full
name. -/
def attributeName (name : Bytes) : Bytes :=
  if name == ascii "xmlns" || (ascii "xmlns:").isPrefixOf name then name else localName name

/-- The name of an attribute and what follows its equals sign. The first character of a name may be an
equals sign too. -/
def splitKey : Bytes → Except Fault (Bytes × Bytes)
  | [] => .error .badAttribute
  | first :: r =>
    let inName (b : UInt8) : Bool := b != code '=' && ! isBlank b
    match (r.dropWhile inName).dropWhile isBlank with
    | 61 :: rest => .ok (first :: r.takeWhile inName, rest)
    | _ => .error .badAttribute

/-- A value in quotation marks and what follows it. -/
def splitValue (input : Bytes) : Except Fault (Bytes × Bytes) :=
  match input.dropWhile isBlank with
  | [] => .error .badAttribute
  | q :: r =>
    if q == code '"' || q == code '\'' then
      match r.dropWhile (· != q) with
      | [] => .error .badAttribute
      | _ :: rest => .ok (r.takeWhile (· != q), rest)
    else .error .badAttribute

/-- Name and value of the attributes up to the first that is malformed, and whether there is none such.
The fuel bounds their number. -/
def readAttributes : Nat → Bytes → List (Bytes × Bytes) × Bool
  | 0, _ => ([], false)
  | fuel + 1, input =>
    match input.dropWhile isBlank with
    | [] => ([], true)
    | input =>
      match splitKey input with
      | .error _ => ([], false)
      | .ok (name, rest) => match splitValue rest with
        | .error _ => ([], false)
        | .ok (value, rest) =>
          let (more, complete) := readAttributes fuel rest
          ((name, value) :: more, complete)

def leadingAttributes (input : Bytes) : List (Bytes × Bytes) × Bool :=
  readAttributes (input.length + 1) input

/-- Name and value of every attribute; no name may occur twice. -/
def attributes (input : Bytes) : Except Fault (List (Bytes × Bytes)) :=
  let (attributes, complete) := leadingAttributes input
  if complete && (attributes.map (·.1)).Nodup then .ok attributes else .error .badAttribute

end FleetEnergy.Markup

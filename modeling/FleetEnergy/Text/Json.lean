import FleetEnergy.Decimal.Layout

/-! JSON texts. A value is a tree whose objects keep the order of their members; it is written on one
line, or with every member on a line of its own. -/
namespace FleetEnergy.Text
set_option autoImplicit false

inductive Json
  | text (s : String)
  | whole (n : Nat)
  | number (x : Float)
  | array (items : List Json)
  | object (members : List (String × Json))

namespace Json

def hexDigit (n : Nat) : Char := Nat.digitChar (n % 16)

/-- A character inside a string: quotation mark, backslash and control characters are escaped. -/
def escape (c : Char) : List Char :=
  if c == '"' then ['\\', '"']
  else if c == '\\' then ['\\', '\\']
  else if c == '\n' then ['\\', 'n']
  else if c == '\r' then ['\\', 'r']
  else if c == '\t' then ['\\', 't']
  else if c == '\x08' then ['\\', 'b']
  else if c == '\x0c' then ['\\', 'f']
  else if c.toNat < 0x20 then ['\\', 'u', '0', '0', hexDigit (c.toNat / 16), hexDigit c.toNat]
  else [c]

def string (s : String) : String := "\"" ++ String.ofList (s.toList.flatMap escape) ++ "\""

mutual

/-- The value on one line, without blanks. -/
def compact : Json → String
  | .text s => string s
  | .whole n => toString n
  | .number x => Decimal.Layout.json.write x
  | .array items => "[" ++ ",".intercalate (compactItems items) ++ "]"
  | .object members => "\x7b" ++ ",".intercalate (compactMembers members) ++ "\x7d"

def compactItems : List Json → List String
  | [] => []
  | v :: r => compact v :: compactItems r

def compactMembers : List (String × Json) → List String
  | [] => []
  | (k, v) :: r => (string k ++ ":" ++ compact v) :: compactMembers r

end

/-- Two blanks for every level of nesting. -/
def indent (depth : Nat) : String := String.ofList (List.replicate (2 * depth) ' ')

/-- Parts on lines of their own between brackets; no parts stay on the line. -/
def bracketed (opening closing : String) (depth : Nat) (parts : List String) : String :=
  if parts.isEmpty then opening ++ closing
  else
    opening ++ "\n" ++ ",\n".intercalate (parts.map fun s => indent (depth + 1) ++ s) ++ "\n"
      ++ indent depth ++ closing

mutual

/-- The value with every item and member on a line of its own, at the given depth. -/
def prettyAt : Nat → Json → String
  | _, .text s => string s
  | _, .whole n => toString n
  | _, .number x => Decimal.Layout.json.write x
  | d, .array items => bracketed "[" "]" d (prettyItems (d + 1) items)
  | d, .object members => bracketed "\x7b" "\x7d" d (prettyMembers (d + 1) members)

def prettyItems : Nat → List Json → List String
  | _, [] => []
  | d, v :: r => prettyAt d v :: prettyItems d r

def prettyMembers : Nat → List (String × Json) → List String
  | _, [] => []
  | d, (k, v) :: r => (string k ++ ": " ++ prettyAt d v) :: prettyMembers d r

end

def pretty (v : Json) : String := prettyAt 0 v

end Json

end FleetEnergy.Text

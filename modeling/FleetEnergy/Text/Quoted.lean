import FleetEnergy.Text.Printable

/-! Texts in quotation marks, as they stand in messages. What cannot be shown is written as an escape,
so that the quoted text says exactly which characters were meant. -/
namespace FleetEnergy.Text
set_option autoImplicit false

/-- The number of a character in lower case hexadecimal digits. -/
def hexDigits (n : Nat) : List Char := Nat.toDigits 16 n

/-- The escape of a character by its number. -/
def numberEscape (c : Char) : List Char := "\\u\x7b".toList ++ hexDigits c.toNat ++ ['\x7d']

/-- A character inside quotation marks. -/
def escape (c : Char) : List Char :=
  if c == '\x00' then ['\\', '0']
  else if c == '\t' then ['\\', 't']
  else if c == '\r' then ['\\', 'r']
  else if c == '\n' then ['\\', 'n']
  else if c == '"' then ['\\', '"']
  else if c == '\\' then ['\\', '\\']
  else if 0x20 ≤ c.toNat && c.toNat ≤ 0x7E then [c]
  else if isExtending c then numberEscape c
  else if isPrintable c then [c]
  else numberEscape c

/-- A text in quotation marks. -/
def quoted (s : String) : String := "\"" ++ String.ofList (s.toList.flatMap escape) ++ "\""

/-- A path in quotation marks, in which the single mark is escaped too. -/
def quotedPath (s : String) : String :=
  let escapePath (c : Char) : List Char := if c == '\'' then ['\\', '\''] else escape c
  "\"" ++ String.ofList (s.toList.flatMap escapePath) ++ "\""

/-- A list of texts in quotation marks. -/
def quotedList (l : List String) : String := "[" ++ ", ".intercalate (l.map quoted) ++ "]"

/-! ## Structures written out for inspection -/

/-- A name with its fields in braces. -/
def record (name : String) (fields : List (String × String)) : String :=
  name ++ " \x7b " ++ ", ".intercalate (fields.map fun (k, v) => k ++ ": " ++ v) ++ " \x7d"

end FleetEnergy.Text

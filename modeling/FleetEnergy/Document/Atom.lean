import FleetEnergy.Decimal.Layout
import FleetEnergy.Decimal.Numeral
import FleetEnergy.Document.Glyph

/-! Atoms of documents: texts that stand there plain, between marks or as a block of lines. A plain text
may mean a number or another value; any other is a text, unless a tag says what it means. -/
namespace FleetEnergy.Document
set_option autoImplicit false

/-! ## What plain texts mean -/

inductive Meaning
  | null
  | flag (b : Bool)
  | whole (n : Nat)
  /-- Minus `n`. -/
  | negative (n : Nat)
  /-- A whole number that needs more than 64 bits. -/
  | wide
  | number (x : Float)
  | text
deriving BEq

def nullWords : List String := ["~", "null", "Null", "NULL"]

def trueWords : List String := ["true", "True", "TRUE"]

def falseWords : List String := ["false", "False", "FALSE"]

/-- The number that digits stand for in a base. -/
def digits? (base : Nat) (cs : List Char) : Option Nat :=
  if cs.isEmpty || cs.any (fun c => base ≤ digitOf c) then none
  else some (cs.foldl (fun n c => n * base + digitOf c) 0)

def dropPlus : List Char → List Char
  | '+' :: r => r
  | cs => cs

/-- Digits with a zero before them, which are no number. -/
def isPadded (cs : List Char) : Bool :=
  let unsigned := match cs with
    | '+' :: r => r
    | '-' :: r => r
    | r => r
  match unsigned with
  | '0' :: c :: r => (c :: r).all Char.isDigit
  | _ => false

/-- A whole number without a minus sign, in base ten or in a base that is named. -/
def unsigned? (cs : List Char) : Option Nat :=
  match dropPlus cs with
  | '0' :: 'x' :: r => digits? 16 r
  | '0' :: 'o' :: r => digits? 8 r
  | '0' :: 'b' :: r => digits? 2 r
  | r => if isPadded cs then none else digits? 10 r

/-- What follows the minus sign of a whole number. -/
def negated? (cs : List Char) : Option Nat :=
  match cs with
  | '-' :: '+' :: _ => none
  | '-' :: r => unsigned? r
  | _ => none

/-- A float. Of the values that are not finite only those that are written with a point are taken. -/
def float? (cs : List Char) : Option Float :=
  let rest := dropPlus cs
  let text := String.ofList rest
  if rest.length < cs.length && (rest.head? == some '+' || rest.head? == some '-') then none
  else if [".inf", ".Inf", ".INF"].contains text then some (1.0 / 0.0)
  else if ["-.inf", "-.Inf", "-.INF"].contains text then some (-1.0 / 0.0)
  else if [".nan", ".NaN", ".NAN"].contains (String.ofList cs) then some (0.0 / 0.0)
  else match Decimal.readNumber rest with
    | .ok x => if x.isFinite then some x else none
    | .error _ => none

def floatMeaning (cs : List Char) : Meaning := (float? cs).elim .text .number

def unsignedMeaning (n : Nat) : Option Meaning :=
  if n < Nat.pow 2 64 then some (.whole n) else if n < Nat.pow 2 128 then some .wide else none

def negatedMeaning (n : Nat) : Option Meaning :=
  if n ≤ Nat.pow 2 63 then some (.negative n) else if n ≤ Nat.pow 2 127 then some .wide else none

/-- The meaning of a whole number of at most 128 bits. -/
def wholeMeaning? (cs : List Char) : Option Meaning :=
  match unsigned? cs, negated? cs with
  | some n, _ => unsignedMeaning n
  | none, some n => negatedMeaning n
  | none, none => none

def flagMeaning? (cs : List Char) : Option Meaning :=
  let word := String.ofList cs
  if trueWords.contains word then some (.flag true)
  else if falseWords.contains word then some (.flag false)
  else none

/-- What a plain text means. -/
def meaning (cs : List Char) : Meaning :=
  if cs.isEmpty || nullWords.contains (String.ofList cs) then .null
  else ((flagMeaning? cs).orElse fun _ => wholeMeaning? cs).getD
    (if isPadded cs then .text else floatMeaning cs)

/-! ## Atoms -/

/-- How an atom is written. -/
inductive Style
  | plain
  | single
  | double
  | literal
  | folded
deriving DecidableEq, Repr

structure Atom where
  style : Style
  text : String
deriving DecidableEq, Repr

/-- What a tag says about the value after it. -/
inductive Tag
  /-- The value is the alternative with this name. -/
  | name (s : String)
  | null
  | flag
  | whole
  | number
  /-- Any other type; an atom of it is a text. -/
  | other
deriving DecidableEq, Repr

namespace Atom

def empty : Atom := ⟨.plain, ""⟩

def meaning (s : Atom) : Meaning := if s.style = .plain then Document.meaning s.text.toList else .text

/-- What an atom of a type means. -/
def meaningAs? (s : Atom) : Tag → Option Meaning
  | .name _ => none
  | .null => if nullWords.contains s.text then some .null else none
  | .flag => flagMeaning? s.text.toList
  | .whole => wholeMeaning? s.text.toList
  | .number => (float? s.text.toList).map .number
  | .other => some .text

end Atom

end FleetEnergy.Document

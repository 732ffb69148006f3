/-! Reading numerals. A whole number is an optional plus sign and digits. A number is an optional
sign and either a name for an infinite or undefined value, or digits with at most one point among
them and an optional power of ten. -/
namespace FleetEnergy.Decimal
set_option autoImplicit false

/-! ## Digits -/

def digit? (c : Char) : Option Nat := if c.isDigit then some (c.toNat - 48) else none

/-- The number that a list of digits denotes, continuing from `n`. -/
def natOfDigits (n : Nat) (cs : List Char) : Nat := cs.foldl (fun n c => n * 10 + (c.toNat - 48)) n

/-! ## Whole numbers -/

inductive WholeError
  | empty
  | invalidDigit
  | tooLarge
deriving DecidableEq, Repr

def WholeError.message : WholeError → String
  | .empty => "cannot parse integer from empty string"
  | .invalidDigit => "invalid digit found in string"
  | .tooLarge => "number too large to fit in target type"

/-- Reads on from the value `n`. The first fault from the left counts. -/
def readDigits (limit : Nat) : Nat → List Char → Except WholeError Nat
  | n, [] => .ok n
  | n, c :: r =>
    match digit? c with
    | none => .error .invalidDigit
    | some d => if n * 10 + d < limit then readDigits limit (n * 10 + d) r else .error .tooLarge

/-- Reads a whole number below `limit`. A sign alone has an invalid digit. -/
def readWhole (limit : Nat) : List Char → Except WholeError Nat
  | [] => .error .empty
  | '+' :: c :: r => readDigits limit 0 (c :: r)
  | cs => readDigits limit 0 cs

/-! ## Numbers -/

inductive NumberError
  | empty
  | invalid
deriving DecidableEq, Repr

def NumberError.message : NumberError → String
  | .empty => "cannot parse float from empty string"
  | .invalid => "invalid float literal"

/-- The float nearest to `mantissa · 10 ^ exponent`. Exponents beyond the range of the format are
answered without computing the power. -/
def nearest (mantissa : Nat) (exponent : Int) : Float :=
  if mantissa = 0 then 0.0
  else
    if 400 < exponent + (mantissa.log2 * 3 / 10 : Nat) then 1.0 / 0.0
    else if exponent + (mantissa.log2 : Nat) < -800 then 0.0
    else if exponent < 0 then Float.ofScientific mantissa true exponent.natAbs
    else Float.ofScientific mantissa false exponent.natAbs

/-- The power of ten after the mark `e`: a sign or none, and digits. -/
def readExponent (cs : List Char) : Option Int :=
  let (negative, ds) := match cs with
    | '-' :: r => (true, r)
    | '+' :: r => (false, r)
    | r => (false, r)
  if ds.isEmpty || ds.any (! ·.isDigit) then none
  else
    let n : Int := natOfDigits 0 ds
    some (if negative then -n else n)

/-- Mantissa and power of ten of an unsigned numeral in digits. -/
def readScientific (cs : List Char) : Option (Nat × Int) :=
  let whole := cs.takeWhile Char.isDigit
  let afterWhole := cs.dropWhile Char.isDigit
  let (fraction, rest) := match afterWhole with
    | '.' :: r => (r.takeWhile Char.isDigit, r.dropWhile Char.isDigit)
    | r => ([], r)
  if whole.isEmpty && fraction.isEmpty then none
  else
    let mantissa := natOfDigits (natOfDigits 0 whole) fraction
    let shift : Int := -(fraction.length : Int)
    match rest with
    | [] => some (mantissa, shift)
    | c :: r => if c == 'e' || c == 'E' then (readExponent r).map fun e => (mantissa, e + shift) else none

/-- An unsigned numeral; the names of the special values are taken in any letter case. -/
def readUnsigned (cs : List Char) : Option Float :=
  let name := String.ofList (cs.map Char.toLower)
  if name == "inf" || name == "infinity" then some (1.0 / 0.0)
  else if name == "nan" then some (0.0 / 0.0)
  else (readScientific cs).map fun (m, e) => nearest m e

/-- Reads a number, rounded to the nearest float. -/
def readNumber (cs : List Char) : Except NumberError Float :=
  let result := match cs with
    | '-' :: r => (readUnsigned r).map (- ·)
    | '+' :: r => readUnsigned r
    | r => readUnsigned r
  match cs, result with
  | [], _ => .error .empty
  | _, some x => .ok x
  | _, none => .error .invalid

end FleetEnergy.Decimal

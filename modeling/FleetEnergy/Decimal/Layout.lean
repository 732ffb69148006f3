import FleetEnergy.Decimal.Shortest

/-! How a float is written. All forms use the shortest digits that read back; a layout says when an
exponent is used and how the remaining signs are spelled. -/
namespace FleetEnergy.Decimal
set_option autoImplicit false

/-- The choices of a written form of floats. -/
structure Layout where
  /-- The powers of ten of the leading digit that are written without an exponent; `none` for all. -/
  positional : Option (Int × Int)
  /-- What is added to a whole number in positional form. -/
  wholeEnding : String
  /-- What stands between the mark `e` and an exponent that is not negative. -/
  exponentPlus : String
  undefined : String
  infinite : String
  negativeInfinite : String
  tie : Tie

/-! ## The layouts in use -/

/-- In messages: never an exponent, and whole numbers without a point. -/
def Layout.message : Layout := ⟨none, "", "", "NaN", "inf", "-inf", .upward⟩

/-- In structures that are written out for inspection. -/
def Layout.inspection : Layout := ⟨some (-4, 15), ".0", "", "NaN", "inf", "-inf", .upward⟩

/-- In JSON texts, where only finite numbers can be written. -/
def Layout.json : Layout := ⟨some (-5, 15), ".0", "+", "null", "null", "null", .toEven⟩

/-- In tables. -/
def Layout.table : Layout := ⟨some (-5, 15), ".0", "", "NaN", "inf", "-inf", .toEven⟩

/-- In configuration documents. -/
def Layout.document : Layout := ⟨some (-5, 15), ".0", "", ".nan", ".inf", "-.inf", .toEven⟩

/-! ## Writing -/

def natDigits (n : Nat) : List Char := Nat.toDigits 10 n

/-- The digits with the point after the power of ten `0`. -/
def positionalText (wholeEnding : String) (digits : List Char) (exponent : Int) : String :=
  if 0 ≤ exponent then
    String.ofList (digits ++ List.replicate exponent.toNat '0') ++ wholeEnding
  else
    let places := (-exponent).toNat
    let padded := List.replicate (places + 1 - digits.length) '0' ++ digits
    let cut := padded.length - places
    String.ofList (padded.take cut ++ '.' :: padded.drop cut)

/-- The first digit, the others after a point, and the power of ten of the first. -/
def exponentText (plus : String) (digits : List Char) (leading : Int) : String :=
  let mantissa := match digits with
    | [] => ""
    | [d] => String.ofList [d]
    | d :: ds => String.ofList (d :: '.' :: ds)
  let sign := if leading < 0 then "-" else plus
  mantissa ++ "e" ++ sign ++ String.ofList (natDigits leading.natAbs)

def Layout.unsigned (l : Layout) (mantissa : Nat) (exponent : Int) : String :=
  if mantissa = 0 then "0" ++ l.wholeEnding
  else
    let d := shortest l.tie mantissa exponent
    let digits := natDigits d.coefficient
    let leading := d.exponent + (digits.length : Int) - 1
    let plain := match l.positional with
      | none => true
      | some (lo, hi) => lo ≤ leading && leading ≤ hi
    if plain then positionalText l.wholeEnding digits d.exponent
    else exponentText l.exponentPlus digits leading

/-- The text of a float. -/
def Layout.write (l : Layout) (x : Float) : String :=
  match Parts.ofFloat x with
  | .undefined => l.undefined
  | .infinite negative => if negative then l.negativeInfinite else l.infinite
  | .finite negative mantissa exponent =>
    (if negative then "-" else "") ++ l.unsigned mantissa exponent

end FleetEnergy.Decimal

namespace FleetEnergy

/-- The text of a float in a message. -/
def plainText (x : Float) : String := Decimal.Layout.message.write x

end FleetEnergy

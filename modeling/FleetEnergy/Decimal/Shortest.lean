/-! The shortest decimal that reads back as a given float. A finite float is taken apart into
`mantissa · 2 ^ exponent`; the decimals that round to it form an interval around it. For one digit,
two digits and so on, the two neighbours of the value on that decimal grid are tried; the first grid
with a neighbour in the interval wins, and of two neighbours the nearer. -/
namespace FleetEnergy.Decimal
set_option autoImplicit false

/-! ## Taking a float apart -/

/-- What a float stands for: `finite negative mantissa exponent` is `± mantissa · 2 ^ exponent`. -/
inductive Parts
  | undefined
  | infinite (negative : Bool)
  | finite (negative : Bool) (mantissa : Nat) (exponent : Int)
deriving DecidableEq, Repr

/-- Reads the fields of the 64 bits: sign, eleven bits of exponent, 52 bits of mantissa. -/
def Parts.ofBits (bits : UInt64) : Parts :=
  let n := bits.toNat
  let negative : Bool := Nat.pow 2 63 ≤ n
  let field : Nat := n / Nat.pow 2 52 % 2048
  let fraction : Nat := n % Nat.pow 2 52
  if field = 2047 then (if fraction = 0 then .infinite negative else .undefined)
  else if field = 0 then .finite negative fraction (-1074)
  else .finite negative (Nat.pow 2 52 + fraction) ((field : Int) - 1075)

def Parts.ofFloat (x : Float) : Parts := .ofBits x.toBits

/-! ## Digits -/

/-- Which of two neighbours at the same distance is taken. -/
inductive Tie
  | upward
  | toEven
deriving DecidableEq, Repr

/-- The value `coefficient · 10 ^ exponent`. -/
structure Digits where
  coefficient : Nat
  exponent : Int
deriving DecidableEq, Repr

/-- Powers of ten of either sign as a fraction of natural numbers. -/
def tenPower (e : Int) : Nat × Nat := if 0 ≤ e then (Nat.pow 10 e.toNat, 1) else (1, Nat.pow 10 (-e).toNat)

/-- Half the distance to the next smaller float is half of that to the next larger one where the
mantissa is the least of its exponent. -/
def narrowBelow (mantissa : Nat) (exponent : Int) : Bool := mantissa == Nat.pow 2 52 && exponent != -1074

/-- The value and the ends of its rounding interval over a common denominator:
`(low, value, high, denominator)`. -/
def roundingInterval (mantissa : Nat) (exponent : Int) : Nat × Nat × Nat × Nat :=
  let up := if 0 ≤ exponent then Nat.pow 2 exponent.toNat else 1
  let down := if 0 ≤ exponent then 1 else Nat.pow 2 (-exponent).toNat
  let below := if narrowBelow mantissa exponent then 1 else 2
  ((4 * mantissa - below) * up, 4 * mantissa * up, (4 * mantissa + 2) * up, 4 * down)

/-- The nearest value on the grid of multiples of `10 ^ e` that lies in the rounding interval. The
ends of the interval belong to it where the mantissa is even. -/
def onGrid (tie : Tie) (mantissa : Nat) (exponent : Int) (e : Int) : Option Nat :=
  let (low, value, high, den) := roundingInterval mantissa exponent
  let (tn, td) := tenPower e
  let unit := tn * den
  let at_ (k : Nat) := k * unit
  let low := low * td
  let value := value * td
  let high := high * td
  let inside (k : Nat) : Bool :=
    0 < k && (if mantissa % 2 = 0 then low ≤ at_ k && at_ k ≤ high else low < at_ k && at_ k < high)
  let k := value / unit
  match inside k, inside (k + 1) with
  | false, false => none
  | true, false => some k
  | false, true => some (k + 1)
  | true, true =>
    let before := value - at_ k
    let after := at_ (k + 1) - value
    if before < after then some k
    else if after < before then some (k + 1)
    else match tie with
      | .upward => some (k + 1)
      | .toEven => some (if k % 2 = 0 then k else k + 1)

/-- Tries the grids from `10 ^ e` downwards, at most `fuel` of them. -/
def firstGrid (tie : Tie) (mantissa : Nat) (exponent : Int) : Int → Nat → Option Digits
  | _, 0 => none
  | e, fuel + 1 =>
    match onGrid tie mantissa exponent e with
    | some k => some ⟨k, e⟩
    | none => firstGrid tie mantissa exponent (e - 1) fuel

/-- An exponent such that the value is below ten to that power, and at most by two powers. -/
def leadingExponent (mantissa : Nat) (exponent : Int) : Int :=
  (((mantissa.log2 + 1 : Nat) : Int) + exponent) * 30103 / 100000 + 1

/-- Moves the zeros at the end of the coefficient into the exponent. -/
def dropZeros (d : Digits) : Nat → Digits
  | 0 => d
  | fuel + 1 =>
    if d.coefficient % 10 = 0 then dropZeros ⟨d.coefficient / 10, d.exponent + 1⟩ fuel else d

/-- The shortest decimal that reads back as `mantissa · 2 ^ exponent`, for a positive mantissa. -/
def shortest (tie : Tie) (mantissa : Nat) (exponent : Int) : Digits :=
  match firstGrid tie mantissa exponent (leadingExponent mantissa exponent) 22 with
  | some d => dropZeros d 400
  | none => ⟨mantissa, 0⟩

end FleetEnergy.Decimal

/-! A queue of values with the time at which each is due. The earliest comes out first; of values due
at the same time, the one that was added first. Times are compared in the total order of the 64 bit
floats, in which negative zero comes before zero and undefined values come at the ends, by their
sign. -/
namespace FleetEnergy
set_option autoImplicit false

/-! ## Instants -/

/-- A time with all its 64 bits, so that undefined values of either sign are told apart. -/
structure Instant where
  bits : UInt64
deriving DecidableEq, Repr

namespace Instant

def ofFloat (x : Float) : Instant := ⟨x.toBits⟩

def toFloat (t : Instant) : Float := Float.ofBits t.bits

/-- The place of an instant in the total order. -/
def rank (t : Instant) : Int :=
  let n := t.bits.toNat
  if Nat.pow 2 63 ≤ n then ((Nat.pow 2 63 : Nat) : Int) - 1 - n else n

/-- The undefined value that comes before everything else. -/
def beforeAll : Instant := ⟨0xFFF8000000000000⟩

/-- The instant `delay` after `now`. What follows an undefined instant is undefined with the same sign.
Of two opposite infinities there is no sum; it counts as before everything else. -/
def after (now : Instant) (delay : Float) : Instant :=
  let sum := now.toFloat + delay
  if now.toFloat.isNaN then ⟨now.bits ||| 0x0008000000000000⟩
  else if sum.isNaN && !delay.isNaN then beforeAll
  else ofFloat sum

end Instant

/-! ## The queue -/

/-- The values in the order in which they come out. -/
structure TimeQueue (α : Type) where
  toList : List (Instant × α)

namespace TimeQueue

variable {α : Type}

def empty : TimeQueue α := ⟨[]⟩

/-- Inserts an entry before the first one that is due later. -/
def insertSorted (e : Instant × α) : List (Instant × α) → List (Instant × α)
  | [] => [e]
  | f :: r => if e.1.rank < f.1.rank then e :: f :: r else f :: insertSorted e r

def add (q : TimeQueue α) (due : Instant) (value : α) : TimeQueue α :=
  ⟨insertSorted (due, value) q.toList⟩

/-- Takes the first entry out. -/
def pop (q : TimeQueue α) : Option ((Instant × α) × TimeQueue α) :=
  match q.toList with
  | [] => none
  | e :: r => some (e, ⟨r⟩)

def size (q : TimeQueue α) : Nat := q.toList.length

def isEmpty (q : TimeQueue α) : Bool := q.toList.isEmpty

end TimeQueue

end FleetEnergy

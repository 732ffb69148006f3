/-! Binary search for the place where a property stops to hold. On a sequence that has the property up
to some place and not from there on, the answer is that place. -/
namespace FleetEnergy
set_option autoImplicit false

/-- Halves the window of `size` places from `base` until one place is left, keeping the upper half if
its first place has the property. The fuel bounds the number of halvings. -/
def narrowWindow (p : Nat → Bool) : Nat → Nat → Nat → Nat
  | base, _, 0 => base
  | base, size, fuel + 1 =>
    if size ≤ 1 then base
    else
      let half := size / 2
      narrowWindow p (if p (base + half) then base + half else base) (size - half) fuel

/-- How many of the first `n` places have the property, if those that have it come first. -/
def partitionPoint (p : Nat → Bool) (n : Nat) : Nat :=
  if n = 0 then 0
  else
    let base := narrowWindow p 0 n n
    if p base then base + 1 else base

end FleetEnergy

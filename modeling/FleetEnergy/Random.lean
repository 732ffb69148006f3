import FleetEnergy.VehicleId

/-! Random numbers: the generator xoshiro256++, seeded through SplitMix64. Each vehicle has a generator
of its own, made from the seed of the scenario and the number of the vehicle, so that its numbers do
not depend on how many other vehicles there are. -/
namespace FleetEnergy
set_option autoImplicit false

namespace Random

/-! ## Seeding -/

/-- The step of the counter from which seeds are mixed: the odd number next to 2⁶⁴ over the golden
ratio. -/
def goldenStep : UInt64 := 0x9E3779B97F4A7C15

/-- Mixes the bits of a counter. -/
def mix (z : UInt64) : UInt64 :=
  let z := (z ^^^ (z >>> 30)) * 0xBF58476D1CE4E5B9
  let z := (z ^^^ (z >>> 27)) * 0x94D049BB133111EB
  z ^^^ (z >>> 31)

/-- The four words of the generator. -/
structure Generator where
  s0 : UInt64
  s1 : UInt64
  s2 : UInt64
  s3 : UInt64
deriving DecidableEq, Repr

def ofSeed (seed : UInt64) : Generator :=
  ⟨mix (seed + goldenStep), mix (seed + goldenStep + goldenStep),
   mix (seed + goldenStep + goldenStep + goldenStep),
   mix (seed + goldenStep + goldenStep + goldenStep + goldenStep)⟩

/-- The seed of one vehicle. -/
def combine (seed : UInt64) (vehicle : VehicleId) : UInt64 :=
  seed ^^^ ((vehicle.node.toUInt64 + 1) * goldenStep)

def forVehicle (seed : UInt64) (vehicle : VehicleId) : Generator := ofSeed (combine seed vehicle)

/-! ## Drawing -/

def rotateLeft (x k : UInt64) : UInt64 := (x <<< k) ||| (x >>> (64 - k))

/-- The next 64 bits and the generator after them. -/
def next (g : Generator) : UInt64 × Generator :=
  let s2 := g.s2 ^^^ g.s0
  let s3 := g.s3 ^^^ g.s1
  (rotateLeft (g.s0 + g.s3) 23 + g.s0,
   ⟨g.s0 ^^^ s3, g.s1 ^^^ s2, s2 ^^^ (g.s1 <<< 17), rotateLeft s3 45⟩)

/-- The float in [0, 1) whose fraction is the upper 52 bits. -/
def unitFloat (u : UInt64) : Float := Float.ofBits ((u >>> 12) ||| 0x3FF0000000000000) - 1.0

/-- A number from `low` to `high`. There is none where the bounds are out of order or their distance
is not finite; then nothing is drawn. -/
def between (low high : Float) (g : Generator) : Option (Float × Generator) :=
  if low ≤ high then
    let scale := high - low
    if scale.isFinite then
      let (u, g) := next g
      some (unitFloat u * scale + low, g)
    else none
  else none

end Random

end FleetEnergy

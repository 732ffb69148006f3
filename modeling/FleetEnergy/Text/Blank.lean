/-! Blank characters, and cutting a text into its words. The words of a text are its maximal stretches
without a blank. -/
namespace FleetEnergy.Text
set_option autoImplicit false

/-- The characters with the Unicode property `White_Space`. -/
def isBlank (c : Char) : Bool :=
  let n := c.toNat
  (9 ≤ n && n ≤ 13) || n == 0x20 || n == 0x85 || n == 0xA0 || n == 0x1680
    || (0x2000 ≤ n && n ≤ 0x200A) || n == 0x2028 || n == 0x2029 || n == 0x202F || n == 0x205F
    || n == 0x3000

/-- Drops the characters of a class at the end. -/
def dropRight (p : Char → Bool) (cs : List Char) : List Char := (cs.reverse.dropWhile p).reverse

/-- Drops the characters of a class at both ends. -/
def strip (p : Char → Bool) (cs : List Char) : List Char := dropRight p (cs.dropWhile p)

def trim (cs : List Char) : List Char := strip isBlank cs

/-- The stretches between separators, in order; neighbouring separators enclose an empty one. -/
def splitAtEvery (p : Char → Bool) : List Char → List (List Char)
  | [] => [[]]
  | c :: r =>
    if p c then [] :: splitAtEvery p r
    else match splitAtEvery p r with
      | [] => [[c]]
      | w :: ws => (c :: w) :: ws

/-- The words of a text. -/
def words (cs : List Char) : List (List Char) := (splitAtEvery isBlank cs).filter (! ·.isEmpty)

end FleetEnergy.Text

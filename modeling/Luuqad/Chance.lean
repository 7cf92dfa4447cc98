import Luuqad.Number.Scale

/-!
# Chance

A sequence of numbers that look random, from a seed. The next seed is a linear function of the last
one; the upper bits of several seeds make one draw.
-/

namespace Luuqad

/-- The state of a sequence of draws. -/
structure Chance where
  seed : Nat := 0
deriving Inhabited

namespace Chance

/-- The next thirty-two bits. -/
def next (c : Chance) : Nat × Chance :=
  let seed := (c.seed * 6364136223846793005 + 1442695040888963407) % Number.pow2 64
  (seed / Number.pow2 32, ⟨seed⟩)

/-- A number of `32 * words` bits. -/
def bits (c : Chance) : Nat → Nat × Chance
  | 0 => (0, c)
  | words + 1 =>
    let (high, c) := c.bits words
    let (low, c) := c.next
    (high * Number.pow2 32 + low, c)

def below (c : Chance) (n : Nat) : Nat × Chance :=
  let (draw, c) := c.bits (n.log2 / 32 + 2)
  (draw % n, c)

/-- A double from zero to one, below one. -/
def unit (c : Chance) : Float × Chance :=
  let (draw, c) := c.below (Number.pow2 53)
  (Float.ofScientific draw false 0 / Float.ofScientific (Number.pow2 53) false 0, c)

end Chance

end Luuqad

import Luuqad.Number.Binary

/-!
# Powers

Powers of whole numbers are exact as long as they are of a reasonable size. A power of doubles
exists if it is a finite real number; zero has no negative power.
-/

namespace Luuqad.Number

/-- The greatest size of a power, in bits. -/
def powerLimit : Nat := pow2 27

/-- A power of a whole number, unless it is too large to be written down. -/
def wholePower? (base : Int) (exponent : Nat) : Option Int :=
  if exponent = 0 then some 1
  else if base.natAbs ≤ 1 then some (if exponent % 2 = 0 then base * base else base)
  else if exponent * (base.natAbs.log2 + 1) ≤ powerLimit then
    let size : Nat := Nat.pow base.natAbs exponent
    some (if base < 0 && exponent % 2 = 1 then -(size : Int) else size)
  else none

def isFinite (x : Float) : Bool :=
  match decode x with
  | .finite _ => true
  | _ => false

def power? (base exponent : Float) : Option Float :=
  let result := base.pow exponent
  if !isFinite base || !isFinite exponent then some result
  else if base == 0 && exponent < 0 then none
  else if base < 0 && exponent != exponent.floor then none
  else if isFinite result then some result
  else none

end Luuqad.Number

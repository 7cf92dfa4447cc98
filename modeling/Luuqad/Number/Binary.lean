import Luuqad.Number.Scale

/-!
# Binary floating point, exactly

A finite double is a whole number of units `2 ^ exponent`. `decode` gives that form from the bits,
`nearest` goes back from a quotient of whole numbers by rounding to the nearest double, ties to the
even one. Everything between the two is arithmetic on whole numbers.
-/

namespace Luuqad.Number

/-- The number `± mantissa · 2 ^ exponent`. -/
structure Dyadic where
  negative : Bool
  mantissa : Nat
  exponent : Int
deriving DecidableEq, Repr, Inhabited

/-- What the bits of a double stand for. -/
inductive Decoded
  | nan
  | infinite (negative : Bool)
  | finite (d : Dyadic)
deriving DecidableEq, Repr, Inhabited

def decode (x : Float) : Decoded :=
  let bits := x.toBits.toNat
  let negative := bits / pow2 63 == 1
  let biased : Nat := bits / pow2 52 % 2048
  let fraction : Nat := bits % pow2 52
  if biased == 2047 then
    if fraction == 0 then .infinite negative else .nan
  else if biased == 0 then .finite ⟨negative, fraction, -1074⟩
  else .finite ⟨negative, fraction + pow2 52, (biased : Int) - 1075⟩

/-- The whole number nearest to `n / d`, ties to the even one. -/
def roundDiv (n d : Nat) : Nat :=
  let q := n / d
  let r := n % d
  if 2 * r < d then q
  else if d < 2 * r then q + 1
  else if q % 2 == 0 then q else q + 1

/-- Numerator and denominator of `num / den` counted in units of `2 ^ exponent`. -/
def inUnits (num den : Nat) (exponent : Int) : Nat × Nat :=
  if 0 ≤ exponent then (num, den * pow2 exponent.toNat)
  else (num * pow2 (-exponent).toNat, den)

/-- The exponent of the units in which `num / den` has a mantissa of 53 bits, or the least exponent
of all if that is larger. -/
def unitExponent (num den : Nat) : Int :=
  let guess : Int := (num.log2 : Int) - (den.log2 : Int) - 53
  let (n, d) := inUnits num den guess
  let fitted := if n / d < pow2 53 then guess else guess + 1
  max fitted (-1074)

/-- The bits of the positive double `mantissa · 2 ^ exponent`, if the mantissa has 53 bits or the
exponent is the least one. -/
def assemble (mantissa : Nat) (exponent : Int) : Nat :=
  if mantissa < pow2 52 then mantissa
  else (exponent + 1075).toNat * pow2 52 + (mantissa - pow2 52)

/-- The double nearest to `num / den`, with the given sign; nothing if it is out of range. -/
def nearest (negative : Bool) (num den : Nat) : Option Float :=
  let signBit := if negative then pow2 63 else 0
  if num == 0 then some (Float.ofBits signBit.toUInt64)
  else
    let exponent := unitExponent num den
    let (n, d) := inUnits num den exponent
    let rounded := roundDiv n d
    let (mantissa, exponent) :=
      if rounded == pow2 53 then (pow2 52, exponent + 1) else (rounded, exponent)
    if 971 < exponent then none
    else some (Float.ofBits (signBit + assemble mantissa exponent).toUInt64)

def infinity (negative : Bool) : Float :=
  Float.ofBits (if negative then 0xfff0000000000000 else 0x7ff0000000000000)

def nan : Float := Float.ofBits 0x7ff8000000000000

def zero (negative : Bool) : Float :=
  Float.ofBits (if negative then 0x8000000000000000 else 0)

/-- The double nearest to a whole number, if it is in range. -/
def ofInt? (i : Int) : Option Float := nearest (i < 0) i.natAbs 1

/-- The double nearest to the quotient of two whole numbers, if it is in range. -/
def divide? (a b : Int) : Option Float := nearest ((a < 0) != (b < 0)) a.natAbs b.natAbs

/-- The whole part of a dyadic number, toward zero. -/
def Dyadic.truncate (d : Dyadic) : Int :=
  let size : Nat :=
    if 0 ≤ d.exponent then d.mantissa * pow2 d.exponent.toNat
    else d.mantissa / pow2 (-d.exponent).toNat
  if d.negative then -(size : Int) else size

def Dyadic.isWhole (d : Dyadic) : Bool :=
  0 ≤ d.exponent || d.mantissa % pow2 (-d.exponent).toNat == 0

def Dyadic.floor (d : Dyadic) : Int :=
  if d.isWhole || !d.negative then d.truncate else d.truncate - 1

def Dyadic.ceil (d : Dyadic) : Int :=
  if d.isWhole || d.negative then d.truncate else d.truncate + 1

def Dyadic.signed (d : Dyadic) : Int :=
  if d.negative then -(d.mantissa : Int) else d.mantissa

def Dyadic.compareInt (i : Int) (d : Dyadic) : Ordering :=
  if 0 ≤ d.exponent then compare i (d.signed * pow2 d.exponent.toNat)
  else compare (i * pow2 (-d.exponent).toNat) d.signed

/-- How two dyadic numbers compare: both are counted in the smaller one of their units. -/
def Dyadic.compareTo (a b : Dyadic) : Ordering :=
  let unit := min a.exponent b.exponent
  compare (a.signed * pow2 (a.exponent - unit).toNat) (b.signed * pow2 (b.exponent - unit).toNat)

/-- Remainder of the division of two dyadic numbers, with the quotient rounded toward zero; it has
the sign of the first. The second is not zero. -/
def Dyadic.remainder (a b : Dyadic) : Float :=
  let unit := min a.exponent b.exponent
  let x := a.mantissa * pow2 (a.exponent - unit).toNat
  let y := b.mantissa * pow2 (b.exponent - unit).toNat
  let r := x % y
  let result :=
    if 0 ≤ unit then nearest a.negative (r * pow2 unit.toNat) 1
    else nearest a.negative r (pow2 (-unit).toNat)
  result.getD nan

/-- Remainder of the division of two doubles, with the quotient rounded toward zero. -/
def truncatedRemainder (x y : Float) : Float :=
  match decode x, decode y with
  | .nan, _ | _, .nan | .infinite _, _ => nan
  | .finite _, .infinite _ => x
  | .finite a, .finite b => if b.mantissa == 0 then nan else a.remainder b

def signBit (x : Float) : Bool := x.toBits.toNat / pow2 63 == 1

/-- Remainder with the quotient rounded down: it has the sign of the divisor, also when it is
zero. -/
def flooredRemainder (x y : Float) : Float :=
  let r := truncatedRemainder x y
  if r == 0 then zero (signBit y)
  else if (y < 0) != (r < 0) then r + y else r

/-- Quotient rounded down, as a double: what is left after the remainder is taken off is divided,
and the result, which is whole but for rounding, is moved to the nearest whole number. -/
def flooredQuotient (x y : Float) : Float :=
  let r := truncatedRemainder x y
  let q := (x - r) / y
  let q := if r != 0 && (y < 0) != (r < 0) then q - 1 else q
  if q == 0 then zero (signBit (x / y))
  else
    let down := q.floor
    if 0.5 < q - down then down + 1 else down

end Luuqad.Number

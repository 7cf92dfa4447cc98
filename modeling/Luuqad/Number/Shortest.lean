import Luuqad.Number.Binary

/-!
# Fewest digits

The decimal number with the fewest digits that is read back as a given double. The doubles' reading
rounds to nearest, so the numbers read as `m · 2 ^ q` form an interval around it, whose ends belong
to it when `m` is even. For one digit, then two, and so on, the two neighbours of the number on the
decimal grid of that many digits are tried; the first grid with a neighbour in the interval wins,
and of two neighbours the nearer one, or the even one if both are equally near.
-/

namespace Luuqad.Number

/-- The number `digits · 10 ^ exponent`. -/
structure Decimal where
  digits : Nat
  exponent : Int
deriving DecidableEq, Repr, Inhabited

/-- A positive rational number scaled by a power of ten: numerator and denominator of
`num / den / 10 ^ k`. -/
def perPowerOfTen (num den : Nat) (k : Int) : Nat × Nat :=
  if 0 ≤ k then (num, den * pow10 k.toNat) else (num * pow10 (-k).toNat, den)

/-- The `e` with `10 ^ e ≤ num / den < 10 ^ (e + 1)`. -/
def magnitude (num den : Nat) : Int :=
  let bits : Int := (num.log2 : Int) - (den.log2 : Int)
  let guess := Int.fdiv (bits * 30103) 100000
  let (n, d) := perPowerOfTen num den guess
  if n < d then
    let (n', d') := perPowerOfTen num den (guess - 1)
    if n' < d' then guess - 2 else guess - 1
  else
    let (n', d') := perPowerOfTen num den (guess + 1)
    if n' < d' then guess
    else
      let (n'', d'') := perPowerOfTen num den (guess + 2)
      if n'' < d'' then guess + 1 else guess + 2

/-- The interval of numbers that are read as a double, in quarters of its unit. -/
structure Interval where
  value : Nat
  low : Nat
  high : Nat
  closed : Bool
  /-- Denominator and numerator of a quarter of the unit. -/
  num : Nat
  den : Nat

def Dyadic.interval (d : Dyadic) : Interval :=
  let narrow := d.mantissa == pow2 52 && -1074 < d.exponent
  let unit := d.exponent - 2
  { value := 4 * d.mantissa
    low := 4 * d.mantissa - (if narrow then 1 else 2)
    high := 4 * d.mantissa + 2
    closed := d.mantissa % 2 == 0
    num := if 0 ≤ unit then pow2 unit.toNat else 1
    den := if 0 ≤ unit then 1 else pow2 (-unit).toNat }

/-- Whether `n · 10 ^ k` lies in the interval. -/
def Interval.holds (i : Interval) (n : Nat) (k : Int) : Bool :=
  -- compare `n · 10 ^ k · den` with `bound · num`
  let (left, scale) := if 0 ≤ k then (n * pow10 k.toNat * i.den, 1)
    else (n * i.den, pow10 (-k).toNat)
  let low := i.low * i.num * scale
  let high := i.high * i.num * scale
  if i.closed then low ≤ left && left ≤ high else low < left && left < high

/-- The nearest grid point of the interval on the grid of multiples of `10 ^ k`, if there is one. -/
def Interval.point? (i : Interval) (k : Int) : Option Nat :=
  let (n, d) := perPowerOfTen (i.value * i.num) i.den k
  let below := n / d
  let above := below + 1
  match i.holds below k, i.holds above k with
  | true, true => some (roundDiv n d)
  | true, false => some below
  | false, true => some above
  | false, false => none

/-- The first grid with a point, starting at multiples of `10 ^ k`, in at most `fuel` steps. -/
def Interval.search (i : Interval) (k : Int) : Nat → Decimal
  | 0 => let (n, d) := perPowerOfTen (i.value * i.num) i.den k; ⟨roundDiv n d, k⟩
  | fuel + 1 =>
    match i.point? k with
    | some n => ⟨n, k⟩
    | none => i.search (k - 1) fuel

/-- Fewest digits that are read back as the positive dyadic number; seventeen always suffice. -/
def Dyadic.shortest (d : Dyadic) : Decimal :=
  let i := d.interval
  i.search (magnitude (i.value * i.num) i.den) 17

end Luuqad.Number

import Luuqad.Number.Written

/-!
# Complex numbers

Pairs of doubles, computed with part by part. They turn up where a negative number is raised to a
power that is not whole. Whole powers up to the hundredth are products, other powers are taken in
polar form. A number with nothing but an imaginary part is written without parentheses.
-/

namespace Luuqad.Number

/-- The number `re + im · i`. -/
structure Complex where
  re : Float
  im : Float
deriving Repr, Inhabited

namespace Complex

def ofFloat (x : Float) : Complex := ⟨x, 0⟩

def add (a b : Complex) : Complex := ⟨a.re + b.re, a.im + b.im⟩

def sub (a b : Complex) : Complex := ⟨a.re - b.re, a.im - b.im⟩

def neg (a : Complex) : Complex := ⟨-a.re, -a.im⟩

def mul (a b : Complex) : Complex :=
  ⟨a.re * b.re - a.im * b.im, a.re * b.im + a.im * b.re⟩

/-- Quotient by a number other than zero. Both numbers are first divided by the larger part of the
divisor, so that no square can leave the range of doubles. -/
def div? (a b : Complex) : Option Complex :=
  if b.im.abs ≤ b.re.abs then
    if b.re == 0 then none
    else
      let ratio := b.im / b.re
      let size := b.re + b.im * ratio
      some ⟨(a.re + a.im * ratio) / size, (a.im - a.re * ratio) / size⟩
  else
    let ratio := b.re / b.im
    let size := b.re * ratio + b.im
    some ⟨(a.re * ratio + a.im) / size, (a.im * ratio - a.re) / size⟩

/-- `result · base ^ n`, by squaring. -/
def timesPower (result base : Complex) (n : Nat) : Complex :=
  if h : n = 0 then result
  else timesPower (if n % 2 = 1 then result.mul base else result) (base.mul base) (n / 2)
termination_by n
decreasing_by exact Nat.div_lt_self (Nat.pos_of_ne_zero h) (Nat.lt_succ_self 1)

def wholePower? (base : Complex) (n : Int) : Option Complex :=
  let size := timesPower (ofFloat 1) base n.natAbs
  if 0 < n then some size else (ofFloat 1).div? size

/-- The distance from zero. -/
def length (a : Complex) : Float :=
  if a.im == 0 then a.re.abs
  else if a.re == 0 then a.im.abs
  else (a.re * a.re + a.im * a.im).sqrt

/-- A power in polar form. -/
def polarPower? (base exponent : Complex) : Option Complex :=
  if base.re == 0 && base.im == 0 then
    if exponent.im != 0 || exponent.re < 0 then none else some (ofFloat 0)
  else
    let angle := base.im.atan2 base.re
    let size := base.length.pow exponent.re
    let turn := angle * exponent.re
    let (size, turn) :=
      if exponent.im == 0 then (size, turn)
      else (size / (angle * exponent.im).exp, turn + exponent.im * base.length.log)
    some ⟨size * turn.cos, size * turn.sin⟩

/-- The greatest exponent whose power is computed as a product. -/
def productLimit : Nat := 100

/-- The whole number that an exponent is, if its power is computed as a product. -/
def smallWhole? (exponent : Complex) : Option Int :=
  match decode exponent.re with
  | .finite d =>
    if exponent.im == 0 && d.isWhole && d.truncate.natAbs ≤ productLimit then some d.truncate
    else none
  | _ => none

def isInfinite (x : Float) : Bool :=
  match decode x with
  | .infinite _ => true
  | _ => false

/-- A power; nothing if it leaves the range of doubles, or if zero has no such power. -/
def power? (base exponent : Complex) : Option Complex := do
  let result ← match exponent.smallWhole? with
    | some n => base.wholePower? n
    | none => base.polarPower? exponent
  if isInfinite result.re || isInfinite result.im then none else return result

/-- A part of a complex number: a whole one is written like a whole number. -/
def partText (x : Float) : List Char :=
  let text := (writeFloat x).toList
  if ['.', '0'].isSuffixOf text then text.take (text.length - 2) else text

def text (a : Complex) : String :=
  let im := partText a.im
  if a.re == 0 && !signBit a.re then String.ofList (im ++ ['j'])
  else
    let im := if im.head? = some '-' then im else '+' :: im
    String.ofList ('(' :: partText a.re ++ im ++ ['j', ')'])

end Complex

end Luuqad.Number

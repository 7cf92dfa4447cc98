import Luuqad.Number.Written

/-!
# Doubles with a chosen number of digits

A double written with a given number of places after the point, with a given number of places before
an exponent, or with a given number of digits in the shorter of the two ways. The exact value is
rounded, and a tie goes to the even digit.
-/

namespace Luuqad.Number

/-- Numerator and denominator of the size of a dyadic number. -/
def Dyadic.fraction (d : Dyadic) : Nat × Nat :=
  if 0 ≤ d.exponent then (d.mantissa * pow2 d.exponent.toNat, 1)
  else (d.mantissa, pow2 (-d.exponent).toNat)

/-- Digits filled with zeros in front to a given width. -/
def padDigits (width : Nat) (digits : List Char) : List Char :=
  List.replicate (width - digits.length) '0' ++ digits

/-- A fraction after its point. The point is written when there are digits after it, or always. -/
def pointed (always : Bool) (fraction : List Char) : List Char :=
  if fraction.isEmpty && !always then [] else '.' :: fraction

/-- The size of a number with `places` digits after the point. -/
def writeFixed (alwaysPoint : Bool) (d : Dyadic) (places : Nat) : List Char :=
  let (n, den) := d.fraction
  let digits := padDigits (places + 1) (digitsOf (roundDiv (n * pow10 places) den))
  let whole := digits.length - places
  digits.take whole ++ pointed alwaysPoint (digits.drop whole)

/-- The first `count` digits of the size of a number, rounded, and the power of ten of the first. -/
def leadingDigits (d : Dyadic) (count : Nat) : List Char × Int :=
  let (n, den) := d.fraction
  if n == 0 then (List.replicate count '0', 0)
  else
    let e := magnitude n den
    let (n', d') := perPowerOfTen n den (e - (count - 1 : Nat))
    let q := roundDiv n' d'
    if q == pow10 count then (digitsOf (q / 10), e + 1) else (digitsOf q, e)

/-- Digits with a point after the first, and an exponent. -/
def scientific (alwaysPoint : Bool) (digits : List Char) (e : Int) : List Char :=
  digits.take 1 ++ pointed alwaysPoint (digits.drop 1) ++ 'e' :: writeExponent 2 e

/-- The size of a number with one digit before the point, `places` after it, and an exponent. -/
def writeScientific (alwaysPoint : Bool) (d : Dyadic) (places : Nat) : List Char :=
  let (digits, e) := leadingDigits d (places + 1)
  scientific alwaysPoint digits e

/-- The size of a number with `count` digits, with an exponent if it is far from one. Zeros at the
end are left out unless `full`. -/
def writeGeneral (full : Bool) (d : Dyadic) (count : Nat) : List Char :=
  let count := max count 1
  let (digits, e) := leadingDigits d count
  let kept := if full then digits else dropEndZeros digits
  if -4 ≤ e && e < (count : Int) then
    if e < 0 then
      '0' :: pointed full (List.replicate ((-e).toNat - 1) '0' ++ kept)
    else
      let whole := e.toNat + 1
      let body := kept ++ List.replicate (whole - kept.length) '0'
      body.take whole ++ pointed full (body.drop whole)
  else scientific full (if kept.isEmpty then ['0'] else kept) e

end Luuqad.Number

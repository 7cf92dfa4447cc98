import Luuqad.Failure
import Luuqad.Number.Shortest

/-!
# How numbers are written

Whole numbers are written in decimal, up to 4300 digits. Doubles are written with the fewest digits
that read back: in positions when the point falls between the fourth place after it and the
sixteenth before it, with an exponent otherwise, and always so that they differ from a whole number.
-/

namespace Luuqad.Number

def digitsOf (n : Nat) : List Char := Nat.toDigits 10 n

def dropEndZeros (cs : List Char) : List Char := (cs.reverse.dropWhile (· == '0')).reverse

/-- The limits of positional notation and the least width of an exponent. -/
structure FloatFormat where
  /-- Least place of the first digit, counted from the point, that is written in positions. -/
  leastPoint : Int
  /-- Greatest place of the point that is written in positions. -/
  mostPoint : Int
  exponentWidth : Nat

/-- How the language shows doubles. -/
def shownFloat : FloatFormat := ⟨-3, 16, 2⟩

/-- An exponent with its sign, filled with zeros. -/
def writeExponent (width : Nat) (e : Int) : List Char :=
  let digits := digitsOf e.natAbs
  (if e < 0 then '-' else '+') :: (List.replicate (width - digits.length) '0' ++ digits)

/-- Digits with the point after the first `point` of them. -/
def FloatFormat.write (f : FloatFormat) (digits : List Char) (point : Int) : List Char :=
  if f.leastPoint ≤ point && point ≤ f.mostPoint then
    if point ≤ 0 then '0' :: '.' :: (List.replicate (-point).toNat '0' ++ digits)
    else if digits.length ≤ point.toNat then
      digits ++ List.replicate (point.toNat - digits.length) '0' ++ ['.', '0']
    else digits.take point.toNat ++ '.' :: digits.drop point.toNat
  else
    let fraction := digits.drop 1
    digits.take 1 ++ (if fraction.isEmpty then [] else '.' :: fraction) ++
      'e' :: writeExponent f.exponentWidth (point - 1)

/-- A double as the language shows it. -/
def writeFloat (x : Float) : String :=
  match decode x with
  | .nan => "nan"
  | .infinite negative => if negative then "-inf" else "inf"
  | .finite d =>
    let body :=
      if d.mantissa == 0 then ['0', '.', '0']
      else
        let s := d.shortest
        let all := digitsOf s.digits
        shownFloat.write (dropEndZeros all) (s.exponent + all.length)
    String.ofList (if d.negative then '-' :: body else body)

/-- The greatest number of digits of a whole number that is written or read. -/
def digitLimit : Nat := 4300

def decimal (i : Int) : String :=
  String.ofList (if i < 0 then '-' :: digitsOf i.natAbs else digitsOf i.natAbs)

def beyondLimit (n : Nat) : Bool := pow10 digitLimit ≤ n

/-- A whole number in decimal, unless it has too many digits. -/
def writeInt (i : Int) : Except Failure String :=
  if beyondLimit i.natAbs then .error .tooManyDigits else .ok (decimal i)

end Luuqad.Number

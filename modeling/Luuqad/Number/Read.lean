import Luuqad.Failure
import Luuqad.Text.Blank
import Luuqad.Text.Digit
import Luuqad.Number.Binary
import Luuqad.Number.Written

/-!
# How numbers are read

Digits of any script count, single underscores may stand between digits, and blanks may surround the
number. A double may have a point and an exponent, and may be infinite or not a number.
-/

namespace Luuqad.Number

/-- The blanks among the first 128 characters that may surround a number. -/
def isPlainSpace (c : Char) : Bool := c == ' ' || (9 ≤ c.toNat && c.toNat ≤ 13)

/-- Digits of other scripts become plain digits, and blanks of other scripts become spaces. -/
def plainChar (c : Char) : Char :=
  if c.toNat < 128 then c
  else match Text.decimalValue? c with
    | some n => Char.ofNat (48 + n)
    | none => if Text.isBlank c then ' ' else c

def trimSpaces (cs : List Char) : List Char :=
  ((cs.dropWhile isPlainSpace).reverse.dropWhile isPlainSpace).reverse

/-- Split off a sign; true for minus. -/
def splitSign : List Char → Bool × List Char
  | '-' :: rest => (true, rest)
  | '+' :: rest => (false, rest)
  | cs => (false, cs)

/-- Whether each underscore stands between two digits; `before` is the character in front. -/
def underscoresFit (before : Char) : List Char → Bool
  | [] => before != '_'
  | c :: rest =>
    (if c == '_' then before.isDigit else before != '_' || c.isDigit) && underscoresFit c rest

/-- The number that plain digits write. -/
def valueOf (digits : List Char) : Nat :=
  digits.foldl (fun n c => 10 * n + (c.toNat - 48)) 0

def readInt (text : String) : Except Failure Int :=
  let (negative, body) := splitSign ((text.toList.map plainChar).dropWhile isPlainSpace)
  let run := body.takeWhile fun c => c.isDigit || c == '_'
  let rest := body.dropWhile fun c => c.isDigit || c == '_'
  let digits := run.filter (· != '_')
  if run.isEmpty || !underscoresFit '_' run then .error (.notIntegerText text)
  else if digitLimit < digits.length then .error (.tooManyDigitsInText digits.length)
  else if rest.all isPlainSpace then
    let n := valueOf digits
    .ok (if negative then -(n : Int) else n)
  else .error (.notIntegerText text)

/-- The double nearest to `digits · 10 ^ exponent`; a number out of range is infinite. -/
def ofDecimal (negative : Bool) (digits : Nat) (exponent : Int) : Float :=
  let point := exponent + (digitsOf digits).length
  if digits == 0 || point < -400 then zero negative
  else if 400 < point then infinity negative
  else
    let result :=
      if 0 ≤ exponent then nearest negative (digits * pow10 exponent.toNat) 1
      else nearest negative digits (pow10 (-exponent).toNat)
    result.getD (infinity negative)

/-- Read what may follow the digits of a double: nothing, or an exponent. -/
def readExponent? : List Char → Option Int
  | [] => some 0
  | c :: rest =>
    if c == 'e' || c == 'E' then
      let (negative, digits) := splitSign rest
      if !digits.isEmpty && digits.all Char.isDigit then
        some (if negative then -(valueOf digits : Int) else valueOf digits)
      else none
    else none

/-- Read an unsigned double without underscores. -/
def readUnsigned? (negative : Bool) (cs : List Char) : Option Float :=
  let word := String.ofList (cs.map Char.toLower)
  if word == "inf" || word == "infinity" then some (infinity negative)
  else if word == "nan" then some nan
  else
    let whole := cs.takeWhile Char.isDigit
    let afterWhole := cs.dropWhile Char.isDigit
    let (fraction, rest) := match afterWhole with
      | '.' :: more => (more.takeWhile Char.isDigit, more.dropWhile Char.isDigit)
      | _ => ([], afterWhole)
    if whole.isEmpty && fraction.isEmpty then none
    else (readExponent? rest).map fun e =>
      ofDecimal negative (valueOf (whole ++ fraction)) (e - fraction.length)

def readFloat (text : String) : Except Failure Float :=
  let (negative, body) := splitSign (trimSpaces (text.toList.map plainChar))
  if !underscoresFit 'x' body then .error (.notFloatText text)
  else match readUnsigned? negative (body.filter (· != '_')) with
    | some x => .ok x
    | none => .error (.notFloatText text)

end Luuqad.Number

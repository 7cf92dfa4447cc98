import Luuqad.Text.Printable

/-!
# Quoted text

A text is shown inside quotes so that it can be told apart from a name. Apostrophes are the quotes,
unless the text holds apostrophes and no double quotes. The quote and the backslash are escaped,
as are the characters that cannot be shown.
-/

namespace Luuqad.Text

/-- Lower case hexadecimal digits of `n`, filled with zeros to `width` digits. -/
def hex (width n : Nat) : List Char :=
  let digits := Nat.toDigits 16 n
  List.replicate (width - digits.length) '0' ++ digits

/-- The escape that names a code point: two, four or eight digits. -/
def escapeCode (n : Nat) : List Char :=
  if n ≤ 0xff then '\\' :: 'x' :: hex 2 n
  else if n ≤ 0xffff then '\\' :: 'u' :: hex 4 n
  else '\\' :: 'U' :: hex 8 n

/-- The quote that surrounds a text. -/
def quoteMark (cs : List Char) : Char :=
  if cs.contains '\x27' && !cs.contains '\x22' then '\x22' else '\x27'

/-- How one character is written between the quotes `mark`. -/
def escapeChar (mark c : Char) : List Char :=
  if c == mark || c == '\\' then ['\\', c]
  else if c == '\t' then ['\\', 't']
  else if c == '\n' then ['\\', 'n']
  else if c == '\r' then ['\\', 'r']
  else if isPrintable c then [c]
  else escapeCode c.toNat

def quoted (cs : List Char) : List Char :=
  let mark := quoteMark cs
  mark :: cs.flatMap (escapeChar mark) ++ [mark]

/-- A text with every character beyond the first 128 escaped. -/
def asciiOnly (cs : List Char) : List Char :=
  cs.flatMap fun c => if c.toNat < 128 then [c] else escapeCode c.toNat

def quote (s : String) : String := String.ofList (quoted s.toList)

end Luuqad.Text

import Luuqad.Text.Ranges

/-!
# Blank characters

What separates tokens, is stripped from the ends of a text and surrounds a written number: the
space, the control characters that move the cursor or separate records, and the spaces and line
separators of the world's scripts.
-/

namespace Luuqad.Text

/-- The blank characters. -/
def blankRanges : List (Nat × Nat) := [
  (0x9, 0xd), (0x1c, 0x20), (0x85, 0x85), (0xa0, 0xa0), (0x1680, 0x1680), (0x2000, 0x200a),
  (0x2028, 0x2029), (0x202f, 0x202f), (0x205f, 0x205f), (0x3000, 0x3000)]

def isBlank (c : Char) : Bool := inRanges blankRanges c.toNat

example : ascending blankRanges = true := by decide

end Luuqad.Text

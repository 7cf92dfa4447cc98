/-!
# Powers of two and of ten

The scales of binary and of decimal numbers.
-/

namespace Luuqad.Number

abbrev pow2 (n : Nat) : Nat := Nat.pow 2 n

abbrev pow10 (n : Nat) : Nat := Nat.pow 10 n

end Luuqad.Number

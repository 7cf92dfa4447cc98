import Luuqad.Value

/-!
# Program trees

All statements and expressions are nodes of one type, told apart by their kind. A node holds a value
(a name, an operator, a literal) and children whose meaning depends on the kind. Trees that the
parser builds have the children their kind requires; others can be made by hand.
-/

namespace Luuqad

structure Node where
  kind : NodeKind
  value : Value := .null
  children : List Node := []
  /-- The static type of a declaration. -/
  declared : Option TokenKind := none
  /-- Whether a declaration makes a constant. -/
  constant : Bool := false
  line : Option Nat := none
  column : Option Nat := none
deriving BEq, Repr, Inhabited

end Luuqad

import Luuqad.Failure
import Luuqad.Library.Builtin
import Luuqad.Token.Kind
import Luuqad.Tree.Kind

/-!
# Values

The values of a program. Numbers, texts and truth values stand for themselves. Lists and objects are
shared and can change, so a value only refers to them; the cells they live in are in
`Luuqad.Heap`. A double that is not a number carries a mark, for it is equal to nothing and still
the same as itself. The remaining values are parts of the program itself that can turn up as data: a
library function, a piece of the program, a class heading.
-/

namespace Luuqad

/-- The place of a cell on the heap. -/
abbrev Ref := Nat

mutual

inductive Value
  | null
  | bool (b : Bool)
  | int (i : Int)
  | float (x : Float)
  /-- A double that is not a number, told from others by its mark. -/
  | nan (mark : Nat)
  | str (s : String)
  /-- Several values in a row. -/
  | tuple (items : Tuple)
  | list (r : Ref)
  | object (r : Ref)
  | function (f : Builtin)
  | tokenKind (k : TokenKind)
  | nodeKind (k : NodeKind)
  /-- A node of a program tree. -/
  | code (r : Ref)
  | token (r : Ref)
deriving DecidableEq, Repr, Inhabited

/-- Values in a row that does not change. -/
inductive Tuple
  | nil
  | cons (first : Value) (rest : Tuple)
deriving DecidableEq, Repr, Inhabited

end

namespace Tuple

def toList : Tuple → List Value
  | nil => []
  | cons v rest => v :: rest.toList

def ofList : List Value → Tuple
  | [] => nil
  | v :: rest => cons v (ofList rest)

end Tuple

namespace Value

/-- The value of an empty pair of parentheses. -/
abbrev unit : Value := tuple .nil

abbrev pair (first second : Value) : Value := tuple (.cons first (.cons second .nil))

/-- The kind of a value as failures name it. -/
def typeName : Value → TypeName
  | null => .null
  | bool _ => .bool
  | int _ => .int
  | float _ | nan _ => .float
  | str _ => .str
  | tuple _ => .tuple
  | list _ => .list
  | object _ => .object
  | function _ => .function
  | tokenKind _ => .tokenKind
  | nodeKind _ => .nodeKind
  | code _ => .code
  | token _ => .token

/-- The kind of a value as the language names it. -/
def kindName : Value → String
  | str _ => "qoraal"
  | bool _ => "bool"
  | int _ => "abn"
  | float _ | nan _ => "jajab"
  | list _ => "teed"
  | object _ => "walax"
  | null => "maran"
  | _ => "aan la aqoon"

/-- Whether a value counts as a number; truth values do. -/
def isNumber : Value → Bool
  | bool _ | int _ | float _ | nan _ => true
  | _ => false

/-- The whole number that a truth value or a whole number stands for. -/
def int? : Value → Option Int
  | bool b => some (if b then 1 else 0)
  | int i => some i
  | _ => none

end Value

end Luuqad

import Luuqad.Parser.Cursor
import Luuqad.Tree.Node

/-!
# Expressions

Four levels of binary operators, each associating to the left: `&&` and `||`, comparisons, `+` and
`-`, then `*`, `/` and `%`. Below them stand the unary operators and then accesses: properties,
method calls and indices. Equality is two equals signs; one alone is read as an operator too.

Parts nested inside an expression, such as arguments, are read by the parsers of `Nested`, which the
whole grammar ties together in `Luuqad.Parser.Program`.
-/

namespace Luuqad

/-- The parsers for nested parts. -/
structure Nested where
  statement : Parser Node
  expression : Parser Node
  factor : Parser Node

namespace Parser

def literal (v : Value) : Node := { kind := .literal, value := v }

def binary (operator : Value) (left right : Node) : Node :=
  { kind := .binary, value := operator, children := [left, right] }

/-- The rest of a call, from the opening parenthesis on. A semicolon after it is passed too. -/
def callOf (name : Value) (inner : Nested) : Parser Node := do
  let _ ← expect .leftParen
  let args ← arguments inner.expression
  skip .semicolon
  return { kind := .call, value := name, children := args }

def listLiteral (inner : Nested) : Parser Node := do
  let _ ← expect .leftBracket
  let items ← separatedUntil .rightBracket inner.expression (← get).bound
  let _ ← expect .rightBracket
  return { kind := .list, children := items }

def entry (inner : Nested) : Parser Node := do
  let t ← current
  if t.kind = .identifier ∨ t.kind = .string then
    advance
    let _ ← expect .colon
    let v ← inner.expression
    return { kind := .literal, value := t.value, children := [v] }
  else failExpecting "property name (identifier or string)"

def objectLiteral (inner : Nested) : Parser Node := do
  let _ ← expect .leftBrace
  let entries ← separatedUntil .rightBrace (entry inner) (← get).bound
  let _ ← expect .rightBrace
  return { kind := .object, children := entries }

/-- The name that a token gives: its text, or the name of the function that a keyword calls. -/
def nameOf (t : Token) : Value :=
  if t.kind = .identifier then t.value else .str t.kind.spelling

/-- A literal, a name, a call, or an expression in parentheses. -/
def primary (inner : Nested) : Parser Node := do
  let t ← current
  match t.kind with
  | .number | .string => advance; return literal t.value
  | .true => advance; return literal (.bool true)
  | .false => advance; return literal (.bool false)
  | .null => advance; return literal .null
  | .leftParen =>
    advance
    let e ← inner.expression
    let _ ← expect .rightParen
    return e
  | .leftBracket => listLiteral inner
  | .leftBrace => objectLiteral inner
  | k =>
    if k = .identifier ∨ k.isFunctionWord then
      advance
      if (← kind) = .leftParen then callOf (nameOf t) inner
      else return { kind := .identifier, value := nameOf t }
    else failUnexpected

/-- One access to `target`: a property, a method call or an index. `notName` stops when no name
follows a point. -/
def access (notName : Parser Unit) (inner : Nested) (target : Node) : Parser Node := do
  if (← kind) = .dot then
    advance
    let name ← current
    if name.kind ≠ .identifier then notName
    advance
    if (← kind) = .leftParen then
      advance
      let args ← arguments inner.expression
      return { kind := .methodCall, value := name.value, children := target :: args }
    else return { kind := .property, value := name.value, children := [target] }
  else
    let _ ← expect .leftBracket
    let i ← inner.expression
    let _ ← expect .rightBracket
    return { kind := .index, children := [target, i] }

/-- All accesses to `target`, at most `fuel` of them. -/
def accesses (notName : Parser Unit) (inner : Nested) (target : Node) : Nat → Parser Node
  | 0 => throw .tooDeep
  | fuel + 1 => do
    let k ← kind
    if k = .dot ∨ k = .leftBracket then
      accesses notName inner (← access notName inner target) fuel
    else return target

/-- A primary expression with its accesses. -/
def postfixed (inner : Nested) : Parser Node := do
  let e ← primary inner
  accesses (failExpecting "property name") inner e (← get).bound

/-- The negative of an expression: a literal number is negated at once. -/
def negated (e : Node) : Node :=
  let product := binary (.str "*") (literal (.int (-1))) e
  if e.kind = .literal then
    match e.value with
    | .int i => literal (.int (-i))
    | .float x => literal (.float (-x))
    | .nan m => literal (.nan m)
    | .bool b => literal (.int (if b then -1 else 0))
    | _ => product
  else product

/-- A unary operation or an access. -/
def factor (inner : Nested) : Parser Node := do
  match ← kind with
  | .plus => advance; inner.factor
  | .minus => advance; return negated (← inner.factor)
  | .not =>
    advance
    return { kind := .unary, value := .str "!", children := [← inner.factor] }
  | _ => postfixed inner

/-- Operations of one level to the right of `left`, at most `fuel` of them. -/
def operations (isOperator : TokenKind → Bool) (operand : Parser Node) (left : Node) :
    Nat → Parser Node
  | 0 => throw .tooDeep
  | fuel + 1 => do
    let t ← current
    if isOperator t.kind then
      advance
      let right ← operand
      operations isOperator operand (binary t.value left right) fuel
    else return left

/-- A level of binary operators over operands of the next level. -/
def level (isOperator : TokenKind → Bool) (operand : Parser Node) : Parser Node := do
  let left ← operand
  operations isOperator operand left (← get).bound

/-- The multiplicative operators. -/
def isTermOperator : TokenKind → Bool
  | .star | .slash | .modulo => true
  | _ => false

def isSumOperator : TokenKind → Bool
  | .plus | .minus => true
  | _ => false

def isComparison : TokenKind → Bool
  | .greater | .less | .greaterEqual | .lessEqual | .equal | .notEqual => true
  | _ => false

def isLogical : TokenKind → Bool
  | .and | .or => true
  | _ => false

/-- Products, quotients and remainders. -/
def term (inner : Nested) : Parser Node := level isTermOperator (factor inner)

def sum (inner : Nested) : Parser Node := level isSumOperator (term inner)

/-- Comparisons to the right of `left`, at most `fuel` of them. -/
def comparisons (inner : Nested) (left : Node) : Nat → Parser Node
  | 0 => throw .tooDeep
  | fuel + 1 => do
    let t ← current
    if isComparison t.kind then
      advance
      let isEquality := t.kind = .equal ∧ (← kind) = .equal
      if isEquality then advance
      let right ← sum inner
      let operator := if isEquality then .str "==" else t.value
      comparisons inner (binary operator left right) fuel
    else return left

def comparison (inner : Nested) : Parser Node := do
  let left ← sum inner
  comparisons inner left (← get).bound

/-- An expression of any form. -/
def expression (inner : Nested) : Parser Node := level isLogical (comparison inner)

end Parser

end Luuqad

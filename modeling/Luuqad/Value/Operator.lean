import Luuqad.Heap.Action
import Luuqad.Value.Format

/-!
# Operators

What the binary operators do with values. A sum with a text joins what the two operands are printed
as; other sums, and products, also work on lists. The logical operators give truth values and look
at both operands.
-/

namespace Luuqad

inductive Operator
  | add | subtract | multiply | divide | remainder
  | equal | notEqual
  | order (r : Relation)
  | and | or
deriving DecidableEq, Repr, Inhabited

namespace Operator

/-- The operators and the symbols they are written with. -/
def table : List (String × Operator) := [
  ("+", add), ("-", subtract), ("*", multiply), ("/", divide), ("%", remainder),
  ("==", equal), ("!=", notEqual), (">", order .greater), ("<", order .less),
  (">=", order .greaterEqual), ("<=", order .lessEqual), ("&&", and), ("||", or)]

def ofSymbol? (symbol : String) : Option Operator := table.lookup symbol

/-- Operate on two numbers, or fail. -/
def arithmetic (symbol : String) (f : Num → Num → Except Failure Num) (left right : Value) :
    Action Value :=
  match left.num?, right.num? with
  | some a, some b => do Action.number (← Action.ofExcept (f a b))
  | _, _ => .fail (.unsupportedOperands symbol left.typeName right.typeName)

def sum (left right : Value) : Action Value := do
  match left, right with
  | .str _, _ | _, .str _ =>
    return .str ((← Action.reading left.display) ++ (← Action.reading right.display))
  | .list r, .list s => Action.newList ((← Action.items r) ++ (← Action.items s))
  | .tuple s, .tuple t => return .tuple (.ofList (s.toList ++ t.toList))
  | .list _, _ | .tuple _, _ =>
    Action.fail (.cannotConcatenate left.typeName right.typeName)
  | _, _ => arithmetic "+" Num.add left right

/-- The longest text or list that fits into memory. -/
def sizeLimit : Nat := Number.pow2 34

/-- How often a sequence of the given size is to be repeated, if there is room for the result. -/
def repetitions (size : Nat) (count : Value) (tooLong : Failure) : Except Failure Nat :=
  match count.int? with
  | none => .error (.cannotRepeatBy count.typeName)
  | some i =>
    if i < -(Number.pow2 63 : Int) ∨ Number.pow2 63 ≤ i then .error .countTooLarge
    else
      let n := i.toNat
      if size = 0 then .ok 0
      else if Number.pow2 63 ≤ size * n then .error tooLong
      else if sizeLimit < size * n then .error .outOfMemory
      else .ok n

def repeatText (s : String) (count : Value) : Action Value := do
  let n ← Action.ofExcept (repetitions s.length count .repeatedTextTooLong)
  return .str (String.join (List.replicate n s))

def repeatList (r : Ref) (count : Value) : Action Value := do
  let items ← Action.items r
  let n ← Action.ofExcept (repetitions items.size count .outOfMemory)
  Action.newList (List.replicate n items.toList).flatten.toArray

def repeatTuple (t : Tuple) (count : Value) : Action Value := do
  let items := t.toList
  let n ← Action.ofExcept (repetitions items.length count .outOfMemory)
  return .tuple (.ofList (List.replicate n items).flatten)

def product (left right : Value) : Action Value :=
  match left, right with
  | .str s, count => repeatText s count
  | .list r, count => repeatList r count
  | .tuple t, count => repeatTuple t count
  | count, .str s => repeatText s count
  | count, .list r => repeatList r count
  | count, .tuple t => repeatTuple t count
  | _, _ => arithmetic "*" Num.mul left right

def quotient (left right : Value) : Action Value := do
  if right.isZero then Action.raise .divisionByZero
  arithmetic "/" Num.div left right

/-- Remainder, or a format filled. -/
def rest (left right : Value) : Action Value := do
  if right.isZero then Action.raise .moduloByZero
  match left with
  | .str s => return .str (← Action.reading fun h => Format.fill h s right)
  | _ => arithmetic "%" Num.mod left right

def apply (op : Operator) (left right : Value) : Action Value :=
  match op with
  | add => sum left right
  | subtract => arithmetic "-" Num.sub left right
  | multiply => product left right
  | divide => quotient left right
  | remainder => rest left right
  | equal => return .bool (← Action.reading fun h => left.equal h right)
  | notEqual => return .bool !(← Action.reading fun h => left.equal h right)
  | order r => return .bool (← Action.reading fun h => r.relate h left right)
  | and => return .bool (left.isTrue (← get) && right.isTrue (← get))
  | or => return .bool (left.isTrue (← get) || right.isTrue (← get))

end Operator

/-- Apply the operator with a given symbol to two values. -/
def applySymbol (symbol : Value) (left right : Value) : Action Value := do
  let op? := match symbol with
    | .str s => Operator.ofSymbol? s
    | _ => none
  match op? with
  | some op => op.apply left right
  | none => Action.raise (.unknownOperator (← Action.text symbol))

end Luuqad

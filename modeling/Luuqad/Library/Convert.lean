import Luuqad.Number.Read
import Luuqad.Value.Operator

/-!
# Conversions and numbers

The library functions that turn values into numbers, texts and truth values, and those on numbers.
-/

namespace Luuqad.Library

/-- The double that a number or a text stands for. -/
def doubleOf (v : Value) : Except Failure Float :=
  match v, v.num? with
  | .str s, _ => Number.readFloat s
  | _, some n => n.toFloat
  | _, none => .error (.notNumeric v.typeName)

/-- The whole part of the double that a value stands for. -/
def toInteger (v : Value) : Except Failure Value := do
  return .int (← (Num.float (← doubleOf v)).truncate)

/-- A number or a text as a double; a double stays the same. -/
def toDouble (v : Value) : Action Value :=
  match v with
  | .nan m => return .nan m
  | v => do Action.double (← Action.ofExcept (doubleOf v))

/-- The values that count as false when they are converted: zero, the empty text, nothing, and the
word for it. -/
def falseValues : List Value :=
  [.int 0, .str "", .bool false, .null, .str "false", .str "False"]

/-- The truth value that a value stands for. -/
def toBool (v : Value) : Value := .bool !falseValues.any fun f => f.sameKey v

/-- The number that an argument has to be. -/
def number (c : Complaint) (v : Value) : Action Num :=
  match v.num? with
  | some n => pure n
  | none => .raise (.complaint c)

/-- The whole part of an argument that has to be a number. -/
def integer (c : Complaint) (v : Value) : Action Int := do
  Action.ofExcept (← number c v).truncate

def floor (v : Value) : Action Value := do
  return .int (← Action.ofExcept (← number .notNumber v).floor)

def ceiling (v : Value) : Action Value := do
  return .int (← Action.ofExcept (← number .notNumber v).ceil)

/-- The number of items, characters or entries. -/
def length (v : Value) : Action Value := do
  match v with
  | .list r => return .int (← Action.items r).size
  | .str s => return .int s.length
  | .object r => return .int (← Action.entries r).length
  | _ => Action.raise (.complaint .noLength)

/-- How many numbers lie between `start` and `stop`, which is not included, in steps. -/
def rangeSize (start stop step : Int) : Nat :=
  if 0 < step then ((stop - start + step - 1).fdiv step).toNat
  else ((start - stop - step - 1).fdiv (-step)).toNat

/-- The numbers from `start` to `stop`, which is not included, in steps. -/
def rangeOf (start stop step : Int) : Except Failure (List Value) :=
  if step = 0 then .error .zeroStep
  else
    let n := rangeSize start stop step
    if Number.pow2 63 ≤ n then .error .rangeTooLong
    else if Operator.sizeLimit < n then .error .outOfMemory
    else .ok ((List.range n).map fun (k : Nat) => .int (start + k * step))

/-- A list of numbers: up to an end, from a start to an end, in steps of one or of a given size. -/
def range (args : List Value) : Action Value := do
  let (start, stop, step) ← match args with
    | [stop] => pure (.int 0, stop, .int 1)
    | [start, stop] => pure (start, stop, .int 1)
    | [start, stop, step] => pure (start, stop, step)
    | _ => Action.raise (.complaint .rangeArguments)
  if !(start.isNumber && stop.isNumber && step.isNumber) then
    Action.raise (.complaint .rangeNotNumbers)
  let first ← integer .rangeNotNumbers start
  let last ← integer .rangeNotNumbers stop
  let stride ← integer .rangeNotNumbers step
  Action.newList (← Action.ofExcept (rangeOf first last stride)).toArray

/-- A place counted from the end if it is negative, and moved into the range up to `length`. -/
def clamp (length : Nat) (i : Int) : Nat :=
  min (if i < 0 then (length + i).toNat else i.toNat) length

/-- What lies between two places. -/
def slice {α : Type} (items : List α) (start stop : Int) : List α :=
  let first := clamp items.length start
  let last := clamp items.length stop
  (items.take last).drop first

end Luuqad.Library

import Luuqad.Library.Convert
import Luuqad.State

/-!
# Choices by chance

Without arguments a choice is a double from zero to one. From a list it is one of its items. Between
two numbers it is a whole number if both are whole, and a double otherwise.
-/

namespace Luuqad.Library

def chooseBetween (low high : Num) : Run Value := do
  match low, high with
  | .int a, .int b => return .int (a + (← Run.draw (b - a + 1).toNat))
  | a, b =>
    let width ← Run.act (Action.ofExcept (b.sub a))
    let x ← Run.drawUnit
    let offset ← Run.act (Action.ofExcept (width.mul (.float x)))
    Run.act do Action.number (← Action.ofExcept (a.add offset))

def choose (args : List Value) : Run Value := do
  match args with
  | [] => return .float (← Run.drawUnit)
  | [.list r] =>
    let items := (← get).heap.items r
    if items.isEmpty then Run.raise (.badValue .emptyChoice)
    return items.getD (← Run.draw items.size) .null
  | [_] => Run.raise (.complaint .choiceNotList)
  | [a, b] =>
    match a.num?, b.num? with
    | some low, some high =>
      if low.compare? high = some .gt then Run.raise (.badValue .limitsReversed)
      chooseBetween low high
    | _, _ => Run.raise (.complaint .limitsNotNumbers)
  | _ => Run.raise (.complaint .choiceArguments)

end Luuqad.Library

/-!
# Searching sorted items

A sort asks an order that may fail to compare two items, and that need not be consistent. What it
answers then depends on which items are compared, so the searches here fix that too: `bisect` halves
a range, and `leading` first goes on in growing strides from the item in front.
-/

namespace Luuqad.Sorting

/-- An order of items, if they can be compared. -/
abbrev Less (α ε : Type) := α → α → Except ε Bool

/-- A condition on items. -/
abbrev Test (α ε : Type) := α → Except ε Bool

/-- Which end of the sorted items a list starts with. -/
inductive Side
  | front
  | back
deriving DecidableEq, Repr, Inhabited

namespace Side

/-- The item in the middle of a range that is not empty. Of two, it is the one farther from the
front. -/
def middle : Side → Nat → Nat → Nat
  | front, low, high => low + (high - low) / 2
  | back, low, high => high - 1 - (high - low) / 2

/-- The order of items as seen from a side. -/
def order {α ε : Type} (less : Less α ε) : Side → Less α ε
  | front => less
  | back => fun x y => less y x

/-- A list turned so that it starts with the front, or back again. -/
def turn {α : Type} : Side → List α → List α
  | front, items => items
  | back, items => items.reverse

end Side

variable {α ε : Type}

/-- The test that fails where another passes. -/
def Test.negated (test : Test α ε) : Test α ε := fun x => do return !(← test x)

/-- How many items pass a test, if all before `low` do, none from `high` on does, and those that do
come first; found in at most `fuel` halvings. -/
def bisect (side : Side) (test : Test α ε) (items : List α) : Nat → Nat → Nat → Except ε Nat
  | 0, low, _ => .ok low
  | fuel + 1, low, high =>
    if low < high then
      let middle := side.middle low high
      match items[middle]? with
      | none => .ok low
      | some x => do
        if ← test x then bisect side test items fuel (middle + 1) high
        else bisect side test items fuel low middle
    else .ok low

/-- Test the items at `next` and, in strides that double, after it, until one fails. Returns the
last place that passed and the place that did not, or the end. -/
def reach (test : Test α ε) (items : List α) : Nat → Nat → Nat → Except ε (Nat × Nat)
  | 0, last, next => .ok (last, next)
  | fuel + 1, last, next =>
    match items[next]? with
    | none => .ok (last, items.length)
    | some x => do
      if ← test x then reach test items fuel next (2 * next + 1)
      else return (last, next)

/-- How many items pass a test, if those that do come first. -/
def leading (side : Side) (test : Test α ε) (items : List α) : Except ε Nat :=
  match items with
  | [] => .ok 0
  | x :: _ => do
    if ← test x then
      let (last, next) ← reach test items items.length 0 1
      bisect side test items items.length (last + 1) next
    else return 0

end Luuqad.Sorting

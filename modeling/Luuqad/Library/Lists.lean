import Luuqad.Library.Convert
import Luuqad.Sorting

/-!
# Lists

The library functions on lists. Some change a list in place and return it; others make a new one.
-/

namespace Luuqad.Library.Lists

/-- The list that an argument has to be. -/
def list (c : Complaint) (v : Value) : Action Ref :=
  match v with
  | .list r => pure r
  | _ => .raise (.complaint c)

def push (lst item : Value) : Action Value := do
  let r ← list .notList lst
  Action.setItems r ((← Action.items r).push item)
  return lst

/-- Take the last item away and return it. -/
def pop (lst : Value) : Action Value := do
  let r ← list .notList lst
  let items ← Action.items r
  match items.back? with
  | none => Action.raise (.badValue .emptyPop)
  | some v =>
    Action.setItems r items.pop
    return v

def length (lst : Value) : Action Value := do
  return .int (← Action.items (← list .notList lst)).size

/-- A new list of the items of both lists; or an item added to a list. -/
def concat (first second : Value) : Action Value := do
  let r ← list .firstNotList first
  match second with
  | .list s => Action.newList ((← Action.items r) ++ (← Action.items s))
  | item => push first item

def contains (lst item : Value) : Action Value := do
  let items ← Action.items (← list .notList lst)
  return .bool (← Action.reading fun h => items.toList.anyM fun x => x.same h item)

def copy (lst : Value) : Action Value := do
  Action.newList (← Action.items (← list .notList lst))

def clear (lst : Value) : Action Value := do
  Action.setItems (← list .notList lst) #[]
  return lst

/-- The place that an argument names; texts are read as whole numbers. -/
def place (items : Array Value) (index : Value) : Action Nat := do
  let i ← match index with
    | .str s => Action.ofExcept (Number.readInt s)
    | v => integer .indexNotNumber v
  if 0 ≤ i ∧ i < items.size then return i.toNat
  let _ ← Action.ofExcept (Number.writeInt i)
  Action.raise (.badValue (.indexOutOfRange i))

def itemAt (lst index : Value) : Action Value := do
  let items ← Action.items (← list .notList lst)
  return items.getD (← place items index) .null

def setItem (lst index value : Value) : Action Value := do
  let r ← list .notList lst
  let items ← Action.items r
  let i ← place items index
  Action.setItems r (items.setIfInBounds i value)
  return value

def reverse (lst : Value) : Action Value := do
  let r ← list .notList lst
  Action.setItems r (← Action.items r).reverse
  return lst

/-- Sort a list. If its items cannot be compared, it stays as far sorted as it is. -/
def sort (lst : Value) : Action Value := do
  let r ← list .notList lst
  let h ← get
  let (items, failure) := Sorting.sort (Relation.less.relate h) (h.items r).toList
  Action.setItems r items.toArray
  match failure with
  | some f => Action.fail f
  | none => return lst

/-- A new list of the items between two places. -/
def slice (lst start stop : Value) : Action Value := do
  let items ← Action.items (← list .notList lst)
  if !(start.isNumber && stop.isNumber) then Action.raise (.complaint .boundsNotNumbers)
  let first ← integer .boundsNotNumbers start
  let last ← integer .boundsNotNumbers stop
  Action.newList (Library.slice items.toList first last).toArray

/-- The place, counted from `i`, of the first item that is equal to a given one. -/
def placeOf (h : Heap) (item : Value) (i : Nat) : List Value → Except Failure (Option Nat)
  | [] => .ok none
  | x :: rest => do if ← x.equal h item then return some i else placeOf h item (i + 1) rest

def find (lst item : Value) : Action Value := do
  let items ← Action.items (← list .notList lst)
  match ← Action.reading fun h => placeOf h item 0 items.toList with
  | some i => return .int i
  | none => return .null

end Luuqad.Library.Lists

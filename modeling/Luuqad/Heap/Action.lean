import Luuqad.Error.Diagnostic
import Luuqad.Value.Arithmetic
import Luuqad.Value.Written

/-!
# Operations on the heap

An operation on values may read and write the heap, and may fail.
-/

namespace Luuqad

/-- An operation on the heap with a result or a fault. -/
abbrev Action := EStateM Fault Heap

namespace Action

/-- Fail below the language. -/
def fail {α : Type} (f : Failure) : Action α := throw (.failure f)

/-- Fail with an error of the language. -/
def raise {α : Type} (c : Cause) : Action α := throw c.fault

/-- An operation that does not need the heap. -/
def ofExcept {α : Type} : Except Failure α → Action α
  | .ok a => pure a
  | .error f => fail f

/-- An operation that only reads the heap. -/
def reading {α : Type} (f : Heap → Except Failure α) : Action α := do ofExcept (f (← get))

def alloc (c : Cell) : Action Ref := do
  let (r, h) := (← get).alloc c
  set h
  return r

def double (x : Float) : Action Value := do
  let (v, h) := (← get).double x
  set h
  return v

def number (n : Num) : Action Value := do
  let (v, h) := n.toValue (← get)
  set h
  return v

def newList (items : Array Value) : Action Value := return .list (← alloc (.list items))

def newObject (entries : Entries) : Action Value := return .object (← alloc (.object entries))

def items (r : Ref) : Action (Array Value) := return (← get).items r

def setItems (r : Ref) (items : Array Value) : Action Unit := modify (·.write r (.list items))

def entries (r : Ref) : Action Entries := return (← get).entries r

def setEntries (r : Ref) (entries : Entries) : Action Unit := modify (·.write r (.object entries))

def text (v : Value) : Action String := reading v.text

end Action

end Luuqad

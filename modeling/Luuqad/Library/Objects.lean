import Luuqad.Value.Operator

/-!
# Objects

The library functions on objects.
-/

namespace Luuqad.Library.Objects

/-- The object that an argument has to be. -/
def object (c : Complaint) (v : Value) : Action Ref :=
  match v with
  | .object r => pure r
  | _ => .raise (.complaint c)

/-- The value under a key, or nothing. -/
def valueAt (obj key : Value) : Action Value := do
  let entries ← Action.entries (← object .notObject obj)
  return (entries.get? (← Action.ofExcept key.asKey)).getD .null

def setValue (obj key value : Value) : Action Value := do
  let r ← object .notObject obj
  let key ← Action.ofExcept key.asKey
  Action.setEntries r ((← Action.entries r).put key value)
  return value

def keys (obj : Value) : Action Value := do
  Action.newList ((← Action.entries (← object .notObject obj)).map (·.1)).toArray

def has (obj key : Value) : Action Value := do
  let entries ← Action.entries (← object .notObject obj)
  return .bool (entries.get? (← Action.ofExcept key.asKey)).isSome

def remove (obj key : Value) : Action Value := do
  let r ← object .notObject obj
  let key ← Action.ofExcept key.asKey
  Action.setEntries r ((← Action.entries r).remove key)
  return obj

/-- A new object with the entries of both; those of the second count. -/
def merge (first second : Value) : Action Value := do
  let r ← object .firstNotObject first
  let s ← object .secondNotObject second
  let entries := (← Action.entries s).foldl (fun es (k, v) => es.put k v) (← Action.entries r)
  Action.newObject entries

def copy (obj : Value) : Action Value := do
  Action.newObject (← Action.entries (← object .notObject obj))

def clear (obj : Value) : Action Value := do
  Action.setEntries (← object .notObject obj) []
  return obj

def values (obj : Value) : Action Value := do
  Action.newList ((← Action.entries (← object .notObject obj)).map (·.2)).toArray

/-- The entries, each as a list of key and value. -/
def pairs (obj : Value) : Action Value := do
  let entries ← Action.entries (← object .notObject obj)
  let lists ← entries.mapM fun (k, v) => Action.newList #[k, v]
  Action.newList lists.toArray

end Luuqad.Library.Objects

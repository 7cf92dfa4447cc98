import Luuqad.Interpreter.Evaluator

/-!
# Variables

A declaration with a type notes the type before it checks the value, and a later assignment has to
keep to it. A constant cannot be assigned to, but it can be declared again.
-/

namespace Luuqad

/-- Whether a value may be kept under a static type. Any number is fine for `abn`, and nothing is
required for `jajab`. -/
def TokenKind.admits : TokenKind → Value → Bool
  | .abn, v => v.isNumber
  | .qoraal, .str _ => Bool.true
  | .bool, .bool _ => Bool.true
  | .teed, .list _ => Bool.true
  | .walax, .object _ => Bool.true
  | .qoraal, _ | .bool, _ | .teed, _ | .walax, _ => Bool.false
  | _, _ => Bool.true

namespace Run

def checkType (name : String) (v : Value) (type : TokenKind) (line column : Option Nat) :
    Run Unit := do
  if type.admits v then return
  throw (.fault ((Cause.typeMismatch name (← text v) type.spelling).faultAt line column))

def assign (name : String) (v : Value) (line column : Option Nat) : Run Value := do
  let s ← get
  if !s.vars.has name then throw (.fault ((Cause.undefinedVariable name).faultAt line column))
  if s.constants.contains name then
    throw (.fault ((Cause.constantReassigned name).faultAt line column))
  if let some (.checked type) := s.types.get? name then checkType name v type line column
  setVariable name v
  return v

def noteType (name : String) (type : DeclaredType) : Run Unit :=
  modify fun s => { s with types := s.types.put name type }

def noteConstant (name : String) : Run Unit :=
  modify fun s =>
    { s with constants := if s.constants.contains name then s.constants else s.constants ++ [name] }

end Run

def Evaluator.declare (self : Evaluator) (n : Node) : Run Value := do
  let v ← self.evaluate (← self.child n 0)
  let name ← Run.nameOf n.value
  if let some type := n.declared then
    Run.noteType name (.checked type)
    Run.checkType name v type n.line n.column
  if n.constant then Run.noteConstant name
  Run.setVariable name v
  return v

/-- The place in a list that a value names: a whole number, counted from the end if it is negative.
`n` is the node to blame. -/
def Run.place (n : Node) (items : Array Value) (index : Value) : Run Nat := do
  let some k := index.num? | Run.raiseAt n .badIndex
  let i ← Run.act (Action.ofExcept k.truncate)
  if (Num.int i).compare? k ≠ some .eq then Run.raiseAt n .badIndex
  let j := if i < 0 then items.size + i else i
  if 0 ≤ j ∧ j < items.size then return j.toNat
  Run.raiseAt n (.indexOutOfRange (← Run.text (.int j)))

/-- An assignment to a variable, to a property of an object, or to a place in a list. -/
def Evaluator.assignment (self : Evaluator) (n : Node) : Run Value := do
  let target ← self.child n 0
  let v ← self.evaluate (← self.child n 1)
  match target.kind with
  | .identifier => Run.assign (← Run.nameOf target.value) v n.line n.column
  | .property =>
    match ← self.evaluate (← self.child target 0) with
    | .object r =>
      let key ← Run.act (Action.ofExcept target.value.asKey)
      Run.act do Action.setEntries r ((← Action.entries r).put key v)
      return v
    | _ => Run.raiseAt n (.notAnObject (← Run.text target.value))
  | .index =>
    match ← self.evaluate (← self.child target 0) with
    | .list r =>
      let index ← self.evaluate (← self.child target 1)
      let i ← Run.place n ((← get).heap.items r) index
      Run.act do Action.setItems r ((← Action.items r).setIfInBounds i v)
      return v
    | _ => Run.raiseAt n .notAList
  | _ => Run.raiseAt n .malformed

end Luuqad

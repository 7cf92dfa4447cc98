import Luuqad.Interpreter.Call
import Luuqad.Interpreter.Variable

/-!
# Evaluating expressions
-/

namespace Luuqad.Evaluator

def identifier (n : Node) : Run Value := do
  let name ← Run.nameOf n.value
  match (← get).vars.get? name with
  | some v => return v
  | none => Run.raiseAt n (.undefinedVariable name)

/-- A binary operation: both operands are evaluated. -/
def binary (self : Evaluator) (n : Node) : Run Value := do
  let left ← self.evaluate (← self.child n 0)
  let right ← self.evaluate (← self.child n 1)
  Run.act (applySymbol n.value left right)

def unary (self : Evaluator) (n : Node) : Run Value := do
  let v ← self.evaluate (← self.child n 0)
  if n.value = .str "!" then return .bool !(← Run.isTrue v)
  Run.raiseAt n (.unknownOperator (← Run.text n.value))

def list (self : Evaluator) (n : Node) : Run Value := do
  let items ← n.children.mapM self.evaluate
  Run.act (Action.newList items.toArray)

/-- Put the values of some entries under their keys. -/
def fillObject (self : Evaluator) : List Node → Entries → Run Entries
  | [], entries => return entries
  | n :: rest, entries => do
    let v ← self.evaluate (← self.child n 0)
    let key ← Run.act (Action.ofExcept n.value.asKey)
    self.fillObject rest (entries.put key v)

def object (self : Evaluator) (n : Node) : Run Value := do
  Run.act (Action.newObject (← self.fillObject n.children []))

def property (self : Evaluator) (n : Node) : Run Value := do
  match ← self.evaluate (← self.child n 0) with
  | .object r =>
    let key ← Run.act (Action.ofExcept n.value.asKey)
    match ((← get).heap.entries r).get? key with
    | some v => return v
    | none => Run.raiseAt n (.propertyNotFound (← Run.text n.value))
  | _ => Run.raiseAt n (.notAnObject (← Run.text n.value))

def index (self : Evaluator) (n : Node) : Run Value := do
  match ← self.evaluate (← self.child n 0) with
  | .list r =>
    let index ← self.evaluate (← self.child n 1)
    let items := (← get).heap.items r
    return items.getD (← Run.place n items index) .null
  | _ => Run.raiseAt n .notAList

def expression (self : Evaluator) (n : Node) : Run Value :=
  match n.kind with
  | .literal => return n.value
  | .identifier => identifier n
  | .binary => self.binary n
  | .unary => self.unary n
  | .list => self.list n
  | .object => self.object n
  | .property => self.property n
  | .methodCall => self.methodCall n
  | .index => self.index n
  | .call => self.call n
  | k => Run.raiseAt n (.unknownNode k.shown)

end Luuqad.Evaluator

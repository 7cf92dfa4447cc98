import Luuqad.Library.Call

/-!
# The parts of the interpreter

Expressions and statements contain each other, so each form is written in terms of an `Evaluator`
that takes care of the parts inside. `Luuqad.Interpreter.Program` ties them together.
-/

namespace Luuqad

def Node.child (n : Node) (i : Nat) : Run Node :=
  match n.children[i]? with
  | some c => pure c
  | none => Run.fail .indexOutOfRange

/-- How the parts inside an expression or statement are run. -/
structure Evaluator where
  evaluate : Node → Run Value
  execute : Node → Run Value
  /-- How many rounds a loop may take. -/
  rounds : Nat
  child : Node → Nat → Run Node

/-- Run statements one after the other; the result is that of the last one. -/
def Evaluator.sequence (self : Evaluator) : List Node → Run Value
  | [] => return .null
  | [n] => self.execute n
  | n :: rest => do
    let _ ← self.execute n
    self.sequence rest

/-- Run statements one after the other. -/
def Evaluator.block (self : Evaluator) (statements : List Node) : Run Unit := do
  let _ ← self.sequence statements

/-- A function that a program can call by name. -/
inductive Callable
  | user (f : UserFunction)
  | library (f : Builtin)
deriving Inhabited

/-- The function with a given name. The program's own functions hide those of the library. -/
def State.function? (s : State) (name : String) : Option Callable :=
  match s.functions.get? name with
  | some f => some (.user f)
  | none => (Builtin.functions.lookup name).map .library

end Luuqad

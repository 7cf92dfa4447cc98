import Luuqad.Interpreter.Evaluator

/-!
# Calls

All variables live in one table. A call of a program's function keeps a copy of the table, sets the
parameters, runs the body, and puts the copy back when the body ends or returns; not when it is
interrupted in another way. The result is the returned value or, without one, the result of the last
statement.
-/

namespace Luuqad

namespace Evaluator

/-- Run the body of a function. A returned value is its result. -/
def functionBody (self : Evaluator) (f : UserFunction) : Run Value :=
  tryCatch (self.sequence f.body) fun
    | .returning v => return v
    | e => throw e

/-- Run a function after its parameters are set by `setting`, and put the variables back. -/
def runFunction (self : Evaluator) (f : UserFunction) (setting : Run Unit) : Run Value := do
  let saved := (← get).vars
  setting
  let result ← self.functionBody f
  modify ({ · with vars := saved })
  return result

/-- Set parameters to arguments; those without an argument are set to nothing. -/
def setParameters : List String → List Value → Run Unit
  | [], _ => return
  | p :: ps, [] => do
    Run.setVariable p .null
    setParameters ps []
  | p :: ps, v :: vs => do
    Run.setVariable p v
    setParameters ps vs

/-- Run a function on an item of a list: the item is its first parameter. -/
def onItem (self : Evaluator) (f : UserFunction) (v : Value) : Run Value :=
  self.runFunction f <|
    match f.params.head? with
    | some p => Run.setVariable p v
    | none => Run.fail .indexOutOfRange

def callLibrary (self : Evaluator) (f : Builtin) (args : List Argument) : Run Value :=
  f.call self.onItem self.rounds args []

/-- Call a method through a name with a point: a variable, and a method of its value. -/
def callDotted (self : Evaluator) (variableName method : String) (args : List Value) :
    Run Value := do
  let target := ((← get).vars.get? variableName).getD .null
  let methods := match target with
    | .list _ => Builtin.listMethods
    | .object _ => Builtin.objectMethods
    | .str _ => Builtin.textMethods
    | _ => []
  if target = .null then Run.raise (.undefinedVariable variableName)
  match methods.lookup method with
  | some f => self.callLibrary f ((target :: args).map .value)
  | none => Run.raise (.methodNotFound method target.kindName)

def callNamed (self : Evaluator) (name : String) (args : List Value) : Run Value := do
  match (← get).function? name with
  | some (.library f) => self.callLibrary f (args.map .value)
  | some (.user f) => self.runFunction f (setParameters f.params args)
  | none =>
    match Text.cut ['.'] name.toList with
    | some (before, after) =>
      self.callDotted (String.ofList before) (String.ofList after) args
    | none => Run.raise (.undefinedFunction name)

def call (self : Evaluator) (n : Node) : Run Value := do
  let args ← n.children.mapM self.evaluate
  match n.value with
  | .str name => self.callNamed name args
  | .tuple _ => Run.raise (.undefinedFunction (← Run.nameOf n.value))
  | v =>
    let _ ← Run.nameOf v
    Run.fail (.notIterable v.typeName)

/-- Define a function: the children that are names are its parameters, the others its body. -/
def define (n : Node) : Run Unit := do
  if n.kind ≠ .function then Run.raise .malformed
  let params ← (n.children.filter (·.kind = .identifier)).mapM fun p => Run.nameOf p.value
  let body := n.children.filter (·.kind ≠ .identifier)
  let name ← Run.nameOf n.value
  modify fun s => { s with functions := s.functions.put name ⟨params, body⟩ }

def takesFunction (method : String) : Bool := method == "shaandhee" || method == "aaddin"

/-- The arguments of a list method: where it takes a function, the name of one stands for it. -/
def listArguments (s : State) (method : String) : List Value → List Argument
  | .str name :: rest =>
    let first := match takesFunction method, s.function? name with
      | true, some (.user f) => .user f
      | true, some (.library f) => .value (.function f)
      | _, _ => .value (.str name)
    first :: rest.map .value
  | args => args.map .value

def listMethod (self : Evaluator) (method : String) (target : Value) (args : List Value) :
    Run Value := do
  match target, Builtin.listMethods.lookup method with
  | .list _, some f =>
    self.callLibrary f (.value target :: listArguments (← get) method args)
  | .list _, none => Run.raise (.methodNotFound method "teed")
  | _, _ => Run.raise (.noMethods method target.kindName)

def objectMethod (self : Evaluator) (method : String) (target : Value) (args : List Value) :
    Run Value :=
  match target, Builtin.objectMethods.lookup method with
  | .object _, some f => self.callLibrary f ((target :: args).map .value)
  | .object _, none => Run.raise (.methodNotFound method "walax")
  | _, _ => Run.raise (.noMethods method target.kindName)

def textMethod (self : Evaluator) (method : String) (target : Value) (args : List Value) :
    Run Value :=
  match target, Builtin.textMethods.lookup method with
  | .str _, some f => self.callLibrary f ((target :: args).map .value)
  | .str _, none => Run.raise (.methodNotFound method "qoraal")
  | _, _ => Run.raise (.noMethods method target.kindName)

def methodName (target : Value) (v : Value) : Run String :=
  match target with
  | .list _ | .object _ | .str _ => Run.nameOf v
  | _ => Run.text v

/-- An argument of a list method: where it selects items, the name of a function stands for
itself. -/
def listArgument (self : Evaluator) (method : String) (n : Node) : Run Value := do
  if method = "shaandhee" ∧ n.kind = .identifier then
    let name ← Run.nameOf n.value
    if ((← get).function? name).isSome then return .str name
    self.evaluate n
  else self.evaluate n

/-- A method call: of a list, an object or a text, or of a function kept in an object. -/
def methodCall (self : Evaluator) (n : Node) : Run Value := do
  let target ← self.evaluate (← self.child n 0)
  let method ← methodName target n.value
  let notFound : Run Value := Run.raise (.methodNotFound method target.kindName)
  let args := n.children.drop 1
  match target with
  | .list _ =>
    if (Builtin.listMethods.lookup method).isNone then notFound
    else self.listMethod method target (← args.mapM (self.listArgument method))
  | .object r =>
    if (Builtin.objectMethods.lookup method).isSome then
      self.objectMethod method target (← args.mapM self.evaluate)
    else
      match ((← get).heap.entries r).get? n.value with
      | some (.function f) => self.callLibrary f ((← args.mapM self.evaluate).map .value)
      | _ => notFound
  | .str _ =>
    if (Builtin.textMethods.lookup method).isNone then notFound
    else self.textMethod method target (← args.mapM self.evaluate)
  | _ => notFound

/-- Look for the method that a method call names, without calling it. -/
def findMethod (self : Evaluator) (n : Node) : Run Unit := do
  let target ← self.evaluate (← self.child n 0)
  let method ← methodName target n.value
  let missing (found : Bool) : Run Unit := do
    if !found then Run.raise (.methodNotFound method target.kindName)
  match target with
  | .object _ => missing (Builtin.objectMethods.lookup method).isSome
  | .list _ => missing (Builtin.listMethods.lookup method).isSome
  | _ => Run.raise (.noMethods method target.kindName)

end Evaluator

end Luuqad

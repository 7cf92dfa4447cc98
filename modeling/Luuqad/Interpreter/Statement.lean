import Luuqad.Interpreter.Expression
import Luuqad.Parser.Program

/-!
# Running statements
-/

namespace Luuqad.Evaluator

/-- Whether a child of a conditional is one of its other branches. -/
def isBranch (n : Node) : Bool := n.kind = .conditional || n.kind = .block

/-- The statements before the first branch. -/
def ownBody (children : List Node) : List Node := children.takeWhile fun n => !isBranch n

/-- Try the branches of a conditional in order. -/
def branches (self : Evaluator) : List Node → Run Unit
  | [] => return
  | n :: rest => do
    if n.kind = .conditional then
      if ← Run.isTrue (← self.evaluate (← self.child n 0)) then
        self.block (ownBody (n.children.drop 1))
      else self.branches rest
    else if n.kind = .block then self.block n.children
    else self.branches rest

def conditional (self : Evaluator) (n : Node) : Run Unit := do
  let rest := n.children.drop 1
  if ← Run.isTrue (← self.evaluate (← self.child n 0)) then self.block (ownBody rest)
  else self.branches rest

/-- Try the clauses of a switch in order. A clause without children is passed; one that starts with
a block is kept for the case that no clause matches. -/
def clauses (self : Evaluator) (v : Value) (last : Option Node) : List Node → Run Unit
  | [] => self.block (last.elim [] Node.children)
  | n :: rest =>
    match n.children with
    | [] => self.clauses v last rest
    | first :: body => do
      if first.kind = .block then self.clauses v (some n) rest
      else
        let w ← self.evaluate first
        if ← Run.act (Action.reading fun h => v.equal h w) then self.block body
        else self.clauses v last rest

def switch (self : Evaluator) (n : Node) : Run Unit := do
  let v ← self.evaluate (← self.child n 0)
  self.clauses v none (n.children.drop 1)

/-- One round of a loop; the result says whether the loop goes on. -/
def round (self : Evaluator) (body : List Node) : Run Bool :=
  tryCatch (do self.block body; return true) fun
    | .breaking => return false
    | .continuing => return true
    | e => throw e

/-- One round of a counting loop: the variable that `name` stands for is set, then the body is
run. -/
def countRound (self : Evaluator) (name : Value) (body : List Node) (v : Value) : Run Bool := do
  Run.setVariable (← Run.nameOf name) v
  self.round body

/-- Rounds of a counting loop, at most as many as `fuel`. -/
def countRounds (self : Evaluator) (name : Value) (body : List Node) (toward : Relation)
    (stop : Value) (step : Num) (v : Value) (i : Num) : Nat → Run Unit
  | 0 => throw .exhausted
  | fuel + 1 => do
    if ← Run.act (Action.reading fun h => toward.relate h v stop) then
      if ← self.countRound name body v then
        let next ← Run.act (Action.ofExcept (i.add step))
        self.countRounds name body toward stop step (← Run.act (Action.number next)) next fuel

/-- Whether the third child of a counting loop is its step. -/
def isStep (n : Node) : Bool :=
  n.kind = .literal || n.kind = .identifier || n.kind = .binary

/-- A counting loop. Both ends are included. -/
def loop (self : Evaluator) (n : Node) : Run Unit := do
  let start ← self.evaluate (← self.child n 0)
  let stop ← self.evaluate (← self.child n 1)
  let (step, body) ← match n.children.drop 2 with
    | third :: rest =>
      if isStep third then do pure (← self.evaluate third, rest)
      else pure (.int 1, third :: rest)
    | [] => pure (.int 1, [])
  match start.num?, stop.num?, step.num? with
  | some i, some _, some d =>
    let toward := if (Num.int 0).compare? d = some .lt then .lessEqual else .greaterEqual
    self.countRounds n.value body toward stop d start i self.rounds
  | _, _, _ => Run.raise .badLoopBounds

/-- Rounds of a loop with a condition, at most as many as `fuel`. -/
def whileRounds (self : Evaluator) (n : Node) (body : List Node) : Nat → Run Unit
  | 0 => throw .exhausted
  | fuel + 1 => do
    if ← Run.isTrue (← self.evaluate (← self.child n 0)) then
      if ← self.round body then self.whileRounds n body fuel

def whileLoop (self : Evaluator) (n : Node) : Run Unit :=
  self.whileRounds n (n.children.drop 1) self.rounds

/-- Run the first block. If it is interrupted, note the text of the interrupt and run the second. -/
def tryCatch (self : Evaluator) (n : Node) : Run Unit :=
  MonadExcept.tryCatch (do self.block (← self.child n 0).children) fun e =>
    match e.caught? with
    | none => throw e
    | some text => do
      Run.setVariable (← Run.nameOf n.value) (.str text)
      self.block (← self.child n 1).children

/-- Stop because a text or some tokens cannot be read. -/
def stop {α : Type} : ReadStop → Run α
  | .fault f => throw (.fault f)
  | .tooDeep => throw .exhausted

def runFile (self : Evaluator) (path : String) : Run Unit := do
  let source ← Run.act (Action.ofExcept ((← get).folder.read path))
  match readProgram source with
  | .error s => stop s
  | .ok program => self.block program.children

/-- The greatest number that a file can be opened under. -/
def descriptorLimit : Int := Number.pow2 31

/-- Why a value that is no path cannot be opened. A small number would stand for an open file, but
there is none. -/
def notOpened (v : Value) : Failure :=
  match v.int? with
  | some i =>
    if i < -descriptorLimit ∨ descriptorLimit ≤ i then .notPath v.typeName
    else if i < 0 then .negativeDescriptor
    else .badDescriptor
  | none => .notPath v.typeName

/-- An import: run the statements of another file. Whatever interrupts them is an error of the
import. -/
def importFile (self : Evaluator) (n : Node) : Run Unit := do
  let path ← Run.text n.value
  let running : Run Unit := match n.value with
    | .str path => self.runFile path
    | v => Run.fail (notOpened v)
  MonadExcept.tryCatch running fun e =>
    match e, e.caught? with
    | .fault (.failure (.fileMissing _)), _ => Run.raise (.fileNotFound path)
    | _, some text => Run.raise (.importFailed path text)
    | _, none => throw e

/-- The name of a class and that of its parent. -/
def headingOf (v : Value) : Run (Value × Value) :=
  match v with
  | .tuple t =>
    match t.toList with
    | [c, p] => return (c, p)
    | items =>
      Run.fail (if items.length < 2 then .notEnoughToUnpack items.length else .tooManyToUnpack)
  | v => return (v, .null)

/-- The methods and fields of a class, from its body. Other statements are run. -/
def members (self : Evaluator) :
    List Node → Entries → Entries → Run (Entries × Entries)
  | [], methods, fields => return (methods, fields)
  | n :: rest, methods, fields => do
    match n.kind with
    | .function =>
      let key ← Run.act (Action.ofExcept n.value.asKey)
      let code ← Run.act (Action.alloc (.code n))
      self.members rest (methods.put key (.code code)) fields
    | .declaration =>
      let v ← self.evaluate (← self.child n 0)
      let key ← Run.act (Action.ofExcept n.value.asKey)
      self.members rest methods (fields.put key v)
    | _ =>
      let _ ← self.execute n
      self.members rest methods fields

/-- The definition of a class. Its parent has to be defined already. -/
def classDefinition (self : Evaluator) (n : Node) : Run Value := do
  let (name, parent) ← headingOf n.value
  if ← Run.isTrue parent then
    let parentName ← Run.nameOf parent
    if !(← get).classes.has parentName then Run.raise (.parentNotFound parentName)
  let (methods, fields) ← self.members n.children [] []
  let r ← Run.act do
    let methods ← Action.newObject methods
    let fields ← Action.newObject fields
    Action.alloc (.object [(.str "name", name), (.str "parent", parent),
      (.str "methods", methods), (.str "fields", fields)])
  let className ← Run.nameOf name
  modify fun s => { s with classes := s.classes.put className r }
  return .object r

def returnValue (self : Evaluator) (n : Node) : Run Value := do
  match n.children with
  | [] => throw (.returning .null)
  | e :: _ => throw (.returning (← self.evaluate e))

/-- Run a statement. Calls, assignments and class definitions have a result. -/
def statement (self : Evaluator) (n : Node) : Run Value :=
  let done (r : Run Unit) : Run Value := do r; return .null
  match n.kind with
  | .program | .block => done (self.block n.children)
  | .declaration => done do let _ ← self.declare n
  | .function => done (define n)
  | .call => self.call n
  | .conditional => done (self.conditional n)
  | .switch => done (self.switch n)
  | .loop => done (self.loop n)
  | .whileLoop => done (self.whileLoop n)
  | .breakLoop => throw .breaking
  | .continueLoop => throw .continuing
  | .returnValue => self.returnValue n
  | .importFile => done (self.importFile n)
  | .tryCatch => done (self.tryCatch n)
  | .classDefinition => self.classDefinition n
  | .assignment => self.assignment n
  | .binary | .unary | .property | .methodCall | .index | .identifier | .literal =>
    done do let _ ← self.evaluate n
  | .list | .object => Run.raise (.unknownNode n.kind.shown)

end Luuqad.Evaluator

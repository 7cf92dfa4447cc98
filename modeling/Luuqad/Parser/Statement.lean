import Luuqad.Parser.Expression
import Luuqad.Value.Compare

/-!
# Statements

Statements follow each other without separators. Every form but the one that starts with a name is
told by its first token.
-/

namespace Luuqad.Parser

def braced (inner : Nested) : Parser (List Node) := do
  let _ ← expect .leftBrace
  let body ← many .rightBrace inner.statement
  let _ ← expect .rightBrace
  return body

/-- An expression between parentheses. -/
def condition (inner : Nested) : Parser Node := do
  let _ ← expect .leftParen
  let e ← inner.expression
  let _ ← expect .rightParen
  return e

/-- The value of the token under the cursor, which has to be a name. -/
def name : Parser Value := do return (← expect .identifier).value

/-- Name and value of a declaration, in a node located at `start`. -/
def binding (inner : Nested) (declared : Option TokenKind) (constant : Bool) (start : Token) :
    Parser Node := do
  let t ← current
  if t.kind ≠ .identifier then failExpecting "identifier"
  advance
  let _ ← expect .equal
  let e ← inner.expression
  return { kind := .declaration, value := t.value, children := [e], declared, constant,
           line := start.line, column := start.column }

/-- A declaration. The token under the cursor is the type of a typed one; it is passed unless it is
the name of an untyped constant. -/
def declaration (inner : Nested) (typed constant : Bool) : Parser Node := do
  let start ← current
  if !constant || typed then advance
  binding inner (if typed then some start.kind else none) constant start

def constant (inner : Nested) : Parser Node := do
  let start ← current
  advance
  let k ← kind
  if k.isTypeName then
    advance
    binding inner (some k) true start
  else binding inner none true start

/-- The definition of a function: parameters, then the body. A comma after a parameter may be
missing. -/
def function (inner : Nested) : Parser Node := do
  let _ ← expect .hawl
  let f ← name
  let _ ← expect .leftParen
  let params ← many .rightParen do
    let p ← name
    skip .comma
    return ({ kind := .identifier, value := p } : Node)
  let _ ← expect .rightParen
  let body ← braced inner
  return { kind := .function, value := f, children := params ++ body }

/-- A call by a name or by a keyword that names a function. A semicolon after it is passed. -/
def call (inner : Nested) : Parser Node := do
  let t ← current
  if t.kind ≠ .identifier ∧ ¬t.kind.isFunctionWord then failExpecting "function name"
  advance
  let node ← callOf (nameOf t) inner
  skip .semicolon
  return node

def importFile : Parser Node := do
  let _ ← expect .kaKeen
  let t ← current
  if t.kind ≠ .string then failExpecting "string for file path"
  advance
  return { kind := .importFile, value := t.value }

/-- Further conditions with their bodies, at most `fuel` of them. -/
def alternatives (inner : Nested) : Nat → Parser (List Node)
  | 0 => throw .tooDeep
  | fuel + 1 => do
    if (← kind) = .haddiiKale then
      advance
      let c ← condition inner
      let body ← braced inner
      return { kind := .conditional, children := c :: body } :: (← alternatives inner fuel)
    else return []

/-- A conditional: condition and body, then the alternatives, then the body of the last resort as a
block, all in one row of children. -/
def conditional (inner : Nested) : Parser Node := do
  let _ ← expect .haddii
  let c ← condition inner
  let body ← braced inner
  let others ← alternatives inner (← get).bound
  let last ← if (← kind) = .ugudambeyn then do
      advance
      let b ← braced inner
      pure [({ kind := .block, children := b } : Node)]
    else pure []
  return { kind := .conditional, children := c :: body ++ others ++ last }

/-- The step of a counting loop, after two colons. -/
def loopStep (inner : Nested) : Parser (List Node) := do
  if (← kind) = .colon then
    advance
    if (← kind) = .colon then
      advance
      return [← sum inner]
    else failExpecting "':'"
  else return []

/-- A counting loop: start, end, the step if there is one, then the body, in one row of children. -/
def loop (inner : Nested) : Parser Node := do
  let _ ← expect .kuceli
  let _ ← expect .leftParen
  let variableName ← name
  let first ← sum inner
  let _ ← expect .identifier
  let last ← sum inner
  let step ← loopStep inner
  let _ ← expect .rightParen
  let body ← braced inner
  return { kind := .loop, value := variableName, children := first :: last :: step ++ body }

def whileLoop (inner : Nested) : Parser Node := do
  let _ ← expect .intay
  let c ← condition inner
  let body ← braced inner
  return { kind := .whileLoop, children := c :: body }

def breakLoop : Parser Node := do
  let _ ← expect .jooji
  return { kind := .breakLoop }

def continueLoop : Parser Node := do
  let _ ← expect .soco
  return { kind := .continueLoop }

/-- A body, and what to do when it fails. -/
def tryCatch (inner : Nested) : Parser Node := do
  let _ ← expect .iskuDay
  let body ← braced inner
  let _ ← expect .qabo
  let _ ← expect .leftParen
  let e ← name
  let _ ← expect .rightParen
  let handler ← braced inner
  return { kind := .tryCatch, value := e,
           children := [{ kind := .block, children := body },
                        { kind := .block, children := handler }] }

/-- The heading of a class: its name, with the name of its parent if it has one. -/
def heading (c : Value) (parent : Option Value) : Value :=
  match parent with
  | some p => if p.isTrue {} then .pair c p else c
  | none => c

def classDefinition (inner : Nested) : Parser Node := do
  let _ ← expect .fasalka
  let c ← name
  let parent ← if (← kind) = .kaDhaxal then do
      advance
      pure (some (← name))
    else pure none
  let body ← braced inner
  return { kind := .classDefinition, value := heading c parent, children := body }

/-- Return from a function, with a value unless a semicolon follows. -/
def returnValue (inner : Nested) : Parser Node := do
  let _ ← expect .celi
  if (← kind) = .semicolon then return { kind := .returnValue }
  return { kind := .returnValue, children := [← inner.expression] }

/-- One clause of a switch: a value with its body, or the body of the last resort. Both are blocks;
the first child of the former is the value. -/
def clause (inner : Nested) : Parser Node := do
  match ← kind with
  | .xaalad =>
    advance
    let v ← inner.expression
    let body ← braced inner
    return { kind := .block, children := v :: body }
  | .ugudambeyn =>
    advance
    let body ← braced inner
    return { kind := .block, children := body }
  | _ => failExpecting "'xaalad' or 'ugudambeyn'"

def switch (inner : Nested) : Parser Node := do
  let _ ← expect .dooro
  let e ← condition inner
  let _ ← expect .leftBrace
  let clauses ← many .rightBrace (clause inner)
  let _ ← expect .rightBrace
  return { kind := .switch, children := e :: clauses }

/-- A statement that starts with a name: an assignment, a call, or an expression that starts with a
name and its accesses. -/
def named (inner : Nested) : Parser Node := do
  let start ← current
  advance
  let variableNode : Node := { kind := .identifier, value := start.value }
  let assigned (target : Node) : Parser Node := do
    advance
    let v ← inner.expression
    return { kind := .assignment, children := [target, v], line := start.line,
             column := start.column }
  match ← kind with
  | .dot | .leftBracket =>
    let notName : Parser Unit := do fail (.expectedToken "IDENTIFIER" (← kind).shown)
    let target ← accesses notName inner variableNode (← get).bound
    if (← kind) = .equal then assigned target else return target
  | .leftParen =>
    advance
    let args ← arguments inner.expression
    return { kind := .call, value := start.value, children := args }
  | .equal => assigned variableNode
  | _ => return variableNode

def statement (inner : Nested) : Parser Node := do
  let start ← current
  match start.kind with
  | .haddii => conditional inner
  | .dooro => switch inner
  | .abn | .jajab | .qoraal | .bool | .teed | .walax => declaration inner true false
  | .door => declaration inner false false
  | .madoor => constant inner
  | .hawl => function inner
  | .celi => returnValue inner
  | .qor =>
    advance
    let e ← sum inner
    return { kind := .call, value := .str "qor", children := [e], line := start.line,
             column := start.column }
  | .gelin => call inner
  | .kuceli => loop inner
  | .intay => whileLoop inner
  | .jooji => breakLoop
  | .soco => continueLoop
  | .iskuDay => tryCatch inner
  | .kaKeen => importFile
  | .fasalka => classDefinition inner
  | .leftBrace => return { kind := .block, children := ← braced inner }
  | .identifier => named inner
  | _ => failUnexpected

/-- A node located at the token under the cursor. -/
def nodeHere (k : NodeKind) (v : Value) (children : List Node) : Parser Node := do
  let t ← current
  return { kind := k, value := v, children, line := t.line, column := t.column }

end Luuqad.Parser

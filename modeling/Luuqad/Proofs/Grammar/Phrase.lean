import Luuqad.Parser.Statement
import Luuqad.Value.Operator

/-!
# Structured programs

A program as its author thinks of it: statements and expressions with the parts that each form has,
free of tokens and parentheses. `Statement.toNode` and `Expression.toNode` say which tree of nodes a
structured program stands for; this is where bodies, alternatives and steps are put into the one row
of children that a node has.
-/

namespace Luuqad

/-! ## Names and words -/

/-- A name that a program chooses; it is never empty. -/
structure Name where
  text : String
  nonempty : text ≠ ""
deriving DecidableEq, Repr

/-- A keyword that names a static type. -/
structure TypeWord where
  kind : TokenKind
  isType : kind.isTypeName = true
deriving DecidableEq, Repr

/-- What can be called or mentioned inside an expression: a name, or a keyword that names a
function. -/
inductive Word
  | name (n : Name)
  | keyword (kind : TokenKind) (isFunction : kind.isFunctionWord = true)
deriving DecidableEq, Repr

/-- The name under which a word is looked up. -/
def Word.toValue : Word → Value
  | name n => .str n.text
  | keyword k _ => .str k.spelling

/-- The key of an entry of an object. -/
inductive Key
  | name (n : Name)
  | text (s : String)
deriving DecidableEq, Repr

def Key.toValue : Key → Value
  | name n => .str n.text
  | text s => .str s

/-- A place in a text, unless the tokens were made by hand. -/
structure Spot where
  line : Option Nat
  column : Option Nat
deriving DecidableEq, Repr

/-! ## Expressions -/

/-- The kind of token that an operator is written with; equality takes two of them. -/
def Operator.tokenKind : Operator → TokenKind
  | add => .plus
  | subtract => .minus
  | multiply => .star
  | divide => .slash
  | remainder => .modulo
  | equal => .equal
  | notEqual => .notEqual
  | order .greater => .greater
  | order .less => .less
  | order .greaterEqual => .greaterEqual
  | order .lessEqual => .lessEqual
  | and => .and
  | or => .or

def Operator.symbol (op : Operator) : String := op.tokenKind.spelling

inductive Expression
  | number (n : Num)
  | text (s : String)
  | bool (b : Bool)
  | null
  | name (w : Word)
  | call (w : Word) (arguments : List Expression)
  | list (items : List Expression)
  | object (entries : List (Key × Expression))
  | property (target : Expression) (name : Name)
  | method (target : Expression) (name : Name) (arguments : List Expression)
  | index (target place : Expression)
  | negative (e : Expression)
  | not (e : Expression)
  | binary (op : Operator) (left right : Expression)

/-- A number as the value of a literal. -/
def Num.literal : Num → Value
  | int i => .int i
  | float x => .float x

/-- The number of opposite sign. -/
def Num.opposite : Num → Num
  | int i => int (-i)
  | float x => float (-x)

namespace Expression

/-- The number that an expression writes down. Truth values count as numbers, and so do negatives
of numbers. -/
def numeral? : Expression → Option Num
  | number n => some n
  | bool b => some (.int (if b then 1 else 0))
  | negative e => e.numeral?.map Num.opposite
  | _ => none

mutual

/-- The tree of an expression. The negative of a number is a literal; any other negative is a
product. -/
def toNode : Expression → Node
  | number n => Parser.literal n.literal
  | text s => Parser.literal (.str s)
  | bool b => Parser.literal (.bool b)
  | null => Parser.literal .null
  | name w => { kind := .identifier, value := w.toValue }
  | call w arguments => { kind := .call, value := w.toValue, children := toNodes arguments }
  | list items => { kind := .list, children := toNodes items }
  | object entries => { kind := .object, children := entryNodes entries }
  | property target n => { kind := .property, value := .str n.text, children := [toNode target] }
  | method target n arguments =>
    { kind := .methodCall, value := .str n.text, children := toNode target :: toNodes arguments }
  | index target place => { kind := .index, children := [toNode target, toNode place] }
  | negative e =>
    match e.numeral? with
    | some n => Parser.literal n.opposite.literal
    | none => Parser.binary (.str "*") (Parser.literal (.int (-1))) (toNode e)
  | not e => { kind := .unary, value := .str "!", children := [toNode e] }
  | binary op left right => Parser.binary (.str op.symbol) (toNode left) (toNode right)

def toNodes : List Expression → List Node
  | [] => []
  | e :: rest => toNode e :: toNodes rest

/-- The trees of the entries of an object: literals that hold a key, with the value as child. -/
def entryNodes : List (Key × Expression) → List Node
  | [] => []
  | (key, e) :: rest =>
    { kind := .literal, value := key.toValue, children := [toNode e] } :: entryNodes rest

end

theorem negated_of_numeral {e : Expression} {n : Num} (h : e.numeral? = some n) :
    Parser.negated e.toNode = Parser.literal n.opposite.literal := by
  cases e with
  | number m =>
    cases h
    cases n <;> rfl
  | bool b =>
    cases h
    cases b <;> rfl
  | negative e =>
    obtain ⟨m, hm, rfl⟩ := Option.map_eq_some_iff.mp h
    rw [toNode, hm]
    cases m <;> rfl
  | _ => cases h

theorem negated_of_not_numeral {e : Expression} (h : e.numeral? = none) :
    Parser.negated e.toNode = Parser.binary (.str "*") (Parser.literal (.int (-1))) e.toNode := by
  cases e with
  | number m | bool b => cases h
  | negative e =>
    have hnone : e.numeral? = none := Option.map_eq_none_iff.mp h
    rw [toNode, hnone]
    rfl
  | _ =>
    rw [toNode]
    rfl

/-- The parser makes the tree of a negative from that of the expression. -/
theorem toNode_negative (e : Expression) : (negative e).toNode = Parser.negated e.toNode := by
  rw [toNode]
  cases h : e.numeral? with
  | some n => exact (negated_of_numeral h).symm
  | none => exact (negated_of_not_numeral h).symm

end Expression

/-- One access in a chain that starts with a name. -/
inductive Access
  | property (name : Name)
  | method (name : Name) (arguments : List Expression)
  | index (place : Expression)

/-- The expression that accesses a target. -/
def Access.on (target : Expression) : Access → Expression
  | property n => .property target n
  | method n arguments => .method target n arguments
  | index place => .index target place

/-- A name with accesses, as statements start with it. -/
structure Chain where
  start : Name
  accesses : List Access := []

def Chain.toExpression (c : Chain) : Expression :=
  c.accesses.foldl Access.on (.name (.name c.start))

/-! ## Statements -/

mutual

inductive Statement
  /-- A declaration, of a constant or a variable, with a static type or without. -/
  | declaration (spot : Spot) (constant : Bool) (type : Option TypeWord) (name : Name)
      (value : Expression)
  | function (name : Name) (params : List Name) (body : List Statement)
  | returned (value : Expression)
  | print (spot : Spot) (value : Expression)
  | input (arguments : List Expression)
  | call (function : Name) (arguments : List Expression)
  /-- A name with accesses; a call of a method if the last access is one. -/
  | access (target : Chain)
  | assignment (spot : Spot) (target : Chain) (value : Expression)
  | conditional (condition : Expression) (body : List Statement) (others : List Branch)
      (last : Option (List Statement))
  | switch (value : Expression) (clauses : List Clause)
  | loop (counter : Name) (first last : Expression) (step : Option Expression)
      (body : List Statement)
  | whileLoop (condition : Expression) (body : List Statement)
  | breakLoop
  | continueLoop
  | tryCatch (body : List Statement) (error : Name) (handler : List Statement)
  | importFile (path : String)
  | classDefinition (name : Name) (parent : Option Name) (body : List Statement)
  | block (body : List Statement)

inductive Branch
  | mk (condition : Expression) (body : List Statement)

/-- A clause of a switch: a value with its body, or the body of the last resort. -/
inductive Clause
  | value (value : Expression) (body : List Statement)
  | last (body : List Statement)

end

abbrev Program := List Statement

def classHeading (name : Name) : Option Name → Value
  | some parent => .pair (.str name.text) (.str parent.text)
  | none => .str name.text

def paramNodes (params : List Name) : List Node :=
  params.map fun p => { kind := .identifier, value := .str p.text }

def assignmentNode (spot : Spot) (target value : Expression) : Node :=
  { kind := .assignment, children := [target.toNode, value.toNode], line := spot.line,
    column := spot.column }

namespace Statement

mutual

def toNode : Statement → Node
  | declaration spot constant type n value =>
    { kind := .declaration, value := .str n.text, children := [value.toNode],
      declared := type.map TypeWord.kind, constant, line := spot.line, column := spot.column }
  | function n params body =>
    { kind := .function, value := .str n.text, children := paramNodes params ++ toNodes body }
  | returned value => { kind := .returnValue, children := [value.toNode] }
  | print spot value =>
    { kind := .call, value := .str "qor", children := [value.toNode], line := spot.line,
      column := spot.column }
  | input arguments =>
    { kind := .call, value := .str "gelin", children := Expression.toNodes arguments }
  | call f arguments =>
    { kind := .call, value := .str f.text, children := Expression.toNodes arguments }
  | access target => target.toExpression.toNode
  | assignment spot target value => assignmentNode spot target.toExpression value
  | conditional c body others last =>
    { kind := .conditional,
      children := c.toNode :: toNodes body ++ branchNodes others ++ lastNodes last }
  | switch value clauses => { kind := .switch, children := value.toNode :: clauseNodes clauses }
  | loop counter first last step body =>
    { kind := .loop, value := .str counter.text,
      children := first.toNode :: last.toNode :: (step.map Expression.toNode).toList ++
        toNodes body }
  | whileLoop c body => { kind := .whileLoop, children := c.toNode :: toNodes body }
  | breakLoop => { kind := .breakLoop }
  | continueLoop => { kind := .continueLoop }
  | tryCatch body e handler =>
    { kind := .tryCatch, value := .str e.text,
      children := [{ kind := .block, children := toNodes body },
                   { kind := .block, children := toNodes handler }] }
  | importFile path => { kind := .importFile, value := .str path }
  | classDefinition n parent body =>
    { kind := .classDefinition, value := classHeading n parent, children := toNodes body }
  | block body => { kind := .block, children := toNodes body }

def toNodes : List Statement → List Node
  | [] => []
  | s :: rest => toNode s :: toNodes rest

def branchNodes : List Branch → List Node
  | [] => []
  | .mk c body :: rest =>
    { kind := .conditional, children := c.toNode :: toNodes body } :: branchNodes rest

def lastNodes : Option (List Statement) → List Node
  | none => []
  | some body => [{ kind := .block, children := toNodes body }]

def clauseNodes : List Clause → List Node
  | [] => []
  | .value v body :: rest =>
    { kind := .block, children := v.toNode :: toNodes body } :: clauseNodes rest
  | .last body :: rest => { kind := .block, children := toNodes body } :: clauseNodes rest

end

end Statement

def Program.toNode (p : Program) : Node :=
  { kind := .program, children := Statement.toNodes p }

end Luuqad

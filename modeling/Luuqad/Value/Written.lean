import Luuqad.Heap
import Luuqad.Number.Written

/-!
# How values are written

A value is written in one of three ways. `Value.shown` writes it so that texts can be told from
names, in quotes. `Value.text` writes a text as it is, and all else as `shown` does. `Value.display`
is what a program prints: truth values in Somali, and no quotes inside lists.

A list or object inside itself is written as dots.
-/

namespace Luuqad

def bracketed (items : List String) : String := "[" ++ ", ".intercalate items ++ "]"

def inBraces (items : List String) : String := "\x7b" ++ ", ".intercalate items ++ "\x7d"

/-- Texts between parentheses; a single one is followed by a comma. -/
def inParentheses : List String → String
  | [item] => "(" ++ item ++ ",)"
  | items => "(" ++ ", ".intercalate items ++ ")"

def optionalNumber (n : Option Nat) : String := (n.map toString).getD "None"

/-- The flags of a declaration as its node shows them. -/
def Node.shownType (n : Node) : String :=
  if n.kind = .declaration then
    (n.declared.elim "" fun k => ", var_type=" ++ k.shown) ++
      (if n.constant then ", constant=True" else "")
  else ""

/-- The place of a node as it shows it. -/
def Node.shownPlace (n : Node) : String :=
  match n.line, n.column with
  | none, _ => ""
  | some l, none => ", line=" ++ toString l
  | some l, some c => ", line=" ++ toString l ++ ", pos=" ++ toString c

mutual

/-- A node, where `text` writes the values of nodes. -/
def Node.shownWith (text : Value → Except Failure String) : Node → Except Failure String
  | ⟨kind, value, children, declared, constant, line, column⟩ => do
    let n : Node := ⟨kind, value, [], declared, constant, line, column⟩
    let v ← text value
    let inner ← Node.allShownWith text children
    return "ASTNode(" ++ kind.shown ++ ", value=" ++ v ++ n.shownType ++ n.shownPlace ++
      ", children=" ++ bracketed inner ++ ")"

/-- Several nodes. -/
def Node.allShownWith (text : Value → Except Failure String) :
    List Node → Except Failure (List String)
  | [] => .ok []
  | n :: rest => do return (← n.shownWith text) :: (← Node.allShownWith text rest)

end

namespace Value

mutual

/-- A value written with quotes, given the cells it lies in; `fuel` bounds how deep it is. -/
def shownIn (h : Heap) (fuel : Nat) (outer : List Ref) (v : Value) : Except Failure String :=
  match v with
  | null => .ok "None"
  | bool b => .ok (if b then "True" else "False")
  | int i => Number.writeInt i
  | float x => .ok (Number.writeFloat x)
  | nan _ => .ok (Number.writeFloat Number.nan)
  | str s => .ok (Text.quote s)
  | tuple t => do return inParentheses (← shownRow h fuel outer t)
  | function f => .ok ("<function " ++ f.fullName ++ ">")
  | tokenKind k => .ok ("<" ++ k.shown ++ ": " ++ Text.quote k.spelling ++ ">")
  | nodeKind k => .ok ("<" ++ k.shown ++ ": " ++ Text.quote k.label ++ ">")
  | list r =>
    match fuel with
    | 0 => .ok "[...]"
    | fuel + 1 =>
      if outer.contains r then .ok "[...]"
      else do
        return bracketed (← (h.items r).toList.mapM (shownIn h fuel (r :: outer)))
  | object r =>
    match fuel with
    | 0 => .ok "\x7b...\x7d"
    | fuel + 1 =>
      if outer.contains r then .ok "\x7b...\x7d"
      else do
        let entries ← (h.entries r).mapM fun (k, v) => do
          return (← shownIn h fuel (r :: outer) k) ++ ": " ++ (← shownIn h fuel (r :: outer) v)
        return inBraces entries
  | code r =>
    match fuel, h.read r with
    | fuel + 1, some (.code n) => n.shownWith (textIn h fuel outer)
    | _, _ => .ok "..."
  | token r =>
    match fuel, h.read r with
    | fuel + 1, some (.token t) => do
      return "Token(" ++ t.kind.shown ++ ", " ++ (← shownIn h fuel outer t.value) ++ ", line=" ++
        optionalNumber t.line ++ ", pos=" ++ optionalNumber t.column ++ ")"
    | _, _ => .ok "..."
termination_by (fuel, sizeOf v, 0)

/-- The values of a row, each written with quotes. -/
def shownRow (h : Heap) (fuel : Nat) (outer : List Ref) (t : Tuple) :
    Except Failure (List String) :=
  match t with
  | .nil => .ok []
  | .cons v rest => do return (← shownIn h fuel outer v) :: (← shownRow h fuel outer rest)
termination_by (fuel, sizeOf t, 0)

/-- A value written without quotes around it. -/
def textIn (h : Heap) (fuel : Nat) (outer : List Ref) (v : Value) : Except Failure String :=
  match v with
  | str s => .ok s
  | tokenKind k => .ok k.shown
  | nodeKind k => .ok k.shown
  | v => shownIn h fuel outer v
termination_by (fuel, sizeOf v, 1)

end

/-- A value written with quotes. -/
def shown (h : Heap) (v : Value) : Except Failure String := shownIn h (h.size + 1) [] v

/-- A value written without quotes around it. -/
def text (h : Heap) (v : Value) : Except Failure String := textIn h (h.size + 1) [] v

/-- What a program prints for a value nested at most `fuel` deep. A list or object with a part that
cannot be written is written as dots. -/
def displayIn (h : Heap) : Nat → Value → Except Failure String
  | _, bool b => .ok (if b then "run" else "been")
  | 0, list _ => .ok "[...]"
  | fuel + 1, list r =>
    match (h.items r).toList.mapM (displayIn h fuel) with
    | .ok items => .ok (bracketed items)
    | .error _ => .ok "[...]"
  | 0, object _ => .ok "\x7b...\x7d"
  | fuel + 1, object r =>
    let entries := (h.entries r).mapM fun (k, v) => do
      return (← shown h k) ++ ": " ++ (← displayIn h fuel v)
    match entries with
    | .ok entries => .ok (inBraces entries)
    | .error _ => .ok "\x7b...\x7d"
  | _, v => text h v

def display (h : Heap) (v : Value) : Except Failure String := displayIn h (h.size + 1) v

end Value

/-- A node as messages show it. -/
def Node.shown (h : Heap) (n : Node) : Except Failure String := n.shownWith (Value.text h)

def Token.shown (h : Heap) (t : Token) : Except Failure String := do
  return "Token(" ++ t.kind.shown ++ ", " ++ (← t.value.shown h) ++ ", line=" ++
    optionalNumber t.line ++ ", pos=" ++ optionalNumber t.column ++ ")"

def Token.shownAll (h : Heap) (tokens : List Token) : Except Failure String := do
  return bracketed (← tokens.mapM (Token.shown h))

end Luuqad

import Luuqad.Error.Diagnostic
import Luuqad.Token

/-!
# The cursor of the parser

The parser looks at one token at a time. A cursor holds that token, those after it, and the number
of tokens passed. Past the last token the cursor keeps looking at it, while the number goes on
growing.

A parser is a function on cursors. It keeps the cursor when it stops with an error, so that the
place where it stopped is known.
-/

namespace Luuqad

/-- A place in a non-empty sequence of tokens. -/
structure Cursor where
  /-- How many times the cursor has moved. -/
  index : Nat
  current : Token
  /-- The tokens after it. -/
  ahead : List Token
deriving Repr, Inhabited

namespace Cursor

/-- The start of a sequence of tokens, unless it is empty. -/
def ofTokens? : List Token → Option Cursor
  | [] => none
  | t :: rest => some ⟨0, t, rest⟩

def advance (c : Cursor) : Cursor :=
  match c.ahead with
  | [] => { c with index := c.index + 1 }
  | t :: rest => ⟨c.index + 1, t, rest⟩

/-- A number that no loop over the tokens ahead exceeds if it ends at all. -/
def bound (c : Cursor) : Nat := c.ahead.length + 2

end Cursor

/-- Why the parser stopped. -/
inductive ParseStop
  /-- The tokens are wrong. -/
  | error (d : Diagnostic)
  /-- The tokens are nested more deeply than there are tokens: the cursor is past the end, and the
  last token opens one part after the other. -/
  | tooDeep
deriving DecidableEq, Repr, Inhabited

abbrev Parser (α : Type) := EStateM ParseStop Cursor α

namespace Parser

def current : Parser Token := return (← get).current

def kind : Parser TokenKind := return (← get).current.kind

def advance : Parser Unit := modify Cursor.advance

/-- Stop because of the token under the cursor. -/
def fail {α : Type} (cause : Cause) : Parser α := do
  let t ← current
  throw (.error ⟨cause, t.line, t.column⟩)

def failExpecting {α : Type} (expected : String) : Parser α := do
  fail (.expectedToken expected (← kind).described)

/-- Stop because the token cannot stand here. -/
def failUnexpected {α : Type} : Parser α := do
  fail (.unexpectedToken (← kind).described)

def expect (k : TokenKind) : Parser Token := do
  let t ← current
  if t.kind = k then
    advance
    return t
  else failExpecting k.described

/-- Pass a token of the given kind if it is there. -/
def skip (k : TokenKind) : Parser Unit := do
  if (← kind) = k then advance

/-- Items up to, and not including, a token of the given kind; at most `fuel` of them. -/
def itemsUntil {α : Type} (stop : TokenKind) (item : Parser α) : Nat → Parser (List α)
  | 0 => throw .tooDeep
  | fuel + 1 => do
    if (← kind) = stop then return []
    let a ← item
    return a :: (← itemsUntil stop item fuel)

/-- Items up to, and not including, a token of the given kind. -/
def many {α : Type} (stop : TokenKind) (item : Parser α) : Parser (List α) := do
  itemsUntil stop item (← get).bound

/-- Further items, each after a comma; at most `fuel` of them. -/
def itemsAfterCommas {α : Type} (item : Parser α) : Nat → Parser (List α)
  | 0 => throw .tooDeep
  | fuel + 1 => do
    if (← kind) = .comma then
      advance
      let a ← item
      return a :: (← itemsAfterCommas item fuel)
    else return []

/-- Items between parentheses, separated by commas, the opening one having been passed. -/
def arguments {α : Type} (item : Parser α) : Parser (List α) := do
  let items ← if (← kind) = .rightParen then pure [] else do
    let a ← item
    let more ← itemsAfterCommas item (← get).bound
    pure (a :: more)
  let _ ← expect .rightParen
  return items

/-- Items separated by commas up to a closing token, where a comma may stand before it; at most
`fuel` of them. -/
def separatedUntil {α : Type} (close : TokenKind) (item : Parser α) : Nat → Parser (List α)
  | 0 => throw .tooDeep
  | fuel + 1 => do
    if (← kind) = close then return []
    let a ← item
    if (← kind) = .comma then
      advance
      return a :: (← separatedUntil close item fuel)
    else return [a]

end Parser

end Luuqad

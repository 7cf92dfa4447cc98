import Luuqad.Value

/-!
# Tokens

A token has a kind, a value and, unless it was made by hand, the place where it starts.
-/

namespace Luuqad

/-- A place in a text, counted from one. -/
structure Position where
  line : Nat
  column : Nat
deriving DecidableEq, Repr, Inhabited

namespace Position

def start : Position := ⟨1, 1⟩

/-- The place after a character. -/
def after (p : Position) (c : Char) : Position :=
  if c == '\n' then ⟨p.line + 1, 1⟩ else ⟨p.line, p.column + 1⟩

def past (p : Position) (cs : List Char) : Position := cs.foldl after p

end Position

structure Token where
  kind : TokenKind
  value : Value
  line : Option Nat := none
  column : Option Nat := none
deriving DecidableEq, Repr, Inhabited

/-- A token that starts at a place. -/
def Token.at (kind : TokenKind) (value : Value) (p : Position) : Token :=
  ⟨kind, value, some p.line, some p.column⟩

end Luuqad

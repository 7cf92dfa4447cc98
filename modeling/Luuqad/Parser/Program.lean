import Luuqad.Parser.Statement
import Luuqad.Token.Lexer

/-!
# Programs

The grammar is tied together by depth. A part nested in another one starts after at least one token
of the outer part, so tokens cannot be nested more deeply than there are tokens; `Parser.run` allows
that depth. Only a sequence without an end token can exceed it, when the parser keeps looking at its
last token.
-/

namespace Luuqad

/-- The parsers for parts nested at most `depth` deep. -/
def Nested.upTo : Nat → Nested
  | 0 => ⟨throw .tooDeep, throw .tooDeep, throw .tooDeep⟩
  | depth + 1 =>
    let inner := Nested.upTo depth
    ⟨Parser.statement inner, Parser.expression inner, Parser.factor inner⟩

namespace Parser

/-- A whole program: statements up to the end token. -/
def program (inner : Nested) : Parser Node := do
  let statements ← many .eof (statement inner)
  return { kind := .program, children := statements }

/-- Run a parser at the start of some tokens, which must not be empty. -/
def run {α : Type} (p : Nested → Parser α) (tokens : List Token) :
    Option (EStateM.Result ParseStop Cursor α) :=
  (Cursor.ofTokens? tokens).map (p (.upTo (tokens.length + 2)))

end Parser

/-- Why a program cannot be read. -/
inductive ReadStop
  | fault (f : Fault)
  | tooDeep
deriving DecidableEq, Repr, Inhabited

def parse (tokens : List Token) : Except ReadStop Node :=
  match Parser.run Parser.program tokens with
  | none => .error (.fault (.failure .indexOutOfRange))
  | some (.ok node _) => .ok node
  | some (.error (.error d) _) => .error (.fault (.error d))
  | some (.error .tooDeep _) => .error .tooDeep

def readProgram (source : String) : Except ReadStop Node :=
  match tokenize source with
  | .error f => .error (.fault f)
  | .ok tokens => parse tokens

end Luuqad

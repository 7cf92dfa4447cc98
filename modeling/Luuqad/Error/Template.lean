import Luuqad.Failure

/-!
# Message templates

A template is a text with named slots. It can be shown as it stands, with the names of its slots in
braces, or it can be filled with the texts of its parameters. Filling goes from left to right, looks
a slot up where it stands, and puts the parameter's text in unchanged.
-/

namespace Luuqad

/-- A part of a template. -/
inductive Piece
  | text (s : String)
  | slot (name : String)
  /-- A closing brace that closes nothing: it can be shown, but filling stops at it. -/
  | brace
deriving DecidableEq, Repr, Inhabited

abbrev Template := List Piece

/-- A parameter: its name, and its text unless the value has none. -/
abbrev Param := String × Except Failure String

def Piece.shown : Piece → String
  | text s => s
  | slot name => "\x7b" ++ name ++ "\x7d"
  | brace => "\x7d"

namespace Template

def shown : Template → String
  | [] => ""
  | p :: rest => p.shown ++ shown rest

def fill (params : List Param) : Template → Except Failure String
  | [] => .ok ""
  | .text s :: rest => do return s ++ (← fill params rest)
  | .slot name :: rest =>
    match params.lookup name with
    | none => .error (.missingKey name)
    | some text => do
      let t ← text
      return t ++ (← fill params rest)
  | .brace :: _ => .error .loneClosingBrace

/-- The template filled if there is anything to fill it with, and as it stands otherwise. -/
def fillIfAny (params : List Param) (t : Template) : Except Failure String :=
  if params.isEmpty then .ok t.shown else t.fill params

end Template

end Luuqad

import Luuqad.Token.Lexer

/-!
# What a source text asks for

A program is run in a folder whose files are known beforehand. These functions say which files a
source text may ask for, and whether it may read input, so that they can be fetched before it runs.
-/

namespace Luuqad.Sources

/-- The tokens of a source text, as far as it can be read. -/
def tokens (source : String) : List Token := (tokenize source).toOption.getD []

/-- The paths that a source text may import: its texts in quotes. -/
def paths (source : String) : List String :=
  (tokens source).filterMap fun t =>
    match t.kind, t.value with
    | .string, .str path => some path
    | _, _ => none

def readsInput (source : String) : Bool := (tokens source).any fun t => t.value == .str "gelin"

end Luuqad.Sources

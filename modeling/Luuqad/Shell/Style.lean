/-!
# How the shell shows its texts

Colours and weights of the terminal, each switched on before a text and off after it.
-/

namespace Luuqad.Shell

/-- A text between a style and its end. -/
def styled (style text : String) : String := "\x1b[" ++ style ++ "m" ++ text ++ "\x1b[0m"

/-- Results. -/
def green : String → String := styled "32"

/-- Errors. -/
def red : String → String := styled "31"

/-- Notices. -/
def yellow : String → String := styled "33"

/-- Remarks. -/
def grey : String → String := styled "90"

/-- Headings. -/
def bold : String → String := styled "1"

end Luuqad.Shell

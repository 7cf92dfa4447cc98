import Luuqad.Shell.Line

/-!
# Lines that the shell hands on

A line that the shell does not answer is handed to the interpreter as a program of its own. The
shell only sees what came of it, and shows that. A failure on the way is explained by what its text
mentions.
-/

namespace Luuqad.Shell

open Text (Pattern strip contains)

/-- What came of handing a line on. -/
inductive Delegate
  /-- There is no interpreter to hand it to. -/
  | absent
  | finished (code : Int) (out err : String)
  /-- The interpreter could not be started. -/
  | unstartable
  /-- Something else went wrong. -/
  | broken (text : String)
  /-- An error of the language arose. -/
  | refused (d : Diagnostic)
deriving DecidableEq, Repr, Inhabited

/-- The message of a code or text, as the catalogue shows it. -/
def catalogued (f : Family) (code : String) : String :=
  (f.lookupMessage code none none []).toOption.getD ""

def errorLine (text : String) : String := red text ++ "\n"

def hint : String :=
  yellow "// Hint: Try :multiline mode for complex code or :run to run a file" ++ "\n"

/-- The parts of a failure's text that only concern its place in memory or in a file. -/
def technical : List Pattern :=
  let anything : Pattern := [⟨goesOn, .shortest, false, false⟩]
  let digits : Pattern := [⟨fun c => (Text.decimalValue? c).isSome, .longest, true, false⟩]
  let hexDigits : Pattern := [⟨"0123456789abcdef".toList.contains, .longest, true, false⟩]
  [Pattern.text "File \"" ++ anything ++ Pattern.text "\", line " ++ digits ++
      Pattern.text ", in " ++ anything ++ Pattern.text "\n",
    Pattern.text "<class '" ++ anything ++ Pattern.text "'>",
    Pattern.text "at 0x" ++ hexDigits]

/-- The greatest length of the text of a failure that is shown. -/
def shownLength : Nat := 100

/-- The text of a failure without its technical parts, or a general text if it is too long. -/
def plainText (text : List Char) : String :=
  let plain := technical.foldl (fun t p => p.removeAll t) text
  if shownLength < plain.length || contains "Traceback".toList plain then
    "Khalad fulinta oo aan la aqoonsan"
  else String.ofList plain

def explain (text : String) : String :=
  let mentions (s : String) : Bool := contains s.toList text.toList
  if mentions "name" && mentions "is not defined" then catalogued .runtime "undefined_variable"
  else if mentions "division by zero" then catalogued .runtime "division_by_zero"
  else if mentions "index" && mentions "out of range" then catalogued .runtime "index_out_of_range"
  else if mentions "local variable" && mentions "not associated with a value" then
    catalogued .runtime "Khalad fulinta: Modul qeexis ayaa khaladan"
  else catalogued .runtime ("Khalad fulinta: " ++ plainText text.toList)

/-- What the shell shows when a line fails. -/
def apology (text : String) : String := errorLine (explain text) ++ hint

/-- The line of an error output that states an error of the language. -/
def statedError? (err : String) : Option String :=
  if contains "Khalad".toList err.toList then
    (Text.pieces ['\n'] err.toList).findSome? fun line =>
      let stripped := strip line
      if "Khalad".toList.isPrefixOf stripped || contains "❌".toList line then
        some (String.ofList stripped)
      else none
  else none

def errorMessage (err : String) : String :=
  let mentions (s : String) : Bool := contains s.toList err.toList
  match statedError? err with
  | some line => line
  | none =>
    if mentions "ModuleNotFoundError" || mentions "ImportError" then
      catalogued .importing "import_error"
    else if mentions "FileNotFoundError" then catalogued .importing "file_not_found"
    else if mentions "SyntaxError" || mentions "unexpected token" then
      catalogued .parser "invalid_syntax"
    else if mentions "TypeError" then catalogued .type "invalid_operand"
    else if mentions "NameError" then catalogued .runtime "undefined_variable"
    else catalogued .runtime "Khalad fulinta: Qalad aan la aqoonsan"

def unreadable : String :=
  (Family.parser.errorMessage "invalid_syntax" none none
    [("detail", .ok "Qoraalka syntax-kiisa waa khalad")]).toOption.getD ""

/-- What the shell shows after handing a line on. -/
def Delegate.report : Delegate → String
  | absent => errorLine unreadable
  | finished code out err =>
    (if out.isEmpty then "" else out ++ "\n") ++
      (if code = 0 then "" else errorLine (errorMessage err))
  | unstartable =>
    errorLine (catalogued .runtime "Khalad fulinta: Ma awoodin inaan koodka fuliyo")
  | broken text => apology text
  | refused d => errorLine d.message ++ hint

/-- How the shell shows the form that it gave to a line. -/
def processing (line : String) : String := grey ("// Processing: " ++ line)

def handingOn : String := yellow "// Using main interpreter..." ++ "\n"

def Verdict.shown (d : Delegate) : Verdict → String
  | said text => text
  | failed f => apology f.message
  | unanswered => handingOn ++ d.report

/-- Whether a line has nothing to answer: it is blank, or a remark. -/
def isSilent (line : String) : Bool :=
  let code := strip line.toList
  code.isEmpty || "//".toList.isPrefixOf code

/-- The state after a line, where `d` is what would come of handing it on. -/
def execute (d : Delegate) (line : String) (s : State) : State :=
  if isSilent line then s
  else
    let a := attempt s (tidy line)
    let s := a.binding.elim s (·.apply s)
    { s with out := s.out ++ a.verdict.shown d }

end Luuqad.Shell

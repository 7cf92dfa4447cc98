import Luuqad.Error.Diagnostic
import Luuqad.Shell.Calculator
import Luuqad.Shell.Style
import Luuqad.State
import Luuqad.Text.Pattern

/-!
# Lines that the shell answers itself

A line of the shell is compared with a few patterns: printing, declaring a variable with or without
a type, and calculating. What a pattern makes of a line is an `Attempt`: at most one name to bind,
and a verdict, which is the text to show, a failure, or that the line is not answered here.
-/

namespace Luuqad.Shell

open Text (Pattern strip contains replaceFirst replaceAll pieces)

/-- A name to bind, and the type to note for it. -/
structure Binding where
  name : String
  value : Value
  noted : Option String := none
deriving Inhabited

def Binding.apply (b : Binding) (s : State) : State :=
  let (value, heap) := match b.value with
    | .float x => s.heap.double x
    | v => (v, s.heap)
  { s with
    vars := s.vars.put b.name value
    heap
    types := match b.noted with
      | none => s.types
      | some label => s.types.put b.name (.noted label) }

/-- What became of a line. -/
inductive Verdict
  | said (text : String)
  | failed (f : Failure)
  /-- No pattern of the shell answers the line. -/
  | unanswered
deriving DecidableEq, Repr, Inhabited

/-- What the shell makes of a line by itself. -/
structure Attempt where
  binding : Option Binding
  verdict : Verdict
deriving Inhabited

/-- Show a text on a line of its own, if there is one. -/
def Verdict.ofText : Except Failure String → Verdict
  | .ok text => .said (text ++ "\n")
  | .error f => .failed f

/-! ## The forms of lines -/

def isQuote (c : Char) : Bool := c == '\x22' || c == '\x27'

def goesOn (c : Char) : Bool := c != '\n'

def isNamePart (c : Char) : Bool := Text.isWordChar c || c == '_'

def quote : Pattern := [⟨isQuote, .one, true, false⟩]

/-- A printed text without parentheses. -/
def barePrint : Pattern :=
  Pattern.text "qor" ++ Pattern.blanks ++ quote ++ [⟨goesOn, .shortest, true, true⟩] ++ quote

def printStart : Pattern :=
  Pattern.text "qor" ++ Pattern.blanks ++ Pattern.text "(" ++ Pattern.blanks

def textPrint : Pattern :=
  printStart ++ quote ++ [⟨goesOn, .shortest, false, true⟩] ++ quote ++ Pattern.blanks ++
    Pattern.text ")"

def anyPrint : Pattern :=
  printStart ++ [⟨goesOn, .shortest, false, true⟩] ++ Pattern.blanks ++ Pattern.text ")"

/-- A declaration: a keyword, a name and a value. -/
def declaration (keyword : String) : Pattern :=
  Pattern.text keyword ++
    [⟨Text.isBlank, .longest, true, false⟩, ⟨isNamePart, .longest, true, true⟩] ++
    Pattern.blanks ++ Pattern.text "=" ++ Pattern.blanks ++ [⟨goesOn, .longest, true, true⟩]

def declarationWords : List String := ["door", "abn", "qoraal"]

/-- Whether a line starts with a keyword and a space. -/
def startsWith (code : List Char) (keyword : String) : Bool :=
  (keyword ++ " ").toList.isPrefixOf code

def dropSemicolon (code : List Char) : List Char :=
  if code.getLast? = some ';' then code.dropLast else code

/-- A line in the form that the patterns expect: a printed text gets its parentheses, and the equals
sign of a declaration gets spaces around it. -/
def tidy (line : String) : String :=
  let code := strip line.toList
  let code :=
    if "qor".toList.isPrefixOf code && !code.contains '(' && code.any isQuote then
      match barePrint.search code with
      | some [text] => "qor(\"".toList ++ text ++ "\")".toList
      | _ => code
    else code
  let code :=
    if declarationWords.any (startsWith code) && code.contains '=' &&
      !contains " = ".toList code then
      replaceFirst ['='] " = ".toList code
    else code
  String.ofList code

/-! ## Values -/

/-- Whether a text stands between two quotes of one kind; a single quote does, too. -/
def isQuoted (text : List Char) : Bool :=
  text.head?.any isQuote && text.head? == text.getLast?

def unquoted (text : List Char) : String := String.ofList (text.drop 1).dropLast

def held? (s : State) (name : List Char) : Option Value :=
  s.vars.get? (String.ofList name)

/-- An expression with the numbers in place of the variables that hold them, one variable after the
other, wherever the name occurs. -/
def substitute (s : State) (text : List Char) : Except Failure (List Char) :=
  s.vars.foldlM (fun text (name, v) =>
    if v.isNumber && contains name.toList text then do
      return replaceAll name.toList (← v.text s.heap).toList text
    else return text) text

/-- The value of an expression that is a formula once the variables are replaced. -/
def calculated? (s : State) (text : List Char) : Option Value := do
  let formula ← (substitute s text).toOption
  if formula.all Calculator.isFormulaChar then (← Calculator.calculate formula).toValue? else none

/-! ## Printing -/

/-- Add a part of a sum to a total: a variable that holds a number, or a number. An error without a
failure says that the expression is no sum of numbers. -/
def addPart (s : State) (total : Num) (part : List Char) : Except (Option Failure) Num :=
  match held? s part with
  | some v =>
    match v.num? with
    | some n => (total.add n).mapError some
    | none => .error none
  | none =>
    match Number.readFloat (String.ofList part) with
    | .ok x => (total.add (.float x)).mapError some
    | .error _ => .error none

def sumText (s : State) (parts : List (List Char)) : Except (Option Failure) String := do
  let total ← parts.foldlM (addPart s) (.int 0)
  ((total.toValue s.heap).1.text s.heap).mapError fun _ => none

/-- The text of a part of a joined text: the value of a variable, what stands between quotes, or the
part itself. -/
def partText (s : State) (part : List Char) : Except Failure String :=
  match held? s part with
  | some v => v.text s.heap
  | none => .ok (if isQuoted part then unquoted part else String.ofList part)

/-- Print the parts of an expression with plus signs: their sum if all are numbers, and otherwise
their texts one after the other. -/
def printJoined (s : State) (text : List Char) : Verdict :=
  let parts := (pieces ['+'] text).map strip
  let sum := if text.any isQuote then .error none else sumText s parts
  match sum with
  | .ok t => .said (t ++ "\n")
  | .error (some f) => .failed f
  | .error none => .ofText do return String.join (← parts.mapM (partText s))

/-- Print an expression: a variable, or a formula. -/
def printExpression? (s : State) (text : List Char) : Option Verdict :=
  if text.contains '+' then some (printJoined s text)
  else
    match held? s text with
    | some v => some (.ofText (v.text s.heap))
    | none => do
      let v ← calculated? s text
      let shown ← (v.text s.heap).toOption
      return .said (shown ++ "\n")

/-- Lines that print. -/
def print? (s : State) (code : List Char) : Option Verdict :=
  if "qor".toList.isPrefixOf code then
    let code := dropSemicolon code
    match textPrint.search code with
    | some [text] => some (.said (String.ofList text ++ "\n"))
    | _ =>
      match anyPrint.search code with
      | some [text] => printExpression? s text
      | _ => none
  else none

/-! ## Declarations -/

def showBinding (name value : String) : String := green ("=> " ++ name ++ " = " ++ value)

def inQuotes (text : String) : String := "\"" ++ text ++ "\""

def declared? (keyword : String) (code : List Char) : Option (String × List Char) :=
  match (declaration keyword).search (dropSemicolon code) with
  | some [name, value] => some (String.ofList name, strip value)
  | _ => none

/-- The number that a text writes: a double if it has a point. -/
def number? (text : List Char) : Option Value :=
  if text.contains '.' then
    ((Number.readFloat (String.ofList text)).toOption).map .float
  else ((Number.readInt (String.ofList text)).toOption).map .int

/-- The value of a declaration without a type: a text, a number, a variable or a formula. -/
def declareAny (s : State) (name : String) (text : List Char) : Attempt :=
  if isQuoted text then
    let t := unquoted text
    ⟨some { name, value := .str t }, .said (showBinding name (inQuotes t) ++ "\n")⟩
  else
    match number? text, held? s text with
    | some v, _ | none, some v =>
      ⟨some { name, value := v }, .ofText do return showBinding name (← v.text s.heap)⟩
    | none, none =>
      match calculated? s text with
      | none => ⟨none, .unanswered⟩
      | some v =>
        ⟨some { name, value := v }, match v.text s.heap with
          | .ok t => .said (showBinding name t ++ "\n")
          | .error _ => .unanswered⟩

def whole? (v : Value) : Option Int := do (← v.num?).truncate.toOption

def mismatch (name : String) (text : List Char) (type : String) : String :=
  red (Diagnostic.mk (.typeMismatch name (String.ofList text) type) none none).message ++ "\n"

/-- The value of a declaration of a number: a whole number, or a formula that is cut to one. -/
def declareNumber (s : State) (name : String) (text : List Char) : Attempt :=
  let number := match Number.readInt (String.ofList text) with
    | .ok i => some i
    | .error _ => (calculated? s text).bind whole?
  match number with
  | none => ⟨none, .said (mismatch name text "abn")⟩
  | some i =>
    ⟨some { name, value := .int i, noted := some "abn" }, match Number.writeInt i with
      | .ok t => .said (showBinding name (t ++ " (abn)") ++ "\n")
      | .error _ => .said (mismatch name text "abn")⟩

def declareText (name : String) (text : List Char) : Attempt :=
  if isQuoted text then
    let t := unquoted text
    ⟨some { name, value := .str t, noted := some "qoraal" },
      .said (showBinding name (inQuotes t ++ " (qoraal)") ++ "\n")⟩
  else ⟨none, .said (mismatch name text "qoraal")⟩

def declare (s : State) (code : List Char) : Attempt :=
  let attempt? :=
    if startsWith code "door" then
      (declared? "door" code).map fun (name, text) => declareAny s name text
    else if startsWith code "abn" then
      (declared? "abn" code).map fun (name, text) => declareNumber s name text
    else if startsWith code "qoraal" then
      (declared? "qoraal" code).map fun (name, text) => declareText name text
    else none
  attempt?.getD ⟨none, .unanswered⟩

/-! ## Formulas -/

def calculation? (code : List Char) : Option String := do
  let code := dropSemicolon code
  if code.all Calculator.isFormulaChar then
    let t ← (← Calculator.calculate code).text?
    return green ("=> " ++ t) ++ "\n"
  else none

/-- What the shell makes of a tidy line. -/
def attempt (s : State) (line : String) : Attempt :=
  let code := line.toList
  match print? s code with
  | some verdict => ⟨none, verdict⟩
  | none =>
    match calculation? code with
    | some text => ⟨none, .said text⟩
    | none => declare s code

end Luuqad.Shell

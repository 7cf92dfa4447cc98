import Luuqad.Interpreter.File
import Luuqad.Shell.Delegate

/-!
# Sessions of the shell

The shell keeps the state of a program, the lines collected in multi-line mode, and the list of
examples that it showed last. What a user enters is a line or an interrupt. `Session.enter` is what
one entry does, and `Session.converse` is the loop around it.
-/

namespace Luuqad

structure Shell where
  program : State := {}
  /-- Whether lines are collected. -/
  multiline : Bool := false
  /-- The lines collected so far. -/
  buffer : List String := []
  /-- The examples as they were listed last. -/
  examples : List String := []
deriving Inhabited

/-- Why a session ended early. -/
inductive Shell.Stop
  | exited (code : Nat)
  /-- The user stopped a program. -/
  | stopped
  | exhausted
deriving DecidableEq, Repr, Inhabited

/-- Part of a session of the shell. -/
abbrev Session := EStateM Shell.Stop Shell

namespace Session

open Shell

def onProgram (f : State → State) : Session Unit :=
  modify fun s => { s with program := f s.program }

def print (text : String) : Session Unit := onProgram fun p => { p with out := p.out ++ text }

def printLine (text : String) : Session Unit := print (text ++ "\n")

def printLines (texts : List String) : Session Unit := print (String.join (texts.map (· ++ "\n")))

/-- Run a part of a program. -/
def running {α : Type} (r : Run α) : Session (Option α) := fun s =>
  match r s.program with
  | .ok a p => .ok (some a) { s with program := p }
  | .error .exhausted p => .error .exhausted { s with program := p }
  | .error .stopped p => .error .stopped { s with program := p }
  | .error _ p => .ok none { s with program := p }

/-! ## Commands -/

def help : List String := [
  "\n" ++ bold "Soplang Interactive Shell Commands:",
  "  :help             - Show this help message",
  "  :exit, :quit      - Exit the shell",
  "  :clear            - Clear the screen",
  "  :load [filename]  - Load and display a Soplang file",
  "  :run [filename]   - Run a Soplang file with shell interpreter",
  "  :examples         - List available example programs",
  "  :example [number] - Run an example by number",
  "  :reset            - Reset the interpreter (clear all variables)",
  "  :vars             - Show all defined variables",
  "  :multiline        - Toggle multiline input mode (end with :end)",
  "\n" ++ bold "Interactive Mode:",
  "  - Enter Soplang code directly for immediate execution",
  "  - Multi-line input is supported with :multiline",
  "  - Use Up/Down arrows to navigate command history",
  "  - Simple expressions are automatically evaluated",
  "\n" ++ bold "Keyboard Shortcuts:",
  "  - Ctrl+C          - Interrupt current operation",
  "  - Ctrl+D          - Exit the shell"]

/-- Show a file. -/
def load (path : String) : Session Unit := do
  if path.isEmpty then printLine (red "Filename required. Usage: :load filename")
  else
    let rule := String.ofList (List.replicate 40 '=')
    match (← get).program.folder.read path with
    | .ok text => printLines ["\n" ++ bold ("File: " ++ path), rule, text, rule]
    | .error (.fileMissing _) => printLine (red ("File not found: " ++ path))
    | .error f => printLine (red ("Error loading file: " ++ f.message))

def run (limits : Limits) (path : String) : Session Unit := do
  if path.isEmpty then printLine (red "Filename required. Usage: :run filename")
  else
    let _ ← running (limits.runFile path)

def exampleFolder : String := "examples"

/-- The names in the folder of examples that end in one of several ways, in ascending order. -/
def exampleNames (f : Folder) (endings : List String) : List String :=
  ((f.listing [exampleFolder]).filter fun n => endings.any fun e => n.endsWith e).mergeSort

def listExamples : Session Unit := do
  let folder := (← get).program.folder
  if !folder.isFolder exampleFolder then printLine (red "Examples directory not found")
  else
    let names := exampleNames folder [".so"]
    if names.isEmpty then printLine (red "No example programs found")
    else
      modify ({ · with examples := names })
      printLine ("\n" ++ bold "Available Example Programs:")
      printLines ((names.zipIdx 1).map fun (name, i) => "  " ++ toString i ++ ". " ++ name)
      printLine "\nRun an example with: :example [number] or :run examples/filename.so"

/-- The listed example with a number, counted from one. -/
def exampleAt? (examples : List String) (number : Int) : Option String :=
  if 1 ≤ number then examples[number.toNat - 1]? else none

def noSuchExample (examples : List String) : String :=
  red ("Invalid example number. Choose between 1 and " ++ toString examples.length)

def runExample (limits : Limits) (argument : String) : Session Unit := do
  if argument.isEmpty then
    printLine (red "Example number required. Usage: :example [number]")
  else
    match Number.readInt (String.ofList (Text.strip argument.toList)) with
    | .error _ => printLine (red "Invalid example number. Usage: :example [number]")
    | .ok number =>
      if (← get).examples.isEmpty then listExamples
      let examples := (← get).examples
      if examples.isEmpty then return
      match exampleAt? examples number with
      | none => printLine (noSuchExample examples)
      | some name => run limits (exampleFolder ++ "/" ++ name)

def typeLabel : Option DeclaredType → String
  | none => "dynamic"
  | some (.checked k) => "TokenType." ++ k.label
  | some (.noted label) => label

/-- Show variables one after the other; a value that cannot be shown ends the list. -/
def showVariables : List (String × Value) → Session Unit
  | [] => return
  | (name, v) :: rest => do
    let p := (← get).program
    match v.text p.heap with
    | .error f => printLine (red ("Error executing command: " ++ f.message))
    | .ok text =>
      printLine ("  " ++ name ++ " = " ++ text ++ " (" ++ typeLabel (p.types.get? name) ++ ")")
      showVariables rest

def listVariables : Session Unit := do
  printLine ("\n" ++ bold "Defined Variables:")
  let table := (← get).program.vars
  if table.isEmpty then printLine "  No variables defined." else showVariables table

def toggleMultiline : Session Unit := do
  let entering := !(← get).multiline
  modify ({ · with multiline := entering, buffer := [] })
  if entering then
    printLine ("\n" ++ bold "Entering multiline mode." ++ " Enter code across multiple lines.")
    printLine ("Type " ++ bold ":end" ++ " on a line by itself to execute.")
  else printLine ("\n" ++ bold "Exiting multiline mode.")

/-- Forget everything that the program defined. -/
def reset : Session Unit := do
  onProgram State.fresh
  printLine ("\n" ++ bold "Interpreter reset." ++ " All variables and state cleared.")

def leave : Session Unit := do
  printLine "Exiting Soplang shell..."
  throw (.exited 0)

/-- A command and its argument: the first word, and what follows it from the next word on. -/
def splitCommand (text : String) : String × String :=
  let cs := text.toList.dropWhile Text.isBlank
  let word := cs.takeWhile fun c => !Text.isBlank c
  let rest := (cs.dropWhile fun c => !Text.isBlank c).dropWhile Text.isBlank
  (String.ofList (Text.lower word), String.ofList rest)

def command (limits : Limits) (text : String) : Session Unit :=
  let (name, argument) := splitCommand text
  match name with
  | "help" => printLines help
  | "exit" | "quit" => leave
  | "clear" => return
  | "load" => load argument
  | "run" => run limits argument
  | "examples" => listExamples
  | "example" => runExample limits argument
  | "reset" => reset
  | "vars" => listVariables
  | "multiline" => toggleMultiline
  | _ => printLine (red ("Unknown command: " ++ name ++ ". Type :help for available commands."))

/-! ## Entries -/

def code (d : Delegate) (line : String) : Session Unit := onProgram (execute d line)

def enterLine (limits : Limits) (line : String) : Session Unit := do
  let stripped := String.ofList (Text.strip line.toList)
  let s ← get
  if stripped.isEmpty then return
  else if s.multiline then
    if stripped = ":end" then
      code .absent ("\n".intercalate s.buffer)
      modify ({ · with multiline := false, buffer := [] })
    else modify ({ · with buffer := s.buffer ++ [line] })
  else if stripped = ":multiline" then toggleMultiline
  else if line.startsWith ":" then
    command limits (String.ofList (Text.strip (line.toList.drop 1)))
  else code .absent line

/-- What an interrupt does: it leaves multi-line mode and forgets the lines collected there. -/
def interrupt : Session Unit := do
  printLine "\nUse :exit or :quit to exit the shell, or press Ctrl+D"
  if (← get).multiline then
    printLine "Exiting multiline mode"
    modify ({ · with multiline := false, buffer := [] })

/-- What an entry does. To stop a program that a line started is the same as an interrupt. -/
def enter (limits : Limits) : Entry → Session Unit
  | .line text =>
    tryCatch (enterLine limits text) fun
      | .stopped => interrupt
      | e => throw e
  | .interrupt => interrupt

/-! ## Conversations -/

/-- A text in bold blue. -/
def title (text : String) : String := "\x1b[34m\x1b[1m" ++ text ++ "\x1b[0m"

def welcome : List String :=
  let rule := title (String.ofList (List.replicate 50 '='))
  ["", rule, title "          Soplang - The Somali Programming Language", rule,
    "Type Soplang code to execute it",
    "Type " ++ bold ":help" ++ " for a list of commands",
    "Type " ++ bold ":exit" ++ " to quit or press " ++ bold "Ctrl+D", rule, ""]

def prompt : Session Unit := do
  print (if (← get).multiline then styled "1;33" "... "
    else "\n" ++ styled "1;36" "soplang>" ++ " ")

/-- The end of the input. -/
def farewell : Session Unit := printLine "\nExiting Soplang shell..."

/-- Prompt for entries until there are no more, or for at most `bound` of them. A program that an
entry starts may use up some of those that follow. -/
def entries (limits : Limits) : Nat → Session Unit
  | 0 => return
  | bound + 1 => do
    prompt
    match (← get).program.input with
    | [] => farewell
    | e :: rest =>
      onProgram ({ · with input := rest })
      enter limits e
      entries limits bound

/-- Welcome the user and go through the input. -/
def converse (limits : Limits) : Session Unit := do
  printLines welcome
  entries limits ((← get).program.input.length + 1)

end Session

end Luuqad

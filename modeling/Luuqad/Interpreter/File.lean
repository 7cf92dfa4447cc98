import Luuqad.Interpreter.Program

/-!
# Running a file

A file is run as a program of its own: it shares the folder, the input and the output with whoever
runs it, and nothing else. What goes wrong is reported on the output, so that running a file always
ends with an exit code, unless the user stops the program or it is exhausted.
-/

namespace Luuqad

/-- The state of a new program in the surroundings of another one. -/
def State.fresh (s : State) : State :=
  { out := s.out, input := s.input, folder := s.folder, chance := s.chance }

/-- The state after a program that ran in the surroundings of this one. -/
def State.resume (s inner : State) : State :=
  { s with out := inner.out, input := inner.input, chance := inner.chance }

def baseName (path : String) : String := (Folder.parts path).getLastD ""

def endLine (text : String) : String := if text.endsWith "\n" then text else text ++ "\n"

/-- The cause that a failure of the program is reported as. -/
def Failure.reported (f : Failure) : Cause :=
  let text := f.message.toList
  let mentions (s : String) : Bool := Text.contains s.toList text
  if mentions "missing 1 required positional argument" then
    .missingArgument (String.ofList (text.takeWhile (· != '.'))) "1" "0"
  else if mentions "division by zero" then .divisionByZero
  else if mentions "list index out of range" then .indexOutOfRange "?"
  else .other ("Khalad: " ++ f.message)

/-- The message that a fault is reported with. -/
def Fault.reported : Fault → String
  | error d => d.message
  | failure f => (Diagnostic.mk f.reported none none).message

def reportLine (text : String) : String := "✗ " ++ text ++ "\n"

/-- Run the file at a path; the result is the exit code. -/
def Limits.runFile (l : Limits) (path : String) : Run Nat := fun s =>
  match s.folder.read path with
  | .error (.fileMissing _) =>
    .ok 1 { s with
      out := s.out ++ reportLine ("Khalad: Faylka '" ++ baseName path ++ "' ma helin.") }
  | .error f => .ok 1 { s with out := s.out ++ reportLine (Fault.failure f).reported }
  | .ok text =>
    match l.runText (endLine text) s.fresh with
    | .ok _ t => .ok 0 (s.resume t)
    | .error (.fault f) t =>
      let s := s.resume t
      .ok 1 { s with out := s.out ++ reportLine f.reported }
    | .error e t => .error e (s.resume t)

end Luuqad

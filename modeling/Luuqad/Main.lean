import Luuqad.CommandLine.Front
import Luuqad.CommandLine.Sources

/-!
# The program

The outer layer of the main program. It fetches the files that the command line and the sources
mention, passes lines from the terminal to the session, and prints what the session says.
-/

namespace Luuqad.Terminal

def fileText? (path : String) : IO (Option String) := do
  try
    return some (← IO.FS.readFile path)
  catch _ =>
    return none

/-- Fetch files, and the files that they mention, to a given depth. -/
def fetch (folder : Folder) : Nat → List String → IO Folder
  | 0, _ => return folder
  | depth + 1, paths => do
    let mut folder := folder
    for path in paths do
      if (folder.files.lookup path).isNone then
        if let some text ← fileText? path then
          folder ← fetch ⟨folder.files ++ [(path, text)]⟩ depth (Sources.paths text)
    return folder

def importDepth : Nat := 50

def fetchFor (s : Shell) (paths : List String) : IO Shell := do
  let folder ← fetch s.program.folder importDepth paths
  return { s with program := { s.program with folder } }

def say (s : Shell) : IO Shell := do
  let out ← IO.getStdout
  out.putStr s.program.out
  out.flush
  return { s with program := { s.program with out := "" } }

/-- Carry out a part of a session and print what it says; an error is the exit code of a session
that ended. -/
def carry {α : Type} (part : Session α) (s : Shell) : IO (Except UInt32 α × Shell) := do
  match part s with
  | .ok a s => return (.ok a, ← say s)
  | .error (.exited code) s => return (.error code.toUInt32, ← say s)
  | .error .stopped s => return (.error 130, ← say s)
  | .error .exhausted s =>
    let s ← say s
    (← IO.getStderr).putStrLn "maximum recursion depth exceeded"
    return (.error 1, s)

/-- Pass lines from the terminal to a session. -/
partial def converse (input : IO.FS.Stream) (s : Shell) : IO UInt32 := do
  let (_, s) ← carry Session.prompt s
  let line ← input.getLine
  if line.isEmpty then
    let _ ← carry Session.farewell s
    return 0
  let line := if line.endsWith "\n" then line.dropEnd 1 |>.toString else line
  let s ← fetchFor s [(Session.splitCommand (line.drop 1).toString).2]
  match ← carry (Session.enterLine .standard line) s with
  | (.error code, _) => return code
  | (.ok _, s) => converse input s

end Luuqad.Terminal

open Luuqad Terminal

def main (words : List String) : IO UInt32 := do
  let input ← IO.getStdin
  let s ← fetchFor {} words
  match Options.read words with
  | .error r =>
    match ← carry (Session.refuse Front.full r : Session Unit) s with
    | (.error code, _) => return code
    | (.ok _, _) => return 0
  | .ok o =>
    let s ← fetchFor s o.path?.toList
    let waits := s.program.folder.files.any fun (_, text) => Sources.readsInput text
    let typed ← if waits then input.readToEnd else pure ""
    let s := { s with program := { s.program with input := Entry.lines typed } }
    match ← carry (Session.perform .full .standard o) s with
    | (.error code, _) => return code
    | (.ok code, s) =>
      if code = 0 && o.converses then
        let (_, s) ← carry (Session.printLines Session.welcome) s
        converse input s
      else return code.toUInt32

import Luuqad.CommandLine.Options
import Luuqad.Shell.Session

/-!
# The command lines

There are two front ends with the same options: the main program, and the shell by itself. They
differ in what they say. A third command line only runs one file.
-/

namespace Luuqad

/-- What sets a front end apart. -/
structure Front where
  about : List String
  version : List String
  beforeLine : List String
  beforeFile : String → List String
  /-- The folder from which it runs the listed examples. -/
  exampleHome : String

namespace Front

def optionHelp : List String := [
  "",
  "positional arguments:",
  "  filename              Soplang file to execute",
  "",
  "options:",
  "  -h, --help            show this help message and exit",
  "  -v, --version         Display Soplang version information",
  "  -f FILE, --file FILE  Execute a Soplang file",
  "  -e N, --example N     Run example program number N",
  "  -i, --interactive     Start interactive shell after executing file",
  "  -c CODE, --command CODE",
  "                        Execute Soplang code snippet"]

/-- The main program. It looks for the listed examples beside the working folder. -/
def full : Front where
  about := [
    "usage: main.py [-h] [-v] [-f FILE] [-e N] [-i] [-c CODE] [filename]",
    "",
    "Soplang Programming Language (legacy Python interpreter; active development",
    "has moved to https://github.com/soplang/soplang)"]
  version := [
    "Soplang - The Somali Programming Language",
    "Version: 2.0.0-beta",
    "Website: https://www.soplang.org/",
    "License: MIT",
    "Note: This is the legacy Python interpreter. " ++
      "For the current Rust-based implementation, see https://github.com/soplang/soplang"]
  beforeLine := []
  beforeFile := fun _ => []
  exampleHome := "../" ++ Session.exampleFolder

def shell : Front where
  about := [
    "usage: shell.py [-h] [-v] [-f FILE] [-e N] [-i] [-c CODE] [filename]",
    "",
    "Soplang Interactive Shell"]
  version := ["\n=== Soplang ===", "Website: https://www.soplang.org/", "License: MIT"]
  beforeLine := ["\n=== Executing Soplang code snippet ==="]
  beforeFile := fun name => ["\n" ++ Shell.bold ("Running file: " ++ name)]
  exampleHome := Session.exampleFolder

end Front

/-- A text that is not empty. -/
def given? (text : Option String) : Option String := text.filter (!·.isEmpty)

namespace Options

def line? (o : Options) : Option String := given? o.command

def path? (o : Options) : Option String := (given? o.file).orElse fun _ => given? o.name

/-- Whether the options ask for a conversation: after a file or an example, or if there is nothing
else to do. -/
def converses (o : Options) : Bool :=
  !o.version && o.line?.isNone && (o.interactive || (o.exampleNumber.isNone && o.path?.isNone))

end Options

namespace Session

def listedExample (front : Front) (limits : Limits) (number : Int) : Session Nat := do
  listExamples
  let examples := (← get).examples
  if examples.isEmpty then return 1
  match exampleAt? examples number with
  | none =>
    printLine (noSuchExample examples)
    return 1
  | some name =>
    run limits (front.exampleHome ++ "/" ++ name)
    return 0

/-- Do the first that the options ask for of a version, a line, an example and a file. The result is
the exit code. -/
def perform (front : Front) (limits : Limits) (o : Options) : Session Nat := do
  if o.version then
    printLines front.version
    return 0
  match o.line?, o.exampleNumber, o.path? with
  | some line, _, _ =>
    printLines front.beforeLine
    code .absent line
    return 0
  | none, some number, _ => listedExample front limits number
  | none, none, some path =>
    printLines (front.beforeFile path)
    run limits path
    return 0
  | none, none, none => return 0

/-- Do what the options ask for, and go on with a conversation if they ask for that and nothing went
wrong. -/
def carryOut (front : Front) (limits : Limits) (o : Options) : Session Nat := do
  let exitCode ← perform front limits o
  if exitCode = 0 && o.converses then converse limits
  return exitCode

/-- Leave without doing anything but showing help, if that is asked for. -/
def refuse {α : Type} (front : Front) : Refusal → Session α
  | .help => do
    printLines (front.about ++ Front.optionHelp)
    throw (.exited 0)
  | .misuse => throw (.exited 2)

/-- Carry out a command line of a front end. -/
def commandLine (front : Front) (limits : Limits) (words : List String) : Session Nat :=
  match Options.read words with
  | .ok o => carryOut front limits o
  | .error r => refuse front r

def runnerTitle : List String := [
  "Soplang: The Somali Programming Language (legacy Python interpreter)",
  "Note: This interpreter is archived. " ++
    "Active development has moved to https://github.com/soplang/soplang\n"]

def runnerUsage : List String := [
  "\nWelcome to Soplang!",
  "Please specify a Soplang file (.sop) to run, or run without arguments for the interactive shell.",
  "\nUsage Guide:",
  "  python main.py [filename.sop]     - Run a Soplang file",
  "  python main.py                   - Start interactive shell",
  "\nAvailable examples:"]

def runnerExamples (f : Folder) : List String :=
  if f.isFolder exampleFolder then
    match exampleNames f [".sop", ".so"] with
    | [] => ["  No example files found"]
    | names => names.map fun n => "  " ++ exampleFolder ++ "/" ++ n
  else ["  Examples directory not found"]

/-- Carry out a command line of the file runner: run the file that the first word names. -/
def runnerLine (limits : Limits) (words : List String) : Session Nat := do
  printLines runnerTitle
  match words with
  | path :: _ => return (← running (limits.runFile path)).getD 1
  | [] =>
    printLines (runnerUsage ++ runnerExamples (← get).program.folder)
    return 0

end Session

end Luuqad

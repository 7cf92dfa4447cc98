import Luuqad.Shell.Session

/-!
# Checking the examples

Each example program is run by itself, and passes if it ends well and says nothing of an error. A
few examples are there to show an error, and pass if they do.
-/

namespace Luuqad.Checker

/-- What came of running an example. -/
inductive Trial
  | finished (code : Int) (out err : String)
  /-- It could not be run. -/
  | broken (text : String)
deriving DecidableEq, Repr, Inhabited

/-- Examples that show an error. -/
def expectedErrors : List String := [
  "22_constant_reassignment_test.sop",
  "24_constant_type_error_test.sop",
  "25_constant_type_error.sop"]

def mentionsError (text : String) : Bool := Text.contains "Khalad".toList text.toList

/-- Nothing if an example passes, and otherwise what went wrong. -/
def judge (name : String) : Trial → Option String
  | .broken text => some text
  | .finished code out err =>
    let bad : Bool := code ≠ 0 || mentionsError out
    if !bad || expectedErrors.contains name then none
    else some (if out.isEmpty then err else out)

def shownLines : Nat := 5

def failureReport (name error : String) : List String :=
  let lines := Text.lines error
  ["\n" ++ name ++ ":"] ++ (lines.take shownLines).map ("  " ++ ·) ++
    if shownLines < lines.length then ["  ..."] else []

/-- What is shown of an example when it was run. -/
def trialLine (name : String) (error : Option String) : String :=
  "Testing " ++ name ++ "... " ++ (if error.isNone then "✅ Success" else "❌ Failed")

/-- The report on examples, with what went wrong in each, and the number of those that did not
pass. -/
def report (verdicts : List (String × Option String)) : List String × Nat :=
  let failed := verdicts.filterMap fun (name, error) => error.map (name, ·)
  let summary := "\nSummary: " ++ toString (verdicts.length - failed.length) ++ " successful, " ++
    toString failed.length ++ " failed"
  (["Testing " ++ toString verdicts.length ++ " example files...\n"] ++
    verdicts.map (fun (name, error) => trialLine name error) ++ [summary] ++
    (if failed.isEmpty then [] else
      "\nFailed files:" :: failed.flatMap fun (name, error) => failureReport name error),
    failed.length)

/-- Check all examples of a folder, where `trial` is what comes of running one. -/
def checkAll (f : Folder) (trial : String → Trial) : Except Failure (List String × Nat) :=
  if f.isFolder Session.exampleFolder then
    .ok (report ((Session.exampleNames f [".sop"]).map fun name => (name, judge name (trial name))))
  else if f.isFile Session.exampleFolder then .error (.notDirectory Session.exampleFolder)
  else .error (.fileMissing Session.exampleFolder)

end Luuqad.Checker

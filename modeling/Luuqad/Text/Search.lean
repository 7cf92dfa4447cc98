import Luuqad.Text.Blank

/-!
# Searching, cutting and joining

All operations share one notion of occurrence: the leftmost one, and after it the leftmost one in
what follows. `cut` finds it, `pieces` repeats `cut`, and replacing is cutting and joining again.
-/

namespace Luuqad.Text

/-- What stands before and after the leftmost occurrence of `needle`. -/
def cut (needle : List Char) : List Char → Option (List Char × List Char)
  | [] => if needle.isEmpty then some ([], []) else none
  | c :: rest =>
    if needle.isPrefixOf (c :: rest) then some ([], (c :: rest).drop needle.length)
    else (cut needle rest).map fun (before, after) => (c :: before, after)

/-- The index of the leftmost occurrence of `needle`. -/
def find? (needle cs : List Char) : Option Nat := (cut needle cs).map (·.1.length)

def contains (needle cs : List Char) : Bool := (cut needle cs).isSome

/-- The pieces between the occurrences of `needle`; an empty needle does not cut. -/
def pieces (needle cs : List Char) : List (List Char) :=
  match cut needle cs with
  | none => [cs]
  | some (before, after) =>
    if after.length < cs.length then before :: pieces needle after else [cs]
termination_by cs.length

def join (glue : List Char) (parts : List (List Char)) : List Char := glue.intercalate parts

def replaceFirst (needle replacement cs : List Char) : List Char :=
  match cut needle cs with
  | none => cs
  | some (before, after) => before ++ replacement ++ after

/-- Replace every occurrence of `needle`; an empty needle occurs before each character and at the
end. -/
def replaceAll (needle replacement cs : List Char) : List Char :=
  if needle.isEmpty then replacement ++ cs.flatMap (· :: replacement)
  else join replacement (pieces needle cs)

def stripEnd (cs : List Char) : List Char := (cs.reverse.dropWhile isBlank).reverse

def strip (cs : List Char) : List Char := stripEnd (cs.dropWhile isBlank)

/-- The lines of a text: the pieces between line feeds. -/
def lines (s : String) : List String := (pieces ['\n'] s.toList).map String.ofList

end Luuqad.Text

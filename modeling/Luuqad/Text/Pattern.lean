import Luuqad.Text.Search

/-!
# Patterns

A pattern is a row of parts, and each part stands for a run of characters of one class. Where a run
may be longer or shorter the part says which length is tried first, and the first choice under which
all later parts fit as well is the match. The runs of the parts that are marked as kept are what a
match yields.
-/

namespace Luuqad.Text

/-- How long a run may be. -/
inductive Extent
  /-- Exactly one character. -/
  | one
  /-- Any number, as many as possible first. -/
  | longest
  /-- Any number, as few as possible first. -/
  | shortest
deriving DecidableEq, Repr, Inhabited

/-- A part of a pattern: a run of characters of a class. -/
structure Part where
  accepts : Char → Bool
  extent : Extent
  /-- Whether the run has at least one character. -/
  filled : Bool := false
  /-- Whether the run is part of what a match yields. -/
  kept : Bool := false

/-- A row of parts. -/
abbrev Pattern := List Part

namespace Pattern

def text (s : String) : Pattern := s.toList.map fun c => ⟨(· == c), .one, true, false⟩

def blanks : Pattern := [⟨isBlank, .longest, false, false⟩]

/-- Split off a run of accepted characters, such that `next` succeeds on what follows; `longest`
says whether to go on, where that is possible, before trying to stop. -/
def splitRun {α : Type} (accepts : Char → Bool) (longest : Bool)
    (next : List Char → Option α) : List Char → Option (List Char × α)
  | [] => (next []).map ([], ·)
  | c :: rest =>
    if !accepts c then (next (c :: rest)).map ([], ·)
    else if longest then
      match splitRun accepts longest next rest with
      | some (run, a) => some (c :: run, a)
      | none => (next (c :: rest)).map ([], ·)
    else
      match next (c :: rest) with
      | some a => some ([], a)
      | none => (splitRun accepts longest next rest).map fun (run, a) => (c :: run, a)

/-- Split off the run of one part, such that `next` succeeds on what follows. -/
def splitPart {α : Type} (p : Part) (next : List Char → Option α) (cs : List Char) :
    Option (List Char × α) :=
  match p.extent, p.filled, cs with
  | .one, _, c :: rest => if p.accepts c then (next rest).map ([c], ·) else none
  | .one, _, [] => none
  | e, false, cs => splitRun p.accepts (e == .longest) next cs
  | e, true, c :: rest =>
    if p.accepts c then
      (splitRun p.accepts (e == .longest) next rest).map fun (run, a) => (c :: run, a)
    else none
  | _, true, [] => none

/-- Match a pattern at the start of a text: the runs that are kept, and what follows the match. -/
def matchStart : Pattern → List Char → Option (List (List Char) × List Char)
  | [], cs => some ([], cs)
  | p :: ps, cs =>
    (splitPart p (matchStart ps) cs).map fun (run, kept, rest) =>
      (if p.kept then run :: kept else kept, rest)

/-- The runs that the leftmost match keeps. -/
def search (p : Pattern) (cs : List Char) : Option (List (List Char)) :=
  match p.matchStart cs with
  | some (kept, _) => some kept
  | none =>
    match cs with
    | [] => none
    | _ :: rest => p.search rest

/-- A text without its matches; a match is tried at each place that no earlier match covers. -/
def removeAll (p : Pattern) (cs : List Char) : List Char :=
  match cs with
  | [] => []
  | c :: rest =>
    match p.matchStart (c :: rest) with
    | some (_, after) =>
      if after.length < (c :: rest).length then p.removeAll after else c :: p.removeAll rest
    | none => c :: p.removeAll rest
termination_by cs.length
decreasing_by
  · assumption
  · exact Nat.lt_succ_self _
  · exact Nat.lt_succ_self _

end Pattern

end Luuqad.Text

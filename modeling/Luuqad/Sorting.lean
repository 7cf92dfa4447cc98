import Luuqad.Number.Scale
import Luuqad.Sorting.Merge

/-!
# Sorting

Lists are sorted in place, keeping the order of equal items. A list is cut into runs. A run is
ascending, or strictly descending and then turned around; if it is short, the items after it are
inserted into it one by one. Runs are merged with their neighbours, in an order that keeps the runs
that are merged close to each other in length.

The items may turn out not to be comparable half-way; the list then stays as far sorted as it is.
-/

namespace Luuqad.Sorting

variable {α ε : Type}

/-! ## Runs -/

/-- How many items after `last` go on a run that is descending or not. -/
def runTail (less : Less α ε) (descending : Bool) (last : α) : List α → Except ε Nat
  | [] => .ok 0
  | x :: rest => do
    if (← less x last) = descending then
      return (← runTail less descending x rest) + 1
    else return 0

/-- The length of the run that some items start with, and whether it is descending. -/
def run (less : Less α ε) : List α → Except ε (Nat × Bool)
  | [] => .ok (0, false)
  | [_] => .ok (1, false)
  | x :: y :: rest => do
    let descending ← less y x
    return ((← runTail less descending y rest) + 2, descending)

/-- Insert items one by one into sorted ones, after equal ones. If one cannot be compared, it and
those after it stay at the end, and the reason is returned. -/
def insertAll (less : Less α ε) (sorted : List α) : List α → List α × Option ε
  | [] => (sorted, none)
  | x :: rest =>
    match bisect .front (Test.negated (less x)) sorted sorted.length 0 sorted.length with
    | .ok i => insertAll less (sorted.take i ++ x :: sorted.drop i) rest
    | .error e => (sorted ++ x :: rest, some e)

/-- Lists shorter than this are a single run. -/
def shortLength : Nat := 64

/-- The least length of a run of a list of the given length: between 32 and 64, so that the number
of runs is close to a power of two. -/
def leastRun (n : Nat) (carry : Nat) : Nat :=
  if n < shortLength then n + carry else leastRun (n / 2) (max carry (n % 2))
termination_by n
decreasing_by
  exact Nat.div_lt_self
    (Nat.lt_of_lt_of_le (Nat.succ_pos 63) (Nat.le_of_not_lt ‹¬ n < shortLength›))
    (Nat.lt_succ_self 1)

/-! ## Pending runs -/

/-- A run that waits to be merged. -/
structure Pending (α : Type) where
  items : List α
  /-- How deep the border to the next run lies when the list is halved again and again. -/
  depth : Nat
deriving Inhabited

/-- A sort under way. -/
structure Sorted (α : Type) where
  /-- The runs found, last one first. -/
  runs : List (Pending α)
  rest : List α
  patience : Nat
deriving Inhabited

def Sorted.items (s : Sorted α) : List α :=
  s.runs.reverse.flatMap Pending.items ++ s.rest

/-- A step of a sort. -/
abbrev Sorter (α ε : Type) := EStateM ε (Sorted α)

/-- How often a list of `size` items has to be halved to separate the middles of two adjacent runs,
of which the first starts at `start`. -/
def borderDepth (size start first second : Nat) : Nat :=
  let a := 2 * start + first
  let b := a + first + second
  ((List.range (size.log2 + 2)).find? fun p =>
    a * Number.pow2 p / size ≠ b * Number.pow2 p / size).getD (size.log2 + 2)

namespace Sorter

/-- Merge two adjacent runs, with the given ones before and after them. -/
def join (less : Less α ε) (newer : List (Pending α)) (first second : Pending α)
    (older : List (Pending α)) : Sorter α ε (Pending α) := do
  let s ← get
  let merged := mergeRuns less s.patience first.items second.items
  let joined := ⟨merged.items, second.depth⟩
  set { s with runs := newer ++ joined :: older, patience := merged.patience }
  match merged.failure with
  | some e => throw e
  | none => return joined

/-- Merge the last run with those before it whose borders lie deeper than `depth`. -/
def joinDeeper (less : Less α ε) (depth : Nat) (last : Pending α) :
    List (Pending α) → Sorter α ε Unit
  | [] => modify fun s => { s with runs := [{ last with depth }] }
  | before :: older => do
    if depth < before.depth then
      joinDeeper less depth (← join less [] before last older) older
    else modify fun s => { s with runs := { last with depth } :: before :: older }

/-- Make room for a run of `length` items at the end of the runs of a list of `size` items. -/
def prepare (less : Less α ε) (size length : Nat) : Sorter α ε Unit := do
  match (← get).runs with
  | [] => return
  | last :: older =>
    let start := older.foldl (fun n r => n + r.items.length) 0
    joinDeeper less (borderDepth size start last.items.length length) last older

/-- Turn the start of the rest into a run of at least `least` items, if there are as many; returns
its length. -/
def findRun (less : Less α ε) (least : Nat) : Sorter α ε Nat := do
  let rest := (← get).rest
  match run less rest with
  | .error e => throw e
  | .ok (n, descending) =>
    let start := if descending then (rest.take n).reverse else rest.take n
    let (start, failure) := insertAll less start ((rest.drop n).take (least - n))
    let n := start.length
    modify fun s => { s with rest := start ++ rest.drop n }
    match failure with
    | some e => throw e
    | none => return n

/-- Cut the rest into runs and merge them on the way. -/
def cut (less : Less α ε) (size least : Nat) : Nat → Sorter α ε Unit
  | 0 => return
  | fuel + 1 => do
    if (← get).rest.isEmpty then return
    let n ← findRun less least
    prepare less size n
    modify fun s => { s with runs := ⟨s.rest.take n, 0⟩ :: s.runs, rest := s.rest.drop n }
    cut less size least fuel

/-- Merge the runs that are left, starting with the last ones; the one before the last two is merged
first if it is shorter than the last. -/
def joinAll (less : Less α ε) : Nat → Sorter α ε Unit
  | 0 => return
  | fuel + 1 => do
    match (← get).runs with
    | last :: middle :: first :: older =>
      if first.items.length < last.items.length then
        let _ ← join less [last] first middle older
      else
        let _ ← join less [] middle last (first :: older)
      joinAll less fuel
    | [last, first] =>
      let _ ← join less [] first last []
    | _ => return

def sortAll (less : Less α ε) (size : Nat) : Sorter α ε Unit := do
  cut less size (leastRun size 0) size
  joinAll less size

end Sorter

/-- Sort items as far as they can be compared, and what went wrong if they cannot. -/
def sort (less : Less α ε) (items : List α) : List α × Option ε :=
  match Sorter.sortAll less items.length ⟨[], items, gallopGain⟩ with
  | .ok _ s => (s.items, none)
  | .error e s => (s.items, some e)

end Luuqad.Sorting

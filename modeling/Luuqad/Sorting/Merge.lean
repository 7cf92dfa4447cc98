import Luuqad.Sorting.Search

/-!
# Merging two runs

Two sorted lists are merged by taking one item after the other from their starts. Once one of the
lists has been the winner several times in a row, the merge gallops: it looks up how many items of a
list go before the next item of the other, and takes them all at once. It is the more patient before
it gallops, the less that has helped.

The shorter of the two lists decides from which end the items are taken: from the front if it is the
first, from the back if it is the second. Seen from the back the lists are turned around and the
order is reversed, so there is one merge for both. If two items cannot be compared, what is left of
the lists stays where it is.
-/

namespace Luuqad.Sorting

/-- A merge under way. -/
structure Merging (α : Type) where
  /-- The items taken, last one first. -/
  taken : List α
  short : List α
  long : List α
  /-- How often in a row a list has to win before the merge gallops. -/
  patience : Nat
deriving Inhabited

/-- Why a merge ends. -/
inductive Halt (ε : Type)
  /-- One of the lists is used up. -/
  | settled
  /-- A single item of the shorter list is left, which comes last. -/
  | lastOne
  /-- Two items cannot be compared. -/
  | failed (e : ε)
deriving Inhabited

/-- A step of a merge. -/
abbrev Merger (α ε : Type) := EStateM (Halt ε) (Merging α)

/-- As many items in a row as make galloping worth while. -/
def gallopGain : Nat := 7

namespace Merger

variable {α ε : Type}

/-- Compare, or end the merge. -/
def ask {β : Type} : Except ε β → Merger α ε β
  | .ok b => pure b
  | .error e => throw (.failed e)

def takeShort (n : Nat) : Merger α ε Unit := do
  modify fun m => { m with taken := (m.short.take n).reverse ++ m.taken, short := m.short.drop n }
  match (← get).short with
  | [] => throw .settled
  | [_] => throw .lastOne
  | _ => return

def takeLong (n : Nat) : Merger α ε Unit := do
  modify fun m => { m with taken := (m.long.take n).reverse ++ m.taken, long := m.long.drop n }
  if (← get).long.isEmpty then throw .settled

/-- Take the next item of the list that wins; whether that is the longer one. -/
def step (less : Less α ε) : Merger α ε Bool := do
  let m ← get
  match m.short, m.long with
  | s :: _, l :: _ =>
    if ← ask (less l s) then
      takeLong 1
      return true
    else
      takeShort 1
      return false
  | _, _ => throw .settled

/-- Take items one by one until the patience is used up. One of the lists, the longer one or not,
has won the last `wins` times. -/
def compete (less : Less α ε) : Nat → Bool → Nat → Merger α ε Unit
  | 0, _, _ => return
  | fuel + 1, longer, wins => do
    let winner ← step less
    let wins := if winner = longer then wins + 1 else 1
    if (← get).patience ≤ wins then return else compete less fuel winner wins

/-- Take what goes before the next item of the longer list, and that item. -/
def gallopShort (side : Side) (less : Less α ε) : Merger α ε Nat := do
  let m ← get
  match m.long with
  | [] => throw .settled
  | key :: _ =>
    let n ← ask (leading side (Test.negated (less key)) m.short)
    takeShort n
    takeLong 1
    return n

/-- Take what goes before the next item of the shorter list, and that item. -/
def gallopLong (side : Side) (less : Less α ε) : Merger α ε Nat := do
  let m ← get
  match m.short with
  | [] => throw .settled
  | key :: _ =>
    let n ← ask (leading side (less · key) m.long)
    takeLong n
    takeShort 1
    return n

/-- Gallop through both lists, starting with the one that comes first among the sorted items, as
long as it is worth while. -/
def gallop (side : Side) (less : Less α ε) : Nat → Merger α ε Unit
  | 0 => return
  | fuel + 1 => do
    modify fun m => { m with patience := max 1 (m.patience - 1) }
    let (first, second) ← match side with
      | .front => do
        let first ← gallopShort side less
        pure (first, ← gallopLong side less)
      | .back => do
        let first ← gallopLong side less
        pure (first, ← gallopShort side less)
    if gallopGain ≤ first ∨ gallopGain ≤ second then gallop side less fuel else return

/-- Wait a little longer before galloping again. -/
def hesitate : Merger α ε Unit := modify fun m => { m with patience := m.patience + 1 }

/-- Take items one by one and gallop in turns. -/
def rounds (side : Side) (less : Less α ε) (size : Nat) : Nat → Merger α ε Unit
  | 0 => return
  | fuel + 1 => do
    compete less size true 0
    hesitate
    gallop side less size
    hesitate
    rounds side less size fuel

/-- Merge two lists. The first item of the longer one is known to be the least. -/
def merge (side : Side) (less : Less α ε) : Merger α ε Unit := do
  let m ← get
  let size := m.short.length + m.long.length
  takeLong 1
  takeShort 0
  rounds side less size size

end Merger

/-- Items in order as far as they could be compared, the patience left, and what went wrong. -/
structure Merged (α ε : Type) where
  items : List α
  patience : Nat
  failure : Option ε
deriving Inhabited

variable {α ε : Type}

/-- Merge a shorter list with a longer one whose first item is the least, both seen from a side. -/
def mergeFrom (side : Side) (less : Less α ε) (patience : Nat) (short long : List α) : Merged α ε :=
  let (halt, m) := match Merger.merge side (side.order less) ⟨[], short, long, patience⟩ with
    | .ok _ m => (Halt.settled, m)
    | .error halt m => (halt, m)
  let rest := match halt with
    | .lastOne => m.long ++ m.short
    | _ => m.short ++ m.long
  let failure := match halt with
    | .failed e => some e
    | _ => none
  ⟨side.turn (m.taken.reverse ++ rest), m.patience, failure⟩

/-- Where two adjacent runs interlock: how many items of the first come before all of the second,
and how many of the second after all that is left of the first. -/
def interlock (less : Less α ε) (first second : List α) : Except ε (Nat × Nat) :=
  match second.head?, first.getLast? with
  | some least, some most => do
    let before ← leading .front (Test.negated (less least)) first
    if before = first.length then return (before, second.length)
    let after ← leading .back (Test.negated (less · most)) second.reverse
    return (before, after)
  | _, _ => .ok (first.length, second.length)

def mergeRuns (less : Less α ε) (patience : Nat) (first second : List α) : Merged α ε :=
  match interlock less first second with
  | .error e => ⟨first ++ second, patience, some e⟩
  | .ok (before, after) =>
    let a := first.drop before
    let b := second.take (second.length - after)
    if a.isEmpty || b.isEmpty then ⟨first ++ second, patience, none⟩
    else
      let merged :=
        if a.length ≤ b.length then mergeFrom .front less patience a b
        else mergeFrom .back less patience b.reverse a.reverse
      { merged with
        items := first.take before ++ merged.items ++ second.drop (second.length - after) }

end Luuqad.Sorting

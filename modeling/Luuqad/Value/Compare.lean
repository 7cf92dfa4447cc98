import Luuqad.Heap

/-!
# Comparing values

Truth values count as the numbers one and zero, and whole numbers and doubles are compared exactly.
Lists are equal when their items are, and are ordered by the first pair of items that differ.
Objects are equal when they have equal values under equal keys, in any order.

A double that is not a number is equal to nothing. Inside lists and objects, and as a key, it is the
same as itself all the same. The comparison of two lists that contain themselves may never end,
which is a failure.
-/

namespace Luuqad

inductive Num
  | int (i : Int)
  | float (x : Float)
deriving DecidableEq, Repr, Inhabited

def Value.num? : Value → Option Num
  | .bool b => some (.int (if b then 1 else 0))
  | .int i => some (.int i)
  | .float x => some (.float x)
  | .nan _ => some (.float Number.nan)
  | _ => none

namespace Num

def compareMixed (i : Int) (x : Float) : Option Ordering :=
  match Number.decode x with
  | .nan => none
  | .infinite negative => some (if negative then .gt else .lt)
  | .finite d => some (d.compareInt i)

def compareFloats (x y : Float) : Option Ordering :=
  match Number.decode x, Number.decode y with
  | .nan, _ | _, .nan => none
  | .infinite a, .infinite b => some (if a == b then .eq else if a then .lt else .gt)
  | .infinite a, .finite _ => some (if a then .lt else .gt)
  | .finite _, .infinite b => some (if b then .gt else .lt)
  | .finite a, .finite b => some (a.compareTo b)

def compare? : Num → Num → Option Ordering
  | int i, int j => some (compare i j)
  | int i, float y => compareMixed i y
  | float x, int j => (compareMixed j x).map Ordering.swap
  | float x, float y => compareFloats x y

end Num

/-! ## Single values -/

namespace Value

/-- Whether a value counts as true in a condition. -/
def isTrue (h : Heap) : Value → Bool
  | null | tuple .nil => false
  | bool b => b
  | int i => i != 0
  | float x => x != 0
  | str s => !s.isEmpty
  | list r => !(h.items r).isEmpty
  | object r => !(h.entries r).isEmpty
  | _ => true

def isZero (v : Value) : Bool := v.num?.any fun n => n.compare? (.int 0) == some .eq

def isSameNan : Value → Value → Bool
  | nan m, nan n => m == n
  | _, _ => false

end Value

/-! ## Keys -/

mutual

def Value.sameKey : Value → Value → Bool
  | .tuple s, .tuple t => s.sameKeys t
  | a, b =>
    match a.num?, b.num? with
    | some x, some y => a.isSameNan b || x.compare? y == some .eq
    | _, _ => a == b

def Tuple.sameKeys : Tuple → Tuple → Bool
  | .nil, .nil => true
  | .cons a s, .cons b t => a.sameKey b && s.sameKeys t
  | _, _ => false

end

mutual

/-- The kind of a value, or of a part of it, that cannot be a key. -/
def Value.unhashable? : Value → Option TypeName
  | .list _ => some .list
  | .object _ => some .object
  | .tuple t => t.unhashable?
  | _ => none

/-- The kind of the first value in a row that cannot be a key. -/
def Tuple.unhashable? : Tuple → Option TypeName
  | .nil => none
  | .cons v rest =>
    match v.unhashable? with
    | some t => some t
    | none => rest.unhashable?

end

/-- A value as a key, if it can be one. -/
def Value.asKey (v : Value) : Except Failure Value :=
  match v.unhashable? with
  | some t => .error (.unhashable t)
  | none => .ok v

namespace Entries

def get? (entries : Entries) (key : Value) : Option Value :=
  (entries.find? fun e => e.1.sameKey key).map (·.2)

/-- Put a value under a key: in the place of the old one, or at the end. The key that came first
stays. -/
def put (key value : Value) : Entries → Entries
  | [] => [(key, value)]
  | e :: rest => if e.1.sameKey key then (e.1, value) :: rest else e :: put key value rest

def remove (key : Value) (entries : Entries) : Entries := entries.filter fun e => !e.1.sameKey key

end Entries

/-! ## Equality -/

namespace Value

/-- How deep a comparison may go. -/
def comparisonDepth : Nat := 1000

/-- Whether two values are equal, if that shows at a depth below `fuel`. -/
def equalUpTo (h : Heap) (fuel : Nat) (a b : Value) : Except Failure Bool :=
  let parts (x y : Value) : Except Failure Bool :=
    match fuel with
    | 0 => .error .endlessComparison
    | fuel + 1 => if x.isSameNan y then .ok true else equalUpTo h fuel x y
  match a, b with
  | list r, list s =>
    let xs := h.items r
    let ys := h.items s
    if r = s then .ok true
    else if xs.size ≠ ys.size then .ok false
    else (xs.toList.zip ys.toList).allM fun (x, y) => parts x y
  | object r, object s =>
    let xs := h.entries r
    let ys := h.entries s
    if r = s then .ok true
    else if xs.length ≠ ys.length then .ok false
    else xs.allM fun (k, x) => (ys.get? k).elim (.ok false) (parts x)
  | tuple s, tuple t =>
    if s.toList.length ≠ t.toList.length then .ok false
    else (s.toList.zip t.toList).allM fun (x, y) => parts x y
  | a, b =>
    match a.num?, b.num? with
    | some x, some y => .ok (x.compare? y == some .eq)
    | _, _ => .ok (a == b)

def equal (h : Heap) (a b : Value) : Except Failure Bool := equalUpTo h comparisonDepth a b

/-- Whether two values are equal up to a depth below `fuel`, or the same. -/
def sameUpTo (h : Heap) (fuel : Nat) (a b : Value) : Except Failure Bool :=
  if a.isSameNan b then .ok true else equalUpTo h fuel a b

/-- Whether two values are equal or the same. -/
def same (h : Heap) (a b : Value) : Except Failure Bool := sameUpTo h comparisonDepth a b

end Value

/-! ## Order -/

/-- The items of a value that has items in order. -/
def Value.sequence? (h : Heap) : Value → Option (List Value)
  | .list r => some (h.items r).toList
  | .tuple t => some t.toList
  | _ => none

inductive Relation
  | less | lessEqual | greater | greaterEqual
deriving DecidableEq, Repr, Inhabited

namespace Relation

def symbol : Relation → String
  | less => "<"
  | lessEqual => "<="
  | greater => ">"
  | greaterEqual => ">="

/-- Whether a relation holds between two things that compare in the given way. -/
def holds : Relation → Ordering → Bool
  | less, o => o == .lt
  | lessEqual, o => o != .gt
  | greater, o => o == .gt
  | greaterEqual, o => o != .lt

/-- The first pair of values that are not the same. -/
def firstDifference (same : Value → Value → Except Failure Bool) :
    List (Value × Value) → Except Failure (Option (Value × Value))
  | [] => .ok none
  | (x, y) :: rest => do
    if ← same x y then firstDifference same rest else return some (x, y)

/-- Whether a relation holds between two values, if that shows at a depth below `fuel`. -/
def relateUpTo (rel : Relation) (h : Heap) (fuel : Nat) (a b : Value) : Except Failure Bool :=
  match a, b, a.num?, b.num? with
  | _, _, some x, some y => .ok ((x.compare? y).any rel.holds)
  | .str s, .str t, _, _ => .ok (rel.holds (compare s t))
  | a, b, _, _ =>
    match a.sequence? h, b.sequence? h with
    | some xs, some ys =>
      if a.typeName = b.typeName then
        match fuel with
        | 0 => .error .endlessComparison
        | fuel + 1 => do
          match ← firstDifference (Value.sameUpTo h fuel) (xs.zip ys) with
          | some (x, y) => relateUpTo rel h fuel x y
          | none => return rel.holds (compare xs.length ys.length)
      else .error (.unordered rel.symbol a.typeName b.typeName)
    | _, _ => .error (.unordered rel.symbol a.typeName b.typeName)

/-- Whether a relation holds between two values, if they can be ordered. -/
def relate (rel : Relation) (h : Heap) (a b : Value) : Except Failure Bool :=
  rel.relateUpTo h Value.comparisonDepth a b

end Relation

end Luuqad

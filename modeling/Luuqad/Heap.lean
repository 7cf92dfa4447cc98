import Luuqad.Number.Binary
import Luuqad.Token
import Luuqad.Tree.Node

/-!
# The heap

Lists and objects live in cells, so that several variables can share one and see each other's
changes. Pieces of a program live there too once they are used as data. A cell is never freed; its
place is its identity. The heap also gives out the marks of doubles that are not numbers.
-/

namespace Luuqad

/-- The entries of an object, in the order in which their keys were first put. -/
abbrev Entries := List (Value × Value)

/-- What a cell holds. -/
inductive Cell
  | list (items : Array Value)
  | object (entries : Entries)
  | code (node : Node)
  | token (token : Token)
deriving Inhabited

/-- The cells in use. -/
structure Heap where
  cells : Array Cell := #[]
  mark : Nat := 0
deriving Inhabited

namespace Heap

def size (h : Heap) : Nat := h.cells.size

def alloc (h : Heap) (c : Cell) : Ref × Heap := (h.cells.size, { h with cells := h.cells.push c })

def read (h : Heap) (r : Ref) : Option Cell := h.cells[r]?

def write (h : Heap) (r : Ref) (c : Cell) : Heap := { h with cells := h.cells.setIfInBounds r c }

/-- A double as a value. If it is not a number it gets a mark of its own. -/
def double (h : Heap) (x : Float) : Value × Heap :=
  match Number.decode x with
  | .nan => (.nan h.mark, { h with mark := h.mark + 1 })
  | _ => (.float x, h)

def items (h : Heap) (r : Ref) : Array Value :=
  match h.read r with
  | some (.list items) => items
  | _ => #[]

def entries (h : Heap) (r : Ref) : Entries :=
  match h.read r with
  | some (.object entries) => entries
  | _ => []

end Heap

end Luuqad

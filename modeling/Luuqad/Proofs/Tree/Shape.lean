import Luuqad.Tree.Node

/-!
# The shapes of nodes

Nodes of all kinds have the same type, and a form finds its parts among the children by their
places. So a form relies on the kind of a node to say how many children there are. `Node.Shaped`
says what a kind requires of the children, and a tree is well formed if all of its nodes are shaped.
`Node.Reads` says which places a form looks at; in a well formed tree there is a child at each of
them (`Node.WellFormed.lt_of_reads`).
-/

namespace Luuqad

/-- Whether a node of this kind may be assigned to. -/
def NodeKind.isTarget (k : NodeKind) : Bool :=
  k = .identifier || k = .property || k = .index || k = .methodCall

/-- How many children a node of this kind has at least. Forms look at these by their places. -/
def NodeKind.places : NodeKind → Nat
  | .declaration | .unary | .property | .methodCall | .conditional | .whileLoop | .switch => 1
  | .binary | .index | .assignment | .loop | .tryCatch => 2
  | _ => 0

namespace Node

/-- The children of a node are as its kind requires. -/
def Shaped (n : Node) : Prop :=
  match n.kind with
  | .declaration | .unary | .property | .returnValue => n.children.length = 1
  | .binary | .index => n.children.length = 2
  | .assignment => n.children.length = 2 ∧ n.children.head?.any (·.kind.isTarget) = true
  | .methodCall | .conditional | .whileLoop | .switch => 1 ≤ n.children.length
  | .loop => 2 ≤ n.children.length
  | .tryCatch => n.children.length = 2 ∧ ∀ m ∈ n.children, m.kind = .block
  | .object => ∀ m ∈ n.children, m.kind = .literal ∧ m.children.length = 1
  | _ => True

/-- Every node of a tree is shaped. -/
inductive WellFormed : Node → Prop
  | intro {n : Node} : n.Shaped → (∀ m ∈ n.children, m.WellFormed) → n.WellFormed

/-- Running `n` may look at the child of `m` at the place `i`. The entries of an object are looked
at with the object. -/
inductive Reads (n : Node) : Node → Nat → Prop
  | own {i : Nat} : i < n.kind.places → Reads n n i
  | entry {m : Node} : n.kind = .object → m ∈ n.children → Reads n m 0

variable {n m : Node} {i : Nat}

theorem WellFormed.shaped (h : n.WellFormed) : n.Shaped := by
  cases h with
  | intro hn _ => exact hn

theorem WellFormed.child (h : n.WellFormed) (hm : m ∈ n.children) : m.WellFormed := by
  cases h with
  | intro _ hchildren => exact hchildren m hm

@[simp]
theorem wellFormed_mk {kind : NodeKind} {value : Value} {children : List Node}
    {declared : Option TokenKind} {constant : Bool} {line column : Option Nat} :
    WellFormed ⟨kind, value, children, declared, constant, line, column⟩ ↔
      Shaped ⟨kind, value, children, declared, constant, line, column⟩ ∧
        ∀ m ∈ children, m.WellFormed :=
  ⟨fun h => ⟨h.shaped, fun _ hm => h.child hm⟩, fun h => .intro h.1 h.2⟩

theorem Shaped.places_le (h : n.Shaped) : n.kind.places ≤ n.children.length := by
  unfold Shaped at h
  cases hkind : n.kind <;> simp only [hkind, NodeKind.places] at h ⊢ <;> omega

/-- A form that runs a well formed node looks at no child that is missing. -/
theorem WellFormed.lt_of_reads (h : n.WellFormed) (hreads : n.Reads m i) :
    i < m.children.length := by
  cases hreads with
  | own hi => exact Nat.lt_of_lt_of_le hi h.shaped.places_le
  | entry hkind hm =>
    have hentries := h.shaped
    simp only [Shaped, hkind] at hentries
    rw [(hentries m hm).2]
    exact Nat.one_pos

end Node

end Luuqad

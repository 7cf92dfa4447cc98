import Luuqad.State

/-!
# Cells of the heap

What is read from a cell after a cell was put on the heap or its content was replaced. A cell that
is put on the heap takes a place that was not in use, so nothing that was there before changes.
-/

namespace Luuqad

namespace Heap

variable {h : Heap} {r q : Ref}

theorem read_eq_none_iff : h.read r = none ↔ h.size ≤ r := Array.getElem?_eq_none_iff

theorem lt_size_of_read {c : Cell} (hr : h.read r = some c) : r < h.size := by
  refine Nat.lt_of_not_le fun hle => ?_
  rw [read_eq_none_iff.mpr hle] at hr
  cases hr

/-! ## New cells -/

def withCell (h : Heap) (c : Cell) : Heap := (h.alloc c).2

@[simp] theorem size_withCell (h : Heap) (c : Cell) : (h.withCell c).size = h.size + 1 := by
  simp [withCell, alloc, size]

@[simp] theorem read_withCell_self (h : Heap) (c : Cell) : (h.withCell c).read h.size = some c := by
  simp [withCell, alloc, read, size]

theorem read_withCell (c : Cell) (hr : r ≠ h.size) : (h.withCell c).read r = h.read r := by
  simp only [withCell, alloc, read, Array.getElem?_push]
  exact if_neg hr

@[simp] theorem items_withCell_self (h : Heap) (items : Array Value) :
    (h.withCell (.list items)).items h.size = items := by simp [Heap.items]

theorem items_withCell (c : Cell) (hr : r ≠ h.size) : (h.withCell c).items r = h.items r := by
  rw [Heap.items, Heap.items, read_withCell c hr]

/-! ## Replaced cells -/

@[simp] theorem size_write (h : Heap) (r : Ref) (c : Cell) : (h.write r c).size = h.size := by
  simp [write, size]

theorem read_write_self (c : Cell) (hr : r < h.size) : (h.write r c).read r = some c := by
  simp only [write, read]
  exact Array.getElem?_setIfInBounds_self.trans (if_pos hr)

theorem read_write_of_ne (c : Cell) (hr : r ≠ q) : (h.write q c).read r = h.read r := by
  simp only [write, read]
  exact Array.getElem?_setIfInBounds_ne hr.symm

theorem items_write_self (items : Array Value) (hr : r < h.size) :
    (h.write r (.list items)).items r = items := by rw [Heap.items, read_write_self _ hr]

theorem items_of_read {items : Array Value} (hr : h.read r = some (.list items)) :
    h.items r = items := by
  rw [Heap.items, hr]

theorem entries_of_read {entries : Entries} (hr : h.read r = some (.object entries)) :
    h.entries r = entries := by
  rw [Heap.entries, hr]

/-- What is in a cell of the first heap is in this cell of the second one too. -/
def Extends (h h' : Heap) : Prop := ∀ ⦃r c⦄, h.read r = some c → h'.read r = some c

theorem Extends.refl (h : Heap) : h.Extends h := fun _ _ hr => hr

theorem Extends.trans {h' h'' : Heap} (hh' : h.Extends h') (hh'' : h'.Extends h'') :
    h.Extends h'' :=
  fun _ _ hr => hh'' (hh' hr)

theorem extends_withCell (h : Heap) (c : Cell) : h.Extends (h.withCell c) := by
  intro r d hr
  rw [read_withCell c (Nat.ne_of_lt (lt_size_of_read hr)), hr]

end Heap

/-! ## States -/

def State.withHeap (s : State) (h : Heap) : State := { s with heap := h }

@[simp] theorem State.heap_withHeap (s : State) (h : Heap) : (s.withHeap h).heap = h := rfl

/-- The second state is the first one with a new cell and nothing else. -/
structure State.Gains (s t : State) (q : Ref) (c : Cell) : Prop where
  unused : s.heap.read q = none
  cell : t.heap.read q = some c
  others {r : Ref} : r ≠ q → t.heap.read r = s.heap.read r
  size : t.heap.size = s.heap.size + 1
  mark : t.heap.mark = s.heap.mark
  rest : t.withHeap s.heap = s

theorem State.gains_withCell (s : State) (c : Cell) :
    s.Gains (s.withHeap (s.heap.withCell c)) s.heap.size c where
  unused := Heap.read_eq_none_iff.mpr (Nat.le_refl _)
  cell := Heap.read_withCell_self _ _
  others := Heap.read_withCell c
  size := Heap.size_withCell _ _
  mark := rfl
  rest := rfl

theorem State.Gains.ne {s t : State} {q r : Ref} {c d : Cell} (h : s.Gains t q c)
    (hr : s.heap.read r = some d) :
    r ≠ q := by
  rintro rfl
  rw [h.unused] at hr
  cases hr

theorem State.Gains.read {s t : State} {q r : Ref} {c d : Cell} (h : s.Gains t q c)
    (hr : s.heap.read r = some d) :
    t.heap.read r = some d := by rw [h.others (h.ne hr), hr]

/-- The second state is the first one with another content in a cell and nothing else changed. -/
structure State.Sets (s t : State) (r : Ref) (c : Cell) : Prop where
  cell : t.heap.read r = some c
  others {q : Ref} : q ≠ r → t.heap.read q = s.heap.read q
  mark : t.heap.mark = s.heap.mark
  rest : t.withHeap s.heap = s

theorem State.sets_write {s : State} {r : Ref} {d : Cell} (hr : s.heap.read r = some d) (c : Cell) :
    s.Sets (s.withHeap (s.heap.write r c)) r c where
  cell := Heap.read_write_self c (Heap.lt_size_of_read hr)
  others := Heap.read_write_of_ne c
  mark := rfl
  rest := rfl

/-! ## Operations -/

namespace Run

variable {α : Type} {a : α}

theorem act_ok {x : Action α} {s : State} {h : Heap} (hx : x s.heap = .ok a h) :
    act x s = .ok a (s.withHeap h) := by
  simp only [act, hx]
  rfl

theorem act_ofExcept_ok {x : Except Failure α} (s : State) (hx : x = .ok a) :
    act (Action.ofExcept x) s = .ok a s := by
  subst hx
  rfl

theorem act_ofExcept_error {x : Except Failure α} {f : Failure} (s : State) (hx : x = .error f) :
    act (Action.ofExcept x) s = .error (.fault (.failure f)) s := by
  subst hx
  rfl

theorem state_of_act_ofExcept {x : Except Failure α} {s t : State}
    (h : act (Action.ofExcept x) s = .ok a t) :
    t = s := by
  cases x with
  | error e => cases h
  | ok b =>
    cases h
    rfl

end Run

namespace Action

variable {α β : Type} {x : Action α} {f : α → Action β} {h h' : Heap}

theorem bind_ok {a : α} (hx : x h = .ok a h') : (x >>= f) h = f a h' := by
  change EStateM.bind x f h = _
  unfold EStateM.bind
  rw [hx]

theorem bind_error {e : Fault} (hx : x h = .error e h') : (x >>= f) h = .error e h' := by
  change EStateM.bind x f h = _
  unfold EStateM.bind
  rw [hx]

theorem newList_ok (items : Array Value) (h : Heap) :
    Action.newList items h = .ok (.list h.size) (h.withCell (.list items)) := rfl

theorem newObject_ok (entries : Entries) (h : Heap) :
    Action.newObject entries h = .ok (.object h.size) (h.withCell (.object entries)) := rfl

end Action

end Luuqad

import Luuqad.Proofs.Heap.Cells
import Luuqad.Proofs.Run.Contract
import Luuqad.Proofs.Sorting.Permutes

/-!
# Library functions of one argument

A library function that is called on each item of a list may change the list while it is gone
through: it may take items away, turn the list around or sort it, if the list is among its own
items. It cannot make the list longer, because everything that adds items needs a second argument
(`Builtin.narrows_callOne`).
-/

namespace Luuqad

/-! ## Heaps -/

/-- All cells of the first heap are still there in the second, and no list among them is longer. -/
structure Heap.Narrower (h h' : Heap) : Prop where
  size : h.size ≤ h'.size
  items {r : Ref} : r < h.size → (h'.items r).size ≤ (h.items r).size

namespace Heap

variable {h h' h'' : Heap}

theorem Narrower.refl (h : Heap) : h.Narrower h := ⟨Nat.le_refl _, fun _ => Nat.le_refl _⟩

theorem Narrower.trans (hh' : h.Narrower h') (hh'' : h'.Narrower h'') : h.Narrower h'' := by
  refine ⟨Nat.le_trans hh'.size hh''.size, fun hr => ?_⟩
  exact Nat.le_trans (hh''.items (Nat.lt_of_lt_of_le hr hh'.size)) (hh'.items hr)

theorem Narrower.of_cells (hcells : h'.cells = h.cells) : h.Narrower h' := by
  have hread (r : Ref) : h'.read r = h.read r := by rw [read, read, hcells]
  refine ⟨Nat.le_of_eq (by rw [Heap.size, Heap.size, hcells]), fun {r} _ => ?_⟩
  exact Nat.le_of_eq (by rw [Heap.items, Heap.items, hread])

theorem narrower_alloc (h : Heap) (c : Cell) : h.Narrower (h.alloc c).2 := by
  refine ⟨by simp [alloc, size], fun {r} hr => ?_⟩
  exact Nat.le_of_eq (congrArg Array.size (items_withCell c (Nat.ne_of_lt hr)))

theorem narrower_write (h : Heap) (r : Ref) {c : Cell}
    (hc : ∀ items, c = .list items → items.size ≤ (h.items r).size) : h.Narrower (h.write r c) := by
  refine ⟨Nat.le_of_eq (size_write h r c).symm, fun {r'} hr' => ?_⟩
  by_cases heq : r = r'
  · subst heq
    rw [items, read_write_self c hr']
    cases c with
    | list items => exact hc items rfl
    | object _ | code _ | token _ => exact Nat.zero_le _
  · exact Nat.le_of_eq (by rw [items, items, read_write_of_ne c (Ne.symm heq)])

theorem lt_size_of_item {r : Ref} {i : Nat} {v : Value} (hv : (h.items r)[i]? = some v) :
    r < h.size := by
  refine Nat.lt_of_not_le fun hle => ?_
  have hread : h.read r = none := read_eq_none_iff.mpr hle
  simp [items, hread] at hv

end Heap

/-! ## Operations on the heap -/

namespace Action

variable {α β : Type} {h : Heap}

/-- If the operation has a result, no list has become longer. -/
def NarrowsAt (a : Action α) (h : Heap) : Prop := ∀ v h', a h = .ok v h' → h.Narrower h'

namespace NarrowsAt

theorem pure (a : α) : NarrowsAt (Pure.pure a) h := by
  intro v h' hr
  cases hr
  exact .refl _

theorem bind {x : Action α} {f : α → Action β} (hx : NarrowsAt x h)
    (hf : ∀ v h', x h = .ok v h' → NarrowsAt (f v) h') : NarrowsAt (x >>= f) h := by
  intro w h'' hr
  cases hxh : x h with
  | ok v h' =>
    rw [bind_ok hxh] at hr
    exact (hx v h' hxh).trans (hf v h' hxh w h'' hr)
  | error e h' =>
    rw [bind_error hxh] at hr
    cases hr

theorem raise (c : Cause) : NarrowsAt (Action.raise c : Action α) h := by
  intro v h' hr
  cases hr

theorem raise_bind {c : Cause} {f : α → Action β} : NarrowsAt (Action.raise c >>= f) h := by
  intro v h' hr
  cases hr

theorem fail (f : Failure) : NarrowsAt (Action.fail f : Action α) h := by
  intro v h' hr
  cases hr

theorem ofExcept (x : Except Failure α) : NarrowsAt (Action.ofExcept x) h := by
  cases x with
  | ok a => exact pure a
  | error e => exact fail e

theorem reading (f : Heap → Except Failure α) : NarrowsAt (Action.reading f) h := ofExcept (f h)

theorem get_bind {f : Heap → Action β} (hf : NarrowsAt (f h) h) : NarrowsAt (get >>= f) h := hf

theorem items (r : Ref) : NarrowsAt (Action.items r) h := pure _

theorem entries (r : Ref) : NarrowsAt (Action.entries r) h := pure _

theorem alloc (c : Cell) : NarrowsAt (Action.alloc c) h := by
  intro v h' hr
  cases hr
  exact h.narrower_alloc c

theorem newList (items : Array Value) : NarrowsAt (Action.newList items) h :=
  bind (alloc _) fun _ _ _ => pure _

theorem newObject (entries : Entries) : NarrowsAt (Action.newObject entries) h :=
  bind (alloc _) fun _ _ _ => pure _

theorem double (x : Float) : NarrowsAt (Action.double x) h := by
  intro v h' hr
  cases hr
  refine .of_cells ?_
  change (h.double x).2.cells = h.cells
  unfold Heap.double
  split <;> rfl

theorem number (n : Num) : NarrowsAt (Action.number n) h := by
  cases n with
  | int i => exact pure _
  | float x => exact double x

theorem setItems {r : Ref} {items : Array Value} (hitems : items.size ≤ (h.items r).size) :
    NarrowsAt (Action.setItems r items) h := by
  intro v h' hr
  cases hr
  refine h.narrower_write r fun items' heq => ?_
  cases heq
  exact hitems

theorem setEntries (r : Ref) (entries : Entries) : NarrowsAt (Action.setEntries r entries) h := by
  intro v h' hr
  cases hr
  exact h.narrower_write r fun _ heq => by cases heq

theorem ite {p : Prop} [Decidable p] {x y : Action α} (hx : NarrowsAt x h) (hy : NarrowsAt y h) :
    NarrowsAt (if p then x else y) h := by
  split
  · exact hx
  · exact hy

theorem mapM {f : α → Action β} (hf : ∀ a h, NarrowsAt (f a) h) (l : List α) :
    NarrowsAt (l.mapM f) h := by
  induction l generalizing h with
  | nil => exact pure []
  | cons a l ih =>
    rw [List.mapM_cons]
    exact bind (hf a h) fun b _ _ => bind ih fun bs _ _ => pure (b :: bs)

end NarrowsAt

end Action

open Luuqad.Action

/-! ## The library -/

namespace Library

variable {h : Heap}

theorem narrows_toDouble (v : Value) : NarrowsAt (toDouble v) h := by
  unfold toDouble
  split
  · exact .pure _
  · exact .bind (.ofExcept _) fun _ _ _ => .double _

theorem narrows_number (c : Complaint) (v : Value) : NarrowsAt (number c v) h := by
  unfold number
  split
  · exact .pure _
  · exact .raise _

theorem narrows_integer (c : Complaint) (v : Value) : NarrowsAt (integer c v) h :=
  .bind (narrows_number c v) fun _ _ _ => .ofExcept _

theorem narrows_floor (v : Value) : NarrowsAt (floor v) h :=
  .bind (narrows_number _ v) fun _ _ _ => .bind (.ofExcept _) fun _ _ _ => .pure _

theorem narrows_ceiling (v : Value) : NarrowsAt (ceiling v) h :=
  .bind (narrows_number _ v) fun _ _ _ => .bind (.ofExcept _) fun _ _ _ => .pure _

theorem narrows_length (v : Value) : NarrowsAt (length v) h := by
  unfold length
  split
  · exact .bind (.items _) fun _ _ _ => .pure _
  · exact .pure _
  · exact .bind (.entries _) fun _ _ _ => .pure _
  · exact .raise _

theorem narrows_range (args : List Value) : NarrowsAt (range args) h := by
  have hlist (start stop step : Value) {h : Heap} : NarrowsAt (do
      let first ← integer .rangeNotNumbers start
      let last ← integer .rangeNotNumbers stop
      let stride ← integer .rangeNotNumbers step
      Action.newList (← Action.ofExcept (rangeOf first last stride)).toArray) h :=
    .bind (narrows_integer _ _) fun _ _ _ => .bind (narrows_integer _ _) fun _ _ _ =>
      .bind (narrows_integer _ _) fun _ _ _ => .bind (.ofExcept _) fun _ _ _ => .newList _
  unfold range
  split
  · exact .ite (.bind (.raise _) fun _ _ _ => hlist _ _ _) (hlist _ _ _)
  · exact .ite (.bind (.raise _) fun _ _ _ => hlist _ _ _) (hlist _ _ _)
  · exact .ite (.bind (.raise _) fun _ _ _ => hlist _ _ _) (hlist _ _ _)
  · exact .raise_bind

namespace Lists

theorem narrows_list (c : Complaint) (v : Value) : NarrowsAt (list c v) h := by
  unfold list
  split
  · exact .pure _
  · exact .raise _

theorem narrows_pop (lst : Value) : NarrowsAt (pop lst) h := by
  refine .bind (narrows_list _ lst) fun r h _ => .bind (.items r) fun items h' hitems => ?_
  cases hitems
  split
  · exact .raise _
  · refine .bind (.setItems ?_) fun _ _ _ => .pure _
    rw [Array.size_pop]
    exact Nat.sub_le _ _

theorem narrows_length (lst : Value) : NarrowsAt (length lst) h :=
  .bind (narrows_list _ lst) fun _ _ _ => .bind (.items _) fun _ _ _ => .pure _

theorem narrows_copy (lst : Value) : NarrowsAt (copy lst) h :=
  .bind (narrows_list _ lst) fun _ _ _ => .bind (.items _) fun _ _ _ => .newList _

theorem narrows_clear (lst : Value) : NarrowsAt (clear lst) h :=
  .bind (narrows_list _ lst) fun _ _ _ => .bind (.setItems (Nat.zero_le _)) fun _ _ _ => .pure _

theorem narrows_reverse (lst : Value) : NarrowsAt (reverse lst) h := by
  refine .bind (narrows_list _ lst) fun r h _ => .bind (.items r) fun items h' hitems => ?_
  cases hitems
  exact .bind (.setItems (Nat.le_of_eq Array.size_reverse)) fun _ _ _ => .pure _

theorem narrows_sort (lst : Value) : NarrowsAt (sort lst) h := by
  refine .bind (narrows_list _ lst) fun r h _ => ?_
  have hperm := Sorting.perm_sort (Relation.less.relate h) (h.items r).toList
  have hsize : (Sorting.sort (Relation.less.relate h) (h.items r).toList).1.toArray.size ≤
      (h.items r).size := by
    simpa using Nat.le_of_eq hperm.length_eq
  refine .get_bind (.bind (.setItems hsize) fun _ _ _ => ?_)
  split
  · exact .fail _
  · exact .pure _

end Lists

namespace Objects

theorem narrows_object (c : Complaint) (v : Value) : NarrowsAt (object c v) h := by
  unfold object
  split
  · exact .pure _
  · exact .raise _

theorem narrows_keys (obj : Value) : NarrowsAt (keys obj) h :=
  .bind (narrows_object _ obj) fun _ _ _ => .bind (.entries _) fun _ _ _ => .newList _

theorem narrows_copy (obj : Value) : NarrowsAt (copy obj) h :=
  .bind (narrows_object _ obj) fun _ _ _ => .bind (.entries _) fun _ _ _ => .newObject _

theorem narrows_clear (obj : Value) : NarrowsAt (clear obj) h :=
  .bind (narrows_object _ obj) fun _ _ _ => .bind (.setEntries _ _) fun _ _ _ => .pure _

theorem narrows_values (obj : Value) : NarrowsAt (values obj) h :=
  .bind (narrows_object _ obj) fun _ _ _ => .bind (.entries _) fun _ _ _ => .newList _

theorem narrows_pairs (obj : Value) : NarrowsAt (pairs obj) h :=
  .bind (narrows_object _ obj) fun _ _ _ => .bind (.entries _) fun _ _ _ =>
    .bind (.mapM (fun _ _ => .newList _) _) fun _ _ _ => .newList _

end Objects

namespace Texts

theorem narrows_text (c : Complaint) (v : Value) : NarrowsAt (text c v) h := by
  unfold text
  split
  · exact .pure _
  · exact .raise _

theorem narrows_upper (s : Value) : NarrowsAt (upper s) h :=
  .bind (narrows_text _ s) fun _ _ _ => .pure _

theorem narrows_lower (s : Value) : NarrowsAt (lower s) h :=
  .bind (narrows_text _ s) fun _ _ _ => .pure _

theorem narrows_strip (s : Value) : NarrowsAt (strip s) h :=
  .bind (narrows_text _ s) fun _ _ _ => .pure _

end Texts

end Library

/-! ## Runs -/

namespace Run

variable {α β : Type} {s : State}

/-- If the run has a result, no list has become longer. -/
def NarrowsAt (r : Run α) (s : State) : Prop := ∀ v t, r s = .ok v t → s.heap.Narrower t.heap

namespace NarrowsAt

theorem pure (a : α) : NarrowsAt (Pure.pure a) s := by
  intro v t hr
  cases hr
  exact .refl _

theorem bind {x : Run α} {f : α → Run β} (hx : NarrowsAt x s) (hf : ∀ v t, NarrowsAt (f v) t) :
    NarrowsAt (x >>= f) s := by
  intro w u hr
  cases hxs : x s with
  | ok v t =>
    rw [bind_ok hxs] at hr
    exact (hx v t hxs).trans (hf v t w u hr)
  | error e t =>
    rw [bind_error hxs] at hr
    cases hr

theorem throw (e : Interrupt) : NarrowsAt (MonadExcept.throw e : Run α) s := by
  intro v t hr
  cases hr

theorem throw_bind {e : Interrupt} {f : α → Run β} : NarrowsAt (MonadExcept.throw e >>= f) s := by
  intro v t hr
  cases hr

theorem act {a : Action α} (ha : a.NarrowsAt s.heap) : NarrowsAt (Run.act a) s := by
  intro v t hr
  unfold Run.act at hr
  cases hah : a s.heap with
  | ok w h =>
    simp only [hah] at hr
    cases hr
    exact ha _ _ hah
  | error f h =>
    simp only [hah] at hr
    cases hr

theorem step {g : State → State} (hg : (g s).heap = s.heap) :
    NarrowsAt (modify g : Run PUnit) s := by
  intro v t hr
  cases hr
  rw [hg]
  exact .refl _

theorem get_bind {f : State → Run β} (hf : NarrowsAt (f s) s) : NarrowsAt (get >>= f) s := hf

theorem ite {p : Prop} [Decidable p] {x y : Run α} (hx : NarrowsAt x s) (hy : NarrowsAt y s) :
    NarrowsAt (if p then x else y) s := by
  split
  · exact hx
  · exact hy

theorem draw (n : Nat) : NarrowsAt (Run.draw n) s := get_bind (bind (step rfl) fun _ _ => pure _)

theorem drawUnit : NarrowsAt Run.drawUnit s := get_bind (bind (step rfl) fun _ _ => pure _)

theorem readLine (prompt : String) : NarrowsAt (Run.readLine prompt) s := by
  refine bind (step rfl) fun _ t => get_bind ?_
  split
  · exact throw _
  · refine bind (step rfl) fun _ _ => ?_
    split
    · exact pure _
    · exact throw _

theorem chooseBetween (low high : Num) : NarrowsAt (Library.chooseBetween low high) s := by
  unfold Library.chooseBetween
  split
  · exact bind (draw _) fun _ _ => pure _
  · refine bind (act (.ofExcept _)) fun _ _ => bind drawUnit fun _ _ => bind (act (.ofExcept _))
      fun _ _ => ?_
    exact act (.bind (.ofExcept _) fun _ _ _ => .number _)

theorem choose (args : List Value) : NarrowsAt (Library.choose args) s := by
  unfold Library.choose
  split
  · exact bind drawUnit fun _ _ => pure _
  · refine get_bind (ite (bind (throw _) fun _ _ => ?_) ?_) <;>
      exact bind (draw _) fun _ _ => pure _
  · exact throw _
  · split
    · exact ite (bind (throw _) fun _ _ => chooseBetween _ _) (chooseBetween _ _)
    · exact throw _
  · exact throw _

end NarrowsAt

end Run

namespace Builtin

/-- A function that is given one argument makes no list longer: it fails if it needs more. -/
theorem narrows_callOne (f : Builtin) (v : Value) (s : State) : Run.NarrowsAt (f.callOne v) s := by
  have hbind : Run.NarrowsAt (f.bindArguments [v] []) s := by
    unfold bindArguments
    split
    · exact .pure _
    · exact .throw _
  have hfails {e : Failure} (h : f.bindArguments [v] [] = Run.fail e) :
      Run.NarrowsAt (f.callOne v) s := by
    unfold callOne
    rw [h]
    exact .throw_bind
  cases f with
  | print =>
    refine .bind hbind fun b t => .bind (.act (.reading _)) fun _ _ => .bind (.step rfl)
      fun _ _ => .pure _
  | readLine =>
    exact .bind hbind fun b t => .bind (.act (.reading _)) fun _ _ =>
      .bind (.readLine _) fun _ _ => .pure _
  | typeOf | toBool => exact .bind hbind fun b t => .pure _
  | toInteger => exact .bind hbind fun b t => .act (.ofExcept _)
  | toFloat => exact .bind hbind fun b t => .act (Library.narrows_toDouble _)
  | toText => exact .bind hbind fun b t => .bind (.act (.reading _)) fun _ _ => .pure _
  | makeList => exact .bind hbind fun b t => .act (.newList _)
  | floor => exact .bind hbind fun b t => .act (Library.narrows_floor _)
  | ceiling => exact .bind hbind fun b t => .act (Library.narrows_ceiling _)
  | length => exact .bind hbind fun b t => .act (Library.narrows_length _)
  | choose => exact .bind hbind fun b t => .choose _
  | range => exact .bind hbind fun b t => .act (Library.narrows_range _)
  | listPop => exact .bind hbind fun b t => .act (Library.Lists.narrows_pop _)
  | listLength => exact .bind hbind fun b t => .act (Library.Lists.narrows_length _)
  | listCopy => exact .bind hbind fun b t => .act (Library.Lists.narrows_copy _)
  | listClear => exact .bind hbind fun b t => .act (Library.Lists.narrows_clear _)
  | listReverse => exact .bind hbind fun b t => .act (Library.Lists.narrows_reverse _)
  | listSort => exact .bind hbind fun b t => .act (Library.Lists.narrows_sort _)
  | objectKeys => exact .bind hbind fun b t => .act (Library.Objects.narrows_keys _)
  | objectCopy => exact .bind hbind fun b t => .act (Library.Objects.narrows_copy _)
  | objectClear => exact .bind hbind fun b t => .act (Library.Objects.narrows_clear _)
  | objectValues => exact .bind hbind fun b t => .act (Library.Objects.narrows_values _)
  | objectEntries => exact .bind hbind fun b t => .act (Library.Objects.narrows_pairs _)
  | textUpper => exact .bind hbind fun b t => .act (Library.Texts.narrows_upper _)
  | textLower => exact .bind hbind fun b t => .act (Library.Texts.narrows_lower _)
  | textStrip => exact .bind hbind fun b t => .act (Library.Texts.narrows_strip _)
  | _ => exact hfails rfl

end Builtin

end Luuqad

import Luuqad.Library.Call
import Luuqad.Proofs.Heap.Cells
import Luuqad.Proofs.Objects.Keys

/-!
# How the heap evolves

No cell is ever given up, and no object ever gets two keys that are the same: what replaces the
entries of an object puts a value under a key or takes keys away, and what makes a new object puts
its values one after the other or takes the entries of others. `Heap.Evolves` says this of two
heaps, and here it is shown of every operator and every operation of the library, from the heap it
starts with to the one it ends with, whether it succeeds or fails.
-/

namespace Luuqad

/-! ## Heaps -/

/-- In no object two keys are the same. -/
def Heap.KeysDistinct (h : Heap) : Prop := ∀ r es, h.read r = some (.object es) → es.Distinct

/-- The cells of the first heap are still there in the second, and the keys of objects stay
distinct. -/
structure Heap.Evolves (h h' : Heap) : Prop where
  size : h.size ≤ h'.size
  distinct : h.KeysDistinct → h'.KeysDistinct

namespace Heap

variable {h h' h'' : Heap}

theorem keysDistinct_empty : ({} : Heap).KeysDistinct := by
  intro r es hr
  cases hr

theorem KeysDistinct.entries (hd : h.KeysDistinct) (r : Ref) : (h.entries r).Distinct := by
  unfold Heap.entries
  split
  · exact hd _ _ ‹_›
  · exact Entries.distinct_nil

theorem Evolves.refl (h : Heap) : h.Evolves h := ⟨Nat.le_refl _, id⟩

theorem Evolves.trans (hh' : h.Evolves h') (hh'' : h'.Evolves h'') : h.Evolves h'' :=
  ⟨Nat.le_trans hh'.size hh''.size, fun hd => hh''.distinct (hh'.distinct hd)⟩

theorem Evolves.of_cells (hcells : h'.cells = h.cells) : h.Evolves h' := by
  have hread (r : Ref) : h'.read r = h.read r := by rw [read, read, hcells]
  exact ⟨Nat.le_of_eq (by rw [Heap.size, Heap.size, hcells]),
    fun hd r es hr => hd r es (hread r ▸ hr)⟩

theorem evolves_double (h : Heap) (x : Float) : h.Evolves (h.double x).2 := by
  refine .of_cells ?_
  unfold Heap.double
  split <;> rfl

theorem evolves_withCell {c : Cell} (hc : ∀ es, c = .object es → h.KeysDistinct → es.Distinct) :
    h.Evolves (h.withCell c) := by
  refine ⟨by simp, fun hd r es hr => ?_⟩
  by_cases hnew : r = h.size
  · subst hnew
    rw [read_withCell_self] at hr
    exact hc es (Option.some.inj hr) hd
  · rw [read_withCell c hnew] at hr
    exact hd r es hr

theorem evolves_write (q : Ref) {c : Cell}
    (hc : ∀ es, c = .object es → h.KeysDistinct → es.Distinct) :
    h.Evolves (h.write q c) := by
  refine ⟨by simp, fun hd r es hr => ?_⟩
  by_cases hq : r = q
  · subst hq
    have hlt : r < h.size := by simpa using lt_size_of_read hr
    rw [read_write_self c hlt] at hr
    exact hc es (Option.some.inj hr) hd
  · rw [read_write_of_ne c hq] at hr
    exact hd r es hr

end Heap

/-! ## Operations on the heap -/

namespace Action

variable {α β : Type} {h : Heap}

/-- The heap with which an operation ends. -/
def after (a : Action α) (h : Heap) : Heap :=
  match a h with
  | .ok _ h' => h'
  | .error _ h' => h'

/-- From this heap the operation leads to one that the heap evolves into. -/
def EvolvesAt (a : Action α) (h : Heap) : Prop := h.Evolves (a.after h)

namespace EvolvesAt

theorem pure (a : α) : EvolvesAt (Pure.pure a) h := .refl h

theorem raise (c : Cause) : EvolvesAt (Action.raise c : Action α) h := .refl h

theorem fail (f : Failure) : EvolvesAt (Action.fail f : Action α) h := .refl h

theorem throw_bind {e : Fault} {f : α → Action β} : EvolvesAt (throw e >>= f) h := .refl h

theorem bind {x : Action α} {f : α → Action β} (hx : EvolvesAt x h)
    (hf : ∀ v h', x h = .ok v h' → EvolvesAt (f v) h') : EvolvesAt (x >>= f) h := by
  cases hxh : x h with
  | ok v h' =>
    have hfirst : h.Evolves h' := by simpa only [EvolvesAt, after, hxh] using hx
    unfold EvolvesAt after
    rw [bind_ok hxh]
    exact hfirst.trans (hf v h' hxh)
  | error e h' =>
    unfold EvolvesAt after
    rw [bind_error hxh]
    simpa only [EvolvesAt, after, hxh] using hx

theorem ofExcept (x : Except Failure α) : EvolvesAt (Action.ofExcept x) h := by
  cases x with
  | ok a => exact pure a
  | error e => exact fail e

theorem reading (f : Heap → Except Failure α) : EvolvesAt (Action.reading f) h := ofExcept (f h)

theorem get_bind {f : Heap → Action β} (hf : EvolvesAt (f h) h) : EvolvesAt (get >>= f) h := hf

theorem items (r : Ref) : EvolvesAt (Action.items r) h := .refl h

theorem entries (r : Ref) : EvolvesAt (Action.entries r) h := .refl h

theorem entries_bind {r : Ref} {f : Entries → Action β} (hf : EvolvesAt (f (h.entries r)) h) :
    EvolvesAt (Action.entries r >>= f) h := hf

theorem alloc {c : Cell} (hc : ∀ es, c = .object es → h.KeysDistinct → es.Distinct) :
    EvolvesAt (Action.alloc c) h :=
  Heap.evolves_withCell hc

theorem newList (items : Array Value) : EvolvesAt (Action.newList items) h :=
  Heap.evolves_withCell fun es hes => by cases hes

theorem newObject {es : Entries} (hes : h.KeysDistinct → es.Distinct) :
    EvolvesAt (Action.newObject es) h := by
  refine Heap.evolves_withCell fun es' heq => ?_
  cases heq
  exact hes

theorem double (x : Float) : EvolvesAt (Action.double x) h := h.evolves_double x

theorem number (n : Num) : EvolvesAt (Action.number n) h := by
  cases n with
  | int i => exact .refl h
  | float x => exact h.evolves_double x

theorem setItems (r : Ref) (items : Array Value) : EvolvesAt (Action.setItems r items) h :=
  Heap.evolves_write r fun es hes => by cases hes

theorem setEntries (r : Ref) {es : Entries} (hes : h.KeysDistinct → es.Distinct) :
    EvolvesAt (Action.setEntries r es) h := by
  refine Heap.evolves_write r fun es' heq => ?_
  cases heq
  exact hes

theorem ite {p : Prop} [Decidable p] {x y : Action α} (hx : EvolvesAt x h) (hy : EvolvesAt y h) :
    EvolvesAt (if p then x else y) h := by
  split
  · exact hx
  · exact hy

theorem mapM {f : α → Action β} (hf : ∀ a h, EvolvesAt (f a) h) (l : List α) :
    EvolvesAt (l.mapM f) h := by
  induction l generalizing h with
  | nil => exact pure []
  | cons a l ih =>
    rw [List.mapM_cons]
    exact bind (hf a h) fun b _ _ => bind ih fun bs _ _ => pure (b :: bs)

end EvolvesAt

end Action

open Luuqad.Action

/-! ## Operators -/

section Operators

variable {h : Heap}

namespace Operator

theorem evolves_arithmetic (symbol : String) (f : Num → Num → Except Failure Num)
    (left right : Value) :
    EvolvesAt (arithmetic symbol f left right) h := by
  unfold arithmetic
  split
  · exact .bind (.ofExcept _) fun n _ _ => .number n
  · exact .fail _

theorem evolves_sum (left right : Value) : EvolvesAt (sum left right) h := by
  unfold sum
  split
  · exact .bind (.reading _) fun _ _ _ => .bind (.reading _) fun _ _ _ => .pure _
  · exact .bind (.reading _) fun _ _ _ => .bind (.reading _) fun _ _ _ => .pure _
  · exact .bind (.items _) fun _ _ _ => .bind (.items _) fun _ _ _ => .newList _
  · exact .pure _
  · exact .fail _
  · exact .fail _
  · exact evolves_arithmetic _ _ _ _

theorem evolves_repeatText (s : String) (count : Value) : EvolvesAt (repeatText s count) h :=
  .bind (.ofExcept _) fun _ _ _ => .pure _

theorem evolves_repeatList (r : Ref) (count : Value) : EvolvesAt (repeatList r count) h :=
  .bind (.items _) fun _ _ _ => .bind (.ofExcept _) fun _ _ _ => .newList _

theorem evolves_repeatTuple (t : Tuple) (count : Value) : EvolvesAt (repeatTuple t count) h :=
  .bind (.ofExcept _) fun _ _ _ => .pure _

theorem evolves_product (left right : Value) : EvolvesAt (product left right) h := by
  unfold product
  split
  · exact evolves_repeatText _ _
  · exact evolves_repeatList _ _
  · exact evolves_repeatTuple _ _
  · exact evolves_repeatText _ _
  · exact evolves_repeatList _ _
  · exact evolves_repeatTuple _ _
  · exact evolves_arithmetic _ _ _ _

theorem evolves_quotient (left right : Value) : EvolvesAt (quotient left right) h :=
  .ite .throw_bind (evolves_arithmetic _ _ _ _)

theorem evolves_rest (left right : Value) : EvolvesAt (rest left right) h := by
  refine .ite .throw_bind ?_
  split
  · exact .bind (.reading _) fun _ _ _ => .pure _
  · exact evolves_arithmetic _ _ _ _

theorem evolves_apply (op : Operator) (left right : Value) : EvolvesAt (op.apply left right) h := by
  cases op with
  | add => exact evolves_sum _ _
  | subtract => exact evolves_arithmetic _ _ _ _
  | multiply => exact evolves_product _ _
  | divide => exact evolves_quotient _ _
  | remainder => exact evolves_rest _ _
  | equal | notEqual | order r => exact .bind (.reading _) fun _ _ _ => .pure _
  | and | or => exact .get_bind (.get_bind (.pure _))

end Operator

theorem evolves_applySymbol (symbol left right : Value) :
    EvolvesAt (applySymbol symbol left right) h := by
  unfold applySymbol
  dsimp only
  split
  · exact Operator.evolves_apply _ _ _
  · exact .bind (.reading _) fun _ _ _ => .raise _

end Operators

/-! ## The library -/

namespace Library

variable {h : Heap}

theorem evolves_toDouble (v : Value) : EvolvesAt (toDouble v) h := by
  unfold toDouble
  split
  · exact .pure _
  · exact .bind (.ofExcept _) fun _ _ _ => .double _

theorem evolves_number (c : Complaint) (v : Value) : EvolvesAt (number c v) h := by
  unfold number
  split
  · exact .pure _
  · exact .raise _

theorem evolves_integer (c : Complaint) (v : Value) : EvolvesAt (integer c v) h :=
  .bind (evolves_number c v) fun _ _ _ => .ofExcept _

theorem evolves_floor (v : Value) : EvolvesAt (floor v) h :=
  .bind (evolves_number _ v) fun _ _ _ => .bind (.ofExcept _) fun _ _ _ => .pure _

theorem evolves_ceiling (v : Value) : EvolvesAt (ceiling v) h :=
  .bind (evolves_number _ v) fun _ _ _ => .bind (.ofExcept _) fun _ _ _ => .pure _

theorem evolves_length (v : Value) : EvolvesAt (length v) h := by
  unfold length
  split
  · exact .bind (.items _) fun _ _ _ => .pure _
  · exact .pure _
  · exact .bind (.entries _) fun _ _ _ => .pure _
  · exact .raise _

theorem evolves_range (args : List Value) : EvolvesAt (range args) h := by
  have hlist (start stop step : Value) : EvolvesAt (do
      let first ← integer .rangeNotNumbers start
      let last ← integer .rangeNotNumbers stop
      let stride ← integer .rangeNotNumbers step
      Action.newList (← Action.ofExcept (rangeOf first last stride)).toArray) h :=
    .bind (evolves_integer _ _) fun _ _ _ => .bind (evolves_integer _ _) fun _ _ _ =>
      .bind (evolves_integer _ _) fun _ _ _ => .bind (.ofExcept _) fun _ _ _ => .newList _
  unfold range
  split
  · exact .ite .throw_bind (hlist _ _ _)
  · exact .ite .throw_bind (hlist _ _ _)
  · exact .ite .throw_bind (hlist _ _ _)
  · exact .raise _

namespace Lists

theorem evolves_list (c : Complaint) (v : Value) : EvolvesAt (list c v) h := by
  unfold list
  split
  · exact .pure _
  · exact .raise _

theorem evolves_push (lst item : Value) : EvolvesAt (push lst item) h :=
  .bind (evolves_list _ lst) fun _ _ _ => .bind (.items _) fun _ _ _ => .bind (.setItems _ _)
    fun _ _ _ => .pure _

theorem evolves_pop (lst : Value) : EvolvesAt (pop lst) h := by
  refine .bind (evolves_list _ lst) fun _ _ _ => .bind (.items _) fun items _ _ => ?_
  split
  · exact .raise _
  · exact .bind (.setItems _ _) fun _ _ _ => .pure _

theorem evolves_length (lst : Value) : EvolvesAt (length lst) h :=
  .bind (evolves_list _ lst) fun _ _ _ => .bind (.items _) fun _ _ _ => .pure _

theorem evolves_concat (first second : Value) : EvolvesAt (concat first second) h := by
  refine .bind (evolves_list _ first) fun _ _ _ => ?_
  split
  · exact .bind (.items _) fun _ _ _ => .bind (.items _) fun _ _ _ => .newList _
  · exact evolves_push _ _

theorem evolves_contains (lst item : Value) : EvolvesAt (contains lst item) h :=
  .bind (evolves_list _ lst) fun _ _ _ => .bind (.items _) fun _ _ _ => .bind (.reading _)
    fun _ _ _ => .pure _

theorem evolves_copy (lst : Value) : EvolvesAt (copy lst) h :=
  .bind (evolves_list _ lst) fun _ _ _ => .bind (.items _) fun _ _ _ => .newList _

theorem evolves_clear (lst : Value) : EvolvesAt (clear lst) h :=
  .bind (evolves_list _ lst) fun _ _ _ => .bind (.setItems _ _) fun _ _ _ => .pure _

theorem evolves_place (items : Array Value) (index : Value) : EvolvesAt (place items index) h := by
  have hrange (i : Int) {h : Heap} : EvolvesAt (do
      if 0 ≤ i ∧ i < items.size then return i.toNat
      let _ ← Action.ofExcept (Number.writeInt i)
      Action.raise (.badValue (.indexOutOfRange i)) : Action Nat) h :=
    .ite (.pure _) (.bind (.ofExcept _) fun _ _ _ => .raise _)
  unfold place
  split
  · exact .bind (.ofExcept _) fun i _ _ => hrange i
  · exact .bind (evolves_integer _ _) fun i _ _ => hrange i

theorem evolves_itemAt (lst index : Value) : EvolvesAt (itemAt lst index) h :=
  .bind (evolves_list _ lst) fun _ _ _ => .bind (.items _) fun _ _ _ => .bind (evolves_place _ _)
    fun _ _ _ => .pure _

theorem evolves_setItem (lst index value : Value) : EvolvesAt (setItem lst index value) h :=
  .bind (evolves_list _ lst) fun _ _ _ => .bind (.items _) fun _ _ _ => .bind (evolves_place _ _)
    fun _ _ _ => .bind (.setItems _ _) fun _ _ _ => .pure _

theorem evolves_reverse (lst : Value) : EvolvesAt (reverse lst) h :=
  .bind (evolves_list _ lst) fun _ _ _ => .bind (.items _) fun _ _ _ => .bind (.setItems _ _)
    fun _ _ _ => .pure _

theorem evolves_sort (lst : Value) : EvolvesAt (sort lst) h := by
  refine .bind (evolves_list _ lst) fun _ _ _ => .get_bind (.bind (.setItems _ _) fun _ _ _ => ?_)
  split
  · exact .fail _
  · exact .pure _

theorem evolves_slice (lst start stop : Value) : EvolvesAt (slice lst start stop) h := by
  refine .bind (evolves_list _ lst) fun _ _ _ => .bind (.items _) fun items _ _ =>
    .ite .throw_bind ?_
  exact .bind (evolves_integer _ _) fun _ _ _ => .bind (evolves_integer _ _) fun _ _ _ => .newList _

theorem evolves_find (lst item : Value) : EvolvesAt (find lst item) h := by
  refine .bind (evolves_list _ lst) fun _ _ _ => .bind (.items _) fun _ _ _ => .bind (.reading _)
    fun _ _ _ => ?_
  split
  · exact .pure _
  · exact .pure _

end Lists

namespace Objects

theorem evolves_object (c : Complaint) (v : Value) : EvolvesAt (object c v) h := by
  unfold object
  split
  · exact .pure _
  · exact .raise _

theorem evolves_valueAt (obj key : Value) : EvolvesAt (valueAt obj key) h :=
  .bind (evolves_object _ obj) fun _ _ _ => .bind (.entries _) fun _ _ _ => .bind (.ofExcept _)
    fun _ _ _ => .pure _

theorem evolves_setValue (obj key value : Value) : EvolvesAt (setValue obj key value) h :=
  .bind (evolves_object _ obj) fun r _ _ => .bind (.ofExcept _) fun _ _ _ =>
    .entries_bind (.bind (.setEntries r fun hd => Entries.distinct_put _ (hd.entries r))
      fun _ _ _ => .pure _)

theorem evolves_keys (obj : Value) : EvolvesAt (keys obj) h :=
  .bind (evolves_object _ obj) fun _ _ _ => .bind (.entries _) fun _ _ _ => .newList _

theorem evolves_has (obj key : Value) : EvolvesAt (has obj key) h :=
  .bind (evolves_object _ obj) fun _ _ _ => .bind (.entries _) fun _ _ _ => .bind (.ofExcept _)
    fun _ _ _ => .pure _

theorem evolves_remove (obj key : Value) : EvolvesAt (remove obj key) h :=
  .bind (evolves_object _ obj) fun r _ _ => .bind (.ofExcept _) fun _ _ _ =>
    .entries_bind (.bind (.setEntries r fun hd => Entries.distinct_remove _ (hd.entries r))
      fun _ _ _ => .pure _)

theorem evolves_merge (first second : Value) : EvolvesAt (merge first second) h :=
  .bind (evolves_object _ first) fun r _ _ => .bind (evolves_object _ second) fun _ _ _ =>
    .entries_bind (.entries_bind (.newObject fun hd => Entries.distinct_putAll _ (hd.entries r)))

theorem evolves_copy (obj : Value) : EvolvesAt (copy obj) h :=
  .bind (evolves_object _ obj) fun r _ _ => .entries_bind (.newObject fun hd => hd.entries r)

theorem evolves_clear (obj : Value) : EvolvesAt (clear obj) h :=
  .bind (evolves_object _ obj) fun r _ _ => .bind (.setEntries r fun _ => Entries.distinct_nil)
    fun _ _ _ => .pure _

theorem evolves_values (obj : Value) : EvolvesAt (values obj) h :=
  .bind (evolves_object _ obj) fun _ _ _ => .bind (.entries _) fun _ _ _ => .newList _

theorem evolves_pairs (obj : Value) : EvolvesAt (pairs obj) h :=
  .bind (evolves_object _ obj) fun _ _ _ => .bind (.entries _) fun _ _ _ =>
    .bind (.mapM (fun _ _ => .newList _) _) fun _ _ _ => .newList _

end Objects

namespace Texts

theorem evolves_text (c : Complaint) (v : Value) : EvolvesAt (text c v) h := by
  unfold text
  split
  · exact .pure _
  · exact .raise _

theorem evolves_split (s delimiter : Value) : EvolvesAt (split s delimiter) h :=
  .bind (evolves_text _ s) fun _ _ _ => .bind (evolves_text _ delimiter) fun _ _ _ =>
    .ite .throw_bind (.newList _)

theorem evolves_contains (s part : Value) : EvolvesAt (contains s part) h :=
  .bind (evolves_text _ s) fun _ _ _ => .bind (evolves_text _ part) fun _ _ _ => .pure _

theorem evolves_endsWith (s ending : Value) : EvolvesAt (endsWith s ending) h :=
  .bind (evolves_text _ s) fun _ _ _ => .bind (evolves_text _ ending) fun _ _ _ => .pure _

theorem evolves_startsWith (s beginning : Value) : EvolvesAt (startsWith s beginning) h :=
  .bind (evolves_text _ s) fun _ _ _ => .bind (evolves_text _ beginning) fun _ _ _ => .pure _

theorem evolves_replacing (how : List Char → List Char → List Char → List Char)
    (s target replacement : Value) :
    EvolvesAt (replacing how s target replacement) h :=
  .bind (evolves_text _ s) fun _ _ _ => .bind (evolves_text _ target) fun _ _ _ =>
    .bind (evolves_text _ replacement) fun _ _ _ => .pure _

theorem evolves_join (separator items : Value) : EvolvesAt (join separator items) h :=
  .bind (evolves_text _ separator) fun _ _ _ => .bind (Lists.evolves_list _ items) fun _ _ _ =>
    .bind (.items _) fun _ _ _ => .bind (.mapM (fun v _ => evolves_text _ v) _) fun _ _ _ => .pure _

theorem evolves_slice (s start stop : Value) : EvolvesAt (slice s start stop) h := by
  refine .bind (evolves_text _ s) fun _ _ _ => .bind (evolves_integer _ start) fun _ _ _ => ?_
  split
  · exact .pure _
  · exact .bind (evolves_integer _ _) fun _ _ _ => .pure _

theorem evolves_upper (s : Value) : EvolvesAt (upper s) h :=
  .bind (evolves_text _ s) fun _ _ _ => .pure _

theorem evolves_lower (s : Value) : EvolvesAt (lower s) h :=
  .bind (evolves_text _ s) fun _ _ _ => .pure _

theorem evolves_strip (s : Value) : EvolvesAt (strip s) h :=
  .bind (evolves_text _ s) fun _ _ _ => .pure _

theorem evolves_find (s part : Value) : EvolvesAt (find s part) h :=
  .bind (evolves_text _ s) fun _ _ _ => .bind (evolves_text _ part) fun _ _ _ => .pure _

end Texts

end Library

end Luuqad

import Luuqad.Library.Call

/-!
# Faults of operations on the heap

Three causes say that a statement stands where it cannot: one that leaves a loop or a round outside
of any loop, and one that returns outside of any function. An operation is plain if it never fails
for one of these causes. All operations of the library and all operators are plain.
-/

namespace Luuqad

/-- Whether the cause is a statement that stands outside of the loop or function it would leave. -/
def Cause.isMisplaced : Cause → Bool
  | breakOutsideLoop | continueOutsideLoop | returnOutsideFunction => true
  | _ => false

/-- Whether a fault has such a cause. -/
def Fault.isMisplaced : Fault → Bool
  | error d => d.cause.isMisplaced
  | failure _ => false

namespace Action

variable {α β : Type}

/-- The operation never fails because of a misplaced statement. -/
def Plain (a : Action α) : Prop :=
  ∀ h f h', a h = .error f h' → f.isMisplaced = false

namespace Plain

theorem pure (a : α) : Plain (Pure.pure a : Action α) := by
  intro h f h' hr
  cases hr

theorem bind {x : Action α} {f : α → Action β} (hx : Plain x) (hf : ∀ a, Plain (f a)) :
    Plain (x >>= f) := by
  intro h e h' hr
  change EStateM.bind x f h = _ at hr
  unfold EStateM.bind at hr
  cases hxh : x h with
  | ok a h₁ =>
    rw [hxh] at hr
    exact hf a h₁ e h' hr
  | error e₁ h₁ =>
    rw [hxh] at hr
    cases hr
    exact hx h e h' hxh

theorem raise {c : Cause} (hc : c.isMisplaced = false) : Plain (Action.raise c : Action α) := by
  intro h f h' hr
  cases hr
  exact hc

theorem fail (e : Failure) : Plain (Action.fail e : Action α) := by
  intro h f h' hr
  cases hr
  rfl

theorem ofExcept (x : Except Failure α) : Plain (Action.ofExcept x) := by
  cases x with
  | ok a => exact pure a
  | error e => exact fail e

theorem get : Plain (MonadState.get : Action Heap) := by
  intro h f h' hr
  cases hr

theorem set (h : Heap) : Plain (MonadStateOf.set h : Action PUnit) := by
  intro h₁ f h' hr
  cases hr

theorem modified (g : Heap → Heap) : Plain (modify g : Action PUnit) := by
  intro h f h' hr
  cases hr

theorem reading (f : Heap → Except Failure α) : Plain (Action.reading f) :=
  bind get fun h => ofExcept (f h)

theorem ite {p : Prop} [Decidable p] {x y : Action α} (hx : Plain x) (hy : Plain y) :
    Plain (if p then x else y) := by
  split
  · exact hx
  · exact hy

theorem mapM {f : α → Action β} (hf : ∀ a, Plain (f a)) (l : List α) : Plain (l.mapM f) := by
  induction l with
  | nil => exact pure []
  | cons a l ih =>
    rw [List.mapM_cons]
    exact bind (hf a) fun b => bind ih fun bs => pure (b :: bs)

theorem alloc (c : Cell) : Plain (Action.alloc c) :=
  bind get fun _ => bind (set _) fun _ => pure _

theorem double (x : Float) : Plain (Action.double x) :=
  bind get fun _ => bind (set _) fun _ => pure _

theorem number (n : Num) : Plain (Action.number n) :=
  bind get fun _ => bind (set _) fun _ => pure _

theorem newList (items : Array Value) : Plain (Action.newList items) :=
  bind (alloc _) fun _ => pure _

theorem newObject (entries : Entries) : Plain (Action.newObject entries) :=
  bind (alloc _) fun _ => pure _

theorem items (r : Ref) : Plain (Action.items r) := bind get fun _ => pure _

theorem entries (r : Ref) : Plain (Action.entries r) := bind get fun _ => pure _

theorem setItems (r : Ref) (items : Array Value) : Plain (Action.setItems r items) := modified _

theorem setEntries (r : Ref) (entries : Entries) : Plain (Action.setEntries r entries) :=
  modified _

end Plain

end Action

open Luuqad.Action

/-! ## Operators -/

namespace Operator

theorem plain_arithmetic (symbol : String) (f : Num → Num → Except Failure Num)
    (left right : Value) : Plain (arithmetic symbol f left right) := by
  unfold arithmetic
  split
  · exact (Plain.ofExcept _).bind fun n => .number n
  · exact .fail _

theorem plain_sum (left right : Value) : Plain (sum left right) := by
  unfold sum
  split
  · exact (Plain.reading _).bind fun _ => (Plain.reading _).bind fun _ => .pure _
  · exact (Plain.reading _).bind fun _ => (Plain.reading _).bind fun _ => .pure _
  · exact (Plain.items _).bind fun _ => (Plain.items _).bind fun _ => .newList _
  · exact .pure _
  · exact .fail _
  · exact .fail _
  · exact plain_arithmetic _ _ _ _

theorem plain_repeatText (s : String) (count : Value) : Plain (repeatText s count) :=
  (Plain.ofExcept _).bind fun _ => .pure _

theorem plain_repeatList (r : Ref) (count : Value) : Plain (repeatList r count) :=
  (Plain.items _).bind fun _ => (Plain.ofExcept _).bind fun _ => .newList _

theorem plain_repeatTuple (t : Tuple) (count : Value) : Plain (repeatTuple t count) :=
  (Plain.ofExcept _).bind fun _ => .pure _

theorem plain_product (left right : Value) : Plain (product left right) := by
  unfold product
  split
  · exact plain_repeatText _ _
  · exact plain_repeatList _ _
  · exact plain_repeatTuple _ _
  · exact plain_repeatText _ _
  · exact plain_repeatList _ _
  · exact plain_repeatTuple _ _
  · exact plain_arithmetic _ _ _ _

theorem plain_quotient (left right : Value) : Plain (quotient left right) := by
  unfold quotient
  split
  · exact (Plain.raise rfl).bind fun _ => plain_arithmetic _ _ _ _
  · exact plain_arithmetic _ _ _ _

theorem plain_rest (left right : Value) : Plain (rest left right) := by
  simp only [rest]
  split
  · refine .bind (.raise rfl) fun _ => ?_
    split
    · exact (Plain.reading _).bind fun _ => .pure _
    · exact plain_arithmetic _ _ _ _
  · split
    · exact (Plain.reading _).bind fun _ => .pure _
    · exact plain_arithmetic _ _ _ _

theorem plain_apply (op : Operator) (left right : Value) : Plain (op.apply left right) := by
  cases op with
  | add => exact plain_sum _ _
  | subtract => exact plain_arithmetic _ _ _ _
  | multiply => exact plain_product _ _
  | divide => exact plain_quotient _ _
  | remainder => exact plain_rest _ _
  | equal | notEqual | order r => exact (Plain.reading _).bind fun _ => .pure _
  | and | or => exact Plain.get.bind fun _ => Plain.get.bind fun _ => .pure _

end Operator

theorem plain_applySymbol (symbol left right : Value) :
    Plain (applySymbol symbol left right) := by
  have hunknown : Plain (do Action.raise (.unknownOperator (← Action.text symbol)) :
      Action Value) := (Plain.reading _).bind fun _ => .raise rfl
  unfold applySymbol
  split
  · dsimp only
    split
    · exact Operator.plain_apply _ _ _
    · exact hunknown
  · exact hunknown

/-! ## Conversions and numbers -/

namespace Library

theorem plain_toDouble (v : Value) : Plain (toDouble v) := by
  unfold toDouble
  split
  · exact .pure _
  · exact (Plain.ofExcept _).bind fun _ => .double _

theorem plain_number (c : Complaint) (v : Value) : Plain (number c v) := by
  unfold number
  split
  · exact .pure _
  · exact .raise rfl

theorem plain_integer (c : Complaint) (v : Value) : Plain (integer c v) :=
  (plain_number c v).bind fun _ => .ofExcept _

theorem plain_floor (v : Value) : Plain (floor v) :=
  (plain_number _ v).bind fun _ => (Plain.ofExcept _).bind fun _ => .pure _

theorem plain_ceiling (v : Value) : Plain (ceiling v) :=
  (plain_number _ v).bind fun _ => (Plain.ofExcept _).bind fun _ => .pure _

theorem plain_length (v : Value) : Plain (length v) := by
  unfold length
  split
  · exact (Plain.items _).bind fun _ => .pure _
  · exact .pure _
  · exact (Plain.entries _).bind fun _ => .pure _
  · exact .raise rfl

theorem plain_range (args : List Value) : Plain (range args) := by
  have hnumbers (start stop step : Value) : Plain (do
      if !(start.isNumber && stop.isNumber && step.isNumber) then
        Action.raise (.complaint .rangeNotNumbers)
      let first ← integer .rangeNotNumbers start
      let last ← integer .rangeNotNumbers stop
      let stride ← integer .rangeNotNumbers step
      Action.newList (← Action.ofExcept (rangeOf first last stride)).toArray) := by
    have hlist : Plain (do
        let first ← integer .rangeNotNumbers start
        let last ← integer .rangeNotNumbers stop
        let stride ← integer .rangeNotNumbers step
        Action.newList (← Action.ofExcept (rangeOf first last stride)).toArray) :=
      (plain_integer _ _).bind fun _ => (plain_integer _ _).bind fun _ =>
        (plain_integer _ _).bind fun _ => (Plain.ofExcept _).bind fun _ => .newList _
    exact .ite (.bind (.raise rfl) fun _ => hlist) hlist
  unfold range
  split
  · exact hnumbers _ _ _
  · exact hnumbers _ _ _
  · exact hnumbers _ _ _
  · exact .bind (.raise rfl) fun _ => hnumbers _ _ _

/-! ## Lists, objects and texts -/

namespace Lists

theorem plain_list (c : Complaint) (v : Value) : Plain (list c v) := by
  unfold list
  split
  · exact .pure _
  · exact .raise rfl

theorem plain_push (lst item : Value) : Plain (push lst item) :=
  (plain_list _ lst).bind fun _ => (Plain.items _).bind fun _ =>
    (Plain.setItems _ _).bind fun _ => .pure _

theorem plain_pop (lst : Value) : Plain (pop lst) := by
  refine .bind (plain_list _ lst) fun _ => .bind (.items _) fun items => ?_
  split
  · exact .raise rfl
  · exact (Plain.setItems _ _).bind fun _ => .pure _

theorem plain_length (lst : Value) : Plain (length lst) :=
  (plain_list _ lst).bind fun _ => (Plain.items _).bind fun _ => .pure _

theorem plain_concat (first second : Value) : Plain (concat first second) := by
  refine .bind (plain_list _ first) fun _ => ?_
  split
  · exact (Plain.items _).bind fun _ => (Plain.items _).bind fun _ => .newList _
  · exact plain_push _ _

theorem plain_contains (lst item : Value) : Plain (contains lst item) :=
  (plain_list _ lst).bind fun _ => (Plain.items _).bind fun _ =>
    (Plain.reading _).bind fun _ => .pure _

theorem plain_copy (lst : Value) : Plain (copy lst) :=
  (plain_list _ lst).bind fun _ => (Plain.items _).bind fun _ => .newList _

theorem plain_clear (lst : Value) : Plain (clear lst) :=
  (plain_list _ lst).bind fun _ => (Plain.setItems _ _).bind fun _ => .pure _

theorem plain_place (items : Array Value) (index : Value) : Plain (place items index) := by
  have hrange (i : Int) : Plain (do
      if 0 ≤ i ∧ i < items.size then return i.toNat
      let _ ← Action.ofExcept (Number.writeInt i)
      Action.raise (.badValue (.indexOutOfRange i)) : Action Nat) :=
    .ite (.pure _) ((Plain.ofExcept _).bind fun _ => .raise rfl)
  unfold place
  split
  · exact (Plain.ofExcept _).bind hrange
  · exact (plain_integer _ _).bind hrange

theorem plain_itemAt (lst index : Value) : Plain (itemAt lst index) :=
  (plain_list _ lst).bind fun _ => (Plain.items _).bind fun _ =>
    (plain_place _ _).bind fun _ => .pure _

theorem plain_setItem (lst index value : Value) : Plain (setItem lst index value) :=
  (plain_list _ lst).bind fun _ => (Plain.items _).bind fun _ =>
    (plain_place _ _).bind fun _ => (Plain.setItems _ _).bind fun _ => .pure _

theorem plain_reverse (lst : Value) : Plain (reverse lst) :=
  (plain_list _ lst).bind fun _ => (Plain.items _).bind fun _ =>
    (Plain.setItems _ _).bind fun _ => .pure _

theorem plain_sort (lst : Value) : Plain (sort lst) := by
  refine .bind (plain_list _ lst) fun _ => .bind .get fun _ => .bind (.setItems _ _) fun _ => ?_
  split
  · exact .fail _
  · exact .pure _

theorem plain_slice (lst start stop : Value) : Plain (slice lst start stop) := by
  refine .bind (plain_list _ lst) fun _ => .bind (.items _) fun items => ?_
  have hlist : Plain (do
      let first ← integer .boundsNotNumbers start
      let last ← integer .boundsNotNumbers stop
      Action.newList (Library.slice items.toList first last).toArray) :=
    (plain_integer _ _).bind fun _ => (plain_integer _ _).bind fun _ => .newList _
  exact .ite (.bind (.raise rfl) fun _ => hlist) hlist

theorem plain_find (lst item : Value) : Plain (find lst item) := by
  refine .bind (plain_list _ lst) fun _ => .bind (.items _) fun _ => .bind (.reading _) fun _ => ?_
  split
  · exact .pure _
  · exact .pure _

end Lists

namespace Objects

theorem plain_object (c : Complaint) (v : Value) : Plain (object c v) := by
  unfold object
  split
  · exact .pure _
  · exact .raise rfl

theorem plain_valueAt (obj key : Value) : Plain (valueAt obj key) :=
  (plain_object _ obj).bind fun _ => (Plain.entries _).bind fun _ =>
    (Plain.ofExcept _).bind fun _ => .pure _

theorem plain_setValue (obj key value : Value) : Plain (setValue obj key value) :=
  (plain_object _ obj).bind fun _ => (Plain.ofExcept _).bind fun _ =>
    (Plain.entries _).bind fun _ => (Plain.setEntries _ _).bind fun _ => .pure _

theorem plain_keys (obj : Value) : Plain (keys obj) :=
  (plain_object _ obj).bind fun _ => (Plain.entries _).bind fun _ => .newList _

theorem plain_has (obj key : Value) : Plain (has obj key) :=
  (plain_object _ obj).bind fun _ => (Plain.entries _).bind fun _ =>
    (Plain.ofExcept _).bind fun _ => .pure _

theorem plain_remove (obj key : Value) : Plain (remove obj key) :=
  (plain_object _ obj).bind fun _ => (Plain.ofExcept _).bind fun _ =>
    (Plain.entries _).bind fun _ => (Plain.setEntries _ _).bind fun _ => .pure _

theorem plain_merge (first second : Value) : Plain (merge first second) :=
  (plain_object _ first).bind fun _ => (plain_object _ second).bind fun _ =>
    (Plain.entries _).bind fun _ => (Plain.entries _).bind fun _ => .newObject _

theorem plain_copy (obj : Value) : Plain (copy obj) :=
  (plain_object _ obj).bind fun _ => (Plain.entries _).bind fun _ => .newObject _

theorem plain_clear (obj : Value) : Plain (clear obj) :=
  (plain_object _ obj).bind fun _ => (Plain.setEntries _ _).bind fun _ => .pure _

theorem plain_values (obj : Value) : Plain (values obj) :=
  (plain_object _ obj).bind fun _ => (Plain.entries _).bind fun _ => .newList _

theorem plain_pairs (obj : Value) : Plain (pairs obj) :=
  (plain_object _ obj).bind fun _ => (Plain.entries _).bind fun _ =>
    (Plain.mapM (fun _ => .newList _) _).bind fun _ => .newList _

end Objects

namespace Texts

theorem plain_text (c : Complaint) (v : Value) : Plain (text c v) := by
  unfold text
  split
  · exact .pure _
  · exact .raise rfl

theorem plain_split (s delimiter : Value) : Plain (split s delimiter) := by
  refine .bind (plain_text _ s) fun _ => .bind (plain_text _ delimiter) fun _ => ?_
  exact .ite (.bind (.fail _) fun _ => .newList _) (.newList _)

theorem plain_contains (s part : Value) : Plain (contains s part) :=
  (plain_text _ s).bind fun _ => (plain_text _ part).bind fun _ => .pure _

theorem plain_endsWith (s ending : Value) : Plain (endsWith s ending) :=
  (plain_text _ s).bind fun _ => (plain_text _ ending).bind fun _ => .pure _

theorem plain_startsWith (s beginning : Value) : Plain (startsWith s beginning) :=
  (plain_text _ s).bind fun _ => (plain_text _ beginning).bind fun _ => .pure _

theorem plain_replacing (how : List Char → List Char → List Char → List Char)
    (s target replacement : Value) : Plain (replacing how s target replacement) :=
  (plain_text _ s).bind fun _ => (plain_text _ target).bind fun _ =>
    (plain_text _ replacement).bind fun _ => .pure _

theorem plain_join (separator items : Value) : Plain (join separator items) :=
  (plain_text _ separator).bind fun _ => (Lists.plain_list _ items).bind fun _ =>
    (Plain.items _).bind fun _ => (Plain.mapM (plain_text _) _).bind fun _ => .pure _

theorem plain_slice (s start stop : Value) : Plain (slice s start stop) := by
  refine .bind (plain_text _ s) fun _ => .bind (plain_integer _ start) fun _ => ?_
  split
  · exact .pure _
  · exact (plain_integer _ _).bind fun _ => .pure _

theorem plain_upper (s : Value) : Plain (upper s) := (plain_text _ s).bind fun _ => .pure _

theorem plain_lower (s : Value) : Plain (lower s) := (plain_text _ s).bind fun _ => .pure _

theorem plain_strip (s : Value) : Plain (strip s) := (plain_text _ s).bind fun _ => .pure _

theorem plain_find (s part : Value) : Plain (find s part) :=
  (plain_text _ s).bind fun _ => (plain_text _ part).bind fun _ => .pure _

end Texts

end Library

end Luuqad

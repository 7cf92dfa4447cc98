import Luuqad.Interpreter.Program
import Luuqad.Proofs.Error.Messages
import Luuqad.Proofs.Heap.Cells
import Luuqad.Proofs.Number.Exact
import Luuqad.Proofs.Run.Contract

/-!
# Reading and writing places of lists

A place in a list of `n` items is named by a number that is equal to a whole number `i`: a whole
number, a truth value or a double. It names a slot if `-n ≤ i < n`, and then the slot is `i` modulo
`n`. Reading a place and writing to it find the slot in the same way, so they succeed alike, address
the same slot and fail alike (`index_slots`).
-/

namespace Luuqad

open Run

/-! ## Slots -/

/-- The value is a number that is equal to a whole number. -/
def Value.IsWhole (w : Value) (i : Int) : Prop :=
  ∃ k, w.num? = some k ∧ (Num.int i).compare? k = some .eq

theorem Value.isWhole_int {i j : Int} : (Value.int j).IsWhole i ↔ i = j := by
  simp [IsWhole, num?, Num.compare?]

theorem Value.isWhole_bool {b : Bool} {i : Int} :
    (Value.bool b).IsWhole i ↔ i = if b then 1 else 0 := by
  simp [IsWhole, num?, Num.compare?]

theorem Value.IsWhole.unique {w : Value} {i j : Int} (hi : w.IsWhole i) (hj : w.IsWhole j) :
    i = j := by
  obtain ⟨k, hk, hi⟩ := hi
  obtain ⟨l, hl, hj⟩ := hj
  cases hk.symm.trans hl
  exact Except.ok.inj ((Num.truncate_of_equals hi).symm.trans (Num.truncate_of_equals hj))

/-- A whole number names a slot of a list of `n` items. -/
abbrev InRange (n : Nat) (i : Int) : Prop := -n ≤ i ∧ i < n

/-- The slot that a whole number names in a list of `n` items. -/
def slot (n : Nat) (i : Int) : Nat := (i % n).toNat

theorem slot_lt {n : Nat} {i : Int} (h : InRange n i) : slot n i < n := by
  have hpos : (0 : Int) < n := by omega
  have hlow := Int.emod_nonneg i (Int.ne_of_gt hpos)
  have hhigh := Int.emod_lt_of_pos i hpos
  unfold slot
  omega

theorem slot_eq {n : Nat} {i : Int} (h : InRange n i) :
    slot n i = (if i < 0 then n + i else i).toNat := by
  unfold slot
  split
  · rw [← Int.add_emod_left, Int.emod_eq_of_lt (by omega) (by omega)]
  · rw [Int.emod_eq_of_lt (by omega) h.2]

theorem slot_eq_slot_iff {n : Nat} {i j : Int} (hi : InRange n i) :
    slot n j = slot n i ↔ (j - i) % n = 0 := by
  have hpos : (n : Int) ≠ 0 := by omega
  have hi := Int.emod_nonneg i hpos
  have hj := Int.emod_nonneg j hpos
  rw [← Int.emod_eq_emod_iff_emod_sub_eq_zero]
  unfold slot
  omega

namespace Run

variable {w : Value} {i : Int} {items : Array Value} {k : Num} (n : Node) (s : State)

/-- The slot that a whole number names, or an error that blames a node. -/
def placeAt (n : Node) (items : Array Value) (i : Int) : Run Nat := do
  let j := if i < 0 then items.size + i else i
  if 0 ≤ j ∧ j < items.size then return j.toNat
  raiseAt n (.indexOutOfRange (← Run.text (.int j)))

theorem place_of_none (hw : w.num? = none) : place n items w = raiseAt n .badIndex := by
  unfold place
  rw [hw]

theorem place_of_num (hw : w.num? = some k) : place n items w = (do
    let i ← act (Action.ofExcept k.truncate)
    if (Num.int i).compare? k = some .eq then placeAt n items i else raiseAt n .badIndex) := by
  simp only [place, hw]
  refine bind_congr fun i => ?_
  by_cases hequal : (Num.int i).compare? k = some .eq
  · rw [if_neg (not_not_intro hequal), if_pos hequal]
    rfl
  · rw [if_pos hequal, if_neg hequal]
    rfl

theorem place_of_inRange (hw : w.IsWhole i) (hi : InRange items.size i) :
    place n items w s = .ok (slot items.size i) s := by
  obtain ⟨k, hk, hequal⟩ := hw
  have hj : 0 ≤ (if i < 0 then items.size + i else i) ∧
      (if i < 0 then items.size + i else i) < items.size := by
    split <;> omega
  rw [place_of_num n hk, bind_ok (act_ofExcept_ok s (Num.truncate_of_equals hequal)),
    if_pos hequal, placeAt, slot_eq hi]
  simp only [if_pos hj]
  rfl

theorem placeAt_of_not_inRange (hi : ¬InRange items.size i) (m : Node) :
    ∃ f g, placeAt n items i s = .error (.fault f) s ∧ placeAt m items i s = .error (.fault g) s ∧
      f.SameButPlace g := by
  have hj : ¬(0 ≤ (if i < 0 then items.size + i else i) ∧
      (if i < 0 then items.size + i else i) < items.size) := by
    split <;> omega
  simp only [placeAt, if_neg hj]
  cases htext : (Value.int (if i < 0 then items.size + i else i)).text s.heap with
  | ok x =>
    have hrun : Run.text (.int (if i < 0 then items.size + i else i)) s = .ok x s :=
      act_ofExcept_ok s htext
    rw [bind_ok hrun, bind_ok hrun]
    exact ⟨_, _, rfl, rfl, Fault.sameButPlace_indexOutOfRange x n.line n.column m.line m.column⟩
  | error e =>
    have hrun : Run.text (.int (if i < 0 then items.size + i else i)) s =
        .error (.fault (.failure e)) s :=
      act_ofExcept_error s htext
    rw [bind_error hrun, bind_error hrun]
    exact ⟨_, _, rfl, rfl, .failure e⟩

/-- A value that is no number in range is no place, and only the place of the error depends on the
node that is blamed. -/
theorem place_of_not_inRange (h : ∀ i, w.IsWhole i → ¬InRange items.size i) (m : Node) :
    ∃ f g, place n items w s = .error (.fault f) s ∧ place m items w s = .error (.fault g) s ∧
    f.SameButPlace g := by
  cases hk : w.num? with
  | none =>
    rw [place_of_none n hk, place_of_none m hk]
    exact ⟨_, _, rfl, rfl, Fault.sameButPlace_badIndex n.line n.column m.line m.column⟩
  | some k =>
    rw [place_of_num n hk, place_of_num m hk]
    cases htruncate : k.truncate with
    | error e =>
      have hact := act_ofExcept_error s htruncate
      rw [htruncate] at hact
      rw [bind_error hact, bind_error hact]
      exact ⟨_, _, rfl, rfl, .failure e⟩
    | ok i =>
      have hact := act_ofExcept_ok s htruncate
      rw [htruncate] at hact
      rw [bind_ok hact, bind_ok hact]
      by_cases hequal : (Num.int i).compare? k = some .eq
      · rw [if_pos hequal, if_pos hequal]
        exact placeAt_of_not_inRange n s (h i ⟨k, hk, hequal⟩) m
      · rw [if_neg hequal, if_neg hequal]
        exact ⟨_, _, rfl, rfl, Fault.sameButPlace_badIndex n.line n.column m.line m.column⟩

end Run

theorem getD_setIfInBounds {items : Array Value} {k : Nat} (hk : k < items.size)
    (v d : Value) (l : Nat) :
    (items.setIfInBounds k v).getD l d = if l = k then v else items.getD l d := by
  simp only [Array.getD_eq_getD_getElem?]
  by_cases hl : l = k
  · subst hl
    rw [Array.getElem?_setIfInBounds_self_of_lt hk, if_pos rfl]
    rfl
  · rw [Array.getElem?_setIfInBounds_ne (Ne.symm hl), if_neg hl]

/-! ## Places of lists in a program -/

/-- A place of a list as it is written: a list and an index. -/
structure ListPlace where
  list : Node
  index : Node
  line : Option Nat
  column : Option Nat

namespace ListPlace

def toNode (x : ListPlace) : Node :=
  { kind := .index, children := [x.list, x.index], line := x.line, column := x.column }

def assign (x : ListPlace) (value : Node) (line column : Option Nat) : Node :=
  { kind := .assignment, children := [x.toNode, value], line := line, column := column }

/-- Evaluating the list and then the index gives these, and leads from one state to another. -/
def Denotes (x : ListPlace) (self : Evaluator) (s : State) (r : Ref) (w : Value) (u : State) :
    Prop :=
  ∃ t, self.evaluate x.list s = .ok (.list r) t ∧ self.evaluate x.index t = .ok w u

variable {self : Evaluator} (hchild : self.child = Node.child) {x : ListPlace} {r : Ref}
    {w v : Value} {s t u : State}
include hchild

theorem expression_toNode (hx : x.Denotes self s r w u) :
    self.expression x.toNode s =
      (do return (u.heap.items r).getD (← place x.toNode (u.heap.items r) w) .null : Run Value)
        u := by
  obtain ⟨t, hlist, hindex⟩ := hx
  have hfirst : self.child x.toNode 0 = pure x.list := by rw [hchild]; rfl
  have hsecond : self.child x.toNode 1 = pure x.index := by rw [hchild]; rfl
  change self.index x.toNode s = _
  rw [Evaluator.index, hfirst, pure_bind, bind_ok hlist]
  simp only [hsecond, pure_bind]
  rw [bind_ok hindex]
  rfl

theorem statement_assign {value : Node} (hvalue : self.evaluate value s = .ok v t)
    (hx : x.Denotes self t r w u) (line column : Option Nat) :
    self.statement (x.assign value line column) s = (do
      let i ← place (x.assign value line column) (u.heap.items r) w
      act (do Action.setItems r ((← Action.items r).setIfInBounds i v))
      return v : Run Value) u := by
  obtain ⟨t', hlist, hindex⟩ := hx
  have htarget : self.child (x.assign value line column) 0 = pure x.toNode := by rw [hchild]; rfl
  have hassigned : self.child (x.assign value line column) 1 = pure value := by rw [hchild]; rfl
  have hfirst : self.child x.toNode 0 = pure x.list := by rw [hchild]; rfl
  have hsecond : self.child x.toNode 1 = pure x.index := by rw [hchild]; rfl
  change self.assignment (x.assign value line column) s = _
  rw [Evaluator.assignment, htarget, pure_bind, hassigned, pure_bind, bind_ok hvalue]
  have hkind : x.toNode.kind = .index := rfl
  simp only [hkind]
  rw [hfirst, pure_bind, bind_ok hlist]
  simp only [hsecond, pure_bind]
  rw [bind_ok hindex]
  rfl

theorem expression_of_inRange {i : Int} (hx : x.Denotes self s r w u) (hw : w.IsWhole i)
    (hi : InRange (u.heap.items r).size i) :
    self.expression x.toNode s =
      .ok ((u.heap.items r).getD (slot (u.heap.items r).size i) .null) u := by
  rw [expression_toNode hchild hx, bind_ok (place_of_inRange x.toNode u hw hi)]
  rfl

theorem statement_of_inRange {value : Node} {i : Int} (hvalue : self.evaluate value s = .ok v t)
    (hx : x.Denotes self t r w u) (hw : w.IsWhole i) (hi : InRange (u.heap.items r).size i)
    (line column : Option Nat) :
    self.statement (x.assign value line column) s = .ok v (u.withHeap
      (u.heap.write r
        (.list ((u.heap.items r).setIfInBounds (slot (u.heap.items r).size i) v)))) := by
  rw [statement_assign hchild hvalue hx line column, bind_ok (place_of_inRange _ u hw hi)]
  rfl

/-- Where the index is no number in range, reading and writing fail alike, and nothing changes. -/
theorem fails_of_not_inRange {y : ListPlace} {value : Node} {s' : State}
    (hread : x.Denotes self s r w u) (hvalue : self.evaluate value s' = .ok v t)
    (hwrite : y.Denotes self t r w u) (line column : Option Nat)
    (h : ∀ i, w.IsWhole i → ¬InRange (u.heap.items r).size i) :
    ∃ f g, self.expression x.toNode s = .error (.fault f) u ∧
      self.statement (y.assign value line column) s' = .error (.fault g) u ∧ f.SameButPlace g := by
  obtain ⟨f, g, hf, hg, hsame⟩ := place_of_not_inRange x.toNode u h (y.assign value line column)
  refine ⟨f, g, ?_, ?_, hsame⟩
  · rw [expression_toNode hchild hread, bind_error hf]
  · rw [statement_assign hchild hvalue hwrite line column, bind_error hg]

end ListPlace

/-- For every list of `n` items, every index, every value and every state in which they have been
evaluated, wherever the list is read or written there: if the index is equal to a whole number `i`,
reading succeeds if and only if `-n ≤ i < n`, and so does writing. Then reading gives the item in
the slot that `i` names. Writing keeps the length, and after it reading gives the new value for
every number in range that is the same as `i` modulo `n`, and the old item for every other one. If
the index is out of range, no number or not whole, both fail with errors of the same class and the
same text up to the place, and the state stays as it was. -/
theorem index_slots (self : Evaluator) (hchild : self.child = Node.child) (r : Ref)
    (items : Array Value) (w v : Value) (u : State) (hr : u.heap.read r = some (.list items))
    (x y : ListPlace) (value : Node) (line column : Option Nat) (s s' t' : State)
    (hread : x.Denotes self s r w u) (hvalue : self.evaluate value s' = .ok v t')
    (hwrite : y.Denotes self t' r w u) :
    (∀ i, w.IsWhole i →
      ((∃ a t, self.expression x.toNode s = .ok a t) ↔ -items.size ≤ i ∧ i < items.size) ∧
      ((∃ a t, self.statement (y.assign value line column) s' = .ok a t) ↔
        -items.size ≤ i ∧ i < items.size)) ∧
    (∀ i, w.IsWhole i → -items.size ≤ i ∧ i < items.size →
      self.expression x.toNode s = .ok (items.getD (i % items.size).toNat .null) u ∧
      ∃ t, self.statement (y.assign value line column) s' = .ok v t ∧
        (t.heap.items r).size = items.size ∧
        ∀ (z : ListPlace) (w' : Value) (j : Int) (s₁ : State), w'.IsWhole j →
          -items.size ≤ j ∧ j < items.size →
          z.Denotes self s₁ r w' t →
          self.expression z.toNode s₁ =
            .ok (if (j - i) % items.size = 0 then v
              else items.getD (j % items.size).toNat .null) t) ∧
    ((∀ i, w.IsWhole i → ¬(-items.size ≤ i ∧ i < items.size)) →
      ∃ f g, self.expression x.toNode s = .error (.fault f) u ∧
        self.statement (y.assign value line column) s' = .error (.fault g) u ∧
          f.SameButPlace g) := by
  have hitems : u.heap.items r = items := Heap.items_of_read hr
  subst hitems
  have hfails := ListPlace.fails_of_not_inRange hchild hread hvalue hwrite line column
  refine ⟨fun i hw => ?_, fun i hw hi => ?_, hfails⟩
  · by_cases hi : InRange (u.heap.items r).size i
    · exact ⟨iff_of_true ⟨_, _, ListPlace.expression_of_inRange hchild hread hw hi⟩ hi,
        iff_of_true ⟨_, _, ListPlace.statement_of_inRange hchild hvalue hwrite hw hi line column⟩
        hi⟩
    · obtain ⟨f, g, hf, hg, -⟩ := hfails fun j hj => hw.unique hj ▸ hi
      simp only [hf, hg, reduceCtorEq, exists_false, false_iff]
      exact ⟨hi, hi⟩
  · have hslot := slot_lt hi
    refine ⟨ListPlace.expression_of_inRange hchild hread hw hi, _,
      ListPlace.statement_of_inRange hchild hvalue hwrite hw hi line column, ?_⟩
    generalize htarget : u.withHeap (u.heap.write r _) = t
    have hafter :
        t.heap.items r = (u.heap.items r).setIfInBounds (slot (u.heap.items r).size i) v := by
      rw [← htarget]
      exact Heap.items_write_self _ (Heap.lt_size_of_read hr)
    have hsize : (t.heap.items r).size = (u.heap.items r).size := by
      rw [hafter, Array.size_setIfInBounds]
    refine ⟨hsize, fun z w' j s₁ hw' hj hz => ?_⟩
    have hz' := ListPlace.expression_of_inRange hchild hz hw' (hsize.symm ▸ hj)
    rw [hz', hsize, hafter, getD_setIfInBounds hslot]
    simp only [slot_eq_slot_iff hi]
    rfl

/-- The last but one of three items is written through a negative number, and read through a truth
value. -/
theorem index_slots_of_negative :
    let self := Evaluator.upTo 9 8
    let items : Array Value := #[.str "a", .str "b", .str "c"]
    let u : State := { heap := { cells := #[.list items] } }
    let place (w : Value) : ListPlace := ⟨Parser.literal (.list 0), Parser.literal w, none, none⟩
    (place (.int (-2))).Denotes self u 0 (.int (-2)) u ∧
      ∃ t, self.statement ((place (.int (-2))).assign (Parser.literal (.str "d")) none none) u =
        .ok (.str "d") t ∧
        self.expression (place (.bool true)).toNode t = .ok (.str "d") t ∧
        self.expression (place (.int (-1))).toNode t = .ok (.str "c") t ∧
        ∃ f, self.expression (place (.int 3)).toNode u = .error (.fault f) u := by
  intro self items u place
  have hchild : self.child = Node.child := rfl
  have hdenotes (w : Value) (t : State) : (place w).Denotes self t 0 w t := ⟨t, rfl, rfl⟩
  have hslots (w : Value) := index_slots self hchild 0 items w (.str "d") u rfl (place w) (place w)
    (Parser.literal (.str "d")) none none u u u (hdenotes w u) rfl (hdenotes w u)
  obtain ⟨-, hin, -⟩ := hslots (.int (-2))
  obtain ⟨-, t, hwrite, -, hread⟩ := hin (-2) (Value.isWhole_int.mpr rfl) (by decide)
  obtain ⟨-, -, hout⟩ := hslots (.int 3)
  obtain ⟨f, -, hf, -, -⟩ := hout fun i hi => by simp [Value.isWhole_int.mp hi, items]
  have hsame := hread (place (.bool true)) (.bool true) 1 t (Value.isWhole_bool.mpr rfl) (by decide)
    (hdenotes _ t)
  have hother :=
    hread (place (.int (-1))) (.int (-1)) (-1) t (Value.isWhole_int.mpr rfl) (by decide)
      (hdenotes _ t)
  rw [if_pos (by decide)] at hsame
  rw [if_neg (by decide)] at hother
  exact ⟨hdenotes _ u, t, hwrite, hsame, hother, f, hf⟩

end Luuqad

import Luuqad.Interpreter.Program
import Luuqad.Proofs.Heap.Cells

/-!
# Slices

A slice of a list or a text is what lies between two places. A negative place is counted from the
end, and a place beyond an end is moved to that end. So any two whole numbers name a slice, and the
slices before and after a place make up the whole (`slices_exact`).
-/

namespace Luuqad

namespace Library

variable {α β : Type}

/-! ## Places -/

/-- The place that a whole number names in a sequence of `n` items, as it is documented: counted
from the end if it is negative, and no further than the ends. -/
def sliceBound (n : Nat) (x : Int) : Int := max 0 (min (if x < 0 then x + n else x) n)

/-- The items at the places from `first` up to `last`, which is not included, in order. -/
def itemsBetween (items : List α) (first last : Int) : List α :=
  (items.zipIdx.filter fun (_, k) => first ≤ k ∧ k < last).map (·.1)

theorem clamp_eq_sliceBound (n : Nat) (x : Int) : (clamp n x : Int) = sliceBound n x := by
  unfold clamp sliceBound
  split <;> omega

theorem filter_zipIdx_eq_drop_take (items : List α) (first last i : Nat) :
    ((items.zipIdx i).filter fun (_, k) => (first : Int) ≤ k ∧ (k : Int) < last).map (·.1) =
      (items.take (last - i)).drop (first - i) := by
  induction items generalizing i with
  | nil => simp
  | cons x rest ih =>
    rw [List.zipIdx_cons, List.filter_cons]
    by_cases hlast : i < last
    · have htake : last - i = last - (i + 1) + 1 := by omega
      by_cases hfirst : first ≤ i
      · have hnone : first - i = 0 := by omega
        have hnext : first - (i + 1) = 0 := by omega
        rw [if_pos (by simp; omega), List.map_cons, ih, htake, List.take_succ_cons, hnone, hnext,
          List.drop_zero, List.drop_zero]
      · have hdrop : first - i = first - (i + 1) + 1 := by omega
        rw [if_neg (by simp; omega), ih, htake, List.take_succ_cons, hdrop, List.drop_succ_cons]
    · have hthis : last - i = 0 := by omega
      have hnext : last - (i + 1) = 0 := by omega
      rw [if_neg (by simp; omega), ih, hthis, hnext, List.take_zero, List.take_zero, List.drop_nil,
        List.drop_nil]

theorem slice_eq_itemsBetween (items : List α) (a b : Int) :
    slice items a b = itemsBetween items (sliceBound items.length a)
    (sliceBound items.length b) := by
  rw [← clamp_eq_sliceBound, ← clamp_eq_sliceBound]
  exact (filter_zipIdx_eq_drop_take items _ _ 0).symm

theorem slice_map (f : α → β) (items : List α) (a b : Int) :
    slice (items.map f) a b = (slice items a b).map f := by
  simp [slice, List.map_drop, List.map_take]

/-- The slices before and after a place make up the whole. -/
theorem slice_append_slice (items : List α) (k : Int) :
    slice items 0 k ++ slice items k items.length = items := by
  have hstart : clamp items.length 0 = 0 := by simp [clamp]
  have hend : clamp items.length items.length = items.length := by
    unfold clamp
    split <;> omega
  simp only [slice, hstart, hend, List.drop_zero, List.take_length, List.take_append_drop]

end Library

/-! ## Calls -/

namespace Evaluator

variable (self : Evaluator) (s : State)

abbrev sliceList (r : Ref) (a b : Int) : Run Value :=
  self.callLibrary .listSlice [.value (.list r), .value (.int a), .value (.int b)]

abbrev sliceText (text : String) (a b : Int) : Run Value :=
  self.callLibrary .textSlice [.value (.str text), .value (.int a), .value (.int b)]

theorem sliceList_ok (r : Ref) (a b : Int) :
    self.sliceList r a b s = .ok (.list s.heap.size)
      (s.withHeap (s.heap.withCell (.list (Library.slice (s.heap.items r).toList a b).toArray))) :=
  rfl

theorem sliceText_ok (text : String) (a b : Int) :
    self.sliceText text a b s = .ok (.str (String.ofList (Library.slice text.toList a b))) s := rfl

end Evaluator

/-- The characters of a text, each as a text of its own. -/
def Library.characters (text : String) : Array Value :=
  (text.toList.map fun c => .str c.toString).toArray

/-- For every list, every text, every state and all whole numbers `a` and `b`: the slice of the list
from `a` to `b` is a new list of the items at the places from the bound that `a` names up to the
bound that `b` names, in order, and nothing else changes; and for every whole number `k`, the slice
up to `k` followed by the slice from `k` to the length is the list. The slice of the text has the
characters that the slice of a list of its characters has, and an end that is left out stands for
the length. -/
theorem slices_exact (self : Evaluator) (s : State) (r : Ref) (items : Array Value)
    (hr : s.heap.read r = some (.list items)) (text : String) (a b : Int) :
    (∃ q t, self.sliceList r a b s = .ok (.list q) t ∧
      s.Gains t q (.list (Library.itemsBetween items.toList (Library.sliceBound items.size a)
        (Library.sliceBound items.size b)).toArray) ∧
      t.heap.read r = some (.list items)) ∧
    (∀ k, ∃ q t q' t', self.sliceList r 0 k s = .ok (.list q) t ∧
      self.sliceList r k items.size t = .ok (.list q') t' ∧
        t'.heap.items q ++ t'.heap.items q' = items) ∧
    (∃ part : String, self.sliceText text a b s = .ok (.str part) s ∧
      part.toList = Library.itemsBetween text.toList (Library.sliceBound text.length a)
        (Library.sliceBound text.length b) ∧
      ∀ r', s.heap.read r' = some (.list (Library.characters text)) →
        ∃ q t, self.sliceList r' a b s = .ok (.list q) t ∧
          t.heap.items q = Library.characters part) ∧
    self.callLibrary .textSlice [.value (.str text), .value (.int a)] s =
      self.sliceText text a text.length s := by
  refine ⟨?_, fun k => ?_, ?_, rfl⟩
  · have hgains := s.gains_withCell (.list (Library.slice (s.heap.items r).toList a b).toArray)
    refine ⟨_, _, self.sliceList_ok s r a b, ?_, hgains.read hr⟩
    rw [Heap.items_of_read hr, Library.slice_eq_itemsBetween] at hgains ⊢
    exact hgains
  · have hitems : s.heap.items r = items := Heap.items_of_read hr
    have hold : r ≠ s.heap.size := Nat.ne_of_lt (Heap.lt_size_of_read hr)
    refine ⟨_, _, _, _, self.sliceList_ok s r 0 k, self.sliceList_ok _ r k items.size, ?_⟩
    -- The list is read again after the first slice was put on the heap, at a place that is not its
    -- own.
    simp only [State.heap_withHeap, Heap.items_withCell_self, Heap.items_withCell _ hold, hitems]
    rw [Heap.items_withCell _ (by simp), Heap.items_withCell_self, List.append_toArray]
    exact congrArg List.toArray (Library.slice_append_slice items.toList k)
  · refine ⟨_, self.sliceText_ok s text a b, ?_, fun r' hr' => ?_⟩
    · rw [String.toList_ofList, Library.slice_eq_itemsBetween, String.length_toList]
    · refine ⟨_, _, self.sliceList_ok s r' a b, ?_⟩
      rw [Heap.items_of_read hr', State.heap_withHeap, Heap.items_withCell_self]
      simp [Library.characters, Library.slice_map]

/-- A slice that starts before the end and goes beyond it, of a text of three characters and of a
list of them. -/
theorem slices_exact_of_negative :
    let s : State := { heap := { cells := #[.list (Library.characters "abc")] } }
    let self := Evaluator.upTo 9 9
    s.heap.read 0 = some (.list (Library.characters "abc")) ∧
      self.sliceText "abc" (-2) 7 s = .ok (.str "bc") s ∧
      ∃ q t, self.sliceList 0 (-2) 7 s = .ok (.list q) t ∧
        t.heap.items q = Library.characters "bc" ∧
        t.heap.read 0 = some (.list (Library.characters "abc")) := by
  intro s self
  have hr : s.heap.read 0 = some (.list (Library.characters "abc")) := rfl
  obtain ⟨⟨q, t, hlist, -, hkept⟩, -, ⟨part, htext, hpart, hchars⟩, -⟩ :=
    slices_exact self s 0 _ hr "abc" (-2) 7
  obtain rfl : part = "bc" := String.toList_injective (hpart.trans (by decide +kernel))
  obtain ⟨q', t', hlist', hitems⟩ := hchars 0 hr
  cases hlist.symm.trans hlist'
  exact ⟨hr, htext, q, t, hlist, hitems, hkept⟩

end Luuqad

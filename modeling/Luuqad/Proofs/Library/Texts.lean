import Luuqad.Proofs.Library.Slices
import Luuqad.Proofs.Text.Occurrences

/-!
# Methods of texts

The methods that search a text, cut it and put it together share one notion of occurrence: the first
one, and then the first one behind it. So what one of them says about a part of a text can be told
from the others (`texts_agree`).
-/

namespace Luuqad

open Run

namespace Library

variable {α : Type}

theorem clamp_natCast (n k : Nat) : clamp n k = min k n := by
  unfold clamp
  split <;> omega

theorem slice_start {items : List α} {k : Nat} (hk : k ≤ items.length) :
    slice items 0 k = items.take k := by
  have hstart : clamp items.length 0 = 0 := (clamp_natCast items.length 0).trans (Nat.zero_min _)
  rw [slice, hstart, clamp_natCast, Nat.min_eq_left hk, List.drop_zero]

theorem slice_end (items : List α) (k : Nat) : slice items k items.length = items.drop k := by
  rw [slice, clamp_natCast, clamp_natCast, Nat.min_self, List.take_length]
  rcases Nat.le_total k items.length with hle | hle
  · rw [Nat.min_eq_left hle]
  · rw [Nat.min_eq_right hle, List.drop_length, List.drop_of_length_le hle]

theorem intercalate_map_ofList (glue : String) (parts : List (List Char)) :
    glue.intercalate (parts.map String.ofList) = String.ofList (glue.toList.intercalate parts) :=
  String.toList_injective (by simp)

def textList (texts : List String) : Cell := .list (texts.map Value.str).toArray

theorem textList_injective {texts texts' : List String} (h : textList texts = textList texts') :
    texts = texts' := by
  simpa [textList, List.map_inj_right] using h

theorem mapM_text (c : Complaint) (texts : List String) (h : Heap) :
    (texts.map Value.str).mapM (Texts.text c) h = .ok (texts.map String.toList) h := by
  induction texts with
  | nil => rfl
  | cons t texts ih =>
    have hfirst : Texts.text c (.str t) h = .ok t.toList h := rfl
    rw [List.map_cons, List.mapM_cons, Action.bind_ok hfirst, Action.bind_ok ih]
    rfl

end Library

namespace Evaluator

variable (self : Evaluator) (s : State) (text part other : String)

/-! ## The methods -/

theorem textMethod_split (hpart : part ≠ "") :
    self.textMethod "qeybi" (.str text) [.str part] s = .ok (.list s.heap.size)
    (s.withHeap (s.heap.withCell
      (Library.textList ((Text.pieces part.toList text.toList).map String.ofList)))) := by
  have hempty : part.toList.isEmpty = false := by simpa using hpart
  change act (do
    if part.toList.isEmpty then Action.fail .emptySeparator
    Action.newList ((Text.pieces part.toList text.toList).map Library.Texts.ofChars).toArray) s = _
  rw [hempty, Library.textList, List.map_map]
  rfl

theorem textMethod_join {q : Ref} {texts : List String}
    (hq : s.heap.read q = some (Library.textList texts)) :
    self.textMethod "kudar" (.str part) [.list q] s = .ok (.str (part.intercalate texts)) s := by
  have hitems : s.heap.items q = (texts.map Value.str).toArray := Heap.items_of_read hq
  have hjoined : part.intercalate texts =
      String.ofList (Text.join part.toList (texts.map String.toList)) :=
    String.toList_injective (by simp [Text.join])
  change act ((s.heap.items q).toList.mapM (Library.Texts.text .itemNotText) >>= fun parts =>
    pure (Library.Texts.ofChars (Text.join part.toList parts))) s = _
  rw [hitems, hjoined]
  exact act_ok (Action.bind_ok (Library.mapM_text .itemNotText texts s.heap))

theorem textMethod_find : self.textMethod "raadi" (.str text) [.str part] s =
    .ok (.int ((Text.find? part.toList text.toList).elim (-1) fun i => i)) s := rfl

theorem textMethod_contains : self.textMethod "leeyahay" (.str text) [.str part] s =
    .ok (.bool (Text.contains part.toList text.toList)) s := rfl

theorem textMethod_startsWith : self.textMethod "bilow" (.str text) [.str part] s =
    .ok (.bool (part.toList.isPrefixOf text.toList)) s := rfl

theorem textMethod_replace : self.textMethod "beddel" (.str text) [.str part, .str other] s =
    .ok (.str (String.ofList (Text.replaceFirst part.toList other.toList text.toList))) s := rfl

theorem textMethod_replaceAll :
    self.textMethod "beddel_dhammaan" (.str text) [.str part, .str other] s =
    .ok (.str (String.ofList (Text.replaceAll part.toList other.toList text.toList))) s := rfl

theorem textMethod_slice (i j : Int) : self.textMethod "jar" (.str text) [.int i, .int j] s =
    .ok (.str (String.ofList (Library.slice text.toList i j))) s := rfl

theorem textMethod_sliceFrom (i : Int) : self.textMethod "jar" (.str text) [.int i] s =
    .ok (.str (String.ofList (Library.slice text.toList i text.toList.length))) s := rfl

end Evaluator

/-! ## What they say together -/

/-- What the methods say about a part of a text, where `i` is the place that is shown for the part
and `texts` are the pieces in the new list `q`. -/
structure Evaluator.Tells (ev : Evaluator) (s u : State) (text part other : String)
    (i : Int) (q : Ref) (texts : List String) : Prop where
  find : ev.textMethod "raadi" (.str text) [.str part] s = .ok (.int i) s
  shown : Text.Shown part.toList text.toList i
  split : ev.textMethod "qeybi" (.str text) [.str part] s = .ok (.list q) u
  gains : s.Gains u q (Library.textList texts)
  divided : Text.Divided part.toList text.toList (texts.map String.toList)
  join : ev.textMethod "kudar" (.str part) [.list q] u = .ok (.str text) u
  replaceAll : ∃ replaced : String,
    Text.Replaced part.toList other.toList text.toList replaced.toList ∧
    ev.textMethod "beddel_dhammaan" (.str text) [.str part, .str other] s = .ok (.str replaced) s ∧
    ev.textMethod "kudar" (.str other) [.list q] u = .ok (.str replaced) u
  contains : ∃ b, ev.textMethod "leeyahay" (.str text) [.str part] s = .ok (.bool b) s ∧
    (b = true ↔ i ≠ -1) ∧
    (i ≠ -1 ↔ 1 < texts.length)
  apart : ∀ t ∈ texts, ev.textMethod "leeyahay" (.str t) [.str part] u = .ok (.bool false) u
  startsWith : ∃ b, ev.textMethod "bilow" (.str text) [.str part] s = .ok (.bool b) s ∧
    (b = true ↔ i = 0)
  replaceNone : i = -1 →
    ev.textMethod "beddel" (.str text) [.str part, .str other] s = .ok (.str text) s
  replace : i ≠ -1 → ∃ before after,
    ev.textMethod "jar" (.str text) [.int 0, .int i] s = .ok (.str before) s ∧
    ev.textMethod "jar" (.str text) [.int (i + part.length)] s = .ok (.str after) s ∧
    ev.textMethod "beddel" (.str text) [.str part, .str other] s =
      .ok (.str (before ++ other ++ after)) s

/-- The methods of texts agree about occurrences. For every text and every part that is not empty,
in every state: the pieces of the text, joined with the part, are the text, and joined with another
text they are what replacing all occurrences makes of it; the part is contained in the text if a
place is found for it, and if there is more than one piece, and in no piece; the text starts with it
if the place is zero; and replacing one occurrence keeps what lies before the place and what lies
behind the part there, or everything if no place is found. -/
theorem texts_agree (self : Evaluator) (s : State) (text part other : String) (hpart : part ≠ "") :
    ∃ u i q texts, self.Tells s u text part other i q texts := by
  have hne : part.toList ≠ [] := by simpa using hpart
  have hshown := Text.shown_find? part.toList text.toList
  have hdivided := Text.divided_pieces hne text.toList
  have hgains :=
    s.gains_withCell (Library.textList ((Text.pieces part.toList text.toList).map String.ofList))
  have hjoin (glue : String) := self.textMethod_join _ glue hgains.cell
  refine ⟨_, _, _, _, {
    find := self.textMethod_find s text part
    shown := hshown
    split := self.textMethod_split s text part hpart
    gains := hgains
    divided := by simpa using hdivided
    join := ?_
    replaceAll := ⟨_, ?_, self.textMethod_replaceAll s text part other, ?_⟩
    contains := ⟨_, self.textMethod_contains s text part, ?_, ?_⟩
    apart := fun t ht => ?_
    startsWith := ⟨_, self.textMethod_startsWith s text part, ?_⟩
    replaceNone := fun hnone => ?_
    replace := fun hsome => ?_ }⟩
  · rw [hjoin, Library.intercalate_map_ofList, hdivided.join, String.ofList_toList]
  · rw [String.toList_ofList, Text.replaceAll_eq_intercalate hne]
    exact hdivided.replaced other.toList
  · rw [hjoin, Library.intercalate_map_ofList, Text.replaceAll_eq_intercalate hne]
  · rw [hshown.ne_iff, Text.contains_iff]
  · rw [hshown.ne_iff, List.length_map, hdivided.one_lt_length_iff]
  · obtain ⟨piece, hmem, rfl⟩ := List.mem_map.mp ht
    have hnone := hdivided.not_part hne piece hmem
    rw [self.textMethod_contains, String.toList_ofList,
      Bool.eq_false_iff.mpr (mt Text.contains_iff.mp hnone)]
  · rw [hshown.eq_zero_iff, List.isPrefixOf_iff_prefix]
  · have hmissing : ¬part.toList <:+: text.toList := fun hpart => hshown.ne_iff.mpr hpart hnone
    rw [self.textMethod_replace, Text.replaceFirst_of_not_part hmissing, String.ofList_toList]
  · obtain ⟨k, hk, hfirst⟩ := hshown.exists_firstAt hsome
    rw [hk]
    refine ⟨_, _, self.textMethod_slice s text 0 k,
      self.textMethod_sliceFrom s text (k + part.length), ?_⟩
    have hbefore := Library.slice_start hfirst.occurs.1
    have hafter := Library.slice_end text.toList (k + part.toList.length)
    rw [Int.natCast_add, String.length_toList] at hafter
    rw [self.textMethod_replace, Text.replaceFirst_of_firstAt hfirst, hbefore, hafter,
      String.length_toList, String.ofList_append, String.ofList_append, String.ofList_toList]

/-- A part that stands at both ends of the text, and at overlapping places. -/
theorem texts_agree_of_overlapping :
    let self := Evaluator.upTo 9 9
    "aa" ≠ "" ∧ ∃ u, self.Tells {} u "aaabaa" "aa" "x" 0 0 ["", "ab", ""] := by
  intro self
  have hpart : "aa" ≠ "" := by decide
  have hplace : ((Text.find? "aa".toList "aaabaa".toList).elim (-1) fun i => i : Int) = 0 := by
    decide +kernel
  have hpieces : (Text.pieces "aa".toList "aaabaa".toList).map String.ofList = ["", "ab", ""] := by
    decide +kernel
  have hfind := self.textMethod_find {} "aaabaa" "aa"
  have hsplit := self.textMethod_split {} "aaabaa" "aa" hpart
  rw [hplace] at hfind
  rw [hpieces] at hsplit
  obtain ⟨u, i, q, texts, h⟩ := texts_agree self {} "aaabaa" "aa" "x" hpart
  cases hfind.symm.trans h.find
  cases hsplit.symm.trans h.split
  have htexts : Library.textList ["", "ab", ""] = Library.textList texts :=
    Option.some.inj ((Heap.read_withCell_self _ _).symm.trans h.gains.cell)
  obtain rfl : ["", "ab", ""] = texts := Library.textList_injective htexts
  exact ⟨hpart, _, h⟩

end Luuqad

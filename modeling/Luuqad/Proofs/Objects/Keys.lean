import Luuqad.Proofs.Number.Exact

/-!
# Keys and entries

Keys that are the same need not be equal: a truth value, a whole number and a double may stand for
one number. Being the same is symmetric and transitive, so all keys that are the same can take each
other's place. It is not reflexive for every value: nothing is the same as a double that is not a
number and has no mark.

The entries of an object are listed in the order in which their keys were put, and no two keys are
the same. What putting, taking away and putting again one by one do to the keys and to the values
under them is said here.
-/

namespace Luuqad

/-! ## When two keys are the same -/

namespace Value

/-- The number that a value stands for. -/
def number? (v : Value) : Option (Bool ⊕ ℚ) := v.num?.bind Num.value?

theorem eq_nan_of_isSameNan {a b : Value} (h : a.isSameNan b = true) :
    ∃ m, a = .nan m ∧ b = .nan m := by
  unfold isSameNan at h
  split at h
  · exact ⟨_, rfl, (beq_iff_eq.mp h) ▸ rfl⟩
  · cases h

theorem sameKey_tuple_iff {s : Tuple} {b : Value} :
    (tuple s).sameKey b = true ↔ ∃ t, b = .tuple t ∧ s.sameKeys t = true := by
  cases b <;> simp [sameKey, num?]

theorem sameKey_of_num {a b : Value} {x y : Num} (ha : a.num? = some x) (hb : b.num? = some y) :
    a.sameKey b = (a.isSameNan b || x.compare? y == some .eq) := by
  rw [sameKey.eq_def]
  split
  · cases ha
  · simp only [ha, hb]

theorem sameKey_of_not_num {a b : Value} (ha : ∀ s, a ≠ .tuple s)
    (h : a.num? = none ∨ b.num? = none) :
    a.sameKey b = (a == b) := by
  rw [sameKey.eq_def]
  split
  · exact absurd rfl (ha _)
  · rcases h with h | h
    · simp only [h]
    · cases hx : a.num? <;> simp only [h]

/-- Keys that are no rows are the same if they are equal, doubles apart, or if they stand for the
same number. -/
theorem sameKey_iff {a b : Value} (ha : ∀ s, a ≠ .tuple s) :
    a.sameKey b = true ↔
    (a = b ∧ ∀ x, a ≠ .float x) ∨ ∃ q, a.number? = some q ∧ b.number? = some q := by
  cases hx : a.num? with
  | none =>
    have hfloat (x : Float) : a ≠ .float x := by
      rintro rfl
      cases hx
    simp [sameKey_of_not_num ha (.inl hx), number?, hx, hfloat]
  | some x =>
    cases hy : b.num? with
    | none =>
      have hne : a ≠ b := by
        rintro rfl
        rw [hx] at hy
        cases hy
      simp [sameKey_of_not_num ha (.inr hy), number?, hy, hne]
    | some y =>
      have hnumber : (∃ q, a.number? = some q ∧ b.number? = some q) ↔ x.compare? y = some .eq := by
        simp only [number?, hx, hy, Option.bind_some, Num.compare?_eq_iff]
      rw [sameKey_of_num hx hy, Bool.or_eq_true, beq_iff_eq, hnumber]
      refine or_congr_left' fun hcompare => ⟨fun hnan => ?_, fun heq => ?_⟩
      · obtain ⟨m, rfl, rfl⟩ := eq_nan_of_isSameNan hnan
        exact ⟨rfl, fun x hx => by cases hx⟩
      · -- A number that is equal to another one, as a value, compares with it as a number, unless
        -- it is a double.
        obtain ⟨rfl, hfloat⟩ := heq
        cases a with
        | nan m => simp [isSameNan]
        | float x => exact absurd rfl (hfloat x)
        | bool b =>
          cases hx
          cases hy
          simp [Num.compare?] at hcompare
        | int i =>
          cases hx
          cases hy
          simp [Num.compare?] at hcompare
        | _ => cases hx

theorem ne_tuple_of_sameKey {a b : Value} (ha : ∀ s, a ≠ .tuple s) (h : a.sameKey b = true)
    (t : Tuple) :
    b ≠ .tuple t := by
  rintro rfl
  rcases (sameKey_iff ha).mp h with ⟨heq, -⟩ | ⟨q, -, hq⟩
  · exact ha t heq
  · cases hq

end Value

mutual

theorem Value.sameKey_symm {a b : Value} (h : a.sameKey b = true) : b.sameKey a = true := by
  by_cases ha : ∃ s, a = .tuple s
  · obtain ⟨s, rfl⟩ := ha
    obtain ⟨t, rfl, ht⟩ := Value.sameKey_tuple_iff.mp h
    exact Value.sameKey_tuple_iff.mpr ⟨s, rfl, Tuple.sameKeys_symm ht⟩
  · have ha (s : Tuple) : a ≠ .tuple s := fun hs => ha ⟨s, hs⟩
    rw [Value.sameKey_iff (Value.ne_tuple_of_sameKey ha h)]
    refine ((Value.sameKey_iff ha).mp h).imp (fun heq => ?_) fun hnumber => ?_
    · exact ⟨heq.1.symm, heq.1 ▸ heq.2⟩
    · exact hnumber.imp fun q hq => hq.symm

theorem Tuple.sameKeys_symm {s t : Tuple} (h : s.sameKeys t = true) : t.sameKeys s = true := by
  cases s with
  | nil =>
    cases t with
    | nil => rfl
    | cons b t => cases h
  | cons a s =>
    cases t with
    | nil => cases h
    | cons b t =>
      simp only [Tuple.sameKeys, Bool.and_eq_true] at h ⊢
      exact ⟨Value.sameKey_symm h.1, Tuple.sameKeys_symm h.2⟩

end

mutual

theorem Value.sameKey_trans {a b c : Value} (hab : a.sameKey b = true) (hbc : b.sameKey c = true) :
    a.sameKey c = true := by
  by_cases ha : ∃ s, a = .tuple s
  · obtain ⟨s, rfl⟩ := ha
    obtain ⟨t, rfl, hst⟩ := Value.sameKey_tuple_iff.mp hab
    obtain ⟨u, rfl, htu⟩ := Value.sameKey_tuple_iff.mp hbc
    exact Value.sameKey_tuple_iff.mpr ⟨u, rfl, Tuple.sameKeys_trans hst htu⟩
  · have ha (s : Tuple) : a ≠ .tuple s := fun hs => ha ⟨s, hs⟩
    rcases (Value.sameKey_iff ha).mp hab with ⟨rfl, -⟩ | ⟨q, haq, hbq⟩
    · exact hbc
    · rcases (Value.sameKey_iff (Value.ne_tuple_of_sameKey ha hab)).mp hbc with ⟨rfl, -⟩ |
        ⟨q', hbq', hcq'⟩
      · exact hab
      · cases hbq.symm.trans hbq'
        exact (Value.sameKey_iff ha).mpr (.inr ⟨q, haq, hcq'⟩)

theorem Tuple.sameKeys_trans {s t u : Tuple} (hst : s.sameKeys t = true)
    (htu : t.sameKeys u = true) :
    s.sameKeys u = true := by
  cases s with
  | nil =>
    cases t with
    | nil => exact htu
    | cons b t => cases hst
  | cons a s =>
    cases t with
    | nil => cases hst
    | cons b t =>
      cases u with
      | nil => cases htu
      | cons c u =>
        simp only [Tuple.sameKeys, Bool.and_eq_true] at hst htu ⊢
        exact ⟨Value.sameKey_trans hst.1 htu.1, Tuple.sameKeys_trans hst.2 htu.2⟩

end

namespace Value

theorem sameKey_congr {k k' : Value} (h : k.sameKey k' = true) (a : Value) :
    a.sameKey k = a.sameKey k' :=
  Bool.eq_iff_iff.mpr ⟨fun ha => sameKey_trans ha h, fun ha => sameKey_trans ha (sameKey_symm h)⟩

theorem sameKey_comm (a b : Value) : a.sameKey b = b.sameKey a :=
  Bool.eq_iff_iff.mpr ⟨sameKey_symm, sameKey_symm⟩

theorem sameKey_str_iff {a : Value} {text : String} :
    a.sameKey (.str text) = true ↔ a = .str text := by
  have hstr : ∀ s, Value.str text ≠ .tuple s := fun s hs => by cases hs
  rw [sameKey_comm, sameKey_iff hstr]
  simp [number?, num?, eq_comm]

/-- The first of each of the keys that are the same. -/
def firsts : List Value → List Value
  | [] => []
  | k :: ks => k :: (firsts ks).filter fun k' => !k.sameKey k'

end Value

namespace Entries

variable {es : Entries} {k k' v : Value}

/-! ## What is in the entries of an object -/

def keys (es : Entries) : List Value := es.map (·.1)

def values (es : Entries) : List Value := es.map (·.2)

/-- One of the keys is the same as the given one. -/
def Has (es : Entries) (k : Value) : Prop := ∃ k' ∈ es.keys, k'.sameKey k = true

instance (es : Entries) (k : Value) : Decidable (es.Has k) :=
  inferInstanceAs (Decidable (∃ k' ∈ es.keys, k'.sameKey k = true))

/-- No two keys are the same. -/
def Distinct (es : Entries) : Prop := es.keys.Pairwise fun k k' => k.sameKey k' = false

theorem distinct_nil : Distinct [] := List.Pairwise.nil

@[simp] theorem not_has_nil : ¬Has [] k := by simp [Has, keys]

@[simp] theorem has_cons {e : Value × Value} :
    Has (e :: es) k ↔ e.1.sameKey k = true ∨ es.Has k := by
  simp [Has, keys]

theorem has_congr (h : k.sameKey k' = true) : es.Has k ↔ es.Has k' := by
  simp only [Has, Value.sameKey_congr h]

theorem has_str_iff {text : String} : es.Has (.str text) ↔ .str text ∈ es.keys := by
  simp [Has, Value.sameKey_str_iff]

@[simp] theorem distinct_cons {e : Value × Value} :
    Distinct (e :: es) ↔ ¬es.Has e.1 ∧ es.Distinct := by
  simp only [Distinct, keys, List.map_cons, List.pairwise_cons, Has, not_exists, not_and,
    Bool.not_eq_true, Value.sameKey_comm e.1]

theorem get?_cons (e : Value × Value) (es : Entries) (k : Value) :
    get? (e :: es) k = if e.1.sameKey k then some e.2 else es.get? k := by
  unfold get?
  rw [List.find?_cons]
  cases e.1.sameKey k <;> rfl

theorem isSome_get?_iff : (es.get? k).isSome = true ↔ es.Has k := by
  simp [get?, Has, keys]

theorem get?_eq_none_iff : es.get? k = none ↔ ¬es.Has k := by
  rw [← isSome_get?_iff, Bool.not_eq_true, Option.isSome_eq_false_iff, Option.isNone_iff_eq_none]

theorem get?_append (es es' : Entries) (k : Value) :
    get? (es ++ es') k = (es.get? k).or (es'.get? k) := by
  simp [get?, List.find?_append, Option.map_or]

/-! ## Putting a value under a key -/

theorem put_of_not_has (v : Value) (h : ¬es.Has k) : es.put k v = es ++ [(k, v)] := by
  induction es with
  | nil => rfl
  | cons e es ih =>
    rw [has_cons, not_or] at h
    rw [put, if_neg h.1, ih h.2]
    rfl

theorem put_of_has (v : Value) (h : es.Has k) :
    ∃ before k' old after, es = before ++ (k', old) :: after ∧ k'.sameKey k = true ∧
      es.put k v = before ++ (k', v) :: after := by
  induction es with
  | nil => exact absurd h not_has_nil
  | cons e es ih =>
    by_cases he : e.1.sameKey k = true
    · exact ⟨[], e.1, e.2, es, rfl, he, by rw [put, if_pos he]; rfl⟩
    · obtain ⟨before, k', old, after, hes, hk', hput⟩ := ih ((has_cons.mp h).resolve_left he)
      exact ⟨e :: before, k', old, after, by rw [hes]; rfl, hk', by rw [put, if_neg he, hput]; rfl⟩

theorem keys_put_of_has (v : Value) (h : es.Has k) : (es.put k v).keys = es.keys := by
  obtain ⟨before, k', old, after, rfl, -, hput⟩ := put_of_has v h
  simp [hput, keys]

theorem keys_put_of_not_has (v : Value) (h : ¬es.Has k) : (es.put k v).keys = es.keys ++ [k] := by
  simp [put_of_not_has v h, keys]

theorem get?_put (es : Entries) (k v k' : Value) :
    (es.put k v).get? k' = if k.sameKey k' then some v else es.get? k' := by
  induction es with
  | nil => rw [put, get?_cons]
  | cons e es ih =>
    by_cases he : e.1.sameKey k = true
    · have hsame : e.1.sameKey k' = k.sameKey k' := by
        rw [Value.sameKey_comm, Value.sameKey_congr he, Value.sameKey_comm]
      rw [put, if_pos he, get?_cons, get?_cons, hsame]
      split <;> rfl
    · rw [put, if_neg he, get?_cons, get?_cons, ih]
      by_cases hk : k.sameKey k' = true
      · have he' : ¬e.1.sameKey k' = true := by rwa [← Value.sameKey_congr hk]
        rw [if_neg he', if_pos hk, if_pos hk]
      · rw [if_neg hk, if_neg hk]

theorem has_put : (es.put k v).Has k' ↔ k.sameKey k' = true ∨ es.Has k' := by
  rw [← isSome_get?_iff, get?_put, ← isSome_get?_iff]
  split <;> simp_all

theorem distinct_put (v : Value) (h : es.Distinct) : (es.put k v).Distinct := by
  by_cases hk : es.Has k
  · rw [Distinct, keys_put_of_has v hk]
    exact h
  · rw [Distinct, keys_put_of_not_has v hk, List.pairwise_append]
    refine ⟨h, List.pairwise_singleton _ _, fun a ha b hb => ?_⟩
    obtain rfl := List.mem_singleton.mp hb
    exact Bool.not_eq_true _ ▸ fun hab => hk ⟨a, ha, hab⟩

/-! ## Taking a key away -/

theorem not_has_remove (es : Entries) (k : Value) : ¬(es.remove k).Has k := by
  simp [remove, Has, keys]

theorem distinct_remove (k : Value) (h : es.Distinct) : (es.remove k).Distinct :=
  h.sublist (List.Sublist.map _ List.filter_sublist)

theorem remove_of_not_has (h : ¬es.Has k) : es.remove k = es := by
  refine List.filter_eq_self.mpr fun e he => ?_
  simpa using fun hek => h ⟨e.1, List.mem_map_of_mem he, hek⟩

theorem remove_of_has (hes : es.Distinct) (h : es.Has k) :
    ∃ before k' old after, es = before ++ (k', old) :: after ∧ k'.sameKey k = true ∧
      es.remove k = before ++ after := by
  induction es with
  | nil => exact absurd h not_has_nil
  | cons e es ih =>
    rw [distinct_cons] at hes
    by_cases he : e.1.sameKey k = true
    · refine ⟨[], e.1, e.2, es, rfl, he, ?_⟩
      have hrest : ¬Has es k := (has_congr he).not.mp hes.1
      rw [remove, List.filter_cons_of_neg (by simp [he])]
      exact remove_of_not_has hrest
    · obtain ⟨before, k', old, after, hcut, hk', hremove⟩ :=
        ih hes.2 ((has_cons.mp h).resolve_left he)
      refine ⟨e :: before, k', old, after, by rw [hcut]; rfl, hk', ?_⟩
      rw [remove, List.filter_cons_of_pos (by simp [he])]
      exact congrArg (e :: ·) hremove

/-! ## Putting several values -/

/-- Put values under their keys, one after the other. -/
def putAll (es : Entries) (pairs : List (Value × Value)) : Entries :=
  pairs.foldl (fun es e => es.put e.1 e.2) es

theorem distinct_putAll (pairs : List (Value × Value)) (h : es.Distinct) :
    (es.putAll pairs).Distinct := by
  induction pairs generalizing es with
  | nil => exact h
  | cons e pairs ih => exact ih (distinct_put e.2 h)

theorem get?_putAll (es : Entries) (pairs : List (Value × Value)) (k : Value) :
    (es.putAll pairs).get? k = (get? pairs.reverse k).or (es.get? k) := by
  induction pairs generalizing es with
  | nil => rfl
  | cons e pairs ih =>
    change ((es.put e.1 e.2).putAll pairs).get? k = _
    rw [ih, get?_put, List.reverse_cons, get?_append, get?_cons, Option.or_assoc]
    congr 1
    split <;> rfl

/-- Keys that were not there come last, in the order in which they are put for the first time. -/
theorem keys_putAll (es : Entries) (pairs : List (Value × Value)) :
    (es.putAll pairs).keys = es.keys ++ (Value.firsts (keys pairs)).filter fun k => ¬es.Has k := by
  induction pairs generalizing es with
  | nil => exact (List.append_nil _).symm
  | cons e pairs ih =>
    have hnew (k : Value) : (!decide ((es.put e.1 e.2).Has k)) =
        (!decide (es.Has k) && !e.1.sameKey k) := by
      rw [Bool.eq_iff_iff]
      simp [has_put, and_comm]
    change ((es.put e.1 e.2).putAll pairs).keys =
      es.keys ++ (e.1 :: (Value.firsts (keys pairs)).filter _).filter _
    rw [ih]
    simp only [decide_not, hnew]
    by_cases he : es.Has e.1
    · rw [keys_put_of_has _ he, List.filter_cons_of_neg (by simpa using he), List.filter_filter]
    · rw [keys_put_of_not_has _ he, List.filter_cons_of_pos (by simpa using he), List.filter_filter,
        List.append_assoc]
      rfl

theorem firsts_of_distinct (h : es.Distinct) : Value.firsts es.keys = es.keys := by
  induction es with
  | nil => rfl
  | cons e es ih =>
    rw [distinct_cons] at h
    change e.1 :: (Value.firsts (keys es)).filter _ = e.1 :: keys es
    rw [ih h.2, List.filter_eq_self.mpr]
    intro k hk
    simpa [Value.sameKey_comm e.1] using fun hsame => h.1 ⟨k, hk, hsame⟩

theorem get?_reverse (h : es.Distinct) (k : Value) : get? es.reverse k = es.get? k := by
  induction es with
  | nil => rfl
  | cons e es ih =>
    rw [distinct_cons] at h
    rw [List.reverse_cons, get?_append, ih h.2, get?_cons, get?_cons]
    by_cases he : e.1.sameKey k = true
    · have hnone : get? es k = none := get?_eq_none_iff.mpr ((has_congr he).not.mp h.1)
      rw [if_pos he, if_pos he, hnone]
      rfl
    · rw [if_neg he, if_neg he]
      exact Option.or_none

end Entries

end Luuqad

import Luuqad.Proofs.Run.Evolution

/-!
# Objects as ordered maps

An object is a map from keys to values that lists its keys in the order in which they were first
put. This module says what a program sees of an object, what changes it and how new objects come
about, in terms of the entries that the object has on the heap. That no two keys of an object are
the same holds in every state that programs can reach (`State.Reached.keysDistinct`), and the laws
are about all objects in these states (`objects_ordered`).
-/

namespace Luuqad

open Run

/-! ## Reached states -/

/-- A state that programs can reach from one in which nothing is on the heap: by evaluating
expressions and running statements with any limits, whether these have a result or are interrupted,
and by whatever leaves the heap alone, such as the beginning and the end of a call. -/
inductive State.Reached : State → Prop
  | start {s : State} : s.heap = {} → Reached s
  | evaluate {s : State} (l : Limits) (n : Node) : Reached s →
      Reached ((l.evaluator.evaluate n).after s)
  | execute {s : State} (l : Limits) (n : Node) : Reached s →
      Reached ((l.evaluator.execute n).after s)
  | besides {s : State} (t : State) : Reached s → t.heap = s.heap → Reached t

/-- Objects never have two keys that are the same. -/
theorem State.Reached.keysDistinct {s : State} (h : s.Reached) : s.heap.KeysDistinct := by
  induction h with
  | start hs => exact hs ▸ Heap.keysDistinct_empty
  | evaluate l n _ ih => exact ((Evaluator.evolves_upTo l.rounds l.depth).evaluate n _).distinct ih
  | execute l n _ ih => exact ((Evaluator.evolves_upTo l.rounds l.depth).execute n _).distinct ih
  | besides t _ ht ih => exact ht ▸ ih

/-! ## Objects in a program -/

theorem Value.asKey_eq {k : Value} (hk : k.unhashable? = none) : k.asKey = .ok k := by
  simp only [asKey, hk]

theorem Run.act_asKey {k : Value} (hk : k.unhashable? = none) (s : State) :
    act (Action.ofExcept k.asKey) s = .ok k s := act_ofExcept_ok s (Value.asKey_eq hk)

/-- A property as it is written: an object and a key. -/
structure ObjectPlace where
  object : Node
  key : Value
  line : Option Nat
  column : Option Nat

namespace ObjectPlace

def toNode (x : ObjectPlace) : Node :=
  { kind := .property, value := x.key, children := [x.object], line := x.line, column := x.column }

def assign (x : ObjectPlace) (value : Node) (line column : Option Nat) : Node :=
  { kind := .assignment, children := [x.toNode, value], line := line, column := column }

variable {self : Evaluator} (hchild : self.child = Node.child) {x : ObjectPlace} {r : Ref}
    {s s₀ s₁ : State}
include hchild

theorem expression_toNode {name : String} (hkey : x.key = .str name)
    (hobject : self.evaluate x.object s₀ = .ok (.object r) s) :
    self.expression x.toNode s₀ = (((s.heap.entries r).get? (.str name)).elim
      (raiseAt x.toNode (.propertyNotFound name)) pure : Run Value) s := by
  have hfirst : self.child x.toNode 0 = pure x.object := by rw [hchild]; rfl
  have hvalue : x.toNode.value = .str name := hkey
  change self.property x.toNode s₀ = _
  rw [Evaluator.property, hfirst, pure_bind, bind_ok hobject]
  simp only [hvalue]
  rw [bind_ok (act_asKey rfl s), get_bind]
  cases (s.heap.entries r).get? (.str name) with
  | some v => rfl
  | none => exact bind_ok (text_str name s)

theorem statement_assign {value : Node} {v : Value} (hvalue : self.evaluate value s₀ = .ok v s₁)
    (hobject : self.evaluate x.object s₁ = .ok (.object r) s) (line column : Option Nat) :
    self.statement (x.assign value line column) s₀ = (do
      let key ← act (Action.ofExcept x.key.asKey)
      act (do Action.setEntries r ((← Action.entries r).put key v))
      return v : Run Value) s := by
  have htarget : self.child (x.assign value line column) 0 = pure x.toNode := by rw [hchild]; rfl
  have hassigned : self.child (x.assign value line column) 1 = pure value := by rw [hchild]; rfl
  have hfirst : self.child x.toNode 0 = pure x.object := by rw [hchild]; rfl
  have hkind : x.toNode.kind = .property := rfl
  change self.assignment (x.assign value line column) s₀ = _
  rw [Evaluator.assignment, htarget, pure_bind, hassigned, pure_bind, bind_ok hvalue]
  simp only [hkind]
  rw [hfirst, pure_bind, bind_ok hobject]
  rfl

end ObjectPlace

def objectLiteral (pairs : List (Value × Node)) : Node :=
  { kind := .object,
    children := pairs.map fun e => { kind := .literal, value := e.1, children := [e.2] } }

/-! ## What a program sees of an object -/

/-- Methods, properties and the function for lengths show the entries of an object. -/
structure Evaluator.Shows (self : Evaluator) (s : State) (r : Ref) (es : Entries) : Prop where
  keys : ∃ q t, self.objectMethod "fure" (.object r) [] s = .ok (.list q) t ∧
    s.Gains t q (.list es.keys.toArray)
  values : ∃ q t, self.objectMethod "qiime" (.object r) [] s = .ok (.list q) t ∧
    s.Gains t q (.list es.values.toArray)
  /-- A new list of new lists, each of a key and its value. -/
  pairs : ∃ q t, self.objectMethod "lamaane" (.object r) [] s = .ok (.list q) t ∧
    s.heap.Extends t.heap ∧ t.withHeap s.heap = s ∧
    (t.heap.items q).toList.map (Value.sequence? t.heap) =
      (es.keys.zip es.values).map fun e => some [e.1, e.2]
  length : s.functions.get? "dherer" = none →
    self.callNamed "dherer" [.object r] s = .ok (.int es.keys.length) s
  has {k : Value} : k.unhashable? = none →
    self.objectMethod "leeyahay" (.object r) [k] s = .ok (.bool (decide (es.Has k))) s
  named {name : String} : es.Has (.str name) ↔ .str name ∈ es.keys
  found {x : ObjectPlace} {name : String} {s₀ : State} : x.key = .str name →
    self.evaluate x.object s₀ = .ok (.object r) s → es.Has (.str name) →
    ∃ v, es.get? (.str name) = some v ∧ self.expression x.toNode s₀ = .ok v s
  missing {x : ObjectPlace} {name : String} {s₀ : State} : x.key = .str name →
    self.evaluate x.object s₀ = .ok (.object r) s → ¬es.Has (.str name) →
    self.expression x.toNode s₀ =
      .error (.fault ((Cause.propertyNotFound name).faultAt x.line x.column)) s

theorem Value.sequence?_of_extends {h h' : Heap} (hh' : h.Extends h') {v x : Value}
    {items : List Value} (hv : v.sequence? h = some (x :: items)) :
    v.sequence? h' = some (x :: items) := by
  unfold sequence? at hv ⊢
  split at hv
  · rename_i r
    cases hr : h.read r with
    | none => simp [Heap.items, hr] at hv
    | some c =>
      rw [Heap.items, hh' hr]
      rwa [Heap.items, hr] at hv
  · exact hv
  · cases hv

/-- Each entry becomes a new list of its key and its value, and stays one when more cells are
added. -/
theorem Library.Objects.newLists_ok (es : Entries) (h : Heap) :
    ∃ lists h', (es.mapM fun e => Action.newList #[e.1, e.2]) h = .ok lists h' ∧ h.Extends h' ∧
      ∀ h'', h'.Extends h'' → lists.map (Value.sequence? h'') = es.map fun e =>
        some [e.1, e.2] := by
  induction es generalizing h with
  | nil => exact ⟨[], h, rfl, .refl h, fun _ _ => rfl⟩
  | cons e es ih =>
    obtain ⟨lists, h', hmap, hextends, hlists⟩ := ih (h.withCell (.list #[e.1, e.2]))
    refine ⟨.list h.size :: lists, h', ?_, (h.extends_withCell _).trans hextends,
      fun h'' hh'' => ?_⟩
    · rw [List.mapM_cons, Action.bind_ok (Action.newList_ok _ h), Action.bind_ok hmap]
      rfl
    · have hfirst : (Value.list h.size).sequence? (h.withCell (.list #[e.1, e.2])) =
          some [e.1, e.2] := by
        simp [Value.sequence?]
      rw [List.map_cons, List.map_cons, hlists h'' hh'',
        Value.sequence?_of_extends (hextends.trans hh'') hfirst]

namespace Evaluator

variable {self : Evaluator} {s : State} {r : Ref} {es : Entries}

theorem objectMethod_pairs (self : Evaluator) (s : State) (r : Ref) :
    ∃ q t, self.objectMethod "lamaane" (.object r) [] s = .ok (.list q) t ∧
      s.heap.Extends t.heap ∧ t.withHeap s.heap = s ∧
      (t.heap.items q).toList.map (Value.sequence? t.heap) =
        (s.heap.entries r).map fun e => some [e.1, e.2] := by
  obtain ⟨lists, h, hmap, hextends, hlists⟩ := Library.Objects.newLists_ok (s.heap.entries r) s.heap
  have hpairs : Library.Objects.pairs (.object r) s.heap =
      .ok (.list h.size) (h.withCell (.list lists.toArray)) := by
    change ((s.heap.entries r).mapM (fun e => Action.newList #[e.1, e.2]) >>= fun lists =>
      Action.newList lists.toArray) s.heap = _
    rw [Action.bind_ok hmap]
    rfl
  refine ⟨_, _, act_ok hpairs, hextends.trans (h.extends_withCell _), rfl, ?_⟩
  rw [State.heap_withHeap, Heap.items_withCell_self, hlists _ (h.extends_withCell _)]

theorem objectMethod_has {k : Value} (hk : k.unhashable? = none) (self : Evaluator)
    (s : State) (r : Ref) :
    self.objectMethod "leeyahay" (.object r)
    [k] s = .ok (.bool (decide ((s.heap.entries r).Has k))) s := by
  have hhas : ((s.heap.entries r).get? k).isSome = decide ((s.heap.entries r).Has k) := by
    rw [Bool.eq_iff_iff, decide_eq_true_iff, Entries.isSome_get?_iff]
  change act (Action.ofExcept k.asKey >>=
    fun key => pure (Value.bool ((s.heap.entries r).get? key).isSome)) s = _
  rw [Value.asKey_eq hk, ← hhas]
  rfl

theorem callNamed_length (hfunctions : s.functions.get? "dherer" = none)
    (self : Evaluator) (r : Ref) :
    self.callNamed "dherer" [.object r] s = .ok (.int (s.heap.entries r).length) s := by
  have hfunction : s.function? "dherer" = some (.library .length) := by
    rw [State.function?, hfunctions]
    rfl
  rw [callNamed, get_bind]
  simp only [hfunction]
  rfl

theorem shows (hchild : self.child = Node.child) (hr : s.heap.read r = some (.object es)) :
    self.Shows s r es := by
  obtain rfl : s.heap.entries r = es := Heap.entries_of_read hr
  exact {
    keys := ⟨_, _, rfl, s.gains_withCell _⟩
    values := ⟨_, _, rfl, s.gains_withCell _⟩
    pairs := by
      simpa [Entries.keys, Entries.values, List.zip_map'] using objectMethod_pairs self s r
    length := fun hfunctions => by simpa [Entries.keys] using callNamed_length hfunctions self r
    has := fun hk => objectMethod_has hk self s r
    named := Entries.has_str_iff
    found := fun {x name s₀} hkey hobject hname => by
      obtain ⟨v, hv⟩ := Option.isSome_iff_exists.mp (Entries.isSome_get?_iff.mpr hname)
      refine ⟨v, hv, ?_⟩
      rw [ObjectPlace.expression_toNode hchild hkey hobject, hv]
      rfl
    missing := fun {x name s₀} hkey hobject hname => by
      rw [ObjectPlace.expression_toNode hchild hkey hobject, Entries.get?_eq_none_iff.mpr hname]
      rfl }

end Evaluator

/-! ## What changes an object -/

/-- A value was put under a key: in the place of the old value if the key was there, and at the end
if not. -/
structure Entries.PutAt (es : Entries) (k v : Value) (es' : Entries) : Prop where
  old : es.Has k → ∃ before k' old after, es = before ++ (k', old) :: after ∧ k'.sameKey k = true ∧
    es' = before ++ (k', v) :: after
  new : ¬es.Has k → es' = es ++ [(k, v)]

/-- A key was taken away, if it was there, and nothing else. -/
structure Entries.TakenFrom (es : Entries) (k : Value) (es' : Entries) : Prop where
  old : es.Has k → ∃ before k' old after, es = before ++ (k', old) :: after ∧ k'.sameKey k = true ∧
    es' = before ++ after
  missing : ¬es.Has k → es' = es
  gone : ¬es'.Has k

/-- Assigning to a property, taking a key away and clearing change the object and nothing else. -/
structure Evaluator.Updates (self : Evaluator) (s : State) (r : Ref) (es : Entries) : Prop where
  assign {x : ObjectPlace} {value : Node} {v : Value} {s₀ s₁ : State} (line column : Option Nat) :
    x.key.unhashable? = none → self.evaluate value s₀ = .ok v s₁ →
      self.evaluate x.object s₁ = .ok (.object r) s →
    ∃ t es', self.statement (x.assign value line column) s₀ = .ok v t ∧ s.Sets t r (.object es') ∧
      es.PutAt x.key v es'
  remove {k : Value} : k.unhashable? = none →
    ∃ t es', self.objectMethod "tir" (.object r) [k] s = .ok (.object r) t ∧
      s.Sets t r (.object es') ∧
      es.TakenFrom k es'
  clear : ∃ t, self.objectMethod "nadiifi" (.object r) [] s = .ok (.object r) t ∧
    s.Sets t r (.object [])

namespace Evaluator

variable {self : Evaluator} {s : State} {r : Ref} {es : Entries}

theorem objectMethod_remove (self : Evaluator) (r : Ref) (k : Value) :
    self.objectMethod "tir" (.object r) [k] = act (do
      let key ← Action.ofExcept k.asKey
      Action.setEntries r ((← Action.entries r).remove key)
      return .object r) := rfl

theorem updates (hchild : self.child = Node.child) (hd : s.heap.KeysDistinct)
    (hr : s.heap.read r = some (.object es)) : self.Updates s r es := by
  obtain rfl : s.heap.entries r = es := Heap.entries_of_read hr
  refine ⟨fun {x value v s₀ s₁} line column hkey hvalue hobject => ?_, fun {k} hk => ?_, ?_⟩
  · refine ⟨_, _, ?_, State.sets_write hr _, ⟨Entries.put_of_has v, Entries.put_of_not_has v⟩⟩
    rw [ObjectPlace.statement_assign hchild hvalue hobject, bind_ok (act_asKey hkey s)]
    rfl
  · refine ⟨_, _, ?_, State.sets_write hr (.object ((s.heap.entries r).remove k)),
      ⟨Entries.remove_of_has (hd r _ hr), Entries.remove_of_not_has, Entries.not_has_remove _ k⟩⟩
    rw [objectMethod_remove, Value.asKey_eq hk]
    rfl
  · exact ⟨_, rfl, State.sets_write hr _⟩

end Evaluator

/-! ## New objects -/

/-- One change of the keys or values of an object, once everything that is needed for it was
evaluated. -/
inductive Evaluator.Alters (self : Evaluator) (q : Ref) (s t : State) : Prop
  | assign {x : ObjectPlace} {value : Node} {line column : Option Nat} {v a : Value}
      {s₀ s₁ : State} :
    self.evaluate value s₀ = .ok v s₁ → self.evaluate x.object s₁ = .ok (.object q) s →
    self.statement (x.assign value line column) s₀ = .ok a t → Alters self q s t
  | remove {k a : Value} : self.objectMethod "tir" (.object q) [k] s = .ok a t → Alters self q s t
  | clear {a : Value} : self.objectMethod "nadiifi" (.object q) [] s = .ok a t → Alters self q s t

/-- Copying an object and merging it with another one makes a new object. Its keys and values may be
changed without changing anything that was there before. -/
structure Evaluator.Copies (self : Evaluator) (s : State) (r : Ref) (es : Entries) : Prop where
  copy : ∃ q t, self.objectMethod "nuqul" (.object r) [] s = .ok (.object q) t ∧
    s.Gains t q (.object es) ∧
    ∀ u, Relation.ReflTransGen (self.Alters q) t u → s.heap.Extends u.heap
  merge {r' : Ref} {es' : Entries} : s.heap.read r' = some (.object es') →
    ∃ q t merged, self.objectMethod "kudar" (.object r) [.object r'] s = .ok (.object q) t ∧
      s.Gains t q (.object merged) ∧ merged.keys = es.keys ++ es'.keys.filter (fun k => ¬es.Has k) ∧
      (∀ k, merged.get? k = (es'.get? k).or (es.get? k)) ∧
      ∀ u, Relation.ReflTransGen (self.Alters q) t u → s.heap.Extends u.heap

namespace Evaluator

variable {self : Evaluator} {s t : State} {q r : Ref} {es : Entries}

theorem Alters.read (hchild : self.child = Node.child) (h : self.Alters q s t) {p : Ref}
    (hp : p ≠ q) :
    t.heap.read p = s.heap.read p := by
  cases h with
  | assign hvalue hobject h =>
    rw [ObjectPlace.statement_assign hchild hvalue hobject] at h
    obtain ⟨key, u, hkey, hset⟩ := of_bind_ok h
    obtain rfl := state_of_act_ofExcept hkey
    obtain ⟨_, u', hwrite, hreturn⟩ := of_bind_ok hset
    cases hwrite
    cases hreturn
    exact Heap.read_write_of_ne _ hp
  | @remove k a h =>
    rw [objectMethod_remove] at h
    cases hk : k.asKey with
    | error e =>
      rw [hk] at h
      cases h
    | ok key =>
      rw [hk] at h
      cases h
      exact Heap.read_write_of_ne _ hp
  | clear h =>
    cases h
    exact Heap.read_write_of_ne _ hp

theorem extends_of_alters (hchild : self.child = Node.child) {c : Cell} {u : State}
    (hgains : s.Gains t q c) (h : Relation.ReflTransGen (self.Alters q) t u) :
    s.heap.Extends u.heap := by
  intro p d hp
  have hread : u.heap.read p = t.heap.read p := by
    induction h with
    | refl => rfl
    | tail _ hstep ih => rw [hstep.read hchild (hgains.ne hp), ih]
  rw [hread, hgains.read hp]

theorem copies (hchild : self.child = Node.child) (hd : s.heap.KeysDistinct)
    (hr : s.heap.read r = some (.object es)) : self.Copies s r es := by
  obtain rfl : s.heap.entries r = es := Heap.entries_of_read hr
  refine ⟨⟨_, _, rfl, s.gains_withCell _, fun u => extends_of_alters hchild (s.gains_withCell _)⟩,
    ?_⟩
  intro r' es' hr'
  obtain rfl : s.heap.entries r' = es' := Heap.entries_of_read hr'
  have hdistinct := hd r' _ hr'
  refine ⟨_, _, (s.heap.entries r).putAll (s.heap.entries r'), rfl, s.gains_withCell _, ?_,
    fun k => ?_, fun u => extends_of_alters hchild (s.gains_withCell _)⟩
  · rw [Entries.keys_putAll, Entries.firsts_of_distinct hdistinct]
  · rw [Entries.get?_putAll, Entries.get?_reverse hdistinct]

theorem fillObject_ok (hchild : self.child = Node.child) {pairs : List (Value × Node)}
    {vs : List Value} (hkeys : ∀ e ∈ pairs, e.1.unhashable? = none)
    (h : (pairs.map (·.2)).mapM self.evaluate s = .ok vs t) (es : Entries) :
    vs.length = pairs.length ∧
      self.fillObject (objectLiteral pairs).children es s =
        .ok (es.putAll ((pairs.map (·.1)).zip vs)) t := by
  induction pairs generalizing es s vs with
  | nil =>
    cases h
    exact ⟨rfl, rfl⟩
  | cons e pairs ih =>
    rw [List.map_cons, List.mapM_cons] at h
    obtain ⟨v, s₁, hv, h⟩ := of_bind_ok h
    obtain ⟨vs', s₂, hvs, h⟩ := of_bind_ok h
    cases h
    obtain ⟨hlength, hfill⟩ :=
      ih (fun e he => hkeys e (List.mem_cons_of_mem _ he)) hvs (es.put e.1 v)
    refine ⟨congrArg (· + 1) hlength, ?_⟩
    let entry : Node := { kind := .literal, value := e.1, children := [e.2] }
    have hfirst : self.child entry 0 = pure e.2 := by rw [hchild]; rfl
    have hkey : entry.value.unhashable? = none := hkeys e List.mem_cons_self
    change self.fillObject (entry :: (objectLiteral pairs).children) es s = _
    rw [fillObject, hfirst, pure_bind, bind_ok hv, bind_ok (act_asKey hkey s₁)]
    exact hfill

/-- An object literal lists each key where it comes first, with the value that comes last. -/
theorem expression_objectLiteral (hchild : self.child = Node.child) {pairs : List (Value × Node)}
    {vs : List Value} {s₀ : State} (hkeys : ∀ e ∈ pairs, e.1.unhashable? = none)
    (hvs : (pairs.map (·.2)).mapM self.evaluate s₀ = .ok vs s) :
    ∃ q t es, self.expression (objectLiteral pairs) s₀ = .ok (.object q) t ∧
    s.Gains t q (.object es) ∧
      es.keys = Value.firsts (pairs.map (·.1)) ∧
      ∀ k, es.get? k = Entries.get? ((pairs.map (·.1)).zip vs).reverse k := by
  obtain ⟨hlength, hfill⟩ := fillObject_ok hchild hkeys hvs []
  have hzip : Entries.keys ((pairs.map (·.1)).zip vs) = pairs.map (·.1) :=
    List.map_fst_zip (by simp [hlength])
  refine ⟨_, _, Entries.putAll [] ((pairs.map (·.1)).zip vs),
    (bind_ok hfill).trans (act_ok (Action.newObject_ok _ _)), s.gains_withCell _, ?_, fun k => ?_⟩
  · rw [Entries.keys_putAll, hzip]
    simp [Entries.keys]
  · rw [Entries.get?_putAll]
    exact Option.or_none

end Evaluator

/-- Objects are maps that keep their keys in order. In every state that programs can reach, the keys
of every object are distinct; the methods and properties show its entries as `Evaluator.Shows` says;
assigning to a property puts the value in the place of the old one or at the end, and taking keys
away leaves the others in their places (`Evaluator.Updates`); and copies and merged objects have
their keys in order and are independent of the objects they were made from (`Evaluator.Copies`). A
literal whose values were evaluated in this state makes a new object with each key where it comes
first and under it the value that comes last. -/
theorem objects_ordered (self : Evaluator) (hchild : self.child = Node.child) (s : State)
    (hs : s.Reached) :
    (∀ r es, s.heap.read r = some (.object es) →
      es.Distinct ∧ self.Shows s r es ∧ self.Updates s r es ∧ self.Copies s r es) ∧
    ∀ (pairs : List (Value × Node)) (vs : List Value)
    (s₀ : State), (∀ e ∈ pairs, e.1.unhashable? = none) →
      (pairs.map (·.2)).mapM self.evaluate s₀ = .ok vs s →
      ∃ q t es, self.expression (objectLiteral pairs) s₀ = .ok (.object q) t ∧
        s.Gains t q (.object es) ∧
        es.keys = Value.firsts (pairs.map (·.1)) ∧
        ∀ k, es.get? k = Entries.get? ((pairs.map (·.1)).zip vs).reverse k := by
  refine ⟨fun r es hr => ?_,
    fun pairs vs s₀ hkeys hvs => self.expression_objectLiteral hchild hkeys hvs⟩
  have hd := hs.keysDistinct
  exact ⟨hd r es hr, self.shows hchild hr, self.updates hchild hd hr, self.copies hchild hd hr⟩

/-- An object made by a literal that repeats a key. -/
theorem objects_ordered_of_repeated :
    let self := Evaluator.upTo 9 8
    let entry (k : String) (i : Int) : Value × Node := (.str k, Parser.literal (.int i))
    let pairs := [entry "a" 1, entry "b" 2, entry "a" 3]
    ∃ t es, self.expression (objectLiteral pairs) {} = .ok (.object 0) t ∧ t.Reached ∧
      t.heap.read 0 = some (.object es) ∧ es.keys = [.str "a", .str "b"] ∧
        es.get? (.str "a") = some (.int 3) ∧
      es.Distinct ∧ self.Shows t 0 es ∧ self.Updates t 0 es ∧ self.Copies t 0 es := by
  intro self entry pairs
  have hchild : self.child = Node.child := rfl
  have hkeys : ∀ e ∈ pairs, e.1.unhashable? = none := by simp [pairs, entry, Value.unhashable?]
  have hvs : (pairs.map (·.2)).mapM self.evaluate {} = .ok [.int 1, .int 2, .int 3] {} := rfl
  obtain ⟨q, t, es, hrun, hgains, hfirsts, hlast⟩ :=
    (objects_ordered self hchild {} (.start rfl)).2 pairs _ {} hkeys hvs
  obtain rfl : q = 0 := by
    have hlt := Heap.lt_size_of_read hgains.cell
    rw [hgains.size] at hlt
    exact Nat.lt_one_iff.mp hlt
  have hrun' : (Limits.mk 9 9).evaluator.evaluate (objectLiteral pairs) {} = .ok (.object 0) t :=
    hrun
  have hreached : t.Reached := after_of_ok hrun' ▸ .evaluate _ _ (.start rfl)
  refine ⟨t, es, hrun, hreached, hgains.cell, ?_, ?_,
    (objects_ordered self hchild t hreached).1 0 es hgains.cell⟩
  · rw [hfirsts]
    decide
  · rw [hlast]
    decide

end Luuqad

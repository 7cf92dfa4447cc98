import Luuqad.Proofs.Control.Definitions
import Luuqad.Proofs.Run.Evolution
import Luuqad.Proofs.Run.Outlasting

/-!
# Functions called on the items of a list

Two methods of lists call a function on each item. They do not call it by its name: the function is
looked up once, and for each item its parameter is set, its body is run and the variables are put
back. Here this is compared with ordinary calls, one for each item, while the places of the list are
gone through as long as there is an item there (`Visits`). As long as the function is not defined
anew in between, the outcome is the same (`callbacks_called`).
-/

namespace Luuqad

open Run

/-! ## Going through a list with ordinary calls -/

/-- An ordinary call of a function on a value. -/
def Evaluator.callOn (self : Evaluator) (name : String) (v : Value) : Run Value :=
  self.call { kind := .call, value := .str name, children := [Parser.literal v] }

/-- From place `i` of a list on, the items are asked about one after the other, each as it is when
it is its turn, until there is no item at the place. What is gathered in the state after each answer
is collected. An interrupt ends this. -/
inductive Visits (ask : Value → Run Value) (gather : State → Value → Value → List Value) (r : Ref) :
    Nat → State → EStateM.Result Interrupt State (List Value) → Prop
  | past {i : Nat} {s : State} : (s.heap.items r).size ≤ i → Visits ask gather r i s (.ok [] s)
  | turn {i : Nat} {s t u : State} {v answer : Value} {rest : List Value} :
    (s.heap.items r)[i]? = some v → ask v s = .ok answer t →
      Visits ask gather r (i + 1) t (.ok rest u) →
    Visits ask gather r i s (.ok (gather t v answer ++ rest) u)
  | later {i : Nat} {s t u : State} {v answer : Value} {e : Interrupt} :
    (s.heap.items r)[i]? = some v → ask v s = .ok answer t →
      Visits ask gather r (i + 1) t (.error e u) →
    Visits ask gather r i s (.error e u)
  | interrupted {i : Nat} {s t : State} {v : Value} {e : Interrupt} :
    (s.heap.items r)[i]? = some v → ask v s = .error e t → Visits ask gather r i s (.error e t)

/-- On the way from place `i` of the list on, it is the turn of an item in this state. -/
inductive TurnIn (ask : Value → Run Value) (r : Ref) : Nat → State → State → Prop
  | here {i : Nat} {s : State} {v : Value} : (s.heap.items r)[i]? = some v → TurnIn ask r i s s
  | later {i : Nat} {s t u : State} {v answer : Value} : (s.heap.items r)[i]? = some v →
    ask v s = .ok answer t → TurnIn ask r (i + 1) t u → TurnIn ask r i s u

/-- What was gathered becomes a new list. -/
def collected : EStateM.Result Interrupt State (List Value) → EStateM.Result Interrupt State Value
  | .ok vs u => .ok (.list u.heap.size) (u.withHeap (u.heap.withCell (.list vs.toArray)))
  | .error e u => .error e u

theorem exhausted_collected {p : EStateM.Result Interrupt State (List Value)} :
    Exhausted (collected p) ↔ Exhausted p := by
  cases p <;> simp [Exhausted, collected]

theorem collected_eq (x : Run (List Value)) (s : State) :
    (x >>= fun items => act (Action.newList items.toArray)) s = collected (x s) := by
  cases h : x s with
  | ok vs u => exact bind_ok h
  | error e u => exact bind_error h

theorem Visits.evolves {ask : Value → Run Value} {gather : State → Value → Value → List Value}
    {r : Ref} {i : Nat} {s u : State} {p : EStateM.Result Interrupt State (List Value)}
    {vs : List Value} (hask : ∀ v, Evolves (ask v)) (h : Visits ask gather r i s p)
    (hp : p = .ok vs u) : s.heap.Evolves u.heap := by
  induction h generalizing vs with
  | past _ =>
    cases hp
    exact .refl _
  | turn _ hanswer _ ih =>
    cases hp
    exact ((hask _).of_ok hanswer).trans (ih rfl)
  | later _ _ _ _ => cases hp
  | interrupted _ _ => cases hp

namespace Library

variable {ask answer : Value → Run Value} {gather : State → Value → Value → List Value}
  {keep : Value → Value → Run (List Value)} {r : Ref} {i : Nat} {s t : State} {v w : Value}
    {e : Interrupt}
  {p : EStateM.Result Interrupt State (List Value)}

/-- The library's way through a list from place `i` on, where `answer` answers for each item. -/
abbrev through (answer : Value → Run Value) (keep : Value → Value → Run (List Value)) (r : Ref)
    (i fuel : Nat) :
    Run (List Value) := eachItem r (fun v => do keep v (← answer v)) i fuel

theorem through_past (fuel : Nat) (h : (s.heap.items r).size ≤ i) :
    through answer keep r i (fuel + 1) s = .ok [] s := by
  have hnone : (s.heap.items r)[i]? = none := Array.getElem?_eq_none h
  rw [through, eachItem, get_bind]
  simp only [hnone]
  rfl

theorem through_eq (fuel : Nat) (hv : (s.heap.items r)[i]? = some v) :
    through answer keep r i (fuel + 1) s = (do
      let here ← answer v >>= keep v
      return here ++ (← through answer keep r (i + 1) fuel)) s := by
  rw [through, eachItem, get_bind]
  simp only [hv]

theorem through_interrupted (fuel : Nat) (hv : (s.heap.items r)[i]? = some v)
    (hanswer : answer v s = .error e t) :
    through answer keep r i (fuel + 1) s = .error e t := by
  have hstep : (answer v >>= keep v) s = .error e t := bind_error hanswer
  rw [through_eq fuel hv, bind_error hstep]

theorem through_turn (hkeep : ∀ v w t, keep v w t = .ok (gather t v w) t) (fuel : Nat)
    (hv : (s.heap.items r)[i]? = some v) (hanswer : answer v s = .ok w t) :
    through answer keep r i (fuel + 1) s =
      (do return gather t v w ++ (← through answer keep r (i + 1) fuel) : Run (List Value)) t := by
  have hstep : (answer v >>= keep v) s = .ok (gather t v w) t :=
    (bind_ok hanswer).trans (hkeep v w t)
  rw [through_eq fuel hv, bind_ok hstep]

theorem visits_of_through (hkeep : ∀ v w t, keep v w t = .ok (gather t v w) t) {fuel : Nat}
    (hsame : ∀ t v, TurnIn ask r i s t → answer v t = ask v t)
    (h : through answer keep r i fuel s = p) (hp : ¬Exhausted p) : Visits ask gather r i s p := by
  induction fuel generalizing i s p with
  | zero => exact absurd ⟨s, h.symm⟩ hp
  | succ fuel ih =>
    cases hv : (s.heap.items r)[i]? with
    | none =>
      have hpast := Array.getElem?_eq_none_iff.mp hv
      rw [through_past fuel hpast] at h
      exact h ▸ .past hpast
    | some v =>
      have hanswer : answer v s = ask v s := hsame s v (.here hv)
      cases hask : ask v s with
      | error e t =>
        rw [through_interrupted fuel hv (hanswer.trans hask)] at h
        exact h ▸ .interrupted hv hask
      | ok w t =>
        rw [through_turn hkeep fuel hv (hanswer.trans hask)] at h
        have hlast (u : State) (x : Value) (hu : TurnIn ask r (i + 1) t u) : answer x u = ask x u :=
          hsame u x (.later hv hask hu)
        cases hrest : through answer keep r (i + 1) fuel t with
        | ok rest u =>
          rw [bind_ok hrest] at h
          exact h ▸ .turn hv hask (ih hlast hrest (by simp [Exhausted]))
        | error e u =>
          rw [bind_error hrest] at h
          subst h
          exact .later hv hask (ih hlast hrest hp)

/-- If going through a list with questions comes to an end, the library's way through it ends in the
same way, as long as it may take enough rounds. -/
theorem through_of_visits (hkeep : ∀ v w t, keep v w t = .ok (gather t v w) t)
    (h : Visits ask gather r i s p) (hp : ¬Exhausted p) :
    ∃ n, ∀ answer : Value → Run Value,
      (∀ t v, TurnIn ask r i s t → ¬Exhausted (ask v t) → answer v t = ask v t) →
      ∀ fuel, n ≤ fuel → through answer keep r i fuel s = p := by
  induction h with
  | past hpast =>
    refine ⟨1, fun answer _ fuel hfuel => ?_⟩
    obtain ⟨fuel, rfl⟩ := Nat.exists_eq_add_of_le' hfuel
    exact through_past fuel hpast
  | @turn i s t u v w rest hv hask _ ih =>
    obtain ⟨n, hn⟩ := ih (by simp [Exhausted])
    refine ⟨n + 1, fun answer hsame fuel hfuel => ?_⟩
    obtain ⟨fuel, rfl⟩ := Nat.exists_eq_add_of_le' hfuel
    have hanswer : answer v s = .ok w t :=
      (hsame s v (.here hv) (by simp [hask, Exhausted])).trans hask
    have hrest :=
      hn answer (fun u x hu => hsame u x (.later hv hask hu)) (fuel + n) (Nat.le_add_left _ _)
    rw [← Nat.add_assoc, through_turn hkeep _ hv hanswer, bind_ok hrest]
    rfl
  | @later i s t u v w e hv hask _ ih =>
    obtain ⟨n, hn⟩ := ih hp
    refine ⟨n + 1, fun answer hsame fuel hfuel => ?_⟩
    obtain ⟨fuel, rfl⟩ := Nat.exists_eq_add_of_le' hfuel
    have hanswer : answer v s = .ok w t :=
      (hsame s v (.here hv) (by simp [hask, Exhausted])).trans hask
    have hrest :=
      hn answer (fun u x hu => hsame u x (.later hv hask hu)) (fuel + n) (Nat.le_add_left _ _)
    rw [← Nat.add_assoc, through_turn hkeep _ hv hanswer, bind_error hrest]
  | @interrupted i s t v e hv hask =>
    refine ⟨1, fun answer hsame fuel hfuel => ?_⟩
    obtain ⟨fuel, rfl⟩ := Nat.exists_eq_add_of_le' hfuel
    have hended : ¬Exhausted (ask v s) := by simpa [hask, Exhausted] using hp
    exact through_interrupted fuel hv ((hsame s v (.here hv) hended).trans hask)

end Library

/-! ## The two methods -/

/-- The methods of lists that call a function on each item. -/
inductive ItemMethod
  /-- Makes a list of the answers. -/
  | map
  /-- Makes a list of the items for which the answer counts as true. -/
  | filter
deriving DecidableEq, Repr

namespace ItemMethod

def name : ItemMethod → String
  | map => "aaddin"
  | filter => "shaandhee"

def builtin : ItemMethod → Builtin
  | map => .listMap
  | filter => .listFilter

/-- What an answer about an item adds to the new list, in the state after the answer. -/
def gather : ItemMethod → State → Value → Value → List Value
  | map, _, _, answer => [answer]
  | filter, t, item, answer => if answer.isTrue t.heap then [item] else []

/-- What the library adds to the new list. -/
def keep : ItemMethod → Value → Value → Run (List Value)
  | map, _, answer => return [answer]
  | filter, item, answer => do return if ← Run.isTrue answer then [item] else []

theorem keep_ok (method : ItemMethod) (v w : Value) (t : State) :
    method.keep v w t = .ok (method.gather t v w) t := by
  cases method with
  | map => rfl
  | filter => rfl

/-- The tree names the function to call: it is a text with the name or, where items are selected,
the name itself. -/
inductive Names (method : ItemMethod) (function : String) (n : Node) : Prop
  | text : n.kind = .literal → n.value = .str function → Names method function n
  | name : method = filter → n.kind = .identifier → n.value = .str function →
      Names method function n

def toNode (method : ItemMethod) (list argument : Node) : Node :=
  { kind := .methodCall, value := .str method.name, children := [list, argument] }

end ItemMethod

namespace Evaluator

variable {self : Evaluator} {name parameter : String} {f : UserFunction} {s s₀ : State} {r : Ref}
  {method : ItemMethod} {list argument : Node}

theorem onItem_eq_callNamed (hf : s.functions.get? name = some f) (hparams : f.params = [parameter])
    (v : Value) :
    self.onItem f v s = self.callNamed name [v] s := by
  rw [callNamed_of_user hf, onItem, hparams]
  rfl

theorem callOn_eq_callNamed (rounds depth : Nat) (name : String) (v : Value) :
    (upTo rounds (depth + 1)).callOn name v = (upTo rounds (depth + 1)).callNamed name [v] := by
  have hliteral : (upTo rounds (depth + 1)).evaluate (Parser.literal v) = pure v := rfl
  change ([Parser.literal v].mapM _ >>= fun args => callNamed _ name args) = _
  rw [List.mapM_cons, List.mapM_nil, hliteral]
  rfl

theorem listArgument_ok (hliteral : ∀ n : Node, n.kind = .literal → self.evaluate n = pure n.value)
    (hf : s.functions.get? name = some f) (hargument : method.Names name argument) :
    self.listArgument method.name argument s = .ok (.str name) s := by
  cases hargument with
  | text hkind hvalue =>
    have hother : ¬(method.name = "shaandhee" ∧ argument.kind = .identifier) := by simp [hkind]
    rw [listArgument, if_neg hother, hliteral argument hkind, hvalue]
    rfl
  | name hmethod hkind hvalue =>
    subst hmethod
    have hname : Run.nameOf (.str name) s = .ok name s := rfl
    have hfound : (s.function? name).isSome = true := by simp [State.function?, hf]
    rw [listArgument, if_pos ⟨rfl, hkind⟩, hvalue, bind_ok hname, get_bind, if_pos hfound]
    rfl

theorem listMethod_eq (hf : s.functions.get? name = some f) :
    self.listMethod method.name (.list r) [.str name] s =
      (do
        let items ← Library.through (self.onItem f) method.keep r 0 self.rounds
        act (Action.newList items.toArray) : Run Value) s := by
  have hfound : s.function? name = some (.user f) := by simp [State.function?, hf]
  have hfunction : listArguments s method.name [.str name] = [.user f] := by
    cases method <;> simp [listArguments, takesFunction, ItemMethod.name, hfound]
  have hcall : self.listMethod method.name (.list r) [.str name] s =
      self.callLibrary method.builtin (.value (.list r) :: listArguments s method.name [.str name])
        s := by
    cases method <;> rfl
  rw [hcall, hfunction]
  cases method <;> rfl

theorem methodCall_eq (hchild : self.child = Node.child)
    (hliteral : ∀ n : Node, n.kind = .literal → self.evaluate n = pure n.value)
    (hlist : self.evaluate list s₀ = .ok (.list r) s) (hf : s.functions.get? name = some f)
    (hargument : method.Names name argument) :
    self.methodCall (method.toNode list argument) s₀ =
      (do
        let items ← Library.through (self.onItem f) method.keep r 0 self.rounds
        act (Action.newList items.toArray) : Run Value) s := by
  have hfirst : self.child (method.toNode list argument) 0 = pure list := by rw [hchild]; rfl
  have hname : methodName (.list r) (method.toNode list argument).value s = .ok method.name s := rfl
  have hknown : (Builtin.listMethods.lookup method.name).isNone = false := by cases method <;> rfl
  have hrest : (method.toNode list argument).children.drop 1 = [argument] := rfl
  have harguments : [argument].mapM (self.listArgument method.name) s = .ok [.str name] s := by
    rw [List.mapM_cons, bind_ok (listArgument_ok hliteral hf hargument)]
    rfl
  rw [methodCall, hfirst, pure_bind, bind_ok hlist, bind_ok hname]
  simp only [hrest, hknown]
  exact (bind_ok harguments).trans (listMethod_eq hf)

theorem onItem_eq_callOn (hf : s.functions.get? name = some f) (hparams : f.params = [parameter])
    (rounds depth : Nat) (v : Value) :
    (upTo rounds (depth + 1)).onItem f v s = (upTo rounds (depth + 1)).callOn name v s := by
  rw [callOn_eq_callNamed, onItem_eq_callNamed hf hparams]

theorem evaluate_toNode {rounds depth : Nat}
    (hlist : (upTo rounds (depth + 1)).evaluate list s₀ = .ok (.list r) s)
    (hf : s.functions.get? name = some f) (hargument : method.Names name argument) :
    (upTo rounds (depth + 2)).evaluate (method.toNode list argument) s₀ =
      collected
        (Library.through ((upTo rounds (depth + 1)).onItem f) method.keep r 0 rounds s) := by
  have hliteral (n : Node) (hn : n.kind = .literal) : (upTo rounds (depth + 1)).evaluate n =
      pure n.value := by
    change (upTo rounds depth).expression n = _
    simp only [expression, hn]
  change (upTo rounds (depth + 1)).methodCall (method.toNode list argument) s₀ = _
  rw [methodCall_eq rfl hliteral hlist hf hargument, collected_eq]
  rfl

theorem methodCall_exhausted (hchild : self.child = Node.child)
    (h : Exhausted (self.evaluate list s₀)) :
    Exhausted (self.methodCall (method.toNode list argument) s₀) := by
  obtain ⟨t, ht⟩ := h
  have hfirst : self.child (method.toNode list argument) 0 = pure list := by rw [hchild]; rfl
  refine ⟨t, ?_⟩
  rw [methodCall, hfirst, pure_bind, bind_error ht]

end Evaluator

section Outcome

variable {method : ItemMethod} {list argument : Node} {name parameter : String}
    {f : UserFunction} {r : Ref}
  {s₀ s : State} {l₀ : Limits}

/-- Every outcome of the method call that is not for want of limits is one of going through the list
with calls. -/
theorem visits_of_evaluate (hf : s.functions.get? name = some f) (hparams : f.params = [parameter])
    (hargument : method.Names name argument)
    (hlist : l₀.evaluator.evaluate list s₀ = .ok (.list r) s) (hkept : ∀ (l : Limits) (t : State),
      TurnIn (l.evaluator.callOn name) r 0 s t → t.functions.get? name = some f)
    {l : Limits} (hl : ¬Exhausted (l.evaluator.evaluate (method.toNode list argument) s₀)) :
    ∃ (k : Limits) (p : EStateM.Result Interrupt State (List Value)),
      Visits (k.evaluator.callOn name) method.gather r 0 s p ∧
      l.evaluator.evaluate (method.toNode list argument) s₀ = collected p := by
  obtain ⟨depth, rounds⟩ := l
  cases depth with
  | zero => exact absurd ⟨s₀, rfl⟩ hl
  | succ depth =>
    have hinner :=
      Limits.exhausted_or_of_ok (fun h => (Limits.outlastedBy h).evaluate list) hlist
        ⟨depth, rounds⟩
    rcases hinner with hexhausted | hinner
    · exact absurd (Evaluator.methodCall_exhausted (Evaluator.child_upTo rounds depth) hexhausted)
        hl
    · cases depth with
      | zero => cases hinner
      | succ depth =>
        have houtcome := Evaluator.evaluate_toNode hinner hf hargument
        change ¬Exhausted ((Evaluator.upTo rounds (depth + 2)).evaluate _ s₀) at hl
        rw [houtcome, exhausted_collected] at hl
        refine ⟨⟨depth + 1, rounds⟩, _, Library.visits_of_through method.keep_ok
          (fun t v ht => ?_) rfl hl, houtcome⟩
        exact Evaluator.onItem_eq_callOn (hkept _ t ht) hparams rounds depth v

/-- Every outcome of going through the list with calls that is not for want of limits is one of the
method call. -/
theorem evaluate_of_visits (hf : s.functions.get? name = some f) (hparams : f.params = [parameter])
    (hargument : method.Names name argument)
    (hlist : l₀.evaluator.evaluate list s₀ = .ok (.list r) s) {l : Limits}
    {p : EStateM.Result Interrupt State (List Value)}
    (hkept : ∀ t : State, TurnIn (l.evaluator.callOn name) r 0 s t → t.functions.get? name = some f)
    (hvisits : Visits (l.evaluator.callOn name) method.gather r 0 s p) (hp : ¬Exhausted p) :
    ∃ k : Limits, k.evaluator.evaluate (method.toNode list argument) s₀ = collected p := by
  obtain ⟨n, hn⟩ := Library.through_of_visits method.keep_ok hvisits hp
  -- Limits that are large enough for the list, for each of the calls, and for as many rounds as
  -- there are turns.
  let depth := max l.depth l₀.depth
  let rounds := max (max l.rounds l₀.rounds) n
  have hcalls : l ≤ ⟨depth + 1, rounds⟩ := Limits.le_def.mpr (by simp only [depth, rounds]; omega)
  have hlists : l₀ ≤ ⟨depth + 1, rounds⟩ := Limits.le_def.mpr (by simp only [depth, rounds]; omega)
  have hinner : (Evaluator.upTo rounds (depth + 1)).evaluate list s₀ = .ok (.list r) s := by
    rcases (Limits.outlastedBy hlists).evaluate list s₀ with ⟨t, ht⟩ | heq
    · rw [hlist] at ht
      cases ht
    · exact heq.trans hlist
  refine ⟨⟨depth + 2, rounds⟩, (Evaluator.evaluate_toNode hinner hf hargument).trans
    (congrArg collected ?_)⟩
  refine hn _ (fun t v ht hended => ?_) rounds (Nat.le_max_right _ _)
  rw [Evaluator.onItem_eq_callOn (hkept t ht) hparams]
  exact ((Limits.outlastedBy hcalls).call _ t).resolve_left hended

end Outcome

/-- Functions called on the items of a list are called as usual. For every state, every list, every
function of the program with one parameter and both methods that take a function: if the name keeps
standing for the function whenever it is the turn of an item, then the outcomes of the method call
are those of going through the list with ordinary calls of the function by its name, from the first
place on until the place is past the end of the list as it is then, and making a new list of the
answers, or of the items for which the answer counts as true. Outcome means the result or the
interrupt, together with the whole state. The new list takes a cell that was not in use, and the
list itself is as the last call left it. -/
theorem callbacks_called (method : ItemMethod) (list argument : Node) (name parameter : String)
    (f : UserFunction) (r : Ref) (items : Array Value) (s₀ s : State)
    (hf : s.functions.get? name = some f) (hparams : f.params = [parameter])
    (hargument : method.Names name argument)
    (hlist : ∃ l : Limits, l.evaluator.evaluate list s₀ = .ok (.list r) s)
    (hr : s.heap.read r = some (.list items)) (hkept : ∀ (l : Limits) (t : State),
      TurnIn (l.evaluator.callOn name) r 0 s t → t.functions.get? name = some f) :
    (∀ out, ¬Exhausted out →
      ((∃ l : Limits, l.evaluator.evaluate (method.toNode list argument) s₀ = out) ↔
        ∃ (l : Limits) (p : EStateM.Result Interrupt State (List Value)),
          Visits (l.evaluator.callOn name) method.gather r 0 s p ∧ out = collected p)) ∧
    ∀ (l : Limits) (vs : List Value) (u : State),
      Visits (l.evaluator.callOn name) method.gather r 0 s (.ok vs u) →
      ∃ t, collected (.ok vs u) = .ok (.list u.heap.size) t ∧
        u.Gains t u.heap.size (.list vs.toArray) ∧
        ∃ c, u.heap.read r = some c ∧ t.heap.read r = some c := by
  obtain ⟨l₀, hl₀⟩ := hlist
  refine ⟨fun out hout => ⟨?_, ?_⟩, fun l vs u hvisits => ?_⟩
  · rintro ⟨l, rfl⟩
    exact visits_of_evaluate hf hparams hargument hl₀ hkept hout
  · rintro ⟨l, p, hvisits, rfl⟩
    exact evaluate_of_visits hf hparams hargument hl₀ (hkept l) hvisits
      (mt exhausted_collected.mpr hout)
  · have hevolves := hvisits.evolves (fun v => (Evaluator.evolves_upTo l.rounds l.depth).call _) rfl
    have hlt : r < u.heap.size := Nat.lt_of_lt_of_le (Heap.lt_size_of_read hr) hevolves.size
    have hgains := u.gains_withCell (.list vs.toArray)
    obtain ⟨c, hc⟩ :=
      Option.ne_none_iff_exists'.mp (mt Heap.read_eq_none_iff.mp (Nat.not_le_of_lt hlt))
    exact ⟨_, rfl, hgains, c, hc, hgains.read hc⟩

/-- A function that gives its argument back selects the second of two items. -/
theorem callbacks_called_of_identity :
    let variableNode (name : String) : Node := { kind := .identifier, value := .str name }
    let f : UserFunction := ⟨["x"], [{ kind := .returnValue, children := [variableNode "x"] }]⟩
    let s : State :=
      { vars := [("l", .list 0)], functions := [("f", f)],
        heap := { cells := #[.list #[.int 0, .int 5]] } }
    (∀ (l : Limits) (t : State), TurnIn (l.evaluator.callOn "f") 0 0 s t →
      t.functions.get? "f" = some f) ∧
      ∃ l : Limits,
        l.evaluator.evaluate (ItemMethod.filter.toNode (variableNode "l") (variableNode "f")) s =
        .ok (.list 1) (s.withHeap (s.heap.withCell (.list #[.int 5]))) := by
  intro variableNode f s
  have hcall (l : Limits) (v w : Value) (t : State) (h : l.evaluator.callOn "f" v s = .ok w t) :
      t = s := by
    obtain ⟨depth, rounds⟩ := l
    cases depth with
    | zero => cases h
    | succ depth =>
      change (Evaluator.upTo rounds (depth + 1)).callOn "f" v s = .ok w t at h
      rw [Evaluator.callOn_eq_callNamed, Evaluator.callNamed_of_user (f := f) rfl] at h
      cases depth with
      | zero => cases h
      | succ depth =>
        cases h
        rfl
  have hturn {ask : Value → Run Value} (hask : ∀ v w t, ask v s = .ok w t → t = s) {i : Nat}
      {s' t : State}
      (h : TurnIn ask 0 i s' t) (hs' : s' = s) : t = s := by
    induction h with
    | here _ => exact hs'
    | later _ hanswer _ ih =>
      subst hs'
      exact ih (hask _ _ _ hanswer)
  have hkept (l : Limits) (t : State) (h : TurnIn (l.evaluator.callOn "f") 0 0 s t) :
      t.functions.get? "f" = some f := by
    rw [hturn (hcall l) h rfl]
    rfl
  refine ⟨hkept, ?_⟩
  have hask (v : Value) : (Limits.mk 4 9).evaluator.callOn "f" v s = .ok v s := rfl
  have hvisits : Visits ((Limits.mk 4 9).evaluator.callOn "f") ItemMethod.filter.gather 0 0 s
      (.ok [.int 5] s) :=
    .turn (v := .int 0) rfl (hask _) (.turn (v := .int 5) rfl (hask _) (.past (by decide)))
  have hcalled :=
    callbacks_called .filter (variableNode "l") (variableNode "f") "f" "x" f 0 _ s s rfl rfl
    (.name rfl rfl rfl) ⟨⟨4, 9⟩, rfl⟩ rfl hkept
  exact (hcalled.1 (collected (.ok [.int 5] s)) (by simp [Exhausted, collected])).mpr
    ⟨_, _, hvisits, rfl⟩

end Luuqad

import Luuqad.Proofs.Run.Library
import Luuqad.Proofs.Tree.Shape

/-!
# Expressions keep a contract

An expression keeps a contract if its parts do and if the functions that it can call do. Both are
what `Evaluator.Agree` asks for; of the nodes it is only asked that the contract covers them. The
second evaluator is compared with the first one all the way through.
-/

namespace Luuqad

open Run

/-- A function that the program has in some state of the invariant. -/
def Contract.Callable (c : Contract) (f : UserFunction) : Prop :=
  ∃ s name, c.inv s ∧ s.functions.get? name = some f

/-- The evaluator finds the children that the forms of some nodes look at. -/
def Evaluator.Finds (self : Evaluator) (covers : Node → Prop) : Prop :=
  ∀ (n m : Node) (i : Nat), covers n → n.Reads m i → self.child m i = m.child i

/-- The second evaluator runs the parts of expressions as the first one does, under a contract. -/
structure Evaluator.Agree (c : Contract) (ev₁ ev₂ : Evaluator) : Prop where
  rounds : ev₂.rounds = ev₁.rounds
  finds : ev₁.Finds c.covers
  finds' : ev₂.Finds c.covers
  evaluate {n : Node} (hn : c.covers n) : Safe c (ev₁.evaluate n) (ev₂.evaluate n)
  direct {f : UserFunction} (hf : c.Callable f) (args : List Value) :
    Safe c (ev₁.runFunction f (setParameters f.params args))
      (ev₂.runFunction f (setParameters f.params args))
  onItem {f : UserFunction} (hf : c.Callable f) (v : Value) :
    Safe c (ev₁.onItem f v) (ev₂.onItem f v)

theorem State.callable_of_function? {c : Contract} {s : State} {name : String} {f : UserFunction}
    (hs : c.inv s) (h : s.function? name = some (.user f)) : c.Callable f := by
  unfold State.function? at h
  split at h
  · rename_i g hg
    cases h
    exact ⟨s, name, hs, hg⟩
  · cases hlookup : Builtin.functions.lookup name <;> simp [hlookup] at h

theorem Evaluator.Finds.of_eq {self : Evaluator} {covers : Node → Prop}
    (h : self.child = Node.child) : self.Finds covers := by
  intro n m i _ _
  rw [h]

/-- Where both evaluators find a child, it is a node that the contract covers. -/
theorem Run.Safe.found_bind {α : Type} {c : Contract} {ev₁ ev₂ : Evaluator} {n m : Node} {i : Nat}
    {f f' : Node → Run α} (hfinds : ev₁.Finds c.covers) (hfinds' : ev₂.Finds c.covers)
    (hn : c.covers n) (hreads : n.Reads m i)
    (hf : ∀ k ∈ m.children, c.covers k → Safe c (f k) (f' k)) :
    Safe c (ev₁.child m i >>= f) (ev₂.child m i >>= f') := by
  have hm : c.covers m := by
    cases hreads with
    | own _ => exact hn
    | entry _ hm => exact c.covers_child hn hm
  rw [hfinds n m i hn hreads, hfinds' n m i hn hreads]
  exact .child_bind fun k hk => hf k hk (c.covers_child hm hk)

namespace Evaluator.Agree

variable {c : Contract} {ev₁ ev₂ : Evaluator} {n : Node}

theorem operand_bind {α : Type} (h : Agree c ev₁ ev₂) {i : Nat} {f f' : Value → Run α}
    (hn : c.covers n) (hi : i < n.kind.places) (hf : ∀ v, Safe c (f v) (f' v)) :
    Safe c (ev₁.child n i >>= fun m => ev₁.evaluate m >>= f)
      (ev₂.child n i >>= fun m => ev₂.evaluate m >>= f') :=
  .found_bind h.finds h.finds' hn (.own hi) fun _ _ hm => .bind (h.evaluate hm) hf

theorem evaluateAll (h : Agree c ev₁ ev₂) {nodes : List Node} (hnodes : ∀ m ∈ nodes, c.covers m) :
    Safe c (nodes.mapM ev₁.evaluate) (nodes.mapM ev₂.evaluate) :=
  .mapM nodes fun m hm => h.evaluate (hnodes m hm)

/-! ## Calls -/

theorem callLibrary (h : Agree c ev₁ ev₂) {f : Builtin} {args : List Argument}
    (hargs : ∀ g, .user g ∈ args → c.Callable g) :
    Safe c (ev₁.callLibrary f args) (ev₂.callLibrary f args) := by
  unfold Evaluator.callLibrary
  rw [h.rounds]
  exact Builtin.safe_call fun g hg v => h.onItem (hargs g hg) v

theorem callLibrary_values (h : Agree c ev₁ ev₂) (f : Builtin) (args : List Value) :
    Safe c (ev₁.callLibrary f (args.map .value)) (ev₂.callLibrary f (args.map .value)) := by
  refine h.callLibrary fun g hg => ?_
  simp at hg

theorem callDotted (h : Agree c ev₁ ev₂) (variableName method : String) (args : List Value) :
    Safe c (ev₁.callDotted variableName method args)
      (ev₂.callDotted variableName method args) := by
  refine .bind_get fun s _ => .ite (.raise_bind rfl) ?_
  dsimp only
  split
  · exact h.callLibrary_values _ _
  · exact .raise rfl

theorem callNamed (h : Agree c ev₁ ev₂) (name : String) (args : List Value) :
    Safe c (ev₁.callNamed name args) (ev₂.callNamed name args) := by
  refine .bind_get fun s hs => ?_
  cases hf : s.function? name with
  | some f =>
    cases f with
    | library f => exact h.callLibrary_values f args
    | user f => exact h.direct (s.callable_of_function? hs hf) args
  | none =>
    dsimp only
    split
    · exact h.callDotted _ _ _
    · exact .raise rfl

theorem call (h : Agree c ev₁ ev₂) (hn : c.covers n) : Safe c (ev₁.call n) (ev₂.call n) := by
  refine .bind (h.evaluateAll fun _ => c.covers_child hn) fun args => ?_
  split
  · exact h.callNamed _ _
  · exact .bind (.nameOf _) fun _ => .raise rfl
  · exact .bind (.nameOf _) fun _ => .fail _

/-! ## Methods -/

theorem callable_of_listArguments {s : State} {method : String} {args : List Value}
    {g : UserFunction} (hs : c.inv s) (h : .user g ∈ listArguments s method args) :
    c.Callable g := by
  unfold listArguments at h
  split at h
  · rename_i name rest
    rcases List.mem_cons.mp h with hfirst | hrest
    · split at hfirst
      · rename_i f _ hf
        cases hfirst
        exact s.callable_of_function? hs hf
      · cases hfirst
      · cases hfirst
    · simp at hrest
  · simp at h

theorem listMethod (h : Agree c ev₁ ev₂) (method : String) (target : Value)
    (args : List Value) :
    Safe c (ev₁.listMethod method target args) (ev₂.listMethod method target args) := by
  unfold Evaluator.listMethod
  split
  · refine .bind_get fun s hs => h.callLibrary fun g hg => ?_
    exact callable_of_listArguments hs (by simpa using hg)
  · exact .raise rfl
  · exact .raise rfl

theorem objectMethod (h : Agree c ev₁ ev₂) (method : String) (target : Value)
    (args : List Value) :
    Safe c (ev₁.objectMethod method target args) (ev₂.objectMethod method target args) := by
  unfold Evaluator.objectMethod
  split
  · exact h.callLibrary_values _ _
  · exact .raise rfl
  · exact .raise rfl

theorem textMethod (h : Agree c ev₁ ev₂) (method : String) (target : Value)
    (args : List Value) :
    Safe c (ev₁.textMethod method target args) (ev₂.textMethod method target args) := by
  unfold Evaluator.textMethod
  split
  · exact h.callLibrary_values _ _
  · exact .raise rfl
  · exact .raise rfl

theorem keeps_methodName (target v : Value) :
    Keeps c (methodName target v) := by
  unfold methodName
  split
  · exact .nameOf v
  · exact .nameOf v
  · exact .nameOf v
  · exact .text v

theorem listArgument (h : Agree c ev₁ ev₂) (method : String) (hn : c.covers n) :
    Safe c (ev₁.listArgument method n) (ev₂.listArgument method n) := by
  refine .ite (.bind (.nameOf _) fun name => .bind_get fun s _ => ?_) (h.evaluate hn)
  exact .ite (.pure _) (h.evaluate hn)

theorem methodCall (h : Agree c ev₁ ev₂) (hn : c.covers n) (hkind : n.kind = .methodCall) :
    Safe c (ev₁.methodCall n) (ev₂.methodCall n) := by
  refine h.operand_bind hn (by simp [hkind, NodeKind.places]) fun target => ?_
  refine .bind (keeps_methodName target n.value) fun method => ?_
  have hrest : ∀ m ∈ n.children.drop 1, c.covers m :=
    fun m hm => c.covers_child hn (List.mem_of_mem_drop hm)
  have hargs := h.evaluateAll hrest
  dsimp only
  split
  · refine .ite (.raise rfl) (.bind (.mapM _ fun m hm => h.listArgument method (hrest m hm)) ?_)
    exact fun args => h.listMethod method _ args
  · refine .ite (.bind hargs fun args => h.objectMethod method _ args) (.bind_get fun s _ => ?_)
    split
    · exact .bind hargs fun args => h.callLibrary_values _ args
    · exact .raise rfl
  · exact .ite (.raise rfl) (.bind hargs fun args => h.textMethod method _ args)
  · exact .raise rfl

/-! ## The other forms -/

theorem keeps_identifier (n : Node) : Keeps c (identifier n) := by
  refine .bind (.nameOf _) fun name => .bind_get fun s _ => ?_
  split
  · exact .pure _
  · exact .raiseAt n rfl

theorem binary (h : Agree c ev₁ ev₂) (hn : c.covers n) (hkind : n.kind = .binary) :
    Safe c (ev₁.binary n) (ev₂.binary n) := by
  refine h.operand_bind hn (by simp [hkind, NodeKind.places]) fun left => ?_
  refine h.operand_bind hn (by simp [hkind, NodeKind.places]) fun right => ?_
  exact .act (plain_applySymbol _ _ _)

theorem unary (h : Agree c ev₁ ev₂) (hn : c.covers n) (hkind : n.kind = .unary) :
    Safe c (ev₁.unary n) (ev₂.unary n) := by
  refine h.operand_bind hn (by simp [hkind, NodeKind.places]) fun v => ?_
  exact .ite (.bind (.isTrue v) fun _ => .pure _) (.bind (.text _) fun _ => .raiseAt n rfl)

theorem list (h : Agree c ev₁ ev₂) (hn : c.covers n) : Safe c (ev₁.list n) (ev₂.list n) :=
  .bind (h.evaluateAll fun _ => c.covers_child hn) fun _ => .act (.newList _)

theorem fillObject (h : Agree c ev₁ ev₂) (hn : c.covers n) (hkind : n.kind = .object)
    {nodes : List Node} (hnodes : ∀ m ∈ nodes, m ∈ n.children) (entries : Entries) :
    Safe c (ev₁.fillObject nodes entries) (ev₂.fillObject nodes entries) := by
  induction nodes generalizing entries with
  | nil => exact .pure _
  | cons m rest ih =>
    have hread : n.Reads m 0 := .entry hkind (hnodes m List.mem_cons_self)
    refine .found_bind h.finds h.finds' hn hread fun k _ hk => .bind (h.evaluate hk) fun v => ?_
    exact .bind (.act (.ofExcept _)) fun key => ih
      (fun k hk => hnodes k (List.mem_cons_of_mem _ hk)) _

theorem object (h : Agree c ev₁ ev₂) (hn : c.covers n) (hkind : n.kind = .object) :
    Safe c (ev₁.object n) (ev₂.object n) :=
  .bind (h.fillObject hn hkind (fun _ hm => hm) _) fun _ => .act (.newObject _)

theorem property (h : Agree c ev₁ ev₂) (hn : c.covers n) (hkind : n.kind = .property) :
    Safe c (ev₁.property n) (ev₂.property n) := by
  refine h.operand_bind hn (by simp [hkind, NodeKind.places]) fun target => ?_
  split
  · refine .bind (.act (.ofExcept _)) fun key => .bind_get fun s _ => ?_
    split
    · exact .pure _
    · exact .bind (.text _) fun _ => .raiseAt n rfl
  · exact .bind (.text _) fun _ => .raiseAt n rfl

theorem keeps_place (n : Node) (items : Array Value) (index : Value) :
    Keeps c (Run.place n items index) := by
  unfold Run.place
  split
  · have hrange (j : Int) : Keeps c
        (do
          if 0 ≤ j ∧ j < items.size then return j.toNat
          Run.raiseAt n (.indexOutOfRange (← Run.text (.int j)))) :=
      .ite (.pure _) (.bind (.text _) fun _ => .raiseAt n rfl)
    refine .bind (.act (.ofExcept _)) fun i => ?_
    exact .ite (.bind (.raiseAt n rfl) fun _ => hrange _) (hrange _)
  · exact .raiseAt n rfl

theorem index (h : Agree c ev₁ ev₂) (hn : c.covers n) (hkind : n.kind = .index) :
    Safe c (ev₁.index n) (ev₂.index n) := by
  refine h.operand_bind hn (by simp [hkind, NodeKind.places]) fun target => ?_
  split
  · refine h.operand_bind hn (by simp [hkind, NodeKind.places]) fun index => .bind_get fun s _ => ?_
    exact .bind (keeps_place n _ index) fun _ => .pure _
  · exact .raiseAt n rfl

theorem expression (h : Agree c ev₁ ev₂) (hn : c.covers n) :
    Safe c (ev₁.expression n) (ev₂.expression n) := by
  unfold Evaluator.expression
  split
  · exact .pure _
  · exact keeps_identifier n
  · exact h.binary hn ‹_›
  · exact h.unary hn ‹_›
  · exact h.list hn
  · exact h.object hn ‹_›
  · exact h.property hn ‹_›
  · exact h.methodCall hn ‹_›
  · exact h.index hn ‹_›
  · exact h.call hn
  · exact .raiseAt n rfl

end Evaluator.Agree

end Luuqad

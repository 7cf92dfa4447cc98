import Luuqad.Proofs.Lockstep.Basic
import Luuqad.Proofs.Run.Library

/-!
# Expressions in lockstep

An expression is run in lockstep if its parts are, if it mentions only names that may be seen, and
if the functions of the program may be called. `Lockstep.Admits` says what is asked of a node, and
`Lockstep.Runs` what is asked of the evaluator. Going through the items of a list takes as many
rounds as there are items, so that is asked for apart (`Lockstep.Items`).
-/

namespace Luuqad

open Run Lockstep

/-- The node looks at the variable with the name, or sets it. -/
inductive Node.Mentions (n : Node) (name : String) : Prop
  | named : n.kind = .identifier ∨ n.kind = .declaration ∨ n.kind = .loop ∨ n.kind = .tryCatch →
    n.value.Names name → Mentions n name
  /-- The name of a call may be that of a variable and that of a method, with a point between
  them. -/
  | dotted {called : String} {method : List Char} : n.kind = .call → n.value = .str called →
    Text.cut ['.'] called.toList = some (name.toList, method) → Mentions n name

namespace Lockstep

/-- What is asked of a node that is run in lockstep. -/
structure Admits (L : Lockstep) (covers : Node → Prop) (n : Node) : Prop where
  child {m : Node} : m ∈ n.children → covers m
  seen {name : String} : n.Mentions name → L.seen name
  callable {params : List String} : n.kind = .function → (∀ p ∈ params, n.Binds p .passed) →
    L.callable ⟨params, n.children.filter (·.kind ≠ .identifier)⟩
  imports : n.kind = .importFile → L.tires
  file {s t : State} {path source : String} {program : Node} :
    L.rel s t → n.kind = .importFile → n.value = .str path → s.folder.read path = .ok source →
    readProgram source = .ok program → ∀ m ∈ program.children, covers m

/-- The parts of nodes are run in lockstep. -/
structure Runs (L : Lockstep) (covers : Node → Prop) (ev : Limits → Evaluator) : Prop where
  child (l : Limits) : (ev l).child = Node.child
  admits {n : Node} : covers n → L.Admits covers n
  body {f : UserFunction} {m : Node} : L.callable f → m ∈ f.body → covers m
  params {f : UserFunction} {p : String} : L.callable f → p ∈ f.params → L.seen p
  evaluate {n : Node} : covers n → L.Follows fun l => (ev l).evaluate n
  execute {n : Node} : covers n → L.Follows fun l => (ev l).execute n

/-- What is kept of an item depends on the heap only. -/
def Judges (keep : Value → Value → Run (List Value)) : Prop :=
  ∀ v answer, ∃ judge : Heap → List Value, keep v answer = fun s => .ok (judge s.heap) s

/-- Going through the items of a list is run in lockstep. -/
structure Items (L : Lockstep) (ev : Limits → Evaluator) : Prop where
  library (r : Ref) {keep : Value → Value → Run (List Value)} (hkeep : Judges keep) (f : Builtin) :
    L.Follows fun l => Library.eachItem r (fun v => do keep v (← f.callOne v)) 0 (ev l).rounds
  user (r : Ref) {keep : Value → Value → Run (List Value)} (hkeep : Judges keep)
    {f : UserFunction} :
    L.callable f →
    L.Follows fun l => Library.eachItem r (fun v => do keep v (← (ev l).onItem f v)) 0 (ev l).rounds

variable {L : Lockstep} {α : Type}

/-! ## The library -/

theorem Judges.keeps {keep : Value → Value → Run (List Value)} (hkeep : Judges keep)
    (v answer : Value) :
    L.Keeps (keep v answer) := by
  obtain ⟨judge, hjudge⟩ := hkeep v answer
  refine .of_matched fun s t hst => ?_
  simp only [hjudge, (L.abreast hst).heap]
  exact .ok hst

theorem keeps_chooseBetween (low high : Num) : L.Keeps (Library.chooseBetween low high) := by
  unfold Library.chooseBetween
  split
  · exact .bind (.draw _) fun _ => .pure _
  · refine .bind (.act _) fun _ => .bind .drawUnit fun _ => ?_
    exact .bind (.act _) fun _ => .act _

theorem keeps_choose (args : List Value) : L.Keeps (Library.choose args) := by
  unfold Library.choose
  split
  · exact .bind .drawUnit fun _ => .pure _
  · refine .get_bind fun s t hst => ⟨fun _ => by rw [(L.abreast hst).heap], ?_⟩
    exact .ite .fault_bind (.bind (.draw _) fun _ => .pure _)
  · exact .raise _
  · split
    · exact .ite .fault_bind (keeps_chooseBetween _ _)
    · exact .raise _
  · exact .raise _

theorem keeps_run (f : Builtin) (b : Bound Value) : L.Keeps (f.run b) := by
  cases f with
  | print => exact .bind (.act _) fun _ => .bind (.print _) fun _ => .pure _
  | readLine => exact .bind (.text _) fun _ => .bind (.readLine _) fun _ => .pure _
  | typeOf | toBool | listFilter | listMap => exact .pure _
  | toText => exact .bind (.act _) fun _ => .pure _
  | choose => exact keeps_choose _
  | makeList => exact .act (Action.newList _)
  | makeObject => exact .act (Action.newObject _)
  | _ => exact .act _

theorem keeps_bindArguments {f : Builtin} (positional : List α) (named : List (String × α)) :
    L.Keeps (f.bindArguments positional named) := by
  unfold Builtin.bindArguments
  split
  · exact .pure _
  · exact .fail _

theorem keeps_callOne (f : Builtin) (v : Value) : L.Keeps (f.callOne v) :=
  .bind (keeps_bindArguments _ _) fun b => keeps_run f b

namespace Items

variable {ev : Limits → Evaluator}

theorem throughItems (h : L.Items ev) {keep : Value → Value → Run (List Value)}
    (hkeep : Judges keep) {b : Bound Argument} {listName functionName : String}
    (hcallable : ∀ f, b.params.lookup functionName = some (.user f) → L.callable f) :
    L.Follows fun l =>
      Library.throughItems (ev l).onItem (ev l).rounds keep b listName functionName := by
  refine .bind (.act _) fun r => ?_
  have hlist (items : List Value) : L.Keeps (Run.act (Action.newList items.toArray)) := .act _
  cases harg : b.params.lookup functionName with
  | none => exact .fault_bind
  | some a =>
    cases a with
    | user f =>
      have hitems := Follows.bind (h.user r hkeep (hcallable f harg)) hlist
      exact hitems
    | value v =>
      cases v with
      | function f =>
        have hitems := Follows.bind (h.library r hkeep f) hlist
        exact hitems
      | _ => exact .fault_bind

theorem callLibrary (h : L.Items ev) {f : Builtin} {args : List Argument}
    (hargs : ∀ g, .user g ∈ args → L.callable g) :
    L.Follows fun l => (ev l).callLibrary f args := by
  unfold Evaluator.callLibrary Builtin.call Builtin.bindArguments
  cases hb : f.signature.bind args [] with
  | error e => exact .fault_bind
  | ok b =>
    have hcallable (functionName : String) (g : UserFunction)
        (hg : b.params.lookup functionName = some (.user g)) : L.callable g :=
      hargs g (Signature.mem_of_lookup hb hg)
    cases f with
    | listFilter =>
      exact h.throughItems
        (fun v answer => ⟨fun heap => if answer.isTrue heap then [v] else [], rfl⟩) (hcallable _)
    | listMap => exact h.throughItems (fun _ answer => ⟨fun _ => [answer], rfl⟩) (hcallable _)
    | _ => exact .bind (.pure b) fun _ => keeps_run _ _

theorem callLibrary_values (h : L.Items ev) (f : Builtin) (args : List Value) :
    L.Follows fun l => (ev l).callLibrary f (args.map .value) := by
  refine h.callLibrary fun g hg => ?_
  simp at hg

end Items

theorem callable_of_function? {s t : State} {name : String} {f : UserFunction} (hst : L.rel s t)
    (h : s.function? name = some (.user f)) : L.callable f := by
  unfold State.function? at h
  split at h
  · rename_i g hg
    cases h
    exact L.function hst hg
  · cases hlookup : Builtin.functions.lookup name <;> simp [hlookup] at h

theorem function?_eq {s t : State} (hst : L.rel s t) (name : String) :
    t.function? name = s.function? name := by
  unfold State.function?
  rw [(L.abreast hst).functions]

namespace Runs

variable {covers : Node → Prop} {ev : Limits → Evaluator} {n : Node}

/-! ## Calls of functions -/

theorem sequence (h : L.Runs covers ev) {nodes : List Node} (hnodes : ∀ m ∈ nodes, covers m) :
    L.Follows fun l => (ev l).sequence nodes := by
  induction nodes with
  | nil => exact .pure _
  | cons n rest ih =>
    have hn := h.execute (hnodes n List.mem_cons_self)
    cases rest with
    | nil => exact hn
    | cons m rest => exact .bind hn fun _ => ih fun m hm => hnodes m (List.mem_cons_of_mem _ hm)

theorem functionBody (h : L.Runs covers ev) {f : UserFunction} (hf : L.callable f) :
    L.Follows fun l => (ev l).functionBody f := by
  refine .tryCatch (h.sequence fun m hm => h.body hf hm) (fun e he => ?_) fun _ => rfl
  cases e with
  | returning v => exact .pure v
  | _ => exact .throw he

theorem runFunction (h : L.Runs covers ev) {f : UserFunction} (hf : L.callable f)
    {setting : Run Unit} (hsetting : L.Keeps setting) :
    L.Follows fun l => (ev l).runFunction f setting := by
  have hbody := Follows.bind hsetting fun _ => h.functionBody hf
  intro s t hst
  obtain ⟨p, q, hpq, hfinally⟩ := hbody s t hst
  have hrun {l : Limits} {u u' : State} {v : Value}
      (hu : (setting >>= fun _ => (ev l).functionBody f) u = .ok v u') :
      (ev l).runFunction f setting u = .ok v { u' with vars := u.vars } := by
    change (setting >>= fun _ => (ev l).functionBody f >>= _) u = _
    rw [← bind_assoc]
    exact bind_ok hu
  have hrun' {l : Limits} {u u' : State} {e : Interrupt}
      (hu : (setting >>= fun _ => (ev l).functionBody f) u = .error e u') :
      (ev l).runFunction f setting u = .error e u' := by
    change (setting >>= fun _ => (ev l).functionBody f >>= _) u = _
    rw [← bind_assoc]
    exact bind_error hu
  cases hpq with
  | ok hst' =>
    exact ⟨_, _, .ok (L.restore hst hst'), hfinally.mono fun l hl => ⟨hrun hl.1, hrun hl.2⟩⟩
  | error hst' he =>
    exact ⟨_, _, .error hst' he, hfinally.mono fun l hl => ⟨hrun' hl.1, hrun' hl.2⟩⟩

theorem keeps_setParameters {params : List String} (hparams : ∀ p ∈ params, L.seen p)
    (args : List Value) :
    L.Keeps (Evaluator.setParameters params args) := by
  induction params generalizing args with
  | nil => exact .pure _
  | cons p params ih =>
    have hp := hparams p List.mem_cons_self
    have hrest (args : List Value) := ih (fun q hq => hparams q (List.mem_cons_of_mem _ hq)) args
    cases args with
    | nil => exact .bind (.setVariable hp _) fun _ => hrest []
    | cons v args => exact .bind (.setVariable hp _) fun _ => hrest args

theorem onItem (h : L.Runs covers ev) {f : UserFunction} (hf : L.callable f) (v : Value) :
    L.Follows fun l => (ev l).onItem f v := by
  refine h.runFunction hf ?_
  split
  · rename_i p hp
    exact .setVariable (h.params hf (List.mem_of_mem_head? hp)) v
  · exact .fail _

/-- Where runs may be exhausted, and the rounds do not depend on limits, items are gone through in
lockstep. -/
theorem items (h : L.Runs covers ev) (htires : L.tires) {k : Nat}
    (hrounds : ∀ l, (ev l).rounds = k) :
    L.Items ev := by
  have heach (r : Ref) {keep : Value → Value → Run (List Value)} (hkeep : Judges keep)
      {f : Limits → Value → Run Value} (hf : ∀ v, L.Follows fun l => f l v) (i fuel : Nat) :
      L.Follows fun l => Library.eachItem r (fun v => do keep v (← f l v)) i fuel := by
    induction fuel generalizing i with
    | zero => exact .exhausted htires
    | succ fuel ih =>
      refine .get_bind fun s t hst => ⟨fun _ => by rw [(L.abreast hst).heap], ?_⟩
      split
      · exact .pure _
      · refine .bind (.bind (hf _) fun w => hkeep.keeps _ w) fun here => ?_
        exact .bind (ih (i + 1)) fun _ => .pure _
  constructor
  · intro r keep hkeep f
    simp only [hrounds]
    exact heach r hkeep (keeps_callOne f) 0 k
  · intro r keep hkeep f hf
    simp only [hrounds]
    exact heach r hkeep (h.onItem hf) 0 k

/-! ## Calls by name -/

theorem child_bind (h : L.Runs covers ev) {i : Nat} {f : Limits → Node → Run α}
    (hf : ∀ m ∈ n.children, L.Follows fun l => f l m) :
    L.Follows fun l => (ev l).child n i >>= f l := by
  simp only [h.child]
  exact .child_bind hf

theorem operand_bind (h : L.Runs covers ev) {i : Nat} {f : Limits → Value → Run α}
    (hn : ∀ m ∈ n.children, covers m) (hf : ∀ v, L.Follows fun l => f l v) :
    L.Follows fun l => (ev l).child n i >>= fun m => (ev l).evaluate m >>= f l :=
  h.child_bind fun m hm => .bind (h.evaluate (hn m hm)) hf

theorem evaluateAll (h : L.Runs covers ev) {nodes : List Node} (hnodes : ∀ m ∈ nodes, covers m) :
    L.Follows fun l => nodes.mapM (ev l).evaluate :=
  .mapM nodes fun m hm => h.evaluate (hnodes m hm)

theorem callDotted (hitems : L.Items ev) {variableName : String} (hname : L.seen variableName)
    (method : String) (args : List Value) :
    L.Follows fun l => (ev l).callDotted variableName method args := by
  refine .get_bind fun s t hst => ⟨fun _ => by rw [L.lookup hst hname], .ite .fault_bind ?_⟩
  split
  · exact hitems.callLibrary_values _ _
  · exact .raise _

theorem callNamed (h : L.Runs covers ev) (hitems : L.Items ev) {name : String} (args : List Value)
    (hseen : ∀ variableName method,
      Text.cut ['.'] name.toList = some (variableName, method) →
        L.seen (String.ofList variableName)) :
    L.Follows fun l => (ev l).callNamed name args := by
  refine .get_bind fun s t hst => ⟨fun _ => by rw [function?_eq hst], ?_⟩
  cases hf : s.function? name with
  | some f =>
    cases f with
    | library f => exact hitems.callLibrary_values f args
    | user f =>
      have hcallable := callable_of_function? hst hf
      exact h.runFunction hcallable (keeps_setParameters (fun p hp => h.params hcallable hp) args)
  | none =>
    dsimp only
    split
    · rename_i variableName method hcut
      exact callDotted hitems (hseen variableName method hcut) _ _
    · exact .raise _

theorem call (h : L.Runs covers ev) (hitems : L.Items ev) (hn : L.Admits covers n)
    (hkind : n.kind = .call) :
    L.Follows fun l => (ev l).call n := by
  refine .bind (h.evaluateAll fun _ => hn.child) fun args => ?_
  split
  · rename_i name hvalue
    refine h.callNamed hitems args fun variableName method hcut => ?_
    rw [← String.toList_ofList (l := variableName)] at hcut
    exact hn.seen (.dotted hkind hvalue hcut)
  · exact .bind (.nameOf _) fun _ => .raise _
  · exact .bind (.nameOf _) fun _ => .fail _

/-! ## Methods -/

theorem callable_of_listArguments {s t : State} {method : String} {args : List Value}
    {g : UserFunction} (hst : L.rel s t) (h : .user g ∈ Evaluator.listArguments s method args) :
    L.callable g := by
  unfold Evaluator.listArguments at h
  split at h
  · rename_i name rest
    rcases List.mem_cons.mp h with hfirst | hrest
    · split at hfirst
      · rename_i f _ hf
        cases hfirst
        exact callable_of_function? hst hf
      · cases hfirst
      · cases hfirst
    · simp at hrest
  · simp at h

theorem listArguments_eq {s t : State} (hst : L.rel s t) (method : String) (args : List Value) :
    Evaluator.listArguments t method args = Evaluator.listArguments s method args := by
  unfold Evaluator.listArguments
  simp only [function?_eq hst]

theorem listMethod (hitems : L.Items ev) (method : String) (target : Value) (args : List Value) :
    L.Follows fun l => (ev l).listMethod method target args := by
  unfold Evaluator.listMethod
  split
  · refine .get_bind fun s t hst => ⟨fun _ => by rw [listArguments_eq hst], ?_⟩
    refine hitems.callLibrary fun g hg => ?_
    have hmem : .user g ∈ Evaluator.listArguments s method args := by simpa using hg
    exact callable_of_listArguments hst hmem
  · exact .raise _
  · exact .raise _

theorem objectMethod (hitems : L.Items ev) (method : String) (target : Value) (args : List Value) :
    L.Follows fun l => (ev l).objectMethod method target args := by
  unfold Evaluator.objectMethod
  split
  · exact hitems.callLibrary_values _ _
  · exact .raise _
  · exact .raise _

theorem textMethod (hitems : L.Items ev) (method : String) (target : Value) (args : List Value) :
    L.Follows fun l => (ev l).textMethod method target args := by
  unfold Evaluator.textMethod
  split
  · exact hitems.callLibrary_values _ _
  · exact .raise _
  · exact .raise _

theorem keeps_methodName (target v : Value) : L.Keeps (Evaluator.methodName target v) := by
  unfold Evaluator.methodName
  split
  · exact .nameOf v
  · exact .nameOf v
  · exact .nameOf v
  · exact .text v

theorem listArgument (h : L.Runs covers ev) (method : String) (hn : covers n) :
    L.Follows fun l => (ev l).listArgument method n := by
  refine .ite (.bind (.nameOf _) fun name => .get_bind fun s t hst => ⟨fun _ => ?_, ?_⟩)
    (h.evaluate hn)
  · rw [function?_eq hst]
  · exact .ite (.pure _) (h.evaluate hn)

theorem methodCall (h : L.Runs covers ev) (hitems : L.Items ev) (hn : ∀ m ∈ n.children, covers m) :
    L.Follows fun l => (ev l).methodCall n := by
  refine h.operand_bind hn fun target => .bind (keeps_methodName target n.value) fun method => ?_
  have hrest : ∀ m ∈ n.children.drop 1, covers m := fun m hm => hn m (List.mem_of_mem_drop hm)
  have hargs := h.evaluateAll hrest
  dsimp only
  split
  · refine .ite (.raise _) (.bind (.mapM _ fun m hm => h.listArgument method (hrest m hm)) ?_)
    exact fun args => listMethod hitems method _ args
  · refine .ite (.bind hargs fun args => objectMethod hitems method _ args) ?_
    refine .get_bind fun s t hst => ⟨fun _ => by rw [(L.abreast hst).heap], ?_⟩
    split
    · exact .bind hargs fun args => hitems.callLibrary_values _ args
    · exact .raise _
  · exact .ite (.raise _) (.bind hargs fun args => textMethod hitems method _ args)
  · exact .raise _

/-! ## The other forms -/

theorem keeps_identifier (hn : L.Admits covers n) (hkind : n.kind = .identifier) :
    L.Keeps (Evaluator.identifier n) := by
  refine .nameOf_bind fun name hname => ?_
  have hseen := hn.seen (.named (.inl hkind) hname)
  refine .get_bind fun s t hst => ⟨fun _ => by rw [L.lookup hst hseen], ?_⟩
  split
  · exact .pure _
  · exact .raiseAt n _

theorem binary (h : L.Runs covers ev) (hn : ∀ m ∈ n.children, covers m) :
    L.Follows fun l => (ev l).binary n :=
  h.operand_bind hn fun _ => h.operand_bind hn fun _ => .act _

theorem unary (h : L.Runs covers ev) (hn : ∀ m ∈ n.children, covers m) :
    L.Follows fun l => (ev l).unary n := by
  refine h.operand_bind hn fun v => .ite (.bind (.isTrue v) fun _ => .pure _) ?_
  exact .bind (.text _) fun _ => .raiseAt n _

theorem list (h : L.Runs covers ev) (hn : ∀ m ∈ n.children, covers m) :
    L.Follows fun l => (ev l).list n :=
  .bind (h.evaluateAll hn) fun _ => .act _

theorem fillObject (h : L.Runs covers ev) {nodes : List Node} (hnodes : ∀ m ∈ nodes, covers m)
    (entries : Entries) : L.Follows fun l => (ev l).fillObject nodes entries := by
  induction nodes generalizing entries with
  | nil => exact .pure _
  | cons m rest ih =>
    have hm := h.admits (hnodes m List.mem_cons_self)
    refine h.operand_bind (fun _ => hm.child) fun v => .bind (.act _) fun key => ?_
    exact ih (fun k hk => hnodes k (List.mem_cons_of_mem _ hk)) _

theorem object (h : L.Runs covers ev) (hn : ∀ m ∈ n.children, covers m) :
    L.Follows fun l => (ev l).object n :=
  .bind (h.fillObject hn _) fun _ => .act _

theorem property (h : L.Runs covers ev) (hn : ∀ m ∈ n.children, covers m) :
    L.Follows fun l => (ev l).property n := by
  refine h.operand_bind hn fun target => ?_
  split
  · refine .bind (.act _) fun key => .get_bind fun s t hst =>
      ⟨fun _ => by rw [(L.abreast hst).heap], ?_⟩
    split
    · exact .pure _
    · exact .bind (.text _) fun _ => .raiseAt n _
  · exact .bind (.text _) fun _ => .raiseAt n _

theorem keeps_place (n : Node) (items : Array Value) (index : Value) :
    L.Keeps (Run.place n items index) := by
  unfold Run.place
  split
  · refine .bind (.act _) fun i => .ite .fault_bind (.ite (.pure _) ?_)
    exact .bind (.text _) fun _ => .raiseAt n _
  · exact .raiseAt n _

theorem index (h : L.Runs covers ev) (hn : ∀ m ∈ n.children, covers m) :
    L.Follows fun l => (ev l).index n := by
  refine h.operand_bind hn fun target => ?_
  split
  · refine h.operand_bind hn fun index => ?_
    refine .get_bind fun s t hst => ⟨fun _ => by rw [(L.abreast hst).heap], ?_⟩
    exact .bind (keeps_place n _ index) fun _ => .pure _
  · exact .raiseAt n _

/-- An expression is run in lockstep if its parts are. -/
theorem expression (h : L.Runs covers ev) (hitems : L.Items ev) (hn : L.Admits covers n) :
    L.Follows fun l => (ev l).expression n := by
  have hchildren : ∀ m ∈ n.children, covers m := fun _ => hn.child
  unfold Evaluator.expression
  split
  · exact .pure _
  · exact keeps_identifier hn ‹_›
  · exact h.binary hchildren
  · exact h.unary hchildren
  · exact h.list hchildren
  · exact h.object hchildren
  · exact h.property hchildren
  · exact h.methodCall hitems hchildren
  · exact h.index hchildren
  · exact h.call hitems hn ‹_›
  · exact .raiseAt n _

end Runs

end Lockstep

end Luuqad

import Luuqad.Proofs.Heap.Evolution
import Luuqad.Proofs.Lockstep.Statements

/-!
# The heap along a run

Every run evolves the heap, however it is left: the heap never shrinks, and the keys of objects stay
distinct. It is shown of each form of expressions and statements that it does if its parts do
(`Evaluator.Evolves.expression`, `Evaluator.Evolves.statement`), and so of all evaluators
(`Evaluator.evolves_upTo`). Two forms make objects out of entries that they gather themselves: an
object literal and the definition of a class.
-/

namespace Luuqad

namespace Run

variable {α β : Type}

/-- The state in which a run ends. -/
def after (r : Run α) (s : State) : State :=
  match r s with
  | .ok _ t => t
  | .error _ t => t

theorem after_of_ok {r : Run α} {s t : State} {a : α} (h : r s = .ok a t) : r.after s = t := by
  simp only [after, h]

theorem after_of_error {r : Run α} {s t : State} {e : Interrupt} (h : r s = .error e t) :
    r.after s = t := by
  simp only [after, h]

/-- Every result of the run has the property. -/
def Yields (r : Run α) (p : α → Prop) : Prop := ∀ s a t, r s = .ok a t → p a

theorem Yields.pure {p : α → Prop} {a : α} (ha : p a) : Yields (Pure.pure a) p := by
  intro s b t hr
  cases hr
  exact ha

theorem Yields.bind {x : Run α} {f : α → Run β} {p : β → Prop} (hf : ∀ a, Yields (f a) p) :
    Yields (x >>= f) p := by
  intro s b t hr
  obtain ⟨a, u, -, hr⟩ := of_bind_ok hr
  exact hf a u b t hr

/-- The run leads from every heap to one that the heap evolves into. -/
def Evolves (r : Run α) : Prop := ∀ s : State, s.heap.Evolves (r.after s).heap

theorem Evolves.of_ok {r : Run α} (h : Evolves r) {s t : State} {a : α} (hr : r s = .ok a t) :
    s.heap.Evolves t.heap := after_of_ok hr ▸ h s

theorem Evolves.of_error {r : Run α} (h : Evolves r) {s t : State} {e : Interrupt}
    (hr : r s = .error e t) :
    s.heap.Evolves t.heap := after_of_error hr ▸ h s

namespace Evolves

/-! ## Rules -/

theorem pure (a : α) : Evolves (Pure.pure a : Run α) := fun s => .refl s.heap

theorem throw (e : Interrupt) : Evolves (MonadExcept.throw e : Run α) := fun s => .refl s.heap

theorem throw_bind {e : Interrupt} {f : α → Run β} : Evolves (MonadExcept.throw e >>= f) :=
  fun s => .refl s.heap

theorem bind_result {x : Run α} {f : α → Run β} {p : α → Prop} (hx : Evolves x)
    (hp : Yields x p) (hf : ∀ a, p a → Evolves (f a)) : Evolves (x >>= f) := by
  intro s
  cases hxs : x s with
  | ok a t =>
    have hafter : (x >>= f).after s = (f a).after t := by simp only [after, bind_ok hxs]
    exact hafter ▸ (hx.of_ok hxs).trans (hf a (hp s a t hxs) t)
  | error e t => exact after_of_error (bind_error hxs) ▸ hx.of_error hxs

theorem bind {x : Run α} {f : α → Run β} (hx : Evolves x) (hf : ∀ a, Evolves (f a)) :
    Evolves (x >>= f) :=
  bind_result (p := fun _ => True) hx (fun _ _ _ _ => trivial) fun a _ => hf a

theorem get_bind {f : State → Run β} (hf : ∀ s, Evolves (f s)) : Evolves (get >>= f) :=
  fun s => hf s s

theorem act {a : Action α} (ha : ∀ h, a.EvolvesAt h) : Evolves (Run.act a) := by
  intro s
  have hheap := ha s.heap
  unfold Action.EvolvesAt Action.after at hheap
  unfold after Run.act
  cases hr : a s.heap with
  | ok v h => simpa only [hr] using hheap
  | error f h => simpa only [hr] using hheap

theorem step {g : State → State} (hg : ∀ s, (g s).heap = s.heap) :
    Evolves (modify g : Run PUnit) := by
  intro s
  change s.heap.Evolves (g s).heap
  rw [hg]
  exact .refl _

theorem ite {p : Prop} [Decidable p] {x y : Run α} (hx : Evolves x) (hy : Evolves y) :
    Evolves (if p then x else y) := by
  split
  · exact hx
  · exact hy

theorem tryCatch {x : Run α} {f : Interrupt → Run α} (hx : Evolves x) (hf : ∀ e, Evolves (f e)) :
    Evolves (MonadExcept.tryCatch x f) := by
  intro s
  cases hxs : x s with
  | ok a t => exact after_of_ok (tryCatch_ok hxs) ▸ hx.of_ok hxs
  | error e t =>
    have hafter : (MonadExcept.tryCatch x f).after s = (f e).after t := by
      simp only [after, tryCatch_error hxs]
    exact hafter ▸ (hx.of_error hxs).trans (hf e t)

theorem mapM {f : α → Run β} (hf : ∀ a, Evolves (f a)) (items : List α) :
    Evolves (items.mapM f) := by
  induction items with
  | nil => exact pure []
  | cons a items ih =>
    rw [List.mapM_cons]
    exact bind (hf a) fun b => bind ih fun bs => pure (b :: bs)

theorem fail (f : Failure) : Evolves (Run.fail f : Run α) := throw _

theorem raise (c : Cause) : Evolves (Run.raise c : Run α) := throw _

theorem raiseAt (n : Node) (c : Cause) : Evolves (Run.raiseAt n c : Run α) := throw _

theorem text (v : Value) : Evolves (Run.text v) := act fun _ => .reading _

theorem ofExcept (x : Except Failure α) : Evolves (Run.act (Action.ofExcept x)) :=
  act fun _ => .ofExcept x

theorem isTrue (v : Value) : Evolves (Run.isTrue v) := get_bind fun _ => pure _

theorem nameOf (v : Value) : Evolves (Run.nameOf v) := by
  unfold Run.nameOf
  split
  · exact pure _
  · exact fail _
  · exact text _

theorem setVariable (name : String) (v : Value) : Evolves (Run.setVariable name v) :=
  step fun _ => rfl

theorem readLine (prompt : String) : Evolves (Run.readLine prompt) := by
  refine bind (step fun _ => rfl) fun _ => get_bind fun s => ?_
  split
  · exact fail _
  · refine bind (step fun _ => rfl) fun _ => ?_
    split
    · exact pure _
    · exact throw _

theorem draw (n : Nat) : Evolves (Run.draw n) :=
  get_bind fun _ => bind (step fun _ => rfl) fun _ => pure _

theorem drawUnit : Evolves Run.drawUnit :=
  get_bind fun _ => bind (step fun _ => rfl) fun _ => pure _

theorem child (n : Node) (i : Nat) : Evolves (n.child i) := by
  unfold Node.child
  split
  · exact pure _
  · exact fail _

end Evolves

end Run

open Run

/-! ## The library -/

namespace Library

theorem evolves_chooseBetween (low high : Num) : Evolves (chooseBetween low high) := by
  unfold chooseBetween
  split
  · exact .bind (.draw _) fun _ => .pure _
  · refine .bind (.ofExcept _) fun _ => .bind .drawUnit fun _ => .bind (.ofExcept _) fun _ =>
      .act fun _ => ?_
    exact .bind (.ofExcept _) fun _ _ _ => .number _

theorem evolves_choose (args : List Value) : Evolves (choose args) := by
  unfold choose
  split
  · exact .bind .drawUnit fun _ => .pure _
  · exact .get_bind fun s => .ite .throw_bind (.bind (.draw _) fun _ => .pure _)
  · exact .raise _
  · split
    · exact .ite .throw_bind (evolves_chooseBetween _ _)
    · exact .raise _
  · exact .raise _

end Library

namespace Builtin

theorem evolves_run (f : Builtin) {b : Bound Value} (hb : b.named = []) : Evolves (f.run b) := by
  cases f with
  | print =>
    exact .bind (.act fun _ => .reading _) fun _ => .bind (.step fun _ => rfl) fun _ => .pure _
  | readLine => exact .bind (.text _) fun _ => .bind (.readLine _) fun _ => .pure _
  | typeOf | toBool | listFilter | listMap => exact .pure _
  | toInteger => exact .ofExcept _
  | toFloat => exact .act fun _ => Library.evolves_toDouble _
  | toText => exact .bind (.act fun _ => .reading _) fun _ => .pure _
  | makeList => exact .act fun _ => .newList _
  | makeObject =>
    refine .act fun h => .newObject fun _ => ?_
    rw [hb]
    exact Entries.distinct_nil
  | floor => exact .act fun _ => Library.evolves_floor _
  | ceiling => exact .act fun _ => Library.evolves_ceiling _
  | length => exact .act fun _ => Library.evolves_length _
  | choose => exact Library.evolves_choose _
  | range => exact .act fun _ => Library.evolves_range _
  | listPush => exact .act fun _ => Library.Lists.evolves_push _ _
  | listPop => exact .act fun _ => Library.Lists.evolves_pop _
  | listLength => exact .act fun _ => Library.Lists.evolves_length _
  | listConcat => exact .act fun _ => Library.Lists.evolves_concat _ _
  | listContains => exact .act fun _ => Library.Lists.evolves_contains _ _
  | listCopy => exact .act fun _ => Library.Lists.evolves_copy _
  | listClear => exact .act fun _ => Library.Lists.evolves_clear _
  | listGet => exact .act fun _ => Library.Lists.evolves_itemAt _ _
  | listSet => exact .act fun _ => Library.Lists.evolves_setItem _ _ _
  | listReverse => exact .act fun _ => Library.Lists.evolves_reverse _
  | listSort => exact .act fun _ => Library.Lists.evolves_sort _
  | listSlice => exact .act fun _ => Library.Lists.evolves_slice _ _ _
  | listFind => exact .act fun _ => Library.Lists.evolves_find _ _
  | objectGet => exact .act fun _ => Library.Objects.evolves_valueAt _ _
  | objectSet => exact .act fun _ => Library.Objects.evolves_setValue _ _ _
  | objectKeys => exact .act fun _ => Library.Objects.evolves_keys _
  | objectHas => exact .act fun _ => Library.Objects.evolves_has _ _
  | objectRemove => exact .act fun _ => Library.Objects.evolves_remove _ _
  | objectMerge => exact .act fun _ => Library.Objects.evolves_merge _ _
  | objectCopy => exact .act fun _ => Library.Objects.evolves_copy _
  | objectClear => exact .act fun _ => Library.Objects.evolves_clear _
  | objectValues => exact .act fun _ => Library.Objects.evolves_values _
  | objectEntries => exact .act fun _ => Library.Objects.evolves_pairs _
  | textSplit => exact .act fun _ => Library.Texts.evolves_split _ _
  | textContains => exact .act fun _ => Library.Texts.evolves_contains _ _
  | textEndsWith => exact .act fun _ => Library.Texts.evolves_endsWith _ _
  | textStartsWith => exact .act fun _ => Library.Texts.evolves_startsWith _ _
  | textReplace => exact .act fun _ => Library.Texts.evolves_replacing _ _ _ _
  | textReplaceAll => exact .act fun _ => Library.Texts.evolves_replacing _ _ _ _
  | textJoin => exact .act fun _ => Library.Texts.evolves_join _ _
  | textSlice => exact .act fun _ => Library.Texts.evolves_slice _ _ _
  | textUpper => exact .act fun _ => Library.Texts.evolves_upper _
  | textLower => exact .act fun _ => Library.Texts.evolves_lower _
  | textStrip => exact .act fun _ => Library.Texts.evolves_strip _
  | textFind => exact .act fun _ => Library.Texts.evolves_find _ _

theorem evolves_bindArguments_bind {α β : Type} (f : Builtin) (positional : List α)
    {g : Bound α → Run β} (hg : ∀ b, b.named = [] → Evolves (g b)) :
    Evolves (f.bindArguments positional [] >>= g) := by
  unfold bindArguments
  cases hb : f.signature.bind positional [] with
  | ok b => exact hg b (congrArg Bound.named (Signature.eq_of_bind hb))
  | error e => exact .throw_bind

theorem evolves_callOne (f : Builtin) (v : Value) : Evolves (f.callOne v) :=
  f.evolves_bindArguments_bind [v] fun _ hb => f.evolves_run hb

end Builtin

namespace Library

theorem evolves_eachItem {r : Ref} {step : Value → Run (List Value)} (hstep : ∀ v, Evolves (step v))
    (i fuel : Nat) : Evolves (eachItem r step i fuel) := by
  induction fuel generalizing i with
  | zero => exact .throw _
  | succ fuel ih =>
    refine .get_bind fun s => ?_
    split
    · exact .pure _
    · exact .bind (hstep _) fun _ => .bind (ih (i + 1)) fun _ => .pure _

theorem evolves_throughItems {callback : Callback} (hcallback : ∀ f v, Evolves (callback f v))
    (limit : Nat) {keep : Value → Value → Run (List Value)} (hkeep : ∀ v w, Evolves (keep v w))
    (b : Bound Argument) (listName functionName : String) :
    Evolves (throughItems callback limit keep b listName functionName) := by
  refine .bind (.act fun _ => Lists.evolves_list _ _) fun r => ?_
  have hitems {f : Value → Run Value} (hf : ∀ v, Evolves (f v)) : Evolves
      (do
        let items ← eachItem r (fun v => do keep v (← f v)) 0 limit
        Run.act (Action.newList items.toArray)) :=
    .bind (evolves_eachItem (fun v => .bind (hf v) fun w => hkeep v w) 0 limit) fun _ =>
      .act fun _ => .newList _
  cases (b.params.lookup functionName).getD (.value .null) with
  | user f => exact hitems (hcallback f)
  | value v =>
    cases v with
    | function f => exact hitems f.evolves_callOne
    | _ => exact .throw_bind

end Library

theorem Builtin.evolves_call {callback : Library.Callback}
    (hcallback : ∀ f v, Evolves (callback f v)) (limit : Nat) (f : Builtin) (args : List Argument) :
    Evolves (f.call callback limit args []) := by
  refine f.evolves_bindArguments_bind args fun b hb => ?_
  have hrun : Evolves (f.run ⟨b.params.map fun e => (e.1, e.2.toValue), b.rest.map Argument.toValue,
      b.named.map fun e => (e.1, e.2.toValue)⟩) := f.evolves_run (by rw [hb]; rfl)
  cases f with
  | listFilter =>
    exact Library.evolves_throughItems hcallback limit
      (fun _ w => .bind (.isTrue w) fun _ => .pure _) b _ _
  | listMap => exact Library.evolves_throughItems hcallback limit (fun _ _ => .pure _) b _ _
  | _ => exact hrun

/-! ## Expressions -/

/-- The parts of expressions and statements evolve the heap. -/
structure Evaluator.Evolves (ev : Evaluator) : Prop where
  child (n : Node) (i : Nat) : Run.Evolves (ev.child n i)
  evaluate (n : Node) : Run.Evolves (ev.evaluate n)
  execute (n : Node) : Run.Evolves (ev.execute n)

namespace Evaluator

theorem evolves_setParameters (params : List String) (args : List Value) :
    Run.Evolves (setParameters params args) := by
  induction params generalizing args with
  | nil => exact .pure _
  | cons p params ih =>
    cases args with
    | nil => exact .bind (.setVariable _ _) fun _ => ih []
    | cons v args => exact .bind (.setVariable _ _) fun _ => ih args

theorem evolves_methodName (target v : Value) : Run.Evolves (methodName target v) := by
  unfold methodName
  split
  · exact .nameOf _
  · exact .nameOf _
  · exact .nameOf _
  · exact .text _

namespace Evolves

variable {self : Evaluator} {α : Type}

theorem operand_bind (h : self.Evolves) (n : Node) (i : Nat) {f : Value → Run α}
    (hf : ∀ v, Run.Evolves (f v)) :
    Run.Evolves (self.child n i >>= fun m => self.evaluate m >>= f) :=
  .bind (h.child n i) fun m => .bind (h.evaluate m) hf

theorem evaluateAll (h : self.Evolves) (nodes : List Node) :
    Run.Evolves (nodes.mapM self.evaluate) :=
  .mapM h.evaluate nodes

theorem sequence (h : self.Evolves) (nodes : List Node) : Run.Evolves (self.sequence nodes) := by
  induction nodes with
  | nil => exact .pure _
  | cons n rest ih =>
    cases rest with
    | nil => exact h.execute n
    | cons m rest => exact .bind (h.execute n) fun _ => ih

theorem block (h : self.Evolves) (nodes : List Node) : Run.Evolves (self.block nodes) :=
  .bind (h.sequence nodes) fun _ => .pure _

theorem runFunction (h : self.Evolves) (f : UserFunction) {setting : Run Unit}
    (hsetting : Run.Evolves setting) :
    Run.Evolves (self.runFunction f setting) := by
  have hbody : Run.Evolves (self.functionBody f) := by
    refine .tryCatch (h.sequence f.body) fun e => ?_
    split
    · exact .pure _
    · exact .throw _
  exact .get_bind fun _ => .bind hsetting fun _ => .bind hbody fun _ => .bind (.step fun _ => rfl)
    fun _ => .pure _

theorem onItem (h : self.Evolves) (f : UserFunction) (v : Value) :
    Run.Evolves (self.onItem f v) := by
  refine h.runFunction f ?_
  split
  · exact .setVariable _ _
  · exact .fail _

theorem callLibrary (h : self.Evolves) (f : Builtin) (args : List Argument) :
    Run.Evolves (self.callLibrary f args) := f.evolves_call h.onItem self.rounds args

theorem callDotted (h : self.Evolves) (variableName method : String) (args : List Value) :
    Run.Evolves (self.callDotted variableName method args) := by
  refine .get_bind fun s => .ite .throw_bind ?_
  split
  · exact h.callLibrary _ _
  · exact .raise _

theorem callNamed (h : self.Evolves) (name : String) (args : List Value) :
    Run.Evolves (self.callNamed name args) := by
  refine .get_bind fun s => ?_
  split
  · exact h.callLibrary _ _
  · exact h.runFunction _ (evolves_setParameters _ _)
  · split
    · exact h.callDotted _ _ _
    · exact .raise _

theorem call (h : self.Evolves) (n : Node) : Run.Evolves (self.call n) := by
  refine .bind (h.evaluateAll _) fun args => ?_
  split
  · exact h.callNamed _ _
  · exact .bind (.nameOf _) fun _ => .raise _
  · exact .bind (.nameOf _) fun _ => .fail _

theorem listMethod (h : self.Evolves) (method : String) (target : Value) (args : List Value) :
    Run.Evolves (self.listMethod method target args) := by
  unfold Evaluator.listMethod
  split
  · exact .get_bind fun _ => h.callLibrary _ _
  · exact .raise _
  · exact .raise _

theorem objectMethod (h : self.Evolves) (method : String) (target : Value) (args : List Value) :
    Run.Evolves (self.objectMethod method target args) := by
  unfold Evaluator.objectMethod
  split
  · exact h.callLibrary _ _
  · exact .raise _
  · exact .raise _

theorem textMethod (h : self.Evolves) (method : String) (target : Value) (args : List Value) :
    Run.Evolves (self.textMethod method target args) := by
  unfold Evaluator.textMethod
  split
  · exact h.callLibrary _ _
  · exact .raise _
  · exact .raise _

theorem listArgument (h : self.Evolves) (method : String) (n : Node) :
    Run.Evolves (self.listArgument method n) :=
  .ite (.bind (.nameOf _) fun _ => .get_bind fun _ => .ite (.pure _) (h.evaluate n)) (h.evaluate n)

theorem methodCall (h : self.Evolves) (n : Node) : Run.Evolves (self.methodCall n) := by
  refine h.operand_bind n 0 fun target => .bind (evolves_methodName _ _) fun method => ?_
  dsimp only
  split
  · exact .ite (.raise _)
      (.bind (.mapM (h.listArgument method) _) fun args => h.listMethod _ _ args)
  · refine .ite (.bind (h.evaluateAll _) fun args => h.objectMethod _ _ args)
      (.get_bind fun s => ?_)
    split
    · exact .bind (h.evaluateAll _) fun args => h.callLibrary _ _
    · exact .raise _
  · exact .ite (.raise _) (.bind (h.evaluateAll _) fun args => h.textMethod _ _ args)
  · exact .raise _

theorem fillObject (h : self.Evolves) (nodes : List Node) (es : Entries) :
    Run.Evolves (self.fillObject nodes es) := by
  induction nodes generalizing es with
  | nil => exact .pure _
  | cons n rest ih => exact h.operand_bind n 0 fun v => .bind (.ofExcept _) fun key => ih _

theorem property (h : self.Evolves) (n : Node) : Run.Evolves (self.property n) := by
  refine h.operand_bind n 0 fun target => ?_
  split
  · refine .bind (.ofExcept _) fun key => .get_bind fun s => ?_
    split
    · exact .pure _
    · exact .bind (.text _) fun _ => .raiseAt _ _
  · exact .bind (.text _) fun _ => .raiseAt _ _

end Evolves

theorem evolves_place (n : Node) (items : Array Value) (index : Value) :
    Run.Evolves (Run.place n items index) := by
  unfold Run.place
  split
  · refine .bind (.ofExcept _) fun i => .ite .throw_bind (.ite (.pure _) ?_)
    exact .bind (.text _) fun _ => .raiseAt _ _
  · exact .raiseAt _ _

theorem evolves_checkType (name : String) (v : Value) (type : TokenKind)
    (line column : Option Nat) :
    Run.Evolves (Run.checkType name v type line column) :=
  .ite (.pure _) (.bind (.text _) fun _ => .throw _)

theorem evolves_assign (name : String) (v : Value) (line column : Option Nat) :
    Run.Evolves (Run.assign name v line column) := by
  refine .get_bind fun s => .ite .throw_bind (.ite .throw_bind ?_)
  have hset : Run.Evolves (do Run.setVariable name v; return v) :=
    .bind (.setVariable _ _) fun _ => .pure _
  split
  · exact .bind (evolves_checkType _ _ _ _ _) fun _ => hset
  · exact hset

theorem evolves_stop {α : Type} (s : ReadStop) : Run.Evolves (stop s : Run α) := by
  cases s with
  | fault f => exact .throw _
  | tooDeep => exact .throw _

theorem evolves_define (n : Node) : Run.Evolves (define n) := by
  have hput : Run.Evolves (do
      let params ← (n.children.filter (·.kind = .identifier)).mapM fun p => Run.nameOf p.value
      let body := n.children.filter (·.kind ≠ .identifier)
      let name ← Run.nameOf n.value
      modify fun s => { s with functions := s.functions.put name ⟨params, body⟩ }) :=
    .bind (.mapM (fun _ => .nameOf _) _) fun _ => .bind (.nameOf _) fun _ => .step fun _ => rfl
  exact .ite .throw_bind hput

theorem evolves_headingOf (v : Value) : Run.Evolves (headingOf v) := by
  unfold headingOf
  split
  · split
    · exact .pure _
    · exact .fail _
  · exact .pure _

theorem yields_fillObject (self : Evaluator) (nodes : List Node) {es : Entries}
    (hes : es.Distinct) :
    Yields (self.fillObject nodes es) Entries.Distinct := by
  induction nodes generalizing es with
  | nil => exact .pure hes
  | cons n rest ih =>
    exact .bind fun m => .bind fun v => .bind fun key => ih (Entries.distinct_put v hes)

theorem yields_members (self : Evaluator) (nodes : List Node) {methods fields : Entries}
    (hmethods : methods.Distinct) (hfields : fields.Distinct) :
    Yields (self.members nodes methods fields) fun found => found.1.Distinct ∧
    found.2.Distinct := by
  induction nodes generalizing methods fields with
  | nil => exact .pure ⟨hmethods, hfields⟩
  | cons n rest ih =>
    unfold Evaluator.members
    split
    · exact .bind fun key => .bind fun code => ih (Entries.distinct_put _ hmethods) hfields
    · exact .bind fun m => .bind fun v => .bind fun key =>
        ih hmethods (Entries.distinct_put v hfields)
    · exact .bind fun _ => ih hmethods hfields

namespace Evolves

variable {self : Evaluator}

theorem object (h : self.Evolves) (n : Node) : Run.Evolves (self.object n) := by
  refine .bind_result (h.fillObject n.children []) (self.yields_fillObject _ Entries.distinct_nil)
    fun es hes => ?_
  exact .act fun _ => .newObject fun _ => hes

theorem index (h : self.Evolves) (n : Node) : Run.Evolves (self.index n) := by
  refine h.operand_bind n 0 fun target => ?_
  split
  · exact h.operand_bind n 1 fun _ => .get_bind fun _ => .bind (evolves_place _ _ _)
      fun _ => .pure _
  · exact .raiseAt _ _

theorem expression (h : self.Evolves) (n : Node) : Run.Evolves (self.expression n) := by
  unfold Evaluator.expression
  split
  · exact .pure _
  · refine .bind (.nameOf _) fun name => .get_bind fun s => ?_
    split
    · exact .pure _
    · exact .raiseAt _ _
  · refine h.operand_bind n 0 fun _ => h.operand_bind n 1 fun _ => .act fun _ => ?_
    exact evolves_applySymbol _ _ _
  · refine h.operand_bind n 0 fun _ => .ite (.bind (.isTrue _) fun _ => .pure _) ?_
    exact .bind (.text _) fun _ => .raiseAt _ _
  · exact .bind (h.evaluateAll _) fun _ => .act fun _ => .newList _
  · exact h.object n
  · exact h.property n
  · exact h.methodCall n
  · exact h.index n
  · exact h.call n
  · exact .raiseAt _ _

/-! ## Statements -/

theorem declare (h : self.Evolves) (n : Node) : Run.Evolves (self.declare n) := by
  refine h.operand_bind n 0 fun v => .bind (.nameOf _) fun name => ?_
  have hset : Run.Evolves (do Run.setVariable name v; return v) :=
    .bind (.setVariable _ _) fun _ => .pure _
  have hnote :
      Run.Evolves (if n.constant then do Run.noteConstant name; Run.setVariable name v; return v
      else do Run.setVariable name v; return v) := .ite
        (.bind (.step fun _ => rfl) fun _ => hset) hset
  cases n.declared with
  | none => exact hnote
  | some type =>
    exact .bind (.step fun _ => rfl) fun _ => .bind (evolves_checkType _ _ _ _ _) fun _ => hnote

theorem assignment (h : self.Evolves) (n : Node) : Run.Evolves (self.assignment n) := by
  unfold Evaluator.assignment
  refine .bind (h.child n 0) fun target => h.operand_bind n 1 fun v => ?_
  split
  · exact .bind (.nameOf _) fun name => evolves_assign _ _ _ _
  · refine h.operand_bind target 0 fun object => ?_
    split
    · rename_i r
      refine .bind (.ofExcept _) fun key => .bind (.act fun _ => .entries_bind ?_) fun _ => .pure _
      exact .setEntries r fun hd => Entries.distinct_put v (hd.entries r)
    · exact .bind (.text _) fun _ => .raiseAt _ _
  · refine h.operand_bind target 0 fun list => ?_
    split
    · refine h.operand_bind target 1 fun _ => .get_bind fun _ =>
        .bind (evolves_place _ _ _) fun _ => ?_
      exact .bind (.act fun _ => .bind (.items _) fun _ _ _ => .setItems _ _) fun _ => .pure _
    · exact .raiseAt _ _
  · exact .raiseAt _ _

theorem branches (h : self.Evolves) (nodes : List Node) : Run.Evolves (self.branches nodes) := by
  induction nodes with
  | nil => exact .pure _
  | cons n rest ih =>
    refine .ite (h.operand_bind n 0 fun v => .bind (.isTrue _) fun b => ?_) (.ite (h.block _) ih)
    exact .ite (h.block _) ih

theorem conditional (h : self.Evolves) (n : Node) : Run.Evolves (self.conditional n) :=
  h.operand_bind n 0 fun _ => .bind (.isTrue _) fun _ => .ite (h.block _) (h.branches _)

theorem clauses (h : self.Evolves) (v : Value) (last : Option Node) (nodes : List Node) :
    Run.Evolves (self.clauses v last nodes) := by
  induction nodes generalizing last with
  | nil => exact h.block _
  | cons n rest ih =>
    unfold Evaluator.clauses
    split
    · exact ih last
    · refine .ite (ih _) (.bind (h.evaluate _) fun w => .bind (.act fun _ => .reading _)
        fun b => ?_)
      exact .ite (h.block _) (ih last)

theorem round (h : self.Evolves) (body : List Node) : Run.Evolves (self.round body) := by
  refine .tryCatch (.bind (h.block body) fun _ => .pure _) fun e => ?_
  split
  · exact .pure _
  · exact .pure _
  · exact .throw _

theorem countRounds (h : self.Evolves) (name : Value) (body : List Node) (toward : Relation)
    (stop : Value) (step : Num) (v : Value) (i : Num) (fuel : Nat) :
    Run.Evolves (self.countRounds name body toward stop step v i fuel) := by
  have hround (v : Value) : Run.Evolves (self.countRound name body v) :=
    .bind (.nameOf _) fun _ => .bind (.setVariable _ _) fun _ => h.round body
  induction fuel generalizing v i with
  | zero => exact .throw _
  | succ fuel ih =>
    refine .bind (.act fun _ => .reading _) fun b =>
      .ite (.bind (hround v) fun goesOn => ?_) (.pure _)
    exact .ite (.bind (.ofExcept _) fun next => .bind (.act fun _ => .number _) fun w => ih w next)
      (.pure _)

theorem heading (h : self.Evolves) (n : Node) : Run.Evolves (self.heading n) := by
  refine h.operand_bind n 0 fun start => h.operand_bind n 1 fun stop => ?_
  split
  · exact .ite (.bind (h.evaluate _) fun _ => .pure _) (.pure _)
  · exact .pure _

theorem loop (h : self.Evolves) (n : Node) : Run.Evolves (self.loop n) := by
  rw [Evaluator.loop_eq]
  refine .bind (h.heading n) fun parts => ?_
  dsimp only
  unfold Evaluator.counting
  split
  · exact h.countRounds _ _ _ _ _ _ _ _
  · exact .raise _

theorem whileRounds (h : self.Evolves) (n : Node) (body : List Node) (fuel : Nat) :
    Run.Evolves (self.whileRounds n body fuel) := by
  induction fuel with
  | zero => exact .throw _
  | succ fuel ih =>
    refine h.operand_bind n 0 fun v => .bind (.isTrue _) fun b =>
      .ite (.bind (h.round body) fun goesOn => ?_) (.pure _)
    exact .ite ih (.pure _)

theorem tryCatch (h : self.Evolves) (n : Node) : Run.Evolves (self.tryCatch n) := by
  refine .tryCatch (.bind (h.child n 0) fun m => h.block _) fun e => ?_
  split
  · exact .throw _
  · exact .bind (.nameOf _) fun _ => .bind (.setVariable _ _) fun _ => .bind (h.child n 1)
      fun m => h.block _

theorem importFile (h : self.Evolves) (n : Node) : Run.Evolves (self.importFile n) := by
  refine .bind (.text _) fun path => .tryCatch ?_ fun e => ?_
  · split
    · refine .get_bind fun s => .bind (.ofExcept _) fun source => ?_
      split
      · exact evolves_stop _
      · exact h.block _
    · exact .fail _
  · split
    · exact .raise _
    · exact .raise _
    · exact .throw _

theorem returnValue (h : self.Evolves) (n : Node) : Run.Evolves (self.returnValue n) := by
  unfold Evaluator.returnValue
  split
  · exact .throw _
  · exact .bind (h.evaluate _) fun _ => .throw _

theorem members (h : self.Evolves) (nodes : List Node) (methods fields : Entries) :
    Run.Evolves (self.members nodes methods fields) := by
  induction nodes generalizing methods fields with
  | nil => exact .pure _
  | cons n rest ih =>
    unfold Evaluator.members
    split
    · exact .bind (.ofExcept _) fun key => .bind (.act fun _ => .alloc fun es hes => by cases hes)
        fun code => ih _ _
    · exact h.operand_bind n 0 fun v => .bind (.ofExcept _) fun key => ih _ _
    · exact .bind (h.execute n) fun _ => ih _ _

/-- A class is an object with four keys, of which two hold objects that were gathered from its
body. -/
theorem classDefinition (h : self.Evolves) (n : Node) : Run.Evolves (self.classDefinition n) := by
  have hclass (name parent : Value) : Run.Evolves (do
      let found ← self.members n.children [] []
      let r ← Run.act do
        let methods ← Action.newObject found.1
        let fields ← Action.newObject found.2
        Action.alloc (.object [(.str "name", name), (.str "parent", parent),
          (.str "methods", methods), (.str "fields", fields)])
      let className ← Run.nameOf name
      modify fun s => { s with classes := s.classes.put className r }
      return .object r : Run Value) := by
    have hyields := self.yields_members n.children Entries.distinct_nil Entries.distinct_nil
    refine .bind_result (h.members _ _ _) hyields fun found hfound => ?_
    refine .bind (.act fun _ => ?_) fun r => .bind (.nameOf _) fun _ => .bind (.step fun _ => rfl)
      fun _ => .pure _
    refine .bind (.newObject fun _ => hfound.1) fun methods _ _ => ?_
    refine .bind (.newObject fun _ => hfound.2) fun fields _ _ => .alloc fun es hes _ => ?_
    cases hes
    change List.Pairwise _ [Value.str "name", .str "parent", .str "methods", .str "fields"]
    decide
  refine .bind (evolves_headingOf _) fun heading => .bind (.isTrue _) fun b => ?_
  refine .ite (.bind (.nameOf _) fun _ => .get_bind fun s => ?_) (hclass _ _)
  exact .ite .throw_bind (hclass _ _)

theorem statement (h : self.Evolves) (n : Node) : Run.Evolves (self.statement n) := by
  have hdone {r : Run Unit} (hr : Run.Evolves r) : Run.Evolves (do r; return .null : Run Value) :=
    .bind hr fun _ => .pure _
  unfold Evaluator.statement
  cases n.kind with
  | program | block => exact hdone (h.block _)
  | declaration => exact hdone (.bind (h.declare n) fun _ => .pure _)
  | function => exact hdone (evolves_define n)
  | list | object => exact .raise _
  | breakLoop | continueLoop => exact .throw _
  | call => exact h.call n
  | conditional => exact hdone (h.conditional n)
  | switch => exact hdone (h.operand_bind n 0 fun v => h.clauses v none _)
  | loop => exact hdone (h.loop n)
  | whileLoop => exact hdone (h.whileRounds n _ _)
  | returnValue => exact h.returnValue n
  | importFile => exact hdone (h.importFile n)
  | tryCatch => exact hdone (h.tryCatch n)
  | classDefinition => exact h.classDefinition n
  | assignment => exact h.assignment n
  | binary | unary | property | methodCall | index | identifier | literal =>
    exact hdone (.bind (h.evaluate n) fun _ => .pure _)

end Evolves

/-- Whatever an evaluator runs evolves the heap. -/
theorem evolves_upTo (rounds depth : Nat) : (upTo rounds depth).Evolves := by
  induction depth with
  | zero => exact ⟨.child, fun _ => .throw _, fun _ => .throw _⟩
  | succ depth ih => exact ⟨.child, ih.expression, ih.statement⟩

end Evaluator

end Luuqad

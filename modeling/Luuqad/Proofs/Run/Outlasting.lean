import Luuqad.Proofs.Lockstep.Statements

/-!
# Larger limits

A run is exhausted when it goes deeper, or on for longer, than its limits allow, and nothing handles
that. So a run that is not exhausted does not notice its limits: with larger ones it does the same.

`Run.OutlastedBy r r'` says that `r'` does what `r` does unless `r` is exhausted. It goes through
all forms of expressions and statements, from their parts to the whole, and so it holds between runs
with smaller and with larger limits (`Limits.outlastedBy`). What code does with some limits, it does
with all that are large enough (`Limits.finally_of_ok`).
-/

namespace Luuqad

/-- The run ended because it went beyond its limits. -/
def Exhausted {α : Type} (p : EStateM.Result Interrupt State α) : Prop :=
  ∃ t, p = .error .exhausted t

theorem not_exhausted_ok {α : Type} {a : α} {t : State} :
    ¬Exhausted (.ok a t : EStateM.Result Interrupt State α) := by
  rintro ⟨u, hu⟩
  cases hu

/-- The second run does what the first one does, unless the first one is exhausted. -/
def Run.OutlastedBy {α : Type} (r r' : Run α) : Prop := ∀ s, Exhausted (r s) ∨ r' s = r s

open Run

namespace Run.OutlastedBy

variable {α β : Type}

/-! ## Rules -/

theorem refl (r : Run α) : OutlastedBy r r := fun _ => .inr rfl

theorem exhausted {r : Run α} : OutlastedBy (throw .exhausted) r := fun s => .inl ⟨s, rfl⟩

theorem bind {x x' : Run α} {f f' : α → Run β} (hx : OutlastedBy x x')
    (hf : ∀ a, OutlastedBy (f a) (f' a)) : OutlastedBy (x >>= f) (x' >>= f') := by
  intro s
  rcases hx s with ⟨t, ht⟩ | heq
  · exact .inl ⟨t, bind_error ht⟩
  · cases hrun : x s with
    | ok a t =>
      rw [bind_ok hrun, bind_ok (heq.trans hrun)]
      exact hf a t
    | error e t =>
      rw [bind_error hrun, bind_error (heq.trans hrun)]
      exact .inr rfl

theorem after {x : Run α} {f f' : α → Run β} (hf : ∀ a, OutlastedBy (f a) (f' a)) :
    OutlastedBy (x >>= f) (x >>= f') := bind (refl x) hf

theorem ite {p : Prop} [Decidable p] {x x' y y' : Run α} (hx : OutlastedBy x x')
    (hy : OutlastedBy y y') : OutlastedBy (if p then x else y) (if p then x' else y') := by
  split
  · exact hx
  · exact hy

theorem tryCatch {x x' : Run α} {f f' : Interrupt → Run α} (hx : OutlastedBy x x')
    (hf : ∀ e, OutlastedBy (f e) (f' e)) (hexhausted : f .exhausted = throw .exhausted) :
    OutlastedBy (MonadExcept.tryCatch x f) (MonadExcept.tryCatch x' f') := by
  intro s
  rcases hx s with ⟨t, ht⟩ | heq
  · refine .inl ⟨t, ?_⟩
    rw [tryCatch_error ht, hexhausted]
    rfl
  · cases hrun : x s with
    | ok a t =>
      rw [tryCatch_ok hrun, tryCatch_ok (heq.trans hrun)]
      exact .inr rfl
    | error e t =>
      rw [tryCatch_error hrun, tryCatch_error (heq.trans hrun)]
      exact hf e t

theorem mapM {f f' : α → Run β} (hf : ∀ a, OutlastedBy (f a) (f' a)) (items : List α) :
    OutlastedBy (items.mapM f) (items.mapM f') := by
  induction items with
  | nil => exact refl _
  | cons a items ih =>
    rw [List.mapM_cons, List.mapM_cons]
    exact bind (hf a) fun b => bind ih fun bs => refl _

/-! ## The library -/

theorem eachItem {r : Ref} {step step' : Value → Run (List Value)}
    (hstep : ∀ v, OutlastedBy (step v) (step' v)) (i : Nat) {fuel fuel' : Nat} (h : fuel ≤ fuel') :
    OutlastedBy (Library.eachItem r step i fuel) (Library.eachItem r step' i fuel') := by
  induction fuel generalizing i fuel' with
  | zero => exact exhausted
  | succ fuel ih =>
    obtain ⟨fuel', rfl⟩ := Nat.exists_eq_add_of_lt h
    refine after fun s => ?_
    split
    · exact refl _
    · exact bind (hstep _) fun here => bind (ih (i + 1) (by omega)) fun rest => refl _

theorem throughItems {callback callback' : Library.Callback}
    (hcallback : ∀ f v, OutlastedBy (callback f v) (callback' f v)) {limit limit' : Nat}
    (h : limit ≤ limit') (keep : Value → Value → Run (List Value)) (b : Bound Argument)
    (listName functionName : String) :
    OutlastedBy (Library.throughItems callback limit keep b listName functionName)
      (Library.throughItems callback' limit' keep b listName functionName) := by
  refine after fun r => ?_
  have hitems {f f' : Value → Run Value} (hf : ∀ v, OutlastedBy (f v) (f' v)) : OutlastedBy
      (do
        let items ← Library.eachItem r (fun v => do keep v (← f v)) 0 limit
        Run.act (Action.newList items.toArray))
      (do
        let items ← Library.eachItem r (fun v => do keep v (← f' v)) 0 limit'
        Run.act (Action.newList items.toArray)) :=
    bind (eachItem (fun v => bind (hf v) fun w => refl _) 0 h) fun _ => refl _
  cases (b.params.lookup functionName).getD (.value .null) with
  | user f => exact hitems (hcallback f)
  | value v =>
    cases v with
    | function f => exact hitems fun v => refl _
    | _ => exact fun _ => .inr rfl

theorem call {callback callback' : Library.Callback}
    (hcallback : ∀ f v, OutlastedBy (callback f v) (callback' f v)) {limit limit' : Nat}
    (h : limit ≤ limit') (f : Builtin) (positional : List Argument)
    (named : List (String × Argument)) :
    OutlastedBy (f.call callback limit positional named)
    (f.call callback' limit' positional named) := by
  refine after fun b => ?_
  cases f with
  | listFilter | listMap => exact throughItems hcallback h _ b _ _
  | _ => exact refl _

end Run.OutlastedBy

/-- The second evaluator has larger limits: it does what the first one does unless that is
exhausted. -/
structure Evaluator.OutlastedBy (ev₁ ev₂ : Evaluator) : Prop where
  rounds : ev₁.rounds ≤ ev₂.rounds
  child : ev₂.child = ev₁.child
  evaluate (n : Node) : Run.OutlastedBy (ev₁.evaluate n) (ev₂.evaluate n)
  execute (n : Node) : Run.OutlastedBy (ev₁.execute n) (ev₂.execute n)

namespace Evaluator.OutlastedBy

variable {ev₁ ev₂ : Evaluator} {α : Type}

/-! ## Expressions -/

theorem operand_bind (h : ev₁.OutlastedBy ev₂) (n : Node) (i : Nat) {f f' : Value → Run α}
    (hf : ∀ v, Run.OutlastedBy (f v) (f' v)) :
    Run.OutlastedBy (ev₁.child n i >>= fun m => ev₁.evaluate m >>= f)
      (ev₂.child n i >>= fun m => ev₂.evaluate m >>= f') := by
  rw [h.child]
  exact .after fun m => .bind (h.evaluate m) hf

theorem evaluateAll (h : ev₁.OutlastedBy ev₂) (nodes : List Node) :
    Run.OutlastedBy (nodes.mapM ev₁.evaluate) (nodes.mapM ev₂.evaluate) := .mapM h.evaluate nodes

theorem sequence (h : ev₁.OutlastedBy ev₂) (nodes : List Node) :
    Run.OutlastedBy (ev₁.sequence nodes) (ev₂.sequence nodes) := by
  induction nodes with
  | nil => exact .refl _
  | cons n rest ih =>
    cases rest with
    | nil => exact h.execute n
    | cons m rest => exact .bind (h.execute n) fun _ => ih

theorem block (h : ev₁.OutlastedBy ev₂) (nodes : List Node) :
    Run.OutlastedBy (ev₁.block nodes) (ev₂.block nodes) := .bind (h.sequence nodes) fun _ => .refl _

theorem functionBody (h : ev₁.OutlastedBy ev₂) (f : UserFunction) :
    Run.OutlastedBy (ev₁.functionBody f) (ev₂.functionBody f) :=
  .tryCatch (h.sequence f.body) (fun _ => .refl _) rfl

theorem runFunction (h : ev₁.OutlastedBy ev₂) (f : UserFunction) (setting : Run Unit) :
    Run.OutlastedBy (ev₁.runFunction f setting) (ev₂.runFunction f setting) :=
  .after fun _ => .after fun _ => .bind (h.functionBody f) fun _ => .refl _

theorem callLibrary (h : ev₁.OutlastedBy ev₂) (f : Builtin) (args : List Argument) :
    Run.OutlastedBy (ev₁.callLibrary f args) (ev₂.callLibrary f args) :=
  .call (fun f _ => h.runFunction f _) h.rounds f args []

theorem callDotted (h : ev₁.OutlastedBy ev₂) (variableName method : String) (args : List Value) :
    Run.OutlastedBy (ev₁.callDotted variableName method args)
    (ev₂.callDotted variableName method args) := by
  refine .after fun s => .ite (fun _ => .inr rfl) ?_
  split
  · exact h.callLibrary _ _
  · exact .refl _

theorem callNamed (h : ev₁.OutlastedBy ev₂) (name : String) (args : List Value) :
    Run.OutlastedBy (ev₁.callNamed name args) (ev₂.callNamed name args) := by
  refine .after fun s => ?_
  split
  · exact h.callLibrary _ _
  · exact h.runFunction _ _
  · split
    · exact h.callDotted _ _ _
    · exact .refl _

theorem call (h : ev₁.OutlastedBy ev₂) (n : Node) : Run.OutlastedBy (ev₁.call n) (ev₂.call n) := by
  refine .bind (h.evaluateAll _) fun args => ?_
  split
  · exact h.callNamed _ _
  · exact .refl _
  · exact .refl _

theorem listMethod (h : ev₁.OutlastedBy ev₂) (method : String) (target : Value)
    (args : List Value) :
    Run.OutlastedBy (ev₁.listMethod method target args) (ev₂.listMethod method target args) := by
  unfold Evaluator.listMethod
  split
  · exact .after fun _ => h.callLibrary _ _
  · exact .refl _
  · exact .refl _

theorem objectMethod (h : ev₁.OutlastedBy ev₂) (method : String) (target : Value)
    (args : List Value) :
    Run.OutlastedBy (ev₁.objectMethod method target args)
    (ev₂.objectMethod method target args) := by
  unfold Evaluator.objectMethod
  split
  · exact h.callLibrary _ _
  · exact .refl _
  · exact .refl _

theorem textMethod (h : ev₁.OutlastedBy ev₂) (method : String) (target : Value)
    (args : List Value) :
    Run.OutlastedBy (ev₁.textMethod method target args) (ev₂.textMethod method target args) := by
  unfold Evaluator.textMethod
  split
  · exact h.callLibrary _ _
  · exact .refl _
  · exact .refl _

theorem listArgument (h : ev₁.OutlastedBy ev₂) (method : String) (n : Node) :
    Run.OutlastedBy (ev₁.listArgument method n) (ev₂.listArgument method n) :=
  .ite (.after fun _ => .after fun _ => .ite (.refl _) (h.evaluate n)) (h.evaluate n)

theorem methodCall (h : ev₁.OutlastedBy ev₂) (n : Node) :
    Run.OutlastedBy (ev₁.methodCall n) (ev₂.methodCall n) := by
  refine h.operand_bind n 0 fun target => .after fun method => ?_
  dsimp only
  split
  · exact .ite (.refl _) (.bind (.mapM (h.listArgument method) _) fun args => h.listMethod _ _ args)
  · refine .ite (.bind (h.evaluateAll _) fun args => h.objectMethod _ _ args) (.after fun s => ?_)
    split
    · exact .bind (h.evaluateAll _) fun args => h.callLibrary _ _
    · exact .refl _
  · exact .ite (.refl _) (.bind (h.evaluateAll _) fun args => h.textMethod _ _ args)
  · exact .refl _

theorem fillObject (h : ev₁.OutlastedBy ev₂) (nodes : List Node) (entries : Entries) :
    Run.OutlastedBy (ev₁.fillObject nodes entries) (ev₂.fillObject nodes entries) := by
  induction nodes generalizing entries with
  | nil => exact .refl _
  | cons n rest ih => exact h.operand_bind n 0 fun v => .after fun key => ih _

theorem property (h : ev₁.OutlastedBy ev₂) (n : Node) :
    Run.OutlastedBy (ev₁.property n) (ev₂.property n) :=
  h.operand_bind n 0 fun _ => .refl _

theorem index (h : ev₁.OutlastedBy ev₂) (n : Node) :
    Run.OutlastedBy (ev₁.index n) (ev₂.index n) := by
  refine h.operand_bind n 0 fun target => ?_
  split
  · exact h.operand_bind n 1 fun _ => .refl _
  · exact .refl _

theorem expression (h : ev₁.OutlastedBy ev₂) (n : Node) :
    Run.OutlastedBy (ev₁.expression n) (ev₂.expression n) := by
  unfold Evaluator.expression
  split
  · exact .refl _
  · exact .refl _
  · exact h.operand_bind n 0 fun _ => h.operand_bind n 1 fun _ => .refl _
  · exact h.operand_bind n 0 fun _ => .refl _
  · exact .bind (h.evaluateAll _) fun _ => .refl _
  · exact .bind (h.fillObject _ _) fun _ => .refl _
  · exact h.property n
  · exact h.methodCall n
  · exact h.index n
  · exact h.call n
  · exact .refl _

/-! ## Statements -/

theorem assignment (h : ev₁.OutlastedBy ev₂) (n : Node) :
    Run.OutlastedBy (ev₁.assignment n) (ev₂.assignment n) := by
  unfold Evaluator.assignment
  rw [h.child]
  refine .after fun target => .after fun m => .bind (h.evaluate m) fun v => ?_
  split
  · exact .refl _
  · exact .after fun m => .bind (h.evaluate m) fun _ => .refl _
  · refine .after fun m => .bind (h.evaluate m) fun list => ?_
    split
    · exact .after fun m => .bind (h.evaluate m) fun _ => .refl _
    · exact .refl _
  · exact .refl _

theorem branches (h : ev₁.OutlastedBy ev₂) (nodes : List Node) :
    Run.OutlastedBy (ev₁.branches nodes) (ev₂.branches nodes) := by
  induction nodes with
  | nil => exact .refl _
  | cons n rest ih =>
    refine .ite (h.operand_bind n 0 fun v => .after fun b => ?_) (.ite (h.block _) ih)
    exact .ite (h.block _) ih

theorem conditional (h : ev₁.OutlastedBy ev₂) (n : Node) :
    Run.OutlastedBy (ev₁.conditional n) (ev₂.conditional n) :=
  h.operand_bind n 0 fun _ => .after fun _ => .ite (h.block _) (h.branches _)

theorem clauses (h : ev₁.OutlastedBy ev₂) (v : Value) (last : Option Node) (nodes : List Node) :
    Run.OutlastedBy (ev₁.clauses v last nodes) (ev₂.clauses v last nodes) := by
  induction nodes generalizing last with
  | nil => exact h.block _
  | cons n rest ih =>
    unfold Evaluator.clauses
    split
    · exact ih last
    · refine .ite (ih _) (.bind (h.evaluate _) fun w => .after fun b => ?_)
      exact .ite (h.block _) (ih last)

theorem round (h : ev₁.OutlastedBy ev₂) (body : List Node) :
    Run.OutlastedBy (ev₁.round body) (ev₂.round body) :=
  .tryCatch (.bind (h.block body) fun _ => .refl _) (fun _ => .refl _) rfl

theorem countRound (h : ev₁.OutlastedBy ev₂) (name : Value) (body : List Node) (v : Value) :
    Run.OutlastedBy (ev₁.countRound name body v) (ev₂.countRound name body v) :=
  .after fun _ => .after fun _ => h.round body

theorem countRounds (h : ev₁.OutlastedBy ev₂) (name : Value) (body : List Node) (toward : Relation)
    (stop : Value) (step : Num) (v : Value) (i : Num) {fuel fuel' : Nat} (hfuel : fuel ≤ fuel') :
    Run.OutlastedBy (ev₁.countRounds name body toward stop step v i fuel)
      (ev₂.countRounds name body toward stop step v i fuel') := by
  induction fuel generalizing v i fuel' with
  | zero => exact .exhausted
  | succ fuel ih =>
    obtain ⟨fuel', rfl⟩ := Nat.exists_eq_add_of_lt hfuel
    refine .after fun b => .ite (.bind (h.countRound name body v) fun goesOn => ?_) (.refl _)
    exact .ite (.after fun next => .after fun w => ih w next (by omega)) (.refl _)

theorem heading (h : ev₁.OutlastedBy ev₂) (n : Node) :
    Run.OutlastedBy (ev₁.heading n) (ev₂.heading n) := by
  refine h.operand_bind n 0 fun start => h.operand_bind n 1 fun stop => ?_
  split
  · exact .ite (.bind (h.evaluate _) fun _ => .refl _) (.refl _)
  · exact .refl _

theorem counting (h : ev₁.OutlastedBy ev₂) (n : Node) (start stop step : Value) (body : List Node) :
    Run.OutlastedBy (ev₁.counting n start stop step body)
    (ev₂.counting n start stop step body) := by
  unfold Evaluator.counting
  split
  · exact h.countRounds _ _ _ _ _ _ _ h.rounds
  · exact .refl _

theorem loop (h : ev₁.OutlastedBy ev₂) (n : Node) : Run.OutlastedBy (ev₁.loop n) (ev₂.loop n) := by
  rw [Evaluator.loop_eq, Evaluator.loop_eq]
  exact .bind (h.heading n) fun _ => h.counting _ _ _ _ _

theorem whileRounds (h : ev₁.OutlastedBy ev₂) (n : Node) (body : List Node) {fuel fuel' : Nat}
    (hfuel : fuel ≤ fuel') :
    Run.OutlastedBy (ev₁.whileRounds n body fuel) (ev₂.whileRounds n body fuel') := by
  induction fuel generalizing fuel' with
  | zero => exact .exhausted
  | succ fuel ih =>
    obtain ⟨fuel', rfl⟩ := Nat.exists_eq_add_of_lt hfuel
    refine h.operand_bind n 0 fun v => .after fun b =>
      .ite (.bind (h.round body) fun goesOn => ?_) (.refl _)
    exact .ite (ih (by omega)) (.refl _)

theorem tryCatch (h : ev₁.OutlastedBy ev₂) (n : Node) :
    Run.OutlastedBy (ev₁.tryCatch n) (ev₂.tryCatch n) := by
  have hpart (i : Nat) : Run.OutlastedBy (do ev₁.block (← ev₁.child n i).children)
      (do ev₂.block (← ev₂.child n i).children) := by
    rw [h.child]
    exact .after fun m => h.block _
  refine .tryCatch (hpart 0) (fun e => ?_) rfl
  split
  · exact .refl _
  · exact .after fun _ => .after fun _ => hpart 1

theorem importFile (h : ev₁.OutlastedBy ev₂) (n : Node) :
    Run.OutlastedBy (ev₁.importFile n) (ev₂.importFile n) := by
  refine .after fun path => .tryCatch ?_ (fun _ => .refl _) rfl
  split
  · refine .after fun s => .after fun source => ?_
    split
    · exact .refl _
    · exact h.block _
  · exact .refl _

theorem members (h : ev₁.OutlastedBy ev₂) (nodes : List Node) (methods fields : Entries) :
    Run.OutlastedBy (ev₁.members nodes methods fields) (ev₂.members nodes methods fields) := by
  induction nodes generalizing methods fields with
  | nil => exact .refl _
  | cons n rest ih =>
    unfold Evaluator.members
    split
    · exact .after fun key => .after fun code => ih _ _
    · exact h.operand_bind n 0 fun v => .after fun key => ih _ _
    · exact .bind (h.execute n) fun _ => ih _ _

theorem classDefinition (h : ev₁.OutlastedBy ev₂) (n : Node) :
    Run.OutlastedBy (ev₁.classDefinition n) (ev₂.classDefinition n) := by
  have hmembers {g : Entries × Entries → Run Value} :
      Run.OutlastedBy (ev₁.members n.children [] [] >>= g)
      (ev₂.members n.children [] [] >>= g) := .bind (h.members _ _ _) fun _ => .refl _
  refine .after fun (name, parent) => .after fun b =>
    .ite (.after fun _ => .after fun _ => ?_) hmembers
  exact .ite (.after fun _ => hmembers) hmembers

theorem returnValue (h : ev₁.OutlastedBy ev₂) (n : Node) :
    Run.OutlastedBy (ev₁.returnValue n) (ev₂.returnValue n) := by
  unfold Evaluator.returnValue
  split
  · exact .refl _
  · exact .bind (h.evaluate _) fun _ => .refl _

theorem statement (h : ev₁.OutlastedBy ev₂) (n : Node) :
    Run.OutlastedBy (ev₁.statement n) (ev₂.statement n) := by
  have hdone {r r' : Run Unit} (hr : Run.OutlastedBy r r') :
      Run.OutlastedBy (do r; return .null : Run Value) (do r'; return .null) :=
        .bind hr fun _ => .refl _
  unfold Evaluator.statement
  cases n.kind with
  | program | block => exact hdone (h.block _)
  | declaration => exact hdone (.bind (h.operand_bind n 0 fun _ => .refl _) fun _ => .refl _)
  | function | list | object | breakLoop | continueLoop => exact .refl _
  | call => exact h.call n
  | conditional => exact hdone (h.conditional n)
  | switch => exact hdone (h.operand_bind n 0 fun v => h.clauses v none _)
  | loop => exact hdone (h.loop n)
  | whileLoop => exact hdone (h.whileRounds n _ h.rounds)
  | returnValue => exact h.returnValue n
  | importFile => exact hdone (h.importFile n)
  | tryCatch => exact hdone (h.tryCatch n)
  | classDefinition => exact h.classDefinition n
  | assignment => exact h.assignment n
  | binary | unary | property | methodCall | index | identifier | literal =>
    exact hdone (.bind (h.evaluate n) fun _ => .refl _)

end Evaluator.OutlastedBy

/-! ## Limits -/

theorem Evaluator.rounds_upTo (rounds depth : Nat) : (upTo rounds depth).rounds = rounds := by
  cases depth <;> rfl

theorem Evaluator.child_upTo (rounds depth : Nat) : (upTo rounds depth).child = Node.child := by
  cases depth <;> rfl

theorem Evaluator.outlastedBy_upTo {rounds rounds' depth depth' : Nat} (hrounds : rounds ≤ rounds')
    (hdepth : depth ≤ depth') : (upTo rounds depth).OutlastedBy (upTo rounds' depth') := by
  induction depth generalizing depth' with
  | zero =>
    have hrounds : rounds ≤ (upTo rounds' depth').rounds :=
      (rounds_upTo rounds' depth').symm ▸ hrounds
    exact ⟨hrounds, child_upTo rounds' depth', fun _ => .exhausted, fun _ => .exhausted⟩
  | succ depth ih =>
    obtain ⟨depth', rfl⟩ := Nat.exists_eq_add_of_lt hdepth
    have h : (upTo rounds depth).OutlastedBy (upTo rounds' (depth + depth')) := ih (by omega)
    exact ⟨hrounds, rfl, h.expression, h.statement⟩

namespace Limits

variable {α : Type} {x : Limits → Run α} {s t : State}

/-- Larger limits make no difference to a run that is not exhausted. -/
theorem outlastedBy {l m : Limits} (h : l ≤ m) : l.evaluator.OutlastedBy m.evaluator :=
  Evaluator.outlastedBy_upTo h.2 h.1

/-- What a run does with some limits without being exhausted, it does with all that are large
enough. -/
theorem finally_of_eq (hx : ∀ {l m : Limits}, l ≤ m → Run.OutlastedBy (x l) (x m)) {l : Limits}
    {r : EStateM.Result Interrupt State α} (h : x l s = r) (hr : ¬Exhausted r) :
    Finally fun m => x m s = r := by
  refine ⟨l, fun m hm => ?_⟩
  rcases hx hm s with hexhausted | heq
  · exact absurd (h ▸ hexhausted) hr
  · exact heq.trans h

theorem finally_of_ok (hx : ∀ {l m : Limits}, l ≤ m → Run.OutlastedBy (x l) (x m)) {l : Limits}
    {a : α} (h : x l s = .ok a t) : Finally fun m => x m s = .ok a t :=
  finally_of_eq hx h not_exhausted_ok

theorem exhausted_or_of_ok (hx : ∀ {l m : Limits}, l ≤ m → Run.OutlastedBy (x l) (x m))
    {l : Limits} {a : α} (h : x l s = .ok a t) (m : Limits) :
    Exhausted (x m s) ∨ x m s = .ok a t := by
  obtain ⟨k, hk⟩ := (finally_of_ok hx h).and (.of_le m)
  obtain ⟨hok, hm⟩ := hk k ⟨Nat.le_refl _, Nat.le_refl _⟩
  exact (hx hm s).imp_right fun heq => heq.symm.trans hok

end Limits

end Luuqad

import Luuqad.Proofs.Run.Conduct

/-!
# Whole runs under a regime

A regime is a conduct for all statements that a run may come to: those of the functions that are
called as well. Every interrupt leaves its invariant true. So a regime also says that the bodies of
functions are good, and that the invariant holds where the end of a call puts the variables of the
caller back.

A regime is kept by whole runs (`Regime.runs`), by induction on the depth. There the second
evaluator may watch calls.
-/

namespace Luuqad

/-- What a run keeps to. -/
structure Regime where
  inv : State → Prop
  allows : Scope → Interrupt → Prop
  good : Scope → Node → Prop
  may : String → Manner → Prop
  quiet {s t : State} : s.Alike t → inv s → inv t
  change {s t : State} : inv s → s.Change may t → inv t
  restore {s t : State} : inv s → inv t → s.Grows t → inv { t with vars := s.vars }
  define {s : State} {c : Scope} {n : Node} (name : String) (params : List String) :
    inv s → good c n → n.kind = .function → (∀ p ∈ params, n.Binds p .passed) →
    inv { s with
      functions := s.functions.put name ⟨params, n.children.filter (·.kind ≠ .identifier)⟩ }
  function {s : State} {name : String} {f : UserFunction} :
    inv s → s.functions.get? name = some f → ∀ m ∈ f.body, good .body m
  params {s : State} {name : String} {f : UserFunction} :
    inv s → s.functions.get? name = some f → ∀ p ∈ f.params, may p .passed
  binds {c : Scope} {n : Node} {name : String} {manner : Manner} :
    good c n → n.Binds name manner → may name manner
  file {s : State} {c : Scope} {n : Node} {path source : String} {program : Node} :
    inv s → good c n → n.kind = .importFile → n.value = .str path →
    s.folder.read path = .ok source → readProgram source = .ok program →
    ∀ m ∈ program.children, good .top m
  body {c : Scope} {n m : Node} : good c n → n.hasParts = false → m ∈ n.body → good (n.inside c) m
  parts {c : Scope} {n p m : Node} :
    good c n → n.hasParts = true → p ∈ n.children → m ∈ p.children → good c m
  fault {c : Scope} {f : Fault} : f.isMisplaced = false → allows c (.fault f)
  stopped {c : Scope} : allows c .stopped
  exhausted {c : Scope} : allows c .exhausted
  breaking {c : Scope} {n : Node} : good c n → n.kind = .breakLoop → allows c .breaking
  continuing {c : Scope} {n : Node} : good c n → n.kind = .continueLoop → allows c .continuing
  returning {c : Scope} {n : Node} {v : Value} :
    good c n → n.kind = .returnValue → allows c (.returning v)
  ofRound {c : Scope} {e : Interrupt} :
    allows c.inLoop e → e ≠ .breaking → e ≠ .continuing → allows c e
  ofCall {e : Interrupt} : allows .body e → (∀ v, e ≠ .returning v) → allows .top e
  ofTop {c : Scope} {e : Interrupt} : allows .top e → allows c e
  covers : Node → Prop := fun _ => True
  covers_child {n m : Node} : covers n → m ∈ n.children → covers m := by exact fun _ _ => trivial
  covers_good {c : Scope} {n : Node} : good c n → covers n := by exact fun _ => trivial

namespace Regime

open Run

variable {R : Regime} {α β : Type} {c d : Scope}

def conduct (R : Regime) : Conduct where
  inv := R.inv
  leaves c e s := R.allows c e ∧ R.inv s
  good := R.good
  may := R.may
  quiet := R.quiet
  change := R.change
  define := R.define
  binds hn _ hbinds := R.binds hn hbinds
  file := R.file
  body hn _ hparts hm := R.body hn hparts hm
  parts := R.parts
  fault hf hs := ⟨R.fault hf, hs⟩
  stopped hs := ⟨R.stopped, hs⟩
  exhausted hs := ⟨R.exhausted, hs⟩
  breaking hn hkind hs := ⟨R.breaking hn hkind, hs⟩
  continuing hn hkind hs := ⟨R.continuing hn hkind, hs⟩
  returning hn hkind hs := ⟨R.returning hn hkind, hs⟩
  broken h := h.2
  continued h := h.2
  ofRound h hbreak hcontinue := ⟨R.ofRound h.1 hbreak hcontinue, h.2⟩
  caught _ _ h := h.2
  ofTop h := ⟨R.ofTop h.1, h.2⟩
  failing h hf := ⟨R.fault hf, h.2⟩
  covers := R.covers
  covers_child := R.covers_child
  covers_good := R.covers_good

/-- What a statement keeps to in a scope. -/
abbrev contract (R : Regime) (c : Scope) : Contract := R.conduct.contract c

theorem safe_ofTop {r r' : Run α} (hr : Safe (R.contract .top) r r') :
    Safe (R.contract c) r r' := Conduct.safe_ofTop hr

theorem safe_tryCatch {x x' : Run α} {f f' : Interrupt → Run α}
    (hx : Safe (R.contract c) x x')
    (hf : ∀ e s, R.allows c e → R.inv s → f' e s = f e s ∧ (R.contract d).Met (f e s)) :
    Safe (R.contract d) (tryCatch x f) (tryCatch x' f') :=
  .tryCatch (c := R.contract c) (fun _ => .rfl) hx fun e s h => hf e s h.1 h.2

/-- Two evaluators run the parts of statements alike, and as the regime asks. -/
structure Runs (R : Regime) (ev₁ ev₂ : Evaluator) : Prop where
  rounds : ev₂.rounds = ev₁.rounds
  finds : ev₁.Finds R.covers
  finds' : ev₂.Finds R.covers
  grows (s : State) (n : Node) : Keeps (.grown s) (ev₁.execute n)
  evaluate {n : Node} (hn : R.covers n) : Safe (R.contract .top) (ev₁.evaluate n) (ev₂.evaluate n)
  execute {c : Scope} {n : Node} (hn : R.good c n) :
    Safe (R.contract c) (ev₁.execute n) (ev₂.execute n)

namespace Runs

variable {ev₁ ev₂ : Evaluator}

theorem conduct (h : Runs R ev₁ ev₂) : R.conduct.Runs ev₁ ev₂ :=
  ⟨h.rounds, h.finds, h.finds', h.evaluate, h.execute⟩

/-! ## Calls -/

/-- A returned value ends the body; nothing else that concerns the scope leaves it. -/
theorem functionBody (h : Runs R ev₁ ev₂) {f : UserFunction}
    (hf : ∀ m ∈ f.body, R.good .body m) :
    Safe (R.contract .top) (ev₁.functionBody f) (ev₂.functionBody f) := by
  refine safe_tryCatch (h.conduct.sequence hf) fun e s he hs => ⟨rfl, ?_⟩
  cases e with
  | returning v => exact hs
  | fault f => exact ⟨R.ofCall he (by simp), hs⟩
  | breaking => exact ⟨R.ofCall he (by simp), hs⟩
  | continuing => exact ⟨R.ofCall he (by simp), hs⟩
  | stopped => exact ⟨R.stopped, hs⟩
  | exhausted => exact ⟨R.exhausted, hs⟩

theorem keeps_functionBody_grown (h : Runs R ev₁ ev₂) (s : State) (f : UserFunction) :
    Keeps (.grown s) (ev₁.functionBody f) := by
  have hsequence (nodes : List Node) : Keeps (.grown s) (ev₁.sequence nodes) := by
    induction nodes with
    | nil => exact .pure _
    | cons n rest ih =>
      cases rest with
      | nil => exact h.grows s n
      | cons m rest => exact .bind (h.grows s n) fun _ => ih
  refine .tryCatch (c := .grown s) (fun _ => .rfl) (hsequence f.body) fun e t ht => ⟨rfl, ?_⟩
  cases e <;> exact ht

/-- The variables are put back. Since the call started, nothing that is noted was forgotten. -/
theorem runFunction (h : Runs R ev₁ ev₂) {f : UserFunction} {setting : Run Unit}
    (hf : (R.contract .top).Callable f) (hset : Keeps (R.contract .top) setting)
    (hgrown : ∀ s, Keeps (.grown s) setting) :
    Safe (R.contract .top) (ev₁.runFunction f setting) (ev₂.runFunction f setting) := by
  obtain ⟨s₀, name, hs₀, hname⟩ := hf
  intro s hs
  let restored (v : Value) : Run Value := do
    modify ({ · with vars := s.vars })
    return v
  change (setting >>= fun _ => ev₂.functionBody f >>= restored) s =
      (setting >>= fun _ => ev₁.functionBody f >>= restored) s ∧
    (R.contract .top).Met ((setting >>= fun _ => ev₁.functionBody f >>= restored) s)
  have hmet := (hset s hs).2
  have hsetGrown := (hgrown s s (.refl s)).2
  cases hsetting : setting s with
  | error e s₁ =>
    rw [hsetting] at hmet
    rw [bind_error hsetting, bind_error hsetting]
    exact ⟨rfl, hmet⟩
  | ok _ s₁ =>
    rw [hsetting] at hmet hsetGrown
    rw [bind_ok hsetting, bind_ok hsetting]
    obtain ⟨heq, hbody⟩ := h.functionBody (R.function hs₀ hname) s₁ hmet
    have hbodyGrown := (h.keeps_functionBody_grown s f s₁ hsetGrown).2
    cases hrun : ev₁.functionBody f s₁ with
    | error e s₂ =>
      rw [hrun] at heq hbody
      rw [bind_error hrun, bind_error heq]
      exact ⟨rfl, hbody⟩
    | ok v s₂ =>
      rw [hrun] at heq hbody hbodyGrown
      rw [bind_ok hrun, bind_ok heq]
      exact ⟨rfl, R.restore hs hbody hbodyGrown⟩

theorem keeps_setParameters {params : List String} (hparams : ∀ p ∈ params, R.may p .passed)
    (args : List Value) : Keeps (R.contract c) (Evaluator.setParameters params args) := by
  induction params generalizing args with
  | nil => exact .pure _
  | cons p params ih =>
    have hfirst (v : Value) : Keeps (R.contract c) (Run.setVariable p v) :=
      Conduct.keeps_setVariable v (hparams p List.mem_cons_self) (by simp)
    have hrest := ih fun q hq => hparams q (List.mem_cons_of_mem _ hq)
    cases args with
    | nil => exact .bind (hfirst _) fun _ => hrest []
    | cons v args => exact .bind (hfirst v) fun _ => hrest args

theorem agree (h : Runs R ev₁ ev₂) : Evaluator.Agree (R.contract .top) ev₁ ev₂ where
  rounds := h.rounds
  finds := h.finds
  finds' := h.finds'
  evaluate := h.evaluate
  direct {f} hf args := by
    obtain ⟨s, name, hs, hname⟩ := id hf
    exact h.runFunction hf (keeps_setParameters (R.params hs hname) args)
      fun s => keeps_setParameters_grown s _ args
  onItem {f} hf v := by
    obtain ⟨s, name, hs, hname⟩ := id hf
    refine h.runFunction hf ?_ fun s => ?_
    all_goals cases hparams : f.params with
      | nil => exact .fail _
      | cons p rest => ?_
    · exact Conduct.keeps_setVariable v (R.params hs hname p (by simp [hparams])) (by simp)
    · exact keeps_setVariable_grown s p v

theorem statement (h : Runs R ev₁ ev₂) {n : Node} (hn : R.good c n) :
    Safe (R.contract c) (ev₁.statement n) (ev₂.statement n) :=
  h.conduct.statement hn fun _ => h.agree.call (R.covers_good hn)

end Runs

end Regime

/-! ## Disciplines -/

/-- What a run keeps to about names, if it binds them as `may` says. -/
structure Discipline where
  may : String → Manner → Prop
  inv : State → Prop
  same {s t : State} : t.vars = s.vars → t.types = s.types → t.constants = s.constants →
    inv s → inv t
  change {s t : State} : inv s → s.Change may t → inv t
  restore {s t : State} : inv s → inv t → s.Grows t → inv { t with vars := s.vars }

/-- The regime of a discipline that leaves the program free to bind names. -/
def Discipline.free (D : Discipline) (hfree : ∀ name manner, D.may name manner) : Regime where
  inv := D.inv
  allows _ _ := True
  good _ _ := True
  may := D.may
  quiet halike hs := D.same halike.vars halike.types halike.constants hs
  change := D.change
  restore := D.restore
  define {s} _ _ _ _ hs _ _ _ := D.same (s := s) rfl rfl rfl hs
  function _ _ _ _ := trivial
  params _ _ _ _ := hfree _ _
  binds _ _ := hfree _ _
  file _ _ _ _ _ _ _ _ := trivial
  body _ _ _ := trivial
  parts _ _ _ _ := trivial
  fault _ := trivial
  stopped := trivial
  exhausted := trivial
  breaking _ _ := trivial
  continuing _ _ := trivial
  returning _ _ := trivial
  ofRound _ _ _ := trivial
  ofCall _ _ := trivial
  ofTop _ := trivial

/-! ## Whole runs -/

def Node.isCall (n : Node) : Bool := n.kind = .call || n.kind = .methodCall

theorem Evaluator.Agree.statement_call {c : Contract} {ev₁ ev₂ : Evaluator} (h : Agree c ev₁ ev₂)
    {n : Node} (hn : c.covers n) (hcall : n.isCall = true) :
    Run.Safe c (ev₁.statement n) (ev₂.statement n) := by
  unfold Evaluator.statement
  simp only [Node.isCall, Bool.or_eq_true, decide_eq_true_eq] at hcall
  rcases hcall with hkind | hkind <;> rw [hkind]
  · exact h.call hn
  · exact .bind (.bind (h.evaluate hn) fun _ => .pure _) fun _ => .pure _

/-- The evaluator for parts nested at most `depth` deep in which every call is run under a watch. -/
def Evaluator.watched (watch : Run Value → Run Value) (rounds : Nat) : Nat → Evaluator
  | 0 => ⟨fun _ => throw .exhausted, fun _ => throw .exhausted, rounds, Node.child⟩
  | depth + 1 =>
    let inner := watched watch rounds depth
    let watching (n : Node) (r : Run Value) : Run Value := if n.isCall then watch r else r
    ⟨fun n => watching n (inner.expression n), fun n => watching n (inner.statement n), rounds,
      Node.child⟩

namespace Regime

open Run

variable {R : Regime}

/-- A watch that does nothing to runs of expressions. -/
def Idle (R : Regime) (watch : Run Value → Run Value) : Prop :=
  ∀ r r', Safe (R.contract .top) r r' → Safe (R.contract .top) r (watch r')

theorem idle_id : R.Idle id := fun _ _ h => h

/-- Nothing that is noted in `s` is forgotten. -/
def growing (s : State) : Regime :=
  Discipline.free
    { may := fun _ _ => True
      inv := s.Grows
      same := fun _ htypes hconstants h =>
        h.trans ⟨fun hname => htypes ▸ hname, fun hname => hconstants ▸ hname⟩
      change := fun h hchange => h.trans (.of_change hchange)
      restore := fun _ ht _ => ⟨ht.types, ht.constants⟩ }
    fun _ _ => trivial

theorem keeps_grown {s : State} {c : Scope} {r : Run Value}
    (hr : Keeps ((growing s).contract c) r) :
    Keeps (.grown s) r :=
  .mono (c := (growing s).contract c) (fun _ => .rfl) (fun _ _ h => h.2) hr

theorem runs_growing (s : State) (rounds depth : Nat) :
    Runs (growing s) (.upTo rounds depth) (.upTo rounds depth) := by
  induction depth generalizing s with
  | zero =>
    exact ⟨rfl, .of_eq rfl, .of_eq rfl, fun _ _ => .exhausted, fun _ => .exhausted,
      fun _ => .exhausted⟩
  | succ depth ih =>
    refine ⟨rfl, .of_eq rfl, .of_eq rfl, fun s n => ?_, (ih s).agree.expression,
      fun _ => (ih s).statement trivial⟩
    exact keeps_grown (c := .top) ((ih s).statement trivial)

theorem grows_upTo (rounds depth : Nat) (s : State) (n : Node) :
    Keeps (.grown s) ((Evaluator.upTo rounds depth).execute n) :=
  (runs_growing s rounds depth).grows s n

/-- Runs of any depth keep the regime, and an idle watch changes nothing. -/
theorem runs (R : Regime) {watch : Run Value → Run Value} (hwatch : R.Idle watch)
    (rounds depth : Nat) :
    Runs R (Evaluator.upTo rounds depth) (Evaluator.watched watch rounds depth) := by
  induction depth with
  | zero =>
    exact ⟨rfl, .of_eq rfl, .of_eq rfl, grows_upTo rounds 0, fun _ => .exhausted,
      fun _ => .exhausted⟩
  | succ depth ih =>
    refine ⟨rfl, .of_eq rfl, .of_eq rfl, grows_upTo rounds (depth + 1), fun {n} hn => ?_,
      fun {c n} hn => ?_⟩
    · have hn := ih.agree.expression hn
      show Safe (R.contract .top) _ (if n.isCall then watch _ else _)
      split
      · exact hwatch _ _ hn
      · exact hn
    · show Safe (R.contract c) _ (if n.isCall then watch _ else _)
      split
      · rename_i hcall
        exact safe_ofTop (hwatch _ _ (ih.agree.statement_call (R.covers_good hn) hcall))
      · exact ih.statement hn

end Regime

end Luuqad

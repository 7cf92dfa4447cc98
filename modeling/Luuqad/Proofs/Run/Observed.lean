import Luuqad.Proofs.Run.Regime

/-!
# What holds at every moment of a run

A run is observed at the start and at the end of each expression and each statement, at any depth
and however the expression or statement is left. Something holds at every moment if an alarm that is
raised as soon as it does not hold is never raised: the observed run is the same as the run itself,
whatever the alarm does. The invariant of a regime holds at every moment in this sense
(`Regime.runs_observed`).
-/

namespace Luuqad

open Run

/-! ## Observed runs -/

/-- The evaluator for parts nested at most `depth` deep in which everything is run under a watch. -/
def Evaluator.observed (watch : Run Value → Run Value) (rounds : Nat) : Nat → Evaluator
  | 0 => ⟨fun _ => throw .exhausted, fun _ => throw .exhausted, rounds, Node.child⟩
  | depth + 1 =>
    let inner := observed watch rounds depth
    ⟨fun n => watch (inner.expression n), fun n => watch (inner.statement n), rounds, Node.child⟩

/-- Raise an alarm if something does not hold. -/
def Run.require (p : State → Prop) [DecidablePred p] (alarm : Run Unit) : Run Unit := do
  unless p (← get) do alarm

/-- A run with an alarm for what has to hold before it and after it, however it is left. -/
def Run.guarded (p : State → Prop) [DecidablePred p] (alarm : Run Unit) (r : Run Value) :
    Run Value := do
  require p alarm
  let v ← tryCatch r fun e => do
    require p alarm
    throw e
  require p alarm
  return v

/-- At every moment of what is run from a state, something holds. -/
def Limits.Always {α : Type} (l : Limits) (run : Evaluator → Run α) (s : State)
    (p : State → Prop) : Prop :=
  ∀ (_ : DecidablePred p) (alarm : Run Unit),
    run (.observed (guarded p alarm) l.rounds l.depth) s = run l.evaluator s

theorem Run.require_of_holds {p : State → Prop} [DecidablePred p] (alarm : Run Unit) {s : State}
    (h : p s) : require p alarm s = .ok () s := by
  change (if p s then pure () else alarm : Run Unit) s = _
  rw [if_pos h]
  rfl

namespace Regime

variable {R : Regime} {ev₁ ev₂ : Evaluator}

theorem safe_guarded {p : State → Prop} [DecidablePred p] (hp : ∀ s, R.inv s → p s)
    (alarm : Run Unit) {c : Scope} {r r' : Run Value} (hr : Safe (R.contract c) r r') :
    Safe (R.contract c) r (guarded p alarm r') := by
  intro s hs
  obtain ⟨heq, hmet⟩ := hr s hs
  refine ⟨?_, hmet⟩
  unfold guarded
  rw [bind_ok (require_of_holds alarm (hp s hs))]
  cases hrun : r s with
  | ok v t =>
    rw [hrun] at heq hmet
    rw [bind_ok (tryCatch_ok heq), bind_ok (require_of_holds alarm (hp t hmet))]
    rfl
  | error e t =>
    rw [hrun] at heq hmet
    have hcaught : tryCatch r' (fun e => do require p alarm; throw e) s = .error e t := by
      rw [tryCatch_error heq, bind_ok (require_of_holds alarm (hp t hmet.2))]
      rfl
    exact bind_error hcaught

theorem runs_observed (R : Regime) {p : State → Prop} [DecidablePred p] (hp : ∀ s, R.inv s → p s)
    (alarm : Run Unit) (rounds depth : Nat) :
    Runs R (.upTo rounds depth) (.observed (guarded p alarm) rounds depth) := by
  induction depth with
  | zero =>
    exact ⟨rfl, .of_eq rfl, .of_eq rfl, grows_upTo rounds 0, fun _ => .exhausted,
      fun _ => .exhausted⟩
  | succ depth ih =>
    refine ⟨rfl, .of_eq rfl, .of_eq rfl, grows_upTo rounds (depth + 1), fun hn => ?_, fun hn => ?_⟩
    · exact safe_guarded hp alarm (ih.agree.expression hn)
    · exact safe_guarded hp alarm (ih.statement hn)

/-- A statement of a program leaves the invariant true, also where it is found misplaced. -/
theorem Runs.safe_outermost (h : Runs R ev₁ ev₂) {m : Node} (hm : R.good .top m) :
    Safe R.conduct.loose (ev₁.outermost m) (ev₂.outermost m) := by
  refine .tryCatch (c := R.contract .top) (fun _ => .rfl) (.bind (h.execute hm) fun _ => .pure _)
    fun e s he => ⟨rfl, ?_⟩
  cases e <;> exact .inl he.2

theorem Runs.safe_program (h : Runs R ev₁ ev₂) {n : Node} (hn : ∀ m ∈ n.children, R.good .top m) :
    Safe R.conduct.loose (ev₁.program n) (ev₂.program n) := by
  have hall (nodes : List Node) (hnodes : ∀ m ∈ nodes, R.good .top m) :
      Safe R.conduct.loose (ev₁.outermostAll nodes) (ev₂.outermostAll nodes) := by
    induction nodes with
    | nil => exact .pure _
    | cons m rest ih =>
      refine .bind (h.safe_outermost (hnodes m List.mem_cons_self)) fun _ => ih fun k hk => ?_
      exact hnodes k (List.mem_cons_of_mem _ hk)
  exact .ite (.raise_bind rfl) (hall n.children hn)

end Regime

end Luuqad

import Luuqad.Proofs.Run.Expressions

/-!
# Expressions leave the variables alone

A function of the program may declare and assign whatever it likes: when its call has a result, the
variables of the caller are put back. No other expression touches variables, so the evaluation of an
expression never does, however deep the calls in it go (`evaluate_vars`).
-/

namespace Luuqad

open Run

/-- The variables are given ones; a run may be left in any way. -/
def Contract.varsAre (vars : NameTable Value) : Contract where
  inv s := s.vars = vars
  leaves _ _ := True
  quiet halike hs := halike.vars.trans hs
  fault _ _ := trivial
  stopped _ := trivial
  exhausted _ := trivial

theorem Evaluator.runFunction_vars {self : Evaluator} {f : UserFunction} {setting : Run Unit}
    {s t : State} {v : Value} (h : self.runFunction f setting s = .ok v t) :
    t.vars = s.vars := by
  change (setting >>= fun _ => self.functionBody f >>= fun result =>
    modify ({ · with vars := s.vars }) >>= fun _ => pure result) s = _ at h
  cases hset : setting s with
  | error e s₁ =>
    rw [bind_error hset] at h
    cases h
  | ok _ s₁ =>
    rw [bind_ok hset] at h
    cases hbody : self.functionBody f s₁ with
    | error e s₂ =>
      rw [bind_error hbody] at h
      cases h
    | ok result s₂ =>
      rw [bind_ok hbody] at h
      cases h
      rfl

theorem Evaluator.keeps_runFunction_varsAre (self : Evaluator) (vars : NameTable Value)
    (f : UserFunction) (setting : Run Unit) :
    Keeps (.varsAre vars) (self.runFunction f setting) := by
  refine .of_met fun s hs => ?_
  cases hr : self.runFunction f setting s with
  | ok v t => exact (runFunction_vars hr).trans hs
  | error e t => trivial

/-- Evaluation leaves the variables alone at every depth. What statements do with them does not
matter, since only calls run statements. -/
theorem Evaluator.agree_varsAre (vars : NameTable Value) (rounds depth : Nat) :
    Agree (.varsAre vars) (upTo rounds depth) (upTo rounds depth) := by
  have hcall (self : Evaluator) (f : UserFunction) (setting : Run Unit) :
      Keeps (.varsAre vars) (self.runFunction f setting) :=
    self.keeps_runFunction_varsAre vars f setting
  induction depth with
  | zero =>
    exact ⟨rfl, .of_eq rfl, .of_eq rfl, fun _ => .exhausted, fun _ _ => hcall _ _ _,
      fun _ _ => hcall _ _ _⟩
  | succ depth ih =>
    exact ⟨rfl, .of_eq rfl, .of_eq rfl, ih.expression, fun _ _ => hcall _ _ _,
      fun _ _ => hcall _ _ _⟩

theorem Evaluator.keeps_evaluate_varsAre (vars : NameTable Value) (rounds depth : Nat) (n : Node) :
    Keeps (.varsAre vars) ((upTo rounds depth).evaluate n) :=
  (agree_varsAre vars rounds depth).evaluate trivial

/-- An expression that has a value leaves all variables bound as they were. -/
theorem evaluate_vars (l : Limits) (n : Node) (s t : State) (v : Value)
    (h : l.evaluator.evaluate n s = .ok v t) : t.vars = s.vars := by
  have hmet := (Evaluator.keeps_evaluate_varsAre s.vars l.rounds l.depth n s rfl).2
  change (Contract.varsAre s.vars).Met (l.evaluator.evaluate n s) at hmet
  rw [h] at hmet
  exact hmet

/-- The function `f(p)` assigns to `x` and declares `y`; its call leaves `x` at one and binds
neither `p` nor `y`. -/
theorem evaluate_vars_of_call :
    let literal (v : Value) : Node := { kind := .literal, value := v }
    let name (s : String) : Node := { kind := .identifier, value := .str s }
    let assign : Node := { kind := .assignment, children := [name "x", literal (.int 2)] }
    let declare : Node :=
      { kind := .declaration, value := .str "y", children := [literal (.int 3)] }
    let s : State :=
      { vars := [("x", .int 1)], functions := [("f", ⟨["p"], [assign, declare]⟩)] }
    let call : Node := { kind := .call, value := .str "f", children := [literal (.int 5)] }
    ∃ v t, (Limits.mk 4 4).evaluator.evaluate call s = .ok v t ∧ t.vars = s.vars := by
  intro literal name assign declare s call
  exact ⟨_, _, rfl, evaluate_vars ⟨4, 4⟩ call s _ _ rfl⟩

end Luuqad

import Luuqad.Proofs.Control.Scoped
import Luuqad.Proofs.Run.Observed
import Luuqad.Proofs.Variables.Frame

/-!
# What holds at every moment of a scope

The statements of a scope are those that are run with the same variables; what is run by a function
that they call is not among them. When a call has a result, the variables of its caller are put
back. So a discipline has to be kept by the statements of the scope only, whatever the functions
that they call do with names.

A call that is interrupted leaves its own variables behind, so nothing of the scope must be run
after that. The signals of loops do not leave calls in a well scoped program, and for other
interrupts it is required that no statement of the scope handles them (`Discipline.always_inScope`).
-/

namespace Luuqad

open Run

/-! ## Observing a scope -/

/-- The evaluator in which the statements of a scope are run under a watch, and what they call is
not. -/
def Evaluator.following (watch : Run Value → Run Value) (rounds : Nat) : Nat → Evaluator
  | 0 => ⟨fun _ => throw .exhausted, fun _ => throw .exhausted, rounds, Node.child⟩
  | depth + 1 =>
    let called := upTo rounds depth
    let inner := following watch rounds depth
    ⟨called.expression, fun n => watch (if n.isCall then called.statement n else inner.statement n),
      rounds, Node.child⟩

/-- A run with an alarm for what has to hold before it, and after it unless it is interrupted. -/
def Run.flanked (p : State → Prop) [DecidablePred p] (alarm : Run Unit) (r : Run Value) :
    Run Value := do
  require p alarm
  let v ← r
  require p alarm
  return v

/-- Something holds whenever a statement of a scope starts or ends, in what is run from a state. -/
def Limits.AlwaysInScope {α : Type} (l : Limits) (run : Evaluator → Run α) (s : State)
    (p : State → Prop) : Prop :=
  ∀ (_ : DecidablePred p) (alarm : Run Unit),
    run (.following (flanked p alarm) l.rounds l.depth) s = run l.evaluator s

namespace Conduct

variable {C : Conduct} {p : State → Prop} [DecidablePred p]

theorem safe_flanked (hp : ∀ s, C.inv s → p s) (alarm : Run Unit) {c : Scope} {r r' : Run Value}
    (hr : Safe (C.contract c) r r') : Safe (C.contract c) r (flanked p alarm r') := by
  intro s hs
  obtain ⟨heq, hmet⟩ := hr s hs
  refine ⟨?_, hmet⟩
  unfold flanked
  rw [bind_ok (require_of_holds alarm (hp s hs))]
  cases hrun : r s with
  | ok v t =>
    rw [hrun] at heq hmet
    rw [bind_ok heq, bind_ok (require_of_holds alarm (hp t hmet))]
    rfl
  | error e t =>
    rw [hrun] at heq
    exact bind_error heq

theorem runs_following (hp : ∀ s, C.inv s → p s) (alarm : Run Unit) (rounds : Nat)
    (hagree : ∀ depth, Evaluator.Agree (C.contract .top) (.upTo rounds depth) (.upTo rounds depth))
    (depth : Nat) : C.Runs (.upTo rounds depth) (.following (flanked p alarm) rounds depth) := by
  induction depth with
  | zero => exact ⟨rfl, .of_eq rfl, .of_eq rfl, fun _ => .exhausted, fun _ => .exhausted⟩
  | succ depth ih =>
    refine ⟨rfl, .of_eq rfl, .of_eq rfl, (hagree depth).expression, fun {c n} hn => ?_⟩
    refine safe_flanked hp alarm ?_
    split
    · rename_i hcall
      exact safe_ofTop ((hagree depth).statement_call (C.covers_good hn) hcall)
    · rename_i hcall
      refine ih.statement hn fun hkind => absurd ?_ hcall
      simp [Node.isCall, hkind]

end Conduct

/-! ## The statements of a scope -/

/-- The node `m` is run in the scope in which `n` is run, if it is run with `n`. -/
inductive Node.Own (folder : Folder) (n : Node) : Node → Prop
  | self : Own folder n n
  | body {m k : Node} :
    Own folder n m → m.kind ≠ .function → m.hasParts = false → k ∈ m.body → Own folder n k
  | part {m p k : Node} :
    Own folder n m → m.hasParts = true → p ∈ m.children → k ∈ p.children → Own folder n k
  | file {m q k : Node} {path source : String} :
    Own folder n m → m.kind = .importFile → m.value = .str path → folder.read path = .ok source →
    readProgram source = .ok q → k ∈ q.children → Own folder n k

theorem Node.Own.trans {folder : Folder} {n m k : Node} (h : n.Own folder m) (hk : m.Own folder k) :
    n.Own folder k := by
  induction hk with
  | self => exact h
  | body _ hkind hparts hmem ih => exact ih.body hkind hparts hmem
  | part _ hparts hp hmem ih => exact ih.part hparts hp hmem
  | file _ hkind hpath hread hprogram hmem ih => exact ih.file hkind hpath hread hprogram hmem

namespace Discipline

/-- What is run with the node in its scope binds names as the discipline says, and handles no
interrupt. -/
def Allows (D : Discipline) (folder : Folder) (n : Node) : Prop :=
  ∀ m, n.Own folder m → m.kind ≠ .tryCatch ∧
    (m.kind ≠ .function → ∀ name manner, m.Binds name manner → D.may name manner)

/-- The discipline looks at variables, and at notes only for what is noted. -/
def Steady (D : Discipline) : Prop :=
  ∀ s t : State, t.vars = s.vars → s.Grows t → D.inv s → D.inv t

variable {D : Discipline} {folder : Folder} {program : Node}

theorem Allows.of_own {n m : Node} (h : D.Allows folder n) (hm : n.Own folder m) :
    D.Allows folder m :=
  fun k hk => h k (hm.trans hk)

/-- The conduct of a scope in a well scoped program. The signals of loops are those of the scope
itself, so they leave the invariant true; nothing is said about other interrupts. -/
def scopeConduct (D : Discipline) (folder : Folder) (program : Node)
    (hscoped : folder.WellScoped program) : Conduct where
  inv t := D.inv t ∧ folder.Supplies program t
  leaves c e t :=
    c.allows e ∧ (e = .breaking ∨ e = .continuing → D.inv t ∧ folder.Supplies program t)
  good c n := folder.Within program c n ∧ D.Allows folder n
  may := D.may
  quiet halike ht :=
    ⟨D.same halike.vars halike.types halike.constants ht.1,
      (Regime.scoped folder program hscoped).quiet halike ht.2⟩
  change ht hchange :=
    ⟨D.change ht.1 hchange, hchange.folder.trans ht.2.1, hchange.functions ▸ ht.2.2⟩
  define {t _ _} name params ht hn hkind _ :=
    ⟨D.same (s := t) rfl rfl rfl ht.1, ht.2.define hn.1 hkind name params⟩
  binds hn hkind hbinds := (hn.2 _ .self).2 hkind _ _ hbinds
  file ht hn hkind hpath hread hprogram _ hk :=
    have hread := ht.2.1 ▸ hread
    ⟨hn.1.file hkind hpath hread hprogram hk,
      hn.2.of_own (Node.Own.self.file hkind hpath hread hprogram hk)⟩
  body hn hkind hparts hk := ⟨hn.1.body hparts hk, hn.2.of_own (Node.Own.self.body hkind hparts hk)⟩
  parts hn hparts hp hk := ⟨hn.1.part hparts hp hk, hn.2.of_own (Node.Own.self.part hparts hp hk)⟩
  fault hf _ := ⟨hf, by simp⟩
  stopped _ := ⟨trivial, by simp⟩
  exhausted _ := ⟨trivial, by simp⟩
  breaking hn hkind ht :=
    ⟨(Regime.scoped folder program hscoped).breaking hn.1 hkind, fun _ => ht⟩
  continuing hn hkind ht :=
    ⟨(Regime.scoped folder program hscoped).continuing hn.1 hkind, fun _ => ht⟩
  returning {_ _ v _} hn hkind _ :=
    ⟨(Regime.scoped folder program hscoped).returning (v := v) hn.1 hkind, by simp⟩
  broken h := h.2 (.inl rfl)
  continued h := h.2 (.inr rfl)
  ofRound h hbreak hcontinue := ⟨Scope.allows_of_inLoop h.1 hbreak hcontinue, h.2⟩
  caught hn hkind _ := absurd hkind (hn.2 _ .self).1
  ofTop h := ⟨Scope.allows_of_top h.1, h.2⟩
  failing _ hf := ⟨hf, by simp⟩

/-- A run keeps the conduct of a scope if it leaves the variables alone where it has a result,
forgets nothing that is noted, and emits no signal. -/
theorem keeps_scopeConduct (hsteady : D.Steady) {hscoped : folder.WellScoped program} {α : Type}
    {r : Run α} (hvars : ∀ vars, Keeps (.varsAre vars) r) (hgrows : ∀ s, Keeps (.grown s) r)
    (hscope : Keeps ((Regime.scoped folder program hscoped).contract .top) r) :
    Keeps ((D.scopeConduct folder program hscoped).contract .top) r := by
  refine .of_met fun s hs => ?_
  have hsame := (hvars s.vars s rfl).2
  have hgrown := (hgrows s s (.refl s)).2
  have hemits := (hscope s hs.2).2
  cases hrun : r s with
  | ok a t =>
    rw [hrun] at hsame hgrown hemits
    exact ⟨hsteady s t hsame hgrown hs.1, hemits⟩
  | error e t =>
    rw [hrun] at hemits
    refine ⟨hemits.1, fun he => ?_⟩
    rcases he with rfl | rfl <;> cases hemits.1

theorem agree_scopeConduct (hsteady : D.Steady) (hscoped : folder.WellScoped program)
    (rounds depth : Nat) :
    Evaluator.Agree ((D.scopeConduct folder program hscoped).contract .top) (.upTo rounds depth)
      (.upTo rounds depth) := by
  have hvars (vars : NameTable Value) := Evaluator.agree_varsAre vars rounds depth
  have hgrows (s : State) := (Regime.runs_growing s rounds depth).agree
  have hscope := ((Regime.scoped folder program hscoped).runs Regime.idle_id rounds depth).agree
  have hkeeps {r r' : Run Value} {c : Contract} (hr : Safe c r r') : Keeps c r :=
    .of_met fun s hs => (hr s hs).2
  -- every function can be called in a state that has forgotten nothing
  have hcallable (s : State) (f : UserFunction) : ((Regime.growing s).contract .top).Callable f :=
    ⟨{ s with functions := [("f", f)] }, "f", ⟨id, id⟩, rfl⟩
  have hcalled {f : UserFunction}
      (hf : ((D.scopeConduct folder program hscoped).contract .top).Callable f) :
      ((Regime.scoped folder program hscoped).contract .top).Callable f := by
    obtain ⟨s, name, hs, hname⟩ := hf
    exact ⟨s, name, hs.2, hname⟩
  have hvarsAre := hvars []
  refine ⟨rfl, hvarsAre.finds, hvarsAre.finds, fun _ => ?_, fun {f} hf args => ?_,
    fun {f} hf v => ?_⟩
  · exact keeps_scopeConduct hsteady (fun vars => (hvars vars).evaluate trivial)
      (fun s => Regime.keeps_grown ((hgrows s).evaluate trivial)) (hkeeps (hscope.evaluate trivial))
  · exact keeps_scopeConduct hsteady (fun vars => Evaluator.keeps_runFunction_varsAre _ vars f _)
      (fun s => Regime.keeps_grown ((hgrows s).direct (hcallable s f) args))
      (hkeeps (hscope.direct (hcalled hf) args))
  · exact keeps_scopeConduct hsteady (fun vars => Evaluator.keeps_runFunction_varsAre _ vars f _)
      (fun s => Regime.keeps_grown ((hgrows s).onItem (hcallable s f) v))
      (hkeeps (hscope.onItem (hcalled hf) v))

/-- In a well scoped program, a discipline that the statements of a scope keep to holds at every
moment of the scope, whatever the functions do that they call. -/
theorem always_inScope (l : Limits) {s : State} {c : Scope} {nodes : List Node} {p : State → Prop}
    (hsteady : D.Steady) (hscoped : s.folder.WellScoped program)
    (hsupplies : s.folder.Supplies program s)
    (hnodes : ∀ n ∈ nodes, s.folder.Within program c n ∧ D.Allows s.folder n) (hs : D.inv s)
    (hp : ∀ t, D.inv t → p t) : l.AlwaysInScope (·.sequence nodes) s p := by
  intro _ alarm
  have hruns := Conduct.runs_following (C := D.scopeConduct s.folder program hscoped)
    (fun t ht => hp t ht.1) alarm l.rounds (agree_scopeConduct hsteady hscoped l.rounds) l.depth
  exact (hruns.sequence (c := c) hnodes s ⟨hs, hsupplies⟩).1

end Discipline

end Luuqad

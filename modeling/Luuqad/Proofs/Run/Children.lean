import Luuqad.Proofs.Parsing.Shapes
import Luuqad.Proofs.Run.Observed

/-!
# The children that a run looks at

Forms look at children by their places, and not only forms for the nodes that the parser meant: the
branches of a conditional and the clauses of a switch are told by the kinds of what stands in one
row. A run looks at no child that is missing if an alarm for missing children is never raised: the
alarmed run is the same as the run itself, whatever the alarm does. This holds for all trees that
the parser accepts (`accepted_no_alarm`).

The invariant is that the functions of the state have well formed bodies. Programs and imported
files bring well formed nodes into a run, and the parts of well formed nodes are well formed.
-/

namespace Luuqad

open Run

/-- A child of a node. Where it is missing, an alarm is raised. -/
def Node.childOr (alarm : Node → Nat → Run Node) (n : Node) (i : Nat) : Run Node :=
  match n.children[i]? with
  | some c => pure c
  | none => alarm n i

/-- The evaluator for parts nested at most `depth` deep that raises an alarm where a child is
missing. -/
def Evaluator.alarmed (alarm : Node → Nat → Run Node) (rounds : Nat) : Nat → Evaluator
  | 0 => ⟨fun _ => throw .exhausted, fun _ => throw .exhausted, rounds, Node.childOr alarm⟩
  | depth + 1 =>
    let inner := alarmed alarm rounds depth
    ⟨inner.expression, inner.statement, rounds, Node.childOr alarm⟩

/-- The functions of the state have well formed bodies. -/
def State.WellFormed (s : State) : Prop :=
  ∀ name f, s.functions.get? name = some f → ∀ m ∈ f.body, m.WellFormed

theorem State.WellFormed.define {s : State} (hs : s.WellFormed) {n : Node} (hn : n.WellFormed)
    (name : String) (params : List String) :
    State.WellFormed { s with
      functions := s.functions.put name ⟨params, n.children.filter (·.kind ≠ .identifier)⟩ } := by
  intro other f hf m hm
  rcases NameTable.get?_put_cases hf with rfl | hold
  · exact hn.child (List.mem_filter.mp hm).1
  · exact hs other f hold m hm

/-- Runs of well formed nodes. -/
def Regime.wellFormed : Regime where
  inv := State.WellFormed
  allows _ _ := True
  good _ := Node.WellFormed
  may _ _ := True
  quiet halike hs name f hf := hs name f (halike.functions ▸ hf)
  change hs hchange name f hf := hs name f (hchange.functions ▸ hf)
  restore _ ht _ := ht
  define name params hs hn _ _ := hs.define hn name params
  function hs hf := hs _ _ hf
  params _ _ _ _ := trivial
  binds _ _ := trivial
  file _ _ _ _ _ hprogram _ hm := (readProgram_wellFormed hprogram).child hm
  body hn _ hm := hn.child (List.mem_of_mem_drop hm)
  parts hn _ hp hm := (hn.child hp).child hm
  fault _ := trivial
  stopped := trivial
  exhausted := trivial
  breaking _ _ := trivial
  continuing _ _ := trivial
  returning _ _ := trivial
  ofRound _ _ _ := trivial
  ofCall _ _ := trivial
  ofTop _ := trivial
  covers := Node.WellFormed
  covers_child hn hm := hn.child hm
  covers_good hn := hn

/-- No form of a well formed node looks at a child that is missing. -/
theorem Evaluator.finds_alarmed (alarm : Node → Nat → Run Node) (rounds depth : Nat) :
    (alarmed alarm rounds depth).Finds Node.WellFormed := by
  intro n m i hn hreads
  have hchild : (alarmed alarm rounds depth).child m i = m.childOr alarm i := by cases depth <;> rfl
  rw [hchild, Node.childOr, Node.child, List.getElem?_eq_getElem (hn.lt_of_reads hreads)]

theorem Regime.runs_alarmed (alarm : Node → Nat → Run Node) (rounds depth : Nat) :
    Runs .wellFormed (.upTo rounds depth) (.alarmed alarm rounds depth) := by
  induction depth with
  | zero =>
    exact ⟨Eq.refl rounds, .of_eq rfl, Evaluator.finds_alarmed alarm rounds 0, grows_upTo rounds 0,
      fun _ => .exhausted, fun _ => .exhausted⟩
  | succ depth ih =>
    exact ⟨Eq.refl rounds, .of_eq rfl, Evaluator.finds_alarmed alarm rounds (depth + 1),
      grows_upTo rounds (depth + 1), ih.agree.expression, ih.statement⟩

/-- The tree of every program that is accepted is well formed, and no run of it looks at a child
that is missing: not in the program, nor in the functions of the state, nor in the files that are
imported. The run leaves functions with well formed bodies, so this also holds of the programs that
are run after it. -/
theorem accepted_no_alarm {tokens : List Token} {n : Node} (h : parse tokens = .ok n) :
    n.WellFormed ∧ ∀ (l : Limits) (s : State), s.WellFormed →
      (∀ alarm, (Evaluator.alarmed alarm l.rounds l.depth).program n s = l.evaluator.program n s) ∧
      (∀ t, l.evaluator.program n s = .ok () t → t.WellFormed) ∧
      ∀ e t, l.evaluator.program n s = .error e t → t.WellFormed := by
  have hn := parse_wellFormed h
  refine ⟨hn, fun l s hs => ?_⟩
  have hsafe (alarm : Node → Nat → Run Node) :=
    (Regime.runs_alarmed alarm l.rounds l.depth).safe_program (fun _ => hn.child) s hs
  refine ⟨fun alarm => (hsafe alarm).1, fun t hrun => ?_, fun e t hrun => ?_⟩
  all_goals
    have hmet := (hsafe Node.child).2
    change Contract.Met _ (l.evaluator.program n s) at hmet
    rw [hrun] at hmet
  · exact hmet
  · rcases hmet with ht | ht
    · exact ht
    · exact ht.2

/-- A program that imports a file with a function in it. -/
theorem accepted_no_alarm_of_import :
    let tokens : List Token := [⟨.kaKeen, .str "ka_keen", some 1, some 1⟩,
      ⟨.string, .str "m.so", some 1, some 9⟩, ⟨.eof, .null, some 2, some 1⟩]
    let s : State := { folder := ⟨[("m.so", "hawl g(p) \x7b celi p \x7d\ng(1)\n")]⟩ }
    ∃ n, parse tokens = .ok n ∧ ∀ alarm,
      (Evaluator.alarmed alarm 9 9).program n s = (Limits.mk 9 9).evaluator.program n s := by
  intro tokens s
  have hs : s.WellFormed := by
    intro name f hf
    cases hf
  have hparse : parse tokens = .ok
      { kind := .program, children := [{ kind := .importFile, value := .str "m.so" }] } := rfl
  exact ⟨_, hparse, ((accepted_no_alarm hparse).2 ⟨9, 9⟩ s hs).1⟩

/-- An operation without operands, which no text writes, raises the alarm. -/
example :
    let n : Node := { kind := .program, children := [{ kind := .binary, value := .str "+" }] }
    (Evaluator.alarmed (fun _ _ => throw .stopped) 9 9).program n {} = .error .stopped {} ∧
      (Limits.mk 9 9).evaluator.program n {} = .error (.fault (.failure .indexOutOfRange)) {} :=
  ⟨rfl, rfl⟩

end Luuqad

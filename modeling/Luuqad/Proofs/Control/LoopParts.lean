import Luuqad.Proofs.Control.Guarded
import Luuqad.Proofs.Control.Switch

/-!
# Parts of counting loops

A counting loop has a name, two bounds, perhaps a step, and a body. The parser puts the bounds, the
step and the body into one row of children, and a run takes the third of them for the step if it is
a literal, a name or an operation with two operands. So a step of any other form, such as a call, is
taken for the first statement of the body, and if no step is written, a name or an operation that
starts the body is taken for the step.

`CountingLoop` keeps the parts as they were written, and `CountingLoop.run` is what they mean. The
tree of a loop is run as `CountingLoop.asRead` says; this is what was written, for every evaluator,
if and only if the step can be told from the body (`loop_run_iff`).
-/

namespace Luuqad

/-! ## Counting loops as they are written -/

/-- A counting loop: the name that is bound, the two bounds, perhaps a step, and the body. -/
structure CountingLoop where
  name : Value
  first : Node
  last : Node
  step : Option Node
  body : List Node

namespace CountingLoop

def toNode (x : CountingLoop) : Node :=
  { kind := .loop, value := x.name, children := x.first :: x.last :: x.step.toList ++ x.body }

/-- One pass through statements: they are executed in order, up to one that goes on with the next
round or leaves the loop. The result says whether the loop goes on. -/
def pass (self : Evaluator) : List Node → Run Bool
  | [] => return true
  | m :: rest => fun s =>
    match self.execute m s with
    | .ok _ t => pass self rest t
    | .error .continuing t => .ok true t
    | .error .breaking t => .ok false t
    | .error e t => .error e t

/-- The rounds of a counting loop from the number `i` on, at most as many as `fuel`. While the last
bound is not passed, the name is bound to the number, as the value `v`, and the body is run. -/
def rounds (x : CountingLoop) (self : Evaluator) (stop : Value) (step : Num) :
    Nat → Value → Num → Run Unit
  | 0, _, _ => throw .exhausted
  | fuel + 1, v, i => do
    if ← Run.act (Action.reading fun h => step.toward.relate h v stop) then
      Run.setVariable (← Run.nameOf x.name) v
      if ← pass self x.body then
        let next ← Run.act (Action.ofExcept (i.add step))
        x.rounds self stop step fuel (← Run.act (Action.number next)) next

/-- The rounds of a counting loop with these bounds and this step, which have to be numbers. -/
def count (x : CountingLoop) (self : Evaluator) (start stop step : Value) : Run Unit :=
  match start.num?, stop.num?, step.num? with
  | some i, some _, some d => x.rounds self stop d self.rounds start i
  | _, _, _ => Run.raise .badLoopBounds

/-- What a counting loop means: the bounds are evaluated, then the step, and the body is run for
each number. The step is one if none is written. -/
def run (x : CountingLoop) (self : Evaluator) : Run Unit := do
  let start ← self.evaluate x.first
  let stop ← self.evaluate x.last
  let step ← x.step.elim (pure (.int 1)) self.evaluate
  x.count self start stop step

/-- The step can be told from the body: it has the form of a step, or there is none and the body
does not start with anything of this form. -/
def Told (x : CountingLoop) : Prop :=
  x.step.elim (∀ m ∈ x.body.head?, Evaluator.isStep m = false) fun e => Evaluator.isStep e = true

/-- A row of nodes with the step apart from the body. -/
def split : List Node → Option Node × List Node
  | [] => (none, [])
  | m :: rest => if Evaluator.isStep m then (some m, rest) else (none, m :: rest)

/-- What a counting loop is taken for. -/
def asRead (x : CountingLoop) : CountingLoop :=
  { x with
    step := (split (x.step.toList ++ x.body)).1
    body := (split (x.step.toList ++ x.body)).2 }

end CountingLoop

/-! ## Counting loops as they are read -/

namespace Parser

def stepPart (inner : Nested) : Parser (Option Node) := do
  if (← kind) = .colon then
    advance
    if (← kind) = .colon then
      advance
      return some (← sum inner)
    else failExpecting "':'"
  else return none

def loopParts (inner : Nested) : Parser CountingLoop := do
  let _ ← expect .kuceli
  let _ ← expect .leftParen
  let variableName ← name
  let first ← sum inner
  let _ ← expect .identifier
  let last ← sum inner
  let step ← stepPart inner
  let _ ← expect .rightParen
  let body ← braced inner
  return ⟨variableName, first, last, step, body⟩

theorem loopStep_eq (inner : Nested) : loopStep inner = Option.toList <$> stepPart inner := by
  unfold loopStep stepPart
  rw [map_bind]
  refine bind_congr fun k => ?_
  split
  · rw [map_bind]
    refine bind_congr fun _ => ?_
    rw [map_bind]
    refine bind_congr fun k => ?_
    split
    · simp only [map_bind, map_pure, Option.toList_some]
    · rfl
  · rfl

theorem loop_eq (inner : Nested) : loop inner = CountingLoop.toNode <$> loopParts inner := by
  simp only [loop, loopParts, loopStep_eq, map_bind, bind_map_left, map_pure, CountingLoop.toNode]

end Parser

/-! ## Running the row -/

namespace CountingLoop

variable {x : CountingLoop}

theorem split_of_step {m : Node} (hm : Evaluator.isStep m = true) (rest : List Node) :
    split (m :: rest) = (some m, rest) := if_pos hm

theorem split_of_not_step {row : List Node} (hrow : ∀ m ∈ row.head?, Evaluator.isStep m = false) :
    split row = (none, row) := by
  cases row with
  | nil => rfl
  | cons m rest => simp [split, hrow m rfl]

theorem pass_eq (self : Evaluator) (body : List Node) : pass self body = self.round body := by
  funext s
  induction body generalizing s with
  | nil => rfl
  | cons m rest ih =>
    unfold pass
    cases hfirst : self.execute m s with
    | ok v t =>
      rw [Evaluator.round_cons_ok hfirst]
      exact ih t
    | error e t =>
      rw [Evaluator.round_cons_error hfirst]
      cases e <;> rfl

theorem rounds_eq (self : Evaluator) (x : CountingLoop) (stop : Value) (step : Num) (fuel : Nat)
    (v : Value) (i : Num) : x.rounds self stop step fuel v i =
      self.countRounds x.name x.body step.toward stop step v i fuel := by
  induction fuel generalizing v i with
  | zero => rfl
  | succ fuel ih =>
    unfold rounds Evaluator.countRounds Evaluator.countRound
    simp only [ih, bind_assoc, pass_eq]

theorem count_eq (self : Evaluator) (x : CountingLoop) (start stop step : Value) :
    x.count self start stop step = self.counting x.toNode start stop step x.body := by
  unfold count Evaluator.counting
  cases start.num? <;> cases stop.num? <;> cases step.num? <;> simp only [rounds_eq]
  rfl

/-- Every counting loop is run as what it is taken for. -/
theorem loop_toNode {self : Evaluator} (hchild : self.child = Node.child) (x : CountingLoop) :
    self.loop x.toNode = x.asRead.run self := by
  have hfirst : self.child x.toNode 0 = pure x.first := by rw [hchild]; rfl
  have hlast : self.child x.toNode 1 = pure x.last := by rw [hchild]; rfl
  have hrest : x.toNode.children.drop 2 = x.step.toList ++ x.body := rfl
  rw [Evaluator.loop_eq]
  simp only [Evaluator.heading, hfirst, hlast, hrest, pure_bind, bind_assoc, run, count_eq, asRead]
  refine bind_congr fun start => bind_congr fun stop => ?_
  cases x.step.toList ++ x.body with
  | nil => rfl
  | cons m rest =>
    cases hm : Evaluator.isStep m with
    | true =>
      rw [split_of_step hm]
      simp only [hm, if_true, bind_assoc, pure_bind]
      rfl
    | false =>
      rw [split_of_not_step (by simp [hm])]
      simp only [hm]
      rfl

theorem Told.asRead (h : x.Told) : x.asRead = x := by
  obtain ⟨name, first, last, step, body⟩ := x
  cases step with
  | none =>
    have hrow : split body = (none, body) := split_of_not_step h
    simp [CountingLoop.asRead, hrow]
  | some e =>
    have hrow : split (e :: body) = (some e, body) := split_of_step h body
    simp [CountingLoop.asRead, hrow]

/-- An evaluator that numbers what it evaluates comes to the rounds of the loop with two or three
numbers, and no further. -/
theorem counter_run (x : CountingLoop) (s : State) :
    x.run Evaluator.counter s =
      .error .exhausted { s with chance := ⟨s.chance.seed + 2 + x.step.toList.length⟩ } := by
  obtain ⟨name, first, last, step, body⟩ := x
  cases step with
  | none => rfl
  | some e => rfl

/-- If what a loop is taken for has a step just when the loop has one, then the step can be told
from the body. -/
theorem told_of_length (h : x.asRead.step.toList.length = x.step.toList.length) : x.Told := by
  obtain ⟨name, first, last, step, body⟩ := x
  cases step with
  | none =>
    intro m hm
    obtain ⟨rest, rfl⟩ : ∃ rest, body = m :: rest := List.head?_eq_some_iff.mp hm
    cases hstep : Evaluator.isStep m with
    | false => rfl
    | true => simp [asRead, split_of_step hstep] at h
  | some e =>
    cases hstep : Evaluator.isStep e with
    | true => exact hstep
    | false =>
      have hrow : split (e :: body) = (none, e :: body) := split_of_not_step (by simp [hstep])
      simp [asRead, hrow] at h

/-- The row of children is run as it was written, whatever bounds, step and statements do, if and
only if the step can be told from the body. -/
theorem loop_eq_run_iff :
    (∀ self : Evaluator, self.child = Node.child → self.loop x.toNode = x.run self) ↔ x.Told := by
  constructor
  · intro h
    have hrun := h Evaluator.counter rfl
    rw [loop_toNode rfl] at hrun
    have hcount := congrFun hrun {}
    rw [counter_run, counter_run] at hcount
    injection hcount with _ hstate
    have hseed := congrArg (·.chance.seed) hstate
    simp only [Nat.add_left_cancel_iff] at hseed
    exact told_of_length hseed
  · intro h self hchild
    rw [loop_toNode hchild, h.asRead]

end CountingLoop

/-! ## Counting loops of the parser -/

/-- For every counting loop that the parser reads, with or without a step and with any body: running
its tree evaluates the bounds and then the step, which is one if none is written, and runs the
statements of the body for each number, if and only if the step is a literal, a name or an operation
with two operands, or there is none and the body does not start with any of these. In every case it
does this for the loop that has the first node after the bounds as its step just when this node has
such a form. -/
theorem loop_run_iff (inner : Nested) (c c' : Cursor) (n : Node)
    (h : Parser.loop inner c = .ok n c') :
    ∃ x : CountingLoop, Parser.loopParts inner c = .ok x c' ∧ n = x.toNode ∧
      ((∀ self : Evaluator, self.child = Node.child →
        self.statement n = do x.run self; return .null) ↔ x.Told) ∧
      ∀ self : Evaluator, self.child = Node.child →
        self.statement n = do x.asRead.run self; return .null := by
  rw [Parser.loop_eq] at h
  obtain ⟨x, hparts, rfl⟩ := Parser.map_eq_ok h
  have hstatement (self : Evaluator) : self.statement x.toNode =
      do self.loop x.toNode; return .null := rfl
  refine ⟨x, hparts, rfl, ?_, fun self hchild => ?_⟩
  · simp only [hstatement, Run.done_eq_iff]
    exact CountingLoop.loop_eq_run_iff
  · rw [hstatement, CountingLoop.loop_toNode hchild]

/-- A loop with a number as its step, and with a name at the start of its body. -/
theorem loop_run_iff_of_literal :
    let mark (k : TokenKind) : Token := { kind := k, value := .null }
    let name (x : String) : Token := { kind := .identifier, value := .str x }
    let number (i : Int) : Token := { kind := .number, value := .int i }
    let c : Cursor :=
      ⟨0, mark .kuceli, [mark .leftParen, name "i", number 1, name "ilaa", number 5, mark .colon,
        mark .colon, number 2, mark .rightParen, mark .leftBrace, name "x",
        mark .rightBrace, mark .eof]⟩
    let x : CountingLoop :=
      { name := .str "i", first := Parser.literal (.int 1), last := Parser.literal (.int 5)
        step := some (Parser.literal (.int 2)), body :=
          [{ kind := .identifier, value := .str "x" }] }
    ∃ c', Parser.loop (.upTo 9) c = .ok x.toNode c' ∧ x.Told ∧
      ∀ self : Evaluator, self.child = Node.child →
        self.statement x.toNode = do x.run self; return .null := by
  intro mark name number c x
  have hread : Parser.loop (.upTo 9) c = .ok x.toNode ⟨13, mark .eof, []⟩ := rfl
  have htold : x.Told := rfl
  obtain ⟨y, hparts, -, hiff, -⟩ := loop_run_iff (.upTo 9) c _ _ hread
  obtain rfl : x = y := by
    have hx : Parser.loopParts (.upTo 9) c = .ok x ⟨13, mark .eof, []⟩ := rfl
    simpa using hx.symm.trans hparts
  exact ⟨_, hread, htold, hiff.mpr htold⟩

/-- A step that is a call is not used as the step: the loop goes on by one. A name at the start of
the body is used as the step if none is written. -/
theorem step_misplaced :
    let mark (k : TokenKind) : Token := { kind := k, value := .null }
    let name (x : String) : Token := { kind := .identifier, value := .str x }
    let number (i : Int) : Token := { kind := .number, value := .int i }
    let c (step body : List Token) : Cursor :=
      ⟨0, mark .kuceli, [mark .leftParen, name "i", number 1, name "ilaa", number 2] ++ step ++
        mark .rightParen :: mark .leftBrace :: body ++ [mark .rightBrace, mark .eof]⟩
    let x (step : Option Node) (body : List Node) : CountingLoop :=
      ⟨.str "i", Parser.literal (.int 1), Parser.literal (.int 2), step, body⟩
    let called := x (some { kind := .call, value := .str "two" }) []
    let named := x none [{ kind := .identifier, value := .str "x" }]
    let two : UserFunction :=
      ⟨[], [{ kind := .returnValue, children := [Parser.literal (.int 2)] }]⟩
    let s : State := { vars := [("x", .int 2)], functions := [("two", two)] }
    let final (r : Run Value) : Option Value := match r s with
      | .ok _ t => t.vars.get? "i"
      | .error _ _ => none
    (∃ c', Parser.loopParts (.upTo 9)
        (c [mark .colon, mark .colon, name "two", mark .leftParen, mark .rightParen] []) =
        .ok called c') ∧
      final ((Evaluator.upTo 9 9).execute called.toNode) = some (.int 2) ∧
      final (do called.run (.upTo 9 8); return .null) = some (.int 1) ∧
    (∃ c', Parser.loopParts (.upTo 9) (c [] [name "x"]) = .ok named c') ∧
      final ((Evaluator.upTo 9 9).execute named.toNode) = some (.int 1) ∧
      final (do named.run (.upTo 9 8); return .null) = some (.int 2) :=
  ⟨⟨_, rfl⟩, by decide +kernel, by decide +kernel, ⟨_, rfl⟩, by decide +kernel, by decide +kernel⟩

end Luuqad

import Luuqad.Interpreter.Statement

/-!
# Running programs

The forms are tied together by depth: parts nested in a form are run with one level less. A program
that nests more deeply than the limit, by calling itself, is exhausted.
-/

namespace Luuqad

/-- How far a run may go. -/
structure Limits where
  depth : Nat
  rounds : Nat
deriving DecidableEq, Repr, Inhabited

def Limits.standard : Limits := ⟨1000, Number.pow2 40⟩

/-- The evaluator for parts nested at most `depth` deep, in loops of at most `rounds` rounds. -/
def Evaluator.upTo (rounds : Nat) : Nat → Evaluator
  | 0 => ⟨fun _ => throw .exhausted, fun _ => throw .exhausted, rounds, Node.child⟩
  | depth + 1 =>
    let inner := Evaluator.upTo rounds depth
    ⟨inner.expression, inner.statement, rounds, Node.child⟩

def Limits.evaluator (l : Limits) : Evaluator := Evaluator.upTo l.rounds l.depth

/-- Run a statement of a program, where no loop or function is around it. -/
def Evaluator.outermost (self : Evaluator) (n : Node) : Run Unit :=
  MonadExcept.tryCatch (do let _ ← self.execute n) fun
    | .breaking => Run.raise .breakOutsideLoop
    | .continuing => Run.raise .continueOutsideLoop
    | .returning _ => Run.raise .returnOutsideFunction
    | e => throw e

def Evaluator.outermostAll (self : Evaluator) : List Node → Run Unit
  | [] => return
  | n :: rest => do
    self.outermost n
    self.outermostAll rest

def Evaluator.program (self : Evaluator) (n : Node) : Run Unit := do
  if n.kind ≠ .program then Run.raise .malformed
  self.outermostAll n.children

/-- Read and run the text of a program. -/
def Limits.runText (l : Limits) (source : String) : Run Unit :=
  match readProgram source with
  | .error s => Evaluator.stop s
  | .ok n => l.evaluator.program n

end Luuqad

import Luuqad.Proofs.Control.Conditional
import Luuqad.Proofs.Run.Outlasting

/-!
# Guarded statements

A guarded statement has a body, a name and a handler. If the body fails, the name is bound to the
text of the failure and the handler is run. The signals of the statements that leave a loop, a round
or a function travel as interrupts too, and they are handled like failures, with no text. So a body
that leaves a loop does not leave it: the name is bound to the empty text, the handler is run, and
the run goes on after it.

The bare body in its place would leave the loop or the function around it. Both do the same,
wherever they stand, if and only if the handler ends with the same signal and changes nothing, so
that the name has to be bound to the empty text already (`guarded_signal_iff`).
-/

namespace Luuqad

open Run

/-- An interrupt that leaves a loop, a round of it, or a function. -/
def Interrupt.isSignal : Interrupt → Bool
  | breaking | continuing | returning _ => true
  | _ => false

/-- How a round ends that is interrupted. -/
def Interrupt.endRound : Interrupt → Run Bool
  | breaking => return false
  | continuing => return true
  | e => throw e

/-- How the body of a function ends that is interrupted. -/
def Interrupt.endFunction : Interrupt → Run Value
  | returning v => return v
  | e => throw e

theorem Interrupt.endRound_inj {e e' : Interrupt} {t t' : State}
    (h : e.endRound t = e'.endRound t') :
    e = e' ∧ t = t' := by
  cases e <;> cases e' <;> cases h <;> exact ⟨rfl, rfl⟩

/-! ## Guarded statements as they are written -/

/-- A guarded statement: the body, the name for the text of a failure, and the handler. -/
structure Guarded where
  body : List Node
  name : Value
  handler : List Node

namespace Guarded

def toNode (x : Guarded) : Node :=
  { kind := .tryCatch, value := x.name,
    children :=
      [{ kind := .block, children := x.body }, { kind := .block, children := x.handler }] }

/-- Bind the name to a text and run the handler. -/
def handle (x : Guarded) (self : Evaluator) (text : String) : Run Unit := do
  setVariable (← nameOf x.name) (.str text)
  self.block x.handler

/-- In the body of a loop or of a function, after statements that end in the state `s` and before
any others, the guarded statement does what its bare body does. -/
def TransparentAt (x : Guarded) (self : Evaluator) (s : State) : Prop :=
  ∀ (before after : List Node) (s₀ : State), self.block before s₀ = .ok () s →
    self.round (before ++ x.toNode :: after) s₀ = self.round (before ++ (x.body ++ after)) s₀ ∧
    ∀ params, self.functionBody ⟨params, before ++ x.toNode :: after⟩ s₀ =
      self.functionBody ⟨params, before ++ (x.body ++ after)⟩ s₀

end Guarded

namespace Parser

def guardedParts (inner : Nested) : Parser Guarded := do
  let _ ← expect .iskuDay
  let body ← braced inner
  let _ ← expect .qabo
  let _ ← expect .leftParen
  let e ← name
  let _ ← expect .rightParen
  let handler ← braced inner
  return ⟨body, e, handler⟩

theorem tryCatch_eq (inner : Nested) : tryCatch inner = Guarded.toNode <$> guardedParts inner := by
  simp only [tryCatch, guardedParts, map_bind, map_pure, Guarded.toNode]

end Parser

/-! ## Statements in a row -/

namespace Evaluator

variable {self : Evaluator} {s s₀ t : State} {e : Interrupt}

theorem sequence_cons (n : Node) {rest : List Node} (hrest : rest ≠ []) :
    self.sequence (n :: rest) = (do let _ ← self.execute n; self.sequence rest) := by
  cases rest with
  | nil => exact absurd rfl hrest
  | cons m rest => rfl

theorem block_cons (n : Node) (rest : List Node) :
    self.block (n :: rest) = (do let _ ← self.execute n; self.block rest) := by
  cases rest with
  | nil => rfl
  | cons m rest =>
    unfold block
    rw [sequence_cons n (List.cons_ne_nil m rest), bind_assoc]

theorem sequence_append (before : List Node) {rest : List Node} (hrest : rest ≠ []) :
    self.sequence (before ++ rest) = (do self.block before; self.sequence rest) := by
  induction before with
  | nil => rfl
  | cons n before ih =>
    have happend : before ++ rest ≠ [] := by simp [hrest]
    rw [List.cons_append, sequence_cons n happend, ih, block_cons, bind_assoc]

theorem sequence_of_block {nodes : List Node} (h : self.block nodes s = .error e t) :
    self.sequence nodes s = .error e t := by
  cases hrun : self.sequence nodes s with
  | ok v u =>
    rw [block, bind_ok hrun] at h
    cases h
  | error e' u =>
    rw [block, bind_error hrun] at h
    cases h
    rfl

theorem sequence_between {before body : List Node} (hbefore : self.block before s₀ = .ok () s)
    (hbody : self.block body s = .error e t) (after : List Node) :
    self.sequence (before ++ (body ++ after)) s₀ = .error e t := by
  have hne : body ++ after ≠ [] := by
    intro hnil
    obtain rfl := (List.append_eq_nil_iff.mp hnil).1
    cases hbody
  rw [sequence_append before hne, bind_ok hbefore]
  cases after with
  | nil =>
    rw [List.append_nil]
    exact sequence_of_block hbody
  | cons m after =>
    rw [sequence_append body (List.cons_ne_nil m after)]
    exact bind_error hbody

theorem round_of_error {body : List Node} (h : self.sequence body s = .error e t) :
    self.round body s = e.endRound t := by
  have hblock : (do self.block body; return true : Run Bool) s = .error e t :=
    bind_error (bind_error h)
  unfold round
  rw [tryCatch_error hblock]
  cases e <;> rfl

theorem round_of_ok {body : List Node} (h : self.block body s = .ok () t) :
    self.round body s = .ok true t := by
  have hrun : (do self.block body; return true : Run Bool) s = .ok true t := by
    rw [bind_ok h]
    rfl
  exact tryCatch_ok hrun

theorem round_cons_ok {n : Node} {v : Value} (h : self.execute n s = .ok v t) (rest : List Node) :
    self.round (n :: rest) s = self.round rest t := by
  have hblock : self.block (n :: rest) s = self.block rest t := by rw [block_cons, bind_ok h]
  cases hrest : self.block rest t with
  | ok a u => rw [round_of_ok (hblock.trans hrest), round_of_ok hrest]
  | error e u =>
    rw [round_of_error (sequence_of_block (hblock.trans hrest)),
      round_of_error (sequence_of_block hrest)]

theorem round_cons_error {n : Node} (h : self.execute n s = .error e t) (rest : List Node) :
    self.round (n :: rest) s = e.endRound t := by
  have hblock : self.block (n :: rest) s = .error e t := by rw [block_cons, bind_error h]
  exact round_of_error (sequence_of_block hblock)

theorem functionBody_of_error {f : UserFunction} (h : self.sequence f.body s = .error e t) :
    self.functionBody f s = e.endFunction t := by
  unfold functionBody
  rw [tryCatch_error h]
  cases e <;> rfl

end Evaluator

/-! ## Signals in the body -/

namespace Guarded

variable {x : Guarded} {rounds depth : Nat} {s t : State} {e : Interrupt}

theorem tryCatch_toNode {self : Evaluator} (hchild : self.child = Node.child) (x : Guarded) :
    self.tryCatch x.toNode = MonadExcept.tryCatch (self.block x.body) fun e =>
      e.caught?.elim (throw e) (x.handle self) := by
  unfold Evaluator.tryCatch
  rw [hchild]
  refine congrArg _ (funext fun e => ?_)
  cases e.caught? <;> rfl

/-- The handler starts where the body was interrupted, with what it sees of the interrupt. -/
theorem statement_of_caught {self : Evaluator} (hchild : self.child = Node.child) {text : String}
    (hcaught : e.caught? = some text) (hbody : self.block x.body s = .error e t) :
    self.statement x.toNode s = (do x.handle self text; return .null : Run Value) t := by
  have hrun : self.tryCatch x.toNode s = x.handle self text t := by
    rw [tryCatch_toNode hchild, tryCatch_error hbody, hcaught]
    rfl
  show (do self.tryCatch x.toNode; return .null : Run Value) s = _
  cases hhandle : x.handle self text t with
  | ok a u => rw [bind_ok (hrun.trans hhandle), bind_ok hhandle]
  | error e' u => rw [bind_error (hrun.trans hhandle), bind_error hhandle]

theorem execute_of_signal (hsignal : e.isSignal = true)
    (hbody : (Evaluator.upTo rounds depth).block x.body s = .error e t) :
    (Evaluator.upTo rounds (depth + 1)).execute x.toNode s =
      (do x.handle (.upTo rounds depth) ""; return .null : Run Value) t := by
  have hcaught : e.caught? = some "" := by
    cases e with
    | breaking | continuing | returning v => rfl
    | fault f | stopped | exhausted => cases hsignal
  exact statement_of_caught (Evaluator.child_upTo rounds depth) hcaught hbody

theorem block_succ (hsignal : e.isSignal = true)
    (hbody : (Evaluator.upTo rounds depth).block x.body s = .error e t) :
    (Evaluator.upTo rounds (depth + 1)).block x.body s = .error e t := by
  have houtlasted := Evaluator.outlastedBy_upTo (Nat.le_refl rounds) (Nat.le_succ depth)
  rcases houtlasted.block x.body s with ⟨u, hexhausted⟩ | heq
  · rw [hbody] at hexhausted
    cases hexhausted
    cases hsignal
  · exact heq.trans hbody

/-- If the handler ends with the signal and changes nothing, then the guarded statement does what
its bare body does. -/
theorem transparentAt_of_handle (hsignal : e.isSignal = true)
    (hbody : (Evaluator.upTo rounds depth).block x.body s = .error e t)
    (hhandle : x.handle (.upTo rounds depth) "" t = .error e t) :
    x.TransparentAt (.upTo rounds (depth + 1)) s := by
  intro before after s₀ hbefore
  have hnode : (Evaluator.upTo rounds (depth + 1)).block [x.toNode] s = .error e t :=
    bind_error ((execute_of_signal hsignal hbody).trans (bind_error hhandle))
  have hguarded := Evaluator.sequence_between hbefore hnode after
  have hbare := Evaluator.sequence_between hbefore (block_succ hsignal hbody) after
  refine ⟨?_, fun params => ?_⟩
  · exact (Evaluator.round_of_error hguarded).trans (Evaluator.round_of_error hbare).symm
  · exact (Evaluator.functionBody_of_error hguarded).trans
      (Evaluator.functionBody_of_error hbare).symm

/-- If the guarded statement and its bare body end a round in the same way, whatever comes after
them, then the handler ends with the signal and changes nothing. -/
theorem handle_of_round (hsignal : e.isSignal = true)
    (hbody : (Evaluator.upTo rounds depth).block x.body s = .error e t)
    (h : ∀ after, (Evaluator.upTo rounds (depth + 1)).round (x.toNode :: after) s =
      (Evaluator.upTo rounds (depth + 1)).round (x.body ++ after) s) :
    x.handle (.upTo rounds depth) "" t = .error e t := by
  have hexecute := execute_of_signal hsignal hbody
  -- however a round with the guarded statement is ended, the bare body ends it in this way
  have hends (after : List Node) {e' : Interrupt} {u : State}
      (hrun : (Evaluator.upTo rounds (depth + 1)).sequence (x.toNode :: after) s = .error e' u) :
      e' = e ∧ u = t := by
    have hnone : (Evaluator.upTo rounds (depth + 1)).block [] s = .ok () s := rfl
    have hbare := Evaluator.sequence_between hnone (block_succ hsignal hbody) after
    rw [List.nil_append] at hbare
    have hround := h after
    rw [Evaluator.round_of_error hrun, Evaluator.round_of_error hbare] at hround
    exact Interrupt.endRound_inj hround
  cases hhandle : x.handle (.upTo rounds depth) "" t with
  | ok a u =>
    -- then what comes after is run, and it may leave the loop as well as go on with it
    rw [bind_ok hhandle] at hexecute
    have hbreaking : .breaking = e ∧ u = t := hends [{ kind := .breakLoop }] (bind_ok hexecute)
    have hcontinuing : .continuing = e ∧ u = t :=
      hends [{ kind := .continueLoop }] (bind_ok hexecute)
    cases hbreaking.1.trans hcontinuing.1.symm
  | error e' u =>
    rw [bind_error hhandle] at hexecute
    obtain ⟨rfl, rfl⟩ := hends [] hexecute
    rfl

end Guarded

/-! ## Guarded statements of the parser -/

/-- For every guarded statement that the parser reads, all limits, and every state from which a
signal leaves the body: the name is bound to the empty text and the handler is run, and the
statement ends as the handler does. In the body of a loop or of a function it does what its bare
body does, which leaves the loop, goes on with it or returns, if and only if the handler ends with
the same signal and with the state in which the signal left the body. -/
theorem guarded_signal_iff (inner : Nested) (c c' : Cursor) (n : Node)
    (h : Parser.tryCatch inner c = .ok n c') :
    ∃ x : Guarded, Parser.guardedParts inner c = .ok x c' ∧ n = x.toNode ∧
      ∀ (rounds depth : Nat) (s t : State) (e : Interrupt), e.isSignal = true →
        (Evaluator.upTo rounds depth).block x.body s = .error e t →
        (Evaluator.upTo rounds (depth + 1)).execute n s =
          (do x.handle (.upTo rounds depth) ""; return .null : Run Value) t ∧
        (x.TransparentAt (.upTo rounds (depth + 1)) s ↔
          x.handle (.upTo rounds depth) "" t = .error e t) := by
  rw [Parser.tryCatch_eq] at h
  obtain ⟨x, hparts, rfl⟩ := Parser.map_eq_ok h
  refine ⟨x, hparts, rfl, fun rounds depth s t e hsignal hbody => ?_⟩
  refine ⟨Guarded.execute_of_signal hsignal hbody, fun htransparent => ?_, ?_⟩
  · exact Guarded.handle_of_round hsignal hbody fun after => (htransparent [] after s rfl).1
  · exact Guarded.transparentAt_of_handle hsignal hbody

/-- A guarded statement that leaves a loop in its body and in its handler. If the name is bound to
the empty text, it does what its bare body does. -/
theorem guarded_signal_iff_of_break :
    let mark (k : TokenKind) : Token := { kind := k, value := .null }
    let c : Cursor :=
      ⟨0, mark .iskuDay, [.leftBrace, .jooji, .rightBrace, .qabo, .leftParen].map mark ++
        { kind := .identifier, value := .str "e" } ::
        [.rightParen, .leftBrace, .jooji, .rightBrace, .eof].map mark⟩
    let x : Guarded := ⟨[{ kind := .breakLoop }], .str "e", [{ kind := .breakLoop }]⟩
    let s : State := { vars := [("e", .str "")] }
    ∃ c', Parser.tryCatch (.upTo 9) c = .ok x.toNode c' ∧
      (Evaluator.upTo 9 8).block x.body s = .error .breaking s ∧
      x.TransparentAt (.upTo 9 9) s := by
  intro mark c x s
  have hread : Parser.tryCatch (.upTo 9) c = .ok x.toNode ⟨11, mark .eof, []⟩ := rfl
  have hbody : (Evaluator.upTo 9 8).block x.body s = .error .breaking s := rfl
  obtain ⟨y, hparts, -, hsignal⟩ := guarded_signal_iff (.upTo 9) c _ _ hread
  obtain rfl : x = y := by
    have hx : Parser.guardedParts (.upTo 9) c = .ok x ⟨11, mark .eof, []⟩ := rfl
    simpa using hx.symm.trans hparts
  exact ⟨_, hread, hbody, (hsignal 9 8 s s .breaking rfl hbody).2.mpr rfl⟩

/-- A loop that should end in its first round goes on to its end and binds the name, and a function
that should return 5 goes on after the handler. -/
theorem signal_caught :
    let mark (k : TokenKind) : Token := { kind := k, value := .null }
    let c (body : List Token) : Cursor :=
      ⟨0, mark .iskuDay, mark .leftBrace :: body ++ [.rightBrace, .qabo, .leftParen].map mark ++
        { kind := .identifier, value := .str "e" } ::
          [.rightParen, .leftBrace, .rightBrace, .eof].map mark⟩
    let leaving : Guarded := ⟨[{ kind := .breakLoop }], .str "e", []⟩
    let returned (i : Int) : Node := { kind := .returnValue, children := [Parser.literal (.int i)] }
    let returning : Guarded := ⟨[returned 5], .str "e", []⟩
    let loop (n : Node) : Node :=
      { kind := .loop, value := .str "i",
        children := [Parser.literal (.int 1), Parser.literal (.int 3), n] }
    let final (r : Run Value) : Option (Value × NameTable Value) := match r {} with
      | .ok v t => some (v, t.vars)
      | .error _ _ => none
    (∃ c', Parser.guardedParts (.upTo 9) (c [mark .jooji]) = .ok leaving c') ∧
      final ((Evaluator.upTo 9 9).execute (loop leaving.toNode)) =
        some (.null, [("i", .int 3), ("e", .str "")]) ∧
      final ((Evaluator.upTo 9 9).execute (loop { kind := .breakLoop })) =
        some (.null, [("i", .int 1)]) ∧
    (∃ c', Parser.guardedParts (.upTo 9) (c [mark .celi, { kind := .number, value := .int 5 }]) =
        .ok returning c') ∧
      final ((Evaluator.upTo 9 9).functionBody ⟨[], [returning.toNode, returned 6]⟩) =
        some (.int 6, [("e", .str "")]) ∧
      final ((Evaluator.upTo 9 9).functionBody ⟨[], [returned 5, returned 6]⟩) =
        some (.int 5, []) :=
  ⟨⟨_, rfl⟩, by decide +kernel, by decide +kernel, ⟨_, rfl⟩, by decide +kernel, by decide +kernel⟩

end Luuqad

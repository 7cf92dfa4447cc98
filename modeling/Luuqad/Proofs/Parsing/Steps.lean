import Luuqad.Proofs.Grammar.Facing

/-!
# The steps of a parser

Every parser of the grammar is made of single steps: it looks at the cursor, moves it by one token,
returns or stops. `Visits p c c'` says that a run of `p` that starts at the cursor `c` goes through
the cursor `c'` between two steps. Steps only move forward, so no cursor that a run goes through is
past the one where it ends; and a run keeps to the tokens that it starts with.

The parsers of the grammar stop in two ways only: because the tokens are nested too deeply, or
because of the token under the cursor. So what is reported is a syntax error at the place of the
token where the parser stopped (`Located.error_at`).
-/

namespace Luuqad.Parser

variable {α β : Type} {c c' : Cursor}

/-- A parser made of single steps. -/
inductive Stepwise : {α : Type} → Parser α → Prop
  | pure {α : Type} (a : α) : Stepwise (Pure.pure a)
  | look : Stepwise (get : Parser Cursor)
  | move : Stepwise advance
  | stop {α : Type} (e : ParseStop) : Stepwise (throw e : Parser α)
  | bind {α β : Type} {p : Parser α} {f : α → Parser β} :
      Stepwise p → (∀ a, Stepwise (f a)) → Stepwise (p >>= f)

/-- A run of `p` from the cursor `c` goes through the cursor `c'`. The parts of `p` have to be made
of steps themselves: a part that moves the cursor and takes it back is none. -/
inductive Visits : {α : Type} → Parser α → Cursor → Cursor → Prop
  | start {α : Type} (p : Parser α) (c : Cursor) : Visits p c c
  | done {α : Type} {p : Parser α} {c c' : Cursor} {a : α} (h : p c = .ok a c') : Visits p c c'
  | stopped {α : Type} {p : Parser α} {c c' : Cursor} {e : ParseStop} (h : p c = .error e c') :
      Visits p c c'
  | first {α β : Type} {p : Parser α} {f : α → Parser β} {c c' : Cursor} :
      Stepwise p → (∀ a, Stepwise (f a)) → Visits p c c' → Visits (p >>= f) c c'
  | second {α β : Type} {p : Parser α} {f : α → Parser β} {c c₁ c' : Cursor} {a : α} :
      Stepwise p → (∀ a, Stepwise (f a)) → p c = .ok a c₁ → Visits (f a) c₁ c' →
      Visits (p >>= f) c c'

/-! ## Steps move forward -/

/-- The cursor where a run ends. -/
def endOf : EStateM.Result ParseStop Cursor α → Cursor
  | .ok _ c => c
  | .error _ c => c

theorem Cursor.index_advance (c : Cursor) : c.advance.index = c.index + 1 := by
  unfold Luuqad.Cursor.advance
  split <;> rfl

theorem Stepwise.index_le {p : Parser α} (h : Stepwise p) (c : Cursor) :
    c.index ≤ (endOf (p c)).index := by
  induction h generalizing c with
  | pure a | look | stop e => exact Nat.le_refl _
  | move =>
    show c.index ≤ c.advance.index
    rw [Cursor.index_advance]
    omega
  | @bind _ _ p f _ _ ihp ihf =>
    have hp := ihp c
    rw [bind_apply]
    cases hpc : p c with
    | error e c₁ => simpa only [hpc, endOf] using hp
    | ok a c₁ =>
      rw [hpc] at hp
      exact Nat.le_trans hp (ihf a c₁)

theorem Stepwise.index_le_bind {p : Parser α} {f : α → Parser β} (hf : ∀ a, Stepwise (f a))
    (c : Cursor) : (endOf (p c)).index ≤ (endOf ((p >>= f) c)).index := by
  rw [bind_apply]
  cases p c with
  | error e c₁ => exact Nat.le_refl _
  | ok a c₁ => exact (hf a).index_le c₁

theorem Visits.index_le {p : Parser α} (h : Visits p c c') (hp : Stepwise p) :
    c'.index ≤ (endOf (p c)).index := by
  induction h with
  | start p c => exact hp.index_le c
  | done h | stopped h =>
    rw [h]
    exact Nat.le_refl _
  | first hfirst hf _ ih => exact Nat.le_trans (ih hfirst) (Stepwise.index_le_bind hf _)
  | second _ hf hpc _ ih =>
    rw [bind_apply, hpc]
    exact ih (hf _)

/-- The token under the cursor and those after it are as `P` says. -/
def AllAt (P : Token → Prop) (c : Cursor) : Prop := ∀ t ∈ c.current :: c.ahead, P t

theorem AllAt.advance {P : Token → Prop} (h : AllAt P c) : AllAt P c.advance := by
  obtain ⟨index, current, ahead⟩ := c
  cases ahead with
  | nil => exact h
  | cons t ahead => exact fun u hu => h u (List.mem_cons_of_mem _ hu)

theorem Stepwise.allAt {P : Token → Prop} {p : Parser α} (h : Stepwise p) (hc : AllAt P c) :
    AllAt P (endOf (p c)) := by
  induction h generalizing c with
  | pure a | look | stop e => exact hc
  | move => exact hc.advance
  | @bind _ _ p f _ _ ihp ihf =>
    have hp := ihp hc
    rw [bind_apply]
    cases hpc : p c with
    | error e c₁ => simpa only [hpc, endOf] using hp
    | ok a c₁ =>
      rw [hpc] at hp
      exact ihf a hp

/-! ## Errors name the token under the cursor -/

/-- A parser made of single steps that stops only at the token under the cursor, or where the tokens
are nested too deeply. -/
inductive Located : {α : Type} → Parser α → Prop
  | pure {α : Type} (a : α) : Located (Pure.pure a)
  | look : Located (get : Parser Cursor)
  | move : Located advance
  | tooDeep {α : Type} : Located (throw .tooDeep : Parser α)
  | fail {α : Type} {cause : Cause} : cause.errorClass = .parser →
      Located (Parser.fail cause : Parser α)
  | bind {α β : Type} {p : Parser α} {f : α → Parser β} :
      Located p → (∀ a, Located (f a)) → Located (p >>= f)

theorem Located.stepwise {p : Parser α} (h : Located p) : Stepwise p := by
  induction h with
  | pure a => exact .pure a
  | look => exact .look
  | move => exact .move
  | tooDeep => exact .stop _
  | fail _ => exact .bind (.bind .look fun _ => .pure _) fun _ => .stop _
  | bind _ _ ihp ihf => exact .bind ihp ihf

/-- What is reported is a syntax error at the place of the token under the cursor. -/
theorem Located.error_at {p : Parser α} (h : Located p) {d : Diagnostic}
    (hrun : p c = .error (.error d) c') :
    d.cause.errorClass = .parser ∧ d.line = c'.current.line ∧ d.column = c'.current.column := by
  induction h generalizing c with
  | pure a | look | move | tooDeep => cases hrun
  | fail hcause =>
    cases hrun
    exact ⟨hcause, rfl, rfl⟩
  | @bind _ _ p f _ _ ihp ihf =>
    rw [bind_apply] at hrun
    cases hpc : p c with
    | error e c₁ =>
      rw [hpc] at hrun
      cases hrun
      exact ihp hpc
    | ok a c₁ =>
      rw [hpc] at hrun
      exact ihf a hrun

/-! ## Elementary parsers -/

namespace Located

theorem ite {b : Prop} [Decidable b] {p q : Parser α} (hp : Located p) (hq : Located q) :
    Located (if b then p else q) := by
  split
  · exact hp
  · exact hq

theorem current : Located Parser.current := .bind .look fun _ => .pure _

theorem kind : Located Parser.kind := .bind .look fun _ => .pure _

theorem failExpecting (expected : String) : Located (Parser.failExpecting expected : Parser α) :=
  .bind .kind fun _ => .fail rfl

theorem failUnexpected : Located (Parser.failUnexpected : Parser α) :=
  .bind .kind fun _ => .fail rfl

theorem expect (k : TokenKind) : Located (Parser.expect k) :=
  .bind .current fun _ => .ite (.bind .move fun _ => .pure _) (.failExpecting _)

theorem skip (k : TokenKind) : Located (Parser.skip k) :=
  .bind .kind fun _ => .ite .move (.pure _)

theorem name : Located Parser.name := .bind (.expect _) fun _ => .pure _

/-! ## Rows -/

variable {item : Parser α}

theorem itemsUntil (h : Located item) (stop : TokenKind) (fuel : Nat) :
    Located (Parser.itemsUntil stop item fuel) := by
  induction fuel with
  | zero => exact .tooDeep
  | succ fuel ih =>
    exact .bind .kind fun _ => .ite (.pure _) (.bind h fun _ => .bind ih fun _ => .pure _)

theorem many (h : Located item) (stop : TokenKind) : Located (Parser.many stop item) :=
  .bind .look fun _ => h.itemsUntil stop _

theorem itemsAfterCommas (h : Located item) (fuel : Nat) :
    Located (Parser.itemsAfterCommas item fuel) := by
  induction fuel with
  | zero => exact .tooDeep
  | succ fuel ih =>
    exact .bind .kind fun _ => .ite
      (.bind .move fun _ => .bind h fun _ => .bind ih fun _ => .pure _) (.pure _)

theorem arguments (h : Located item) : Located (Parser.arguments item) := by
  have hclose (items : List α) : Located
      (Parser.expect .rightParen >>= fun _ => Pure.pure items) := .bind (.expect _) fun _ => .pure _
  refine .bind .kind fun _ => .ite (.bind (.pure _) fun _ => hclose _) (.bind h fun _ => ?_)
  exact .bind .look fun _ => .bind (h.itemsAfterCommas _) fun _ => .bind (.pure _) fun _ => hclose _

theorem separatedUntil (h : Located item) (close : TokenKind) (fuel : Nat) :
    Located (Parser.separatedUntil close item fuel) := by
  induction fuel with
  | zero => exact .tooDeep
  | succ fuel ih =>
    refine .bind .kind fun _ => .ite (.pure _) (.bind h fun _ => .bind .kind fun _ => ?_)
    exact .ite (.bind .move fun _ => .bind ih fun _ => .pure _) (.pure _)

end Located

/-- The parsers of nested parts are made of single steps, and stop only at the token under the
cursor. -/
structure NestedLocated (inner : Nested) : Prop where
  statement : Located inner.statement
  expression : Located inner.expression
  factor : Located inner.factor

namespace NestedLocated

variable {inner : Nested} (h : NestedLocated inner)
include h

/-! ## Expressions -/

theorem callOf (v : Value) : Located (Parser.callOf v inner) :=
  .bind (.expect _) fun _ => .bind h.expression.arguments fun _ => .bind (.skip _) fun _ => .pure _

theorem listLiteral : Located (Parser.listLiteral inner) :=
  .bind (.expect _) fun _ => .bind .look fun _ => .bind (h.expression.separatedUntil _ _) fun _ =>
    .bind (.expect _) fun _ => .pure _

theorem entry : Located (Parser.entry inner) := by
  refine .bind .current fun _ => .ite (.bind .move fun _ => .bind (.expect _) fun _ => ?_)
    (.failExpecting _)
  exact .bind h.expression fun _ => .pure _

theorem objectLiteral : Located (Parser.objectLiteral inner) :=
  .bind (.expect _) fun _ => .bind .look fun _ => .bind (h.entry.separatedUntil _ _) fun _ =>
    .bind (.expect _) fun _ => .pure _

theorem primary : Located (Parser.primary inner) := by
  refine .bind .current fun t => ?_
  have hliteral (v : Value) : Located (advance >>= fun _ => pure (literal v)) :=
    .bind .move fun _ => .pure _
  have hword (v : Value) : Located (advance >>= fun _ => kind >>= fun k => if k = .leftParen
      then Parser.callOf v inner else pure { kind := .identifier, value := v }) :=
    .bind .move fun _ => .bind .kind fun _ => .ite (h.callOf _) (.pure _)
  generalize t.kind = k
  cases k with
  | number | string | true | false | null => exact hliteral _
  | leftParen =>
    exact .bind .move fun _ => .bind h.expression fun _ => .bind (.expect _) fun _ => .pure _
  | leftBracket => exact h.listLiteral
  | leftBrace => exact h.objectLiteral
  | identifier | qor | gelin | abn | jajab | qoraal | bool | teed | walax => exact hword _
  | _ => exact .failUnexpected

theorem access {notName : Parser Unit} (hname : Located notName) (target : Node) :
    Located (Parser.access notName inner target) := by
  have hmember (t : Token) : Located (advance >>= fun _ => kind >>= fun k => if k = .leftParen then
      advance >>= fun _ => inner.expression.arguments >>= fun args =>
        (pure { kind := .methodCall, value := t.value, children := target :: args } : Parser Node)
      else pure { kind := .property, value := t.value, children := [target] }) := by
    refine .bind .move fun _ => .bind .kind fun _ => .ite (.bind .move fun _ => ?_) (.pure _)
    exact .bind h.expression.arguments fun _ => .pure _
  refine .bind .kind fun _ => .ite (.bind .move fun _ => .bind .current fun t => ?_) ?_
  · exact .ite (.bind hname fun _ => hmember t) (hmember t)
  · exact .bind (.expect _) fun _ => .bind h.expression fun _ => .bind (.expect _) fun _ => .pure _

theorem accesses {notName : Parser Unit} (hname : Located notName) (target : Node) (fuel : Nat) :
    Located (Parser.accesses notName inner target fuel) := by
  induction fuel generalizing target with
  | zero => exact .tooDeep
  | succ fuel ih =>
    exact .bind .kind fun _ => .ite (.bind (h.access hname target) fun _ => ih _) (.pure _)

theorem postfixed : Located (Parser.postfixed inner) :=
  .bind h.primary fun _ => .bind .look fun _ => h.accesses (.failExpecting _) _ _

theorem factorParser : Located (Parser.factor inner) := by
  refine .bind .kind fun k => ?_
  split
  · exact .bind .move fun _ => h.factor
  · exact .bind .move fun _ => .bind h.factor fun _ => .pure _
  · exact .bind .move fun _ => .bind h.factor fun _ => .pure _
  · exact h.postfixed

omit h in
theorem level {isOperator : TokenKind → Bool} {operand : Parser Node} (hp : Located operand) :
    Located (Parser.level isOperator operand) := by
  have hoperations (fuel : Nat) (left : Node) :
      Located (Parser.operations isOperator operand left fuel) := by
    induction fuel generalizing left with
    | zero => exact .tooDeep
    | succ fuel ih =>
      refine .bind .current fun _ => .ite (.bind .move fun _ => ?_) (.pure _)
      exact .bind hp fun _ => ih _
  exact .bind hp fun left => .bind .look fun _ => hoperations _ left

theorem sum : Located (Parser.sum inner) := level (level h.factorParser)

theorem comparisons (left : Node) (fuel : Nat) : Located (Parser.comparisons inner left fuel) := by
  induction fuel generalizing left with
  | zero => exact .tooDeep
  | succ fuel ih =>
    refine .bind .current fun t => .ite (.bind .move fun _ => .bind .kind fun k => ?_) (.pure _)
    exact .ite (.bind .move fun _ => .bind h.sum fun _ => ih _) (.bind h.sum fun _ => ih _)

theorem expressionParser : Located (Parser.expression inner) :=
  level (.bind h.sum fun _ => .bind .look fun _ => h.comparisons _ _)

/-! ## Statements -/

theorem braced : Located (Parser.braced inner) :=
  .bind (.expect _) fun _ => .bind (h.statement.many _) fun _ => .bind (.expect _) fun _ => .pure _

theorem condition : Located (Parser.condition inner) :=
  .bind (.expect _) fun _ => .bind h.expression fun _ => .bind (.expect _) fun _ => .pure _

theorem binding (declared : Option TokenKind) (constant : Bool) (start : Token) :
    Located (Parser.binding inner declared constant start) := by
  refine .bind .current fun t => .ite (.bind (.failExpecting _) fun _ => ?_) ?_
  all_goals
    exact .bind .move fun _ => .bind (.expect _) fun _ => .bind h.expression fun _ => .pure _

theorem declaration (typed constant : Bool) :
    Located (Parser.declaration inner typed constant) :=
  .bind .current fun _ => .ite (.bind .move fun _ => h.binding _ _ _) (h.binding _ _ _)

theorem constant : Located (Parser.constant inner) :=
  .bind .current fun _ => .bind .move fun _ => .bind .kind fun _ =>
    .ite (.bind .move fun _ => h.binding _ _ _) (h.binding _ _ _)

theorem function : Located (Parser.function inner) := by
  refine .bind (.expect _) fun _ => .bind .name fun _ => .bind (.expect _) fun _ => ?_
  refine .bind (.many (.bind .name fun _ => .bind (.skip _) fun _ => .pure _) _) fun _ => ?_
  exact .bind (.expect _) fun _ => .bind h.braced fun _ => .pure _

theorem call : Located (Parser.call inner) := by
  refine .bind .current fun t => .ite (.bind (.failExpecting _) fun _ => ?_) ?_
  all_goals exact .bind .move fun _ => .bind (h.callOf _) fun _ => .bind (.skip _) fun _ => .pure _

omit h in
theorem importFile : Located Parser.importFile := by
  refine .bind (.expect _) fun _ => .bind .current fun t => .ite ?_ (.bind .move fun _ => .pure _)
  exact .bind (.failExpecting _) fun _ => .bind .move fun _ => .pure _

theorem alternatives (fuel : Nat) : Located (Parser.alternatives inner fuel) := by
  induction fuel with
  | zero => exact .tooDeep
  | succ fuel ih =>
    refine .bind .kind fun _ => .ite (.bind .move fun _ => .bind h.condition fun _ => ?_) (.pure _)
    exact .bind h.braced fun _ => .bind ih fun _ => .pure _

theorem conditional : Located (Parser.conditional inner) := by
  refine .bind (.expect _) fun _ => .bind h.condition fun _ => .bind h.braced fun _ => ?_
  refine .bind .look fun _ => .bind (h.alternatives _) fun _ => .bind .kind fun _ => ?_
  exact .ite (.bind .move fun _ => .bind h.braced fun _ => .bind (.pure _) fun _ => .pure _)
    (.bind (.pure _) fun _ => .pure _)

theorem loopStep : Located (Parser.loopStep inner) := by
  refine .bind .kind fun _ => .ite (.bind .move fun _ => .bind .kind fun _ => ?_) (.pure _)
  exact .ite (.bind .move fun _ => .bind h.sum fun _ => .pure _) (.failExpecting _)

theorem loop : Located (Parser.loop inner) := by
  refine .bind (.expect _) fun _ => .bind (.expect _) fun _ => .bind .name fun _ => ?_
  refine .bind h.sum fun _ => .bind (.expect _) fun _ => .bind h.sum fun _ => ?_
  exact .bind h.loopStep fun _ => .bind (.expect _) fun _ => .bind h.braced fun _ => .pure _

theorem whileLoop : Located (Parser.whileLoop inner) :=
  .bind (.expect _) fun _ => .bind h.condition fun _ => .bind h.braced fun _ => .pure _

theorem tryCatch : Located (Parser.tryCatch inner) := by
  refine .bind (.expect _) fun _ => .bind h.braced fun _ => .bind (.expect _) fun _ => ?_
  refine .bind (.expect _) fun _ => .bind .name fun _ => .bind (.expect _) fun _ => ?_
  exact .bind h.braced fun _ => .pure _

theorem classDefinition : Located (Parser.classDefinition inner) := by
  refine .bind (.expect _) fun _ => .bind .name fun _ => .bind .kind fun _ => .ite ?_ ?_
  · refine .bind .move fun _ => .bind .name fun _ => .bind (.pure _) fun _ => ?_
    exact .bind h.braced fun _ => .pure _
  · exact .bind (.pure _) fun _ => .bind h.braced fun _ => .pure _

theorem returnValue : Located (Parser.returnValue inner) :=
  .bind (.expect _) fun _ => .bind .kind fun _ =>
    .ite (.pure _) (.bind h.expression fun _ => .pure _)

theorem clause : Located (Parser.clause inner) := by
  refine .bind .kind fun k => ?_
  split
  · exact .bind .move fun _ => .bind h.expression fun _ => .bind h.braced fun _ => .pure _
  · exact .bind .move fun _ => .bind h.braced fun _ => .pure _
  · exact .failExpecting _

theorem switch : Located (Parser.switch inner) :=
  .bind (.expect _) fun _ => .bind h.condition fun _ => .bind (.expect _) fun _ =>
    .bind (h.clause.many _) fun _ => .bind (.expect _) fun _ => .pure _

theorem named : Located (Parser.named inner) := by
  have hassigned (start : Token) (target : Node) : Located (advance >>= fun _ =>
      inner.expression >>= fun v =>
      (pure { kind := .assignment, children := [target, v], line := start.line,
              column := start.column } : Parser Node)) :=
    .bind .move fun _ => .bind h.expression fun _ => .pure _
  have hname :
      Located (kind >>= fun k => fail (.expectedToken "IDENTIFIER" k.shown) : Parser Unit) :=
    .bind .kind fun _ => .fail rfl
  refine .bind .current fun start => .bind .move fun _ => .bind .kind fun k => ?_
  split
  · refine .bind .look fun _ => .bind (h.accesses hname _ _) fun _ => .bind .kind fun _ => ?_
    exact .ite (hassigned start _) (.pure _)
  · refine .bind .look fun _ => .bind (h.accesses hname _ _) fun _ => .bind .kind fun _ => ?_
    exact .ite (hassigned start _) (.pure _)
  · exact .bind .move fun _ => .bind h.expression.arguments fun _ => .pure _
  · exact hassigned start _
  · exact .pure _

theorem statementParser : Located (Parser.statement inner) := by
  refine .bind .current fun t => ?_
  generalize t.kind = k
  cases k with
  | haddii => exact h.conditional
  | dooro => exact h.switch
  | abn | jajab | qoraal | bool | teed | walax | door => exact h.declaration _ _
  | madoor => exact h.constant
  | hawl => exact h.function
  | celi => exact h.returnValue
  | qor => exact .bind .move fun _ => .bind h.sum fun _ => .pure _
  | gelin => exact h.call
  | kuceli => exact h.loop
  | intay => exact h.whileLoop
  | jooji | soco => exact .bind (.expect _) fun _ => .pure _
  | iskuDay => exact h.tryCatch
  | kaKeen => exact importFile
  | fasalka => exact h.classDefinition
  | leftBrace => exact .bind h.braced fun _ => .pure _
  | identifier => exact h.named
  | _ => exact .failUnexpected

end NestedLocated

theorem nestedLocated (d : Nat) : NestedLocated (.upTo d) := by
  induction d with
  | zero => exact ⟨.tooDeep, .tooDeep, .tooDeep⟩
  | succ d ih => exact ⟨ih.statementParser, ih.expressionParser, ih.factorParser⟩

theorem located_program (d : Nat) : Located (program (.upTo d)) :=
  .bind ((nestedLocated d).statementParser.many _) fun _ => .pure _

theorem stepwise_program (d : Nat) : Stepwise (program (.upTo d)) := (located_program d).stepwise

end Luuqad.Parser

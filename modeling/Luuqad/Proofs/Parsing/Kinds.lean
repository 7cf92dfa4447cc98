import Luuqad.Proofs.Parsing.Shapes

/-!
# The kinds of expressions

Statements and expressions are nodes of one type, and a run may have to tell them apart by their
kinds. What the parser reads as an expression has one of the kinds of expressions, at every level of
the grammar (`Parser.nestedExpressive`). A statement may have such a kind as well.
-/

namespace Luuqad

/-- Whether a node of this kind can be evaluated. -/
def NodeKind.isExpression : NodeKind → Bool
  | .literal | .identifier | .binary | .unary | .list | .object | .property | .methodCall | .index
  | .call => true
  | _ => false

namespace Parser

/-- The parser yields expressions. -/
abbrev Expressive (p : Parser Node) : Prop := Yields p fun n => n.kind.isExpression = true

/-- The parsers of nested expressions yield expressions. -/
structure NestedExpressive (inner : Nested) : Prop where
  expression : Expressive inner.expression
  factor : Expressive inner.factor

namespace NestedExpressive

variable {inner : Nested}

theorem callOf (v : Value) : Expressive (Parser.callOf v inner) :=
  .after fun _ => .after fun _ => .after fun _ => .pure rfl

theorem listLiteral : Expressive (Parser.listLiteral inner) :=
  .after fun _ => .after fun _ => .after fun _ => .after fun _ => .pure rfl

theorem objectLiteral : Expressive (Parser.objectLiteral inner) :=
  .after fun _ => .after fun _ => .after fun _ => .after fun _ => .pure rfl

theorem primary (h : NestedExpressive inner) : Expressive (Parser.primary inner) := by
  refine .after fun t => ?_
  have hliteral (v : Value) : Expressive (advance >>= fun _ => pure (Parser.literal v)) :=
    .after fun _ => .pure rfl
  have hword (v : Value) : Expressive (advance >>= fun _ => kind >>= fun k => if k = .leftParen
      then Parser.callOf v inner else pure { kind := .identifier, value := v }) :=
    .after fun _ => .after fun _ => .ite (callOf v) (.pure rfl)
  generalize t.kind = k
  cases k with
  | number | string | true | false | null => exact hliteral _
  | leftParen =>
    exact .after fun _ => .bind h.expression fun e he => .after fun _ => .pure he
  | leftBracket => exact listLiteral
  | leftBrace => exact objectLiteral
  | identifier | qor | gelin | abn | jajab | qoraal | bool | teed | walax => exact hword _
  | _ => exact .failUnexpected

theorem access (notName : Parser Unit) (target : Node) :
    Expressive (Parser.access notName inner target) := by
  have hmember (v : Value) :
      Expressive (advance >>= fun _ => kind >>= fun k => if k = .leftParen then
      advance >>= fun _ => inner.expression.arguments >>= fun args =>
        (pure { kind := .methodCall, value := v, children := target :: args } : Parser Node)
      else pure { kind := .property, value := v, children := [target] }) :=
    .after fun _ => .after fun _ => .ite (.after fun _ => .after fun _ => .pure rfl) (.pure rfl)
  refine .after fun _ => .ite (.after fun _ => .after fun t => ?_) ?_
  · exact .ite (.after fun _ => hmember t.value) (hmember t.value)
  · exact .after fun _ => .after fun _ => .after fun _ => .pure rfl

theorem accesses (notName : Parser Unit) {target : Node} (htarget : target.kind.isExpression = true)
    (fuel : Nat) : Expressive (Parser.accesses notName inner target fuel) := by
  induction fuel generalizing target with
  | zero => exact .throw _
  | succ fuel ih =>
    exact .after fun _ => .ite (.bind (access notName target) fun _ hm => ih hm) (.pure htarget)

theorem negated (e : Node) : (Parser.negated e).kind.isExpression = true := by
  unfold Parser.negated
  dsimp only
  split
  · split <;> rfl
  · rfl

theorem factorParser (h : NestedExpressive inner) : Expressive (Parser.factor inner) := by
  refine .after fun k => ?_
  split
  · exact .after fun _ => h.factor
  · exact .after fun _ => .after fun e => .pure (negated e)
  · exact .after fun _ => .after fun _ => .pure rfl
  · exact .bind h.primary fun _ he => .after fun _ => accesses _ he _

theorem level {isOperator : TokenKind → Bool} {operand : Parser Node} (hp : Expressive operand) :
    Expressive (Parser.level isOperator operand) := by
  have hoperations (fuel : Nat) {left : Node} (hleft : left.kind.isExpression = true) :
      Expressive (Parser.operations isOperator operand left fuel) := by
    induction fuel generalizing left with
    | zero => exact .throw _
    | succ fuel ih =>
      exact .after fun _ => .ite (.after fun _ => .after fun _ => ih rfl) (.pure hleft)
  exact .bind hp fun _ hleft => .after fun _ => hoperations _ hleft

theorem sum (h : NestedExpressive inner) : Expressive (Parser.sum inner) :=
  level (level h.factorParser)

theorem comparisons {left : Node} (hleft : left.kind.isExpression = true) (fuel : Nat) :
    Expressive (Parser.comparisons inner left fuel) := by
  induction fuel generalizing left with
  | zero => exact .throw _
  | succ fuel ih =>
    have hright (v : Value) : Expressive
        (Parser.sum inner >>=
        fun right => Parser.comparisons inner (Parser.binary v left right) fuel) :=
      .after fun _ => ih rfl
    refine .after fun t => .ite (.after fun _ => .after fun k => ?_) (.pure hleft)
    exact .ite (.after fun _ => hright _) (hright _)

theorem expressionParser (h : NestedExpressive inner) : Expressive (Parser.expression inner) :=
  level (.bind h.sum fun _ hleft => .after fun _ => comparisons hleft _)

end NestedExpressive

theorem nestedExpressive (d : Nat) : NestedExpressive (.upTo d) := by
  induction d with
  | zero => exact ⟨.throw _, .throw _⟩
  | succ d ih => exact ⟨ih.expressionParser, ih.factorParser⟩

end Parser

end Luuqad

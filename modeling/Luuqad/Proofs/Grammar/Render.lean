import Luuqad.Proofs.Grammar.Written

/-!
# Writing a program down

Every structured program can be written: `Program.render` writes one, with parentheses around each
expression that is not a primary one, and `Program.writtenAs_render` shows that what it writes is
covered by `Written`.
-/

namespace Luuqad

/-- A token made by hand. -/
def Mark.plain (k : TokenKind) : Mark k := ⟨⟨k, .null, none, none⟩, rfl⟩

/-- A token made by hand that starts at a spot. -/
def Mark.on (k : TokenKind) (spot : Spot) : Mark k := ⟨⟨k, .null, spot.line, spot.column⟩, rfl⟩

def Name.render (n : Name) : Token := { kind := .identifier, value := .str n.text }

/-- A name as a token that starts at a spot. -/
def Name.renderOn (n : Name) (spot : Spot) : Token :=
  ⟨.identifier, .str n.text, spot.line, spot.column⟩

def Word.render : Word → Token
  | name n => n.render
  | keyword k _ => (Mark.plain k).val

def Key.render : Key → Token
  | name n => n.render
  | text s => { kind := .string, value := .str s }

def Operator.render : Operator → List Token
  | equal => [(Mark.plain .equal).val, (Mark.plain .equal).val]
  | op => [{ kind := op.tokenKind, value := .str op.symbol }]

def renderParams : List Name → List Token
  | [] => []
  | [n] => [n.render]
  | n :: m :: rest => n.render :: (Mark.plain .comma).val :: renderParams (m :: rest)

def renderParent : Option Name → List Token
  | none => []
  | some n => [(Mark.plain .kaDhaxal).val, n.render]

def betweenParens (ts : List Token) : List Token :=
  (Mark.plain .leftParen).val :: (ts ++ [(Mark.plain .rightParen).val])

def betweenBraces (ts : List Token) : List Token :=
  (Mark.plain .leftBrace).val :: (ts ++ [(Mark.plain .rightBrace).val])

/-! ## Expressions -/

namespace Expression

mutual

/-- An expression as a primary one. -/
def render : Expression → List Token
  | number n => [{ kind := .number, value := n.literal }]
  | text s => [{ kind := .string, value := .str s }]
  | bool true => [(Mark.plain .true).val]
  | bool false => [(Mark.plain .false).val]
  | null => [(Mark.plain .null).val]
  | name w => [w.render]
  | call w arguments => w.render :: betweenParens (renderRow arguments)
  | list items =>
    (Mark.plain .leftBracket).val :: (renderRow items ++ [(Mark.plain .rightBracket).val])
  | object entries => betweenBraces (renderEntries entries)
  | property target n => betweenParens (render target ++ [(Mark.plain .dot).val, n.render])
  | method target n arguments =>
    betweenParens (render target ++
      (Mark.plain .dot).val :: n.render :: betweenParens (renderRow arguments))
  | index target place =>
    betweenParens (render target ++
      (Mark.plain .leftBracket).val :: (render place ++ [(Mark.plain .rightBracket).val]))
  | negative e => betweenParens ((Mark.plain .minus).val :: render e)
  | not e => betweenParens ((Mark.plain .not).val :: render e)
  | binary op left right => betweenParens (render left ++ (op.render ++ render right))

def renderRow : List Expression → List Token
  | [] => []
  | e :: rest => render e ++ renderFurther rest

/-- Expressions with a comma before each. -/
def renderFurther : List Expression → List Token
  | [] => []
  | e :: rest => (Mark.plain .comma).val :: (render e ++ renderFurther rest)

def renderEntries : List (Key × Expression) → List Token
  | [] => []
  | (key, e) :: rest =>
    key.render :: (Mark.plain .colon).val :: (render e ++ renderFurtherEntries rest)

/-- Entries with a comma before each. -/
def renderFurtherEntries : List (Key × Expression) → List Token
  | [] => []
  | (key, e) :: rest =>
    (Mark.plain .comma).val :: key.render :: (Mark.plain .colon).val ::
      (render e ++ renderFurtherEntries rest)

end

end Expression

def renderAccesses : List Access → List Token
  | [] => []
  | .property n :: rest => (Mark.plain .dot).val :: n.render :: renderAccesses rest
  | .method n arguments :: rest =>
    (Mark.plain .dot).val :: n.render :: (Mark.plain .leftParen).val ::
      (Expression.renderRow arguments ++ (Mark.plain .rightParen).val :: renderAccesses rest)
  | .index place :: rest =>
    (Mark.plain .leftBracket).val ::
      (place.render ++ (Mark.plain .rightBracket).val :: renderAccesses rest)

/-! ## Statements -/

/-- The word that opens a declaration. -/
def renderOpening (spot : Spot) : Bool → Option TypeWord → Token × List Token
  | false, none => ((Mark.on .door spot).val, [])
  | false, some w => ((Mark.on w.kind spot).val, [])
  | true, none => ((Mark.on .madoor spot).val, [])
  | true, some w => ((Mark.on .madoor spot).val, [(Mark.plain w.kind).val])

def renderStep : Option Expression → List Token
  | none => []
  | some e => (Mark.plain .colon).val :: (Mark.plain .colon).val :: e.render

namespace Statement

mutual

def render : Statement → List Token
  | declaration spot constant type n value =>
    (renderOpening spot constant type).1 :: ((renderOpening spot constant type).2 ++
      n.render :: (Mark.plain .equal).val :: value.render)
  | function n params body =>
    (Mark.plain .hawl).val :: n.render :: (Mark.plain .leftParen).val ::
      (renderParams params ++ (Mark.plain .rightParen).val :: betweenBraces (renderAll body))
  | returned value => (Mark.plain .celi).val :: value.render
  | print spot value => (Mark.on .qor spot).val :: betweenParens value.render
  | input arguments => (Mark.plain .gelin).val :: betweenParens (Expression.renderRow arguments)
  | call f arguments => f.render :: betweenParens (Expression.renderRow arguments)
  | access target => target.start.render :: renderAccesses target.accesses
  | assignment spot target value =>
    target.start.renderOn spot ::
      (renderAccesses target.accesses ++ (Mark.plain .equal).val :: value.render)
  | conditional c body others last =>
    (Mark.plain .haddii).val :: (Mark.plain .leftParen).val ::
      (c.render ++ (Mark.plain .rightParen).val ::
        (betweenBraces (renderAll body) ++ (renderBranches others ++ renderLast last)))
  | switch value clauses =>
    (Mark.plain .dooro).val :: (Mark.plain .leftParen).val ::
      (value.render ++ (Mark.plain .rightParen).val :: (Mark.plain .leftBrace).val ::
        (renderClauses clauses ++ [(Mark.plain .rightBrace).val]))
  | loop counter first last step body =>
    (Mark.plain .kuceli).val :: (Mark.plain .leftParen).val :: counter.render ::
      (first.render ++ (Mark.plain .identifier).val :: (last.render ++
        (renderStep step ++ (Mark.plain .rightParen).val :: betweenBraces (renderAll body))))
  | whileLoop c body =>
    (Mark.plain .intay).val :: (Mark.plain .leftParen).val ::
      (c.render ++ (Mark.plain .rightParen).val :: betweenBraces (renderAll body))
  | breakLoop => [(Mark.plain .jooji).val]
  | continueLoop => [(Mark.plain .soco).val]
  | tryCatch body e handler =>
    (Mark.plain .iskuDay).val :: (betweenBraces (renderAll body) ++ (Mark.plain .qabo).val ::
      (Mark.plain .leftParen).val :: e.render :: (Mark.plain .rightParen).val ::
        betweenBraces (renderAll handler))
  | importFile path => [(Mark.plain .kaKeen).val, { kind := .string, value := .str path }]
  | classDefinition n parent body =>
    (Mark.plain .fasalka).val :: n.render :: (renderParent parent ++ betweenBraces (renderAll body))
  | block body => betweenBraces (renderAll body)

def renderAll : List Statement → List Token
  | [] => []
  | s :: rest => render s ++ renderAll rest

def renderBranches : List Branch → List Token
  | [] => []
  | .mk c body :: rest =>
    (Mark.plain .haddiiKale).val :: (Mark.plain .leftParen).val ::
      (c.render ++ (Mark.plain .rightParen).val ::
        (betweenBraces (renderAll body) ++ renderBranches rest))

def renderLast : Option (List Statement) → List Token
  | none => []
  | some body => (Mark.plain .ugudambeyn).val :: betweenBraces (renderAll body)

def renderClauses : List Clause → List Token
  | [] => []
  | .value v body :: rest =>
    (Mark.plain .xaalad).val :: (v.render ++ (betweenBraces (renderAll body) ++ renderClauses rest))
  | .last body :: rest =>
    (Mark.plain .ugudambeyn).val :: (betweenBraces (renderAll body) ++ renderClauses rest)

end

end Statement

def Program.render (p : Program) : List Token :=
  Statement.renderAll p ++ [(Mark.plain .eof).val]

/-! ## What is rendered is written -/

variable {e : Expression} {ts : List Token}

/-- A primary expression stands at every level. -/
theorem Written.at_level (h : Written (.expression .primary e) ts) (l : Level) :
    Written (.expression l e) ts := by
  have haccess : Written (.expression .access e) ts := .tighter h
  have hfactor : Written (.expression .factor e) ts := .tighter haccess
  have hterm : Written (.expression .term e) ts := .tighter hfactor
  have hsum : Written (.expression .sum e) ts := .tighter hterm
  have hcomparison : Written (.expression .comparison e) ts := .tighter hsum
  cases l with
  | logical => exact .tighter hcomparison
  | comparison => exact hcomparison
  | sum => exact hsum
  | term => exact hterm
  | factor => exact hfactor
  | access => exact haccess
  | primary => exact h

theorem Written.inParens {l : Level} (h : Written (.expression l e) ts) :
    Written (.expression .primary e) (betweenParens ts) := by
  refine .parens _ _ ?_
  cases l with
  | logical => exact h
  | comparison => exact .tighter h
  | sum => exact .tighter (.tighter h)
  | term => exact .tighter (.tighter (.tighter h))
  | factor => exact .tighter (.tighter (.tighter (.tighter h)))
  | access => exact .tighter (.tighter (.tighter (.tighter (.tighter h))))
  | primary => exact h.at_level _

theorem Word.writtenAs_render (w : Word) : w.WrittenAs w.render := by
  cases w with
  | name n => exact ⟨rfl, rfl⟩
  | keyword k _ => rfl

theorem Key.writtenAs_render (k : Key) : k.WrittenAs k.render := by
  cases k with
  | name n => exact ⟨rfl, rfl⟩
  | text s => exact ⟨rfl, rfl⟩

theorem Name.writtenAs_render (n : Name) : n.WrittenAs n.render := ⟨rfl, rfl⟩

theorem Operator.writtenAs_render (op : Operator) : op.WrittenAs op.render := by
  cases op with
  | equal => exact .equal _ _
  | _ => exact .single (by simp) ⟨rfl, rfl⟩

namespace Expression

mutual

theorem written_render : (e : Expression) → Written (.expression .primary e) e.render
  | number _ => .number ⟨rfl, rfl⟩
  | text _ => .text ⟨rfl, rfl⟩
  | bool true => .true _
  | bool false => .false _
  | null => .null _
  | name w => .name w.writtenAs_render
  | call w arguments => .call _ _ w.writtenAs_render (written_renderRow arguments)
  | list items => .list _ _ (written_renderRow items)
  | object entries => .object _ _ (written_renderEntries entries)
  | property target n =>
    .inParens (.property _ ((written_render target).at_level _) n.writtenAs_render)
  | method target n arguments =>
    .inParens (.method _ _ _ ((written_render target).at_level _) n.writtenAs_render
      (written_renderRow arguments))
  | index target place =>
    .inParens (.index _ _ ((written_render target).at_level _)
      ((written_render place).at_level _))
  | negative e => .inParens (.negative _ ((written_render e).at_level _))
  | not e => .inParens (.not _ ((written_render e).at_level _))
  | binary op left right =>
    .inParens (.binary ((written_render left).at_level _) op.writtenAs_render
      ((written_render right).at_level _))

theorem written_renderRow : (es : List Expression) → Written (.row es) (renderRow es)
  | [] => .emptyRow
  | e :: rest => .row ((written_render e).at_level _) (written_renderFurther rest)

theorem written_renderFurther : (es : List Expression) → Written (.further es) (renderFurther es)
  | [] => .noFurther
  | e :: rest => .further _ ((written_render e).at_level _) (written_renderFurther rest)

theorem written_renderEntries :
    (es : List (Key × Expression)) → Written (.entries es) (renderEntries es)
  | [] => .noEntries
  | (key, e) :: rest =>
    .entries _ key.writtenAs_render ((written_render e).at_level _)
      (written_renderFurtherEntries rest)

theorem written_renderFurtherEntries :
    (es : List (Key × Expression)) → Written (.furtherEntries es) (renderFurtherEntries es)
  | [] => .noFurtherEntries
  | (key, e) :: rest =>
    .furtherEntries _ (List.cons_ne_nil _ _) (.entries _ key.writtenAs_render
      ((written_render e).at_level _) (written_renderFurtherEntries rest))

end

end Expression

theorem written_renderAccesses (accesses : List Access) :
    Written (.accesses accesses) (renderAccesses accesses) := by
  induction accesses with
  | nil => exact .noAccess
  | cons a rest ih =>
    cases a with
    | property n => exact .propertyAccess _ n.writtenAs_render ih
    | method n arguments =>
      exact .methodAccess _ _ _ n.writtenAs_render (Expression.written_renderRow arguments) ih
    | index place => exact .indexAccess _ _ ((Expression.written_render place).at_level _) ih

theorem writtenAs_renderParams (params : List Name) :
    ParamsWritten params (renderParams params) := by
  fun_induction renderParams params with
  | case1 => exact .none
  | case2 n => exact .one n.writtenAs_render
  | case3 n m rest ih => exact .cons _ n.writtenAs_render ih

theorem writtenAs_renderParent (parent : Option Name) :
    ParentWritten parent (renderParent parent) := by
  cases parent with
  | none => exact .none
  | some n => exact .some _ n.writtenAs_render

theorem writtenAs_renderOpening (spot : Spot) (constant : Bool) (type : Option TypeWord) :
    DeclarationOpening constant type (renderOpening spot constant type).1
        (renderOpening spot constant type).2 ∧
      (renderOpening spot constant type).1.Starts spot := by
  cases constant <;> cases type
  · exact ⟨.untyped _, rfl, rfl⟩
  · exact ⟨.typed _, rfl, rfl⟩
  · exact ⟨.constant _, rfl, rfl⟩
  · exact ⟨.typedConstant _ _, rfl, rfl⟩

theorem written_renderStep (step : Option Expression) : Written (.step step) (renderStep step) := by
  cases step with
  | none => exact .noStep
  | some e => exact .step _ _ (e.written_render.at_level _)

namespace Statement

mutual

theorem written_render : (s : Statement) → Written (.statement s) s.render
  | declaration spot constant type n value =>
    have h := writtenAs_renderOpening spot constant type
    .declaration _ h.1 h.2 n.writtenAs_render (value.written_render.at_level _)
  | function n params body =>
    .function _ _ _ n.writtenAs_render (writtenAs_renderParams params)
      (.braced _ _ (written_renderAll body))
  | returned value => .returned _ (value.written_render.at_level _)
  | print _ value => .print _ _ _ ⟨rfl, rfl⟩ (value.written_render.at_level _)
  | input arguments => .input _ _ _ (Expression.written_renderRow arguments)
  | call f arguments =>
    .callStatement _ _ f.writtenAs_render (Expression.written_renderRow arguments)
  | access target =>
    .access target.start.writtenAs_render (written_renderAccesses target.accesses)
  | assignment _ target value =>
    .assignment _ ⟨rfl, rfl⟩ ⟨rfl, rfl⟩ (written_renderAccesses target.accesses)
      (value.written_render.at_level _)
  | conditional c body others last =>
    .conditional _ _ _ (c.written_render.at_level _) (.braced _ _ (written_renderAll body))
      (written_renderBranches others) (written_renderLast last)
  | switch value clauses =>
    .switch _ _ _ _ _ (value.written_render.at_level _) (written_renderClauses clauses)
  | loop counter first last step body =>
    .loop _ _ _ _ counter.writtenAs_render (first.written_render.at_level _)
      (last.written_render.at_level _) (written_renderStep step)
      (.braced _ _ (written_renderAll body))
  | whileLoop c body =>
    .whileLoop _ _ _ (c.written_render.at_level _) (.braced _ _ (written_renderAll body))
  | breakLoop => .breakLoop _
  | continueLoop => .continueLoop _
  | tryCatch body e handler =>
    .tryCatch _ _ _ _ (.braced _ _ (written_renderAll body)) e.writtenAs_render
      (.braced _ _ (written_renderAll handler))
  | importFile _ => .importFile _ ⟨rfl, rfl⟩
  | classDefinition n parent body =>
    .classDefinition _ n.writtenAs_render (writtenAs_renderParent parent)
      (.braced _ _ (written_renderAll body))
  | block body => .block (.braced _ _ (written_renderAll body))

theorem written_renderAll : (ss : List Statement) → Written (.statements ss) (renderAll ss)
  | [] => .noStatements
  | s :: rest => .statements (written_render s) (written_renderAll rest)

theorem written_renderBranches :
    (bs : List Branch) → Written (.branches bs) (renderBranches bs)
  | [] => .noBranches
  | .mk c body :: rest =>
    .branches _ _ _ (c.written_render.at_level _) (.braced _ _ (written_renderAll body))
      (written_renderBranches rest)

theorem written_renderLast :
    (last : Option (List Statement)) → Written (.last last) (renderLast last)
  | none => .noLast
  | some body => .last _ (.braced _ _ (written_renderAll body))

theorem written_renderClauses : (cs : List Clause) → Written (.clauses cs) (renderClauses cs)
  | [] => .noClauses
  | .value v body :: rest =>
    .valueClause _ (v.written_render.at_level _) (.braced _ _ (written_renderAll body))
      (written_renderClauses rest)
  | .last body :: rest =>
    .lastClause _ (.braced _ _ (written_renderAll body)) (written_renderClauses rest)

end

end Statement

theorem Program.writtenAs_render (p : Program) : p.WrittenAs p.render :=
  ⟨_, _, Statement.written_renderAll p, rfl⟩

end Luuqad

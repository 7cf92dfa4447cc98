import Luuqad.Proofs.Grammar.Phrase

/-!
# How structured programs are written

`Written p ts` says that the tokens `ts` write the phrase `p` of the grammar. An expression is
written at a level: a level holds what binds at least as tightly as its operators. Operators of one
level associate to the left, so the left operand is written at the operator's own level and the
right one a level tighter. Parentheses make a primary expression of any expression, and they may
stand around any expression, needed or not; a plus sign may stand before any factor. The bounds and
the step of a counting loop are sums. Statements follow each other without anything between them.

Tokens may stand anywhere in a text. Only the start of a declaration, of an assignment and of a
print statement shows in the tree.

`Program.render` in `Luuqad.Proofs.Grammar.Render` writes any program.
-/

namespace Luuqad

/-! ## Single tokens -/

/-- A token of a given kind, whatever its value and place. -/
abbrev Mark (k : TokenKind) := { t : Token // t.kind = k }

def Token.Says (t : Token) (k : TokenKind) (v : Value) : Prop := t.kind = k ∧ t.value = v

def Token.Starts (t : Token) (spot : Spot) : Prop := t.line = spot.line ∧ t.column = spot.column

def Name.WrittenAs (n : Name) (t : Token) : Prop := t.Says .identifier (.str n.text)

def Word.WrittenAs : Word → Token → Prop
  | name n, t => n.WrittenAs t
  | keyword k _, t => t.kind = k

def Key.WrittenAs : Key → Token → Prop
  | name n, t => n.WrittenAs t
  | text s, t => t.Says .string (.str s)

/-- The tokens are an operator. Equality is written as two equals signs. -/
inductive Operator.WrittenAs : Operator → List Token → Prop
  | equal (first second : Mark .equal) : WrittenAs .equal [first.val, second.val]
  | single {op : Operator} {t : Token} (notEquality : op ≠ .equal)
      (h : t.Says op.tokenKind (.str op.symbol)) : WrittenAs op [t]

/-- The tokens that open a declaration: the word for a constant or a variable, or a type. -/
inductive DeclarationOpening : Bool → Option TypeWord → Token → List Token → Prop
  | untyped (t : Mark .door) : DeclarationOpening false none t []
  | typed {w : TypeWord} (t : Mark w.kind) : DeclarationOpening false (some w) t []
  | constant (t : Mark .madoor) : DeclarationOpening true none t []
  | typedConstant {w : TypeWord} (t : Mark .madoor) (u : Mark w.kind) :
      DeclarationOpening true (some w) t [u.val]

/-- The tokens are names with a comma after each but the last. -/
inductive ParamsWritten : List Name → List Token → Prop
  | none : ParamsWritten [] []
  | one {n : Name} {t : Token} : n.WrittenAs t → ParamsWritten [n] [t]
  | cons {n m : Name} {ns : List Name} {t : Token} {ts : List Token} (c : Mark .comma) :
      n.WrittenAs t → ParamsWritten (m :: ns) ts → ParamsWritten (n :: m :: ns) (t :: c.val :: ts)

/-- The tokens name the parent of a class, if there is one. -/
inductive ParentWritten : Option Name → List Token → Prop
  | none : ParentWritten none []
  | some {n : Name} {t : Token} (k : Mark .kaDhaxal) :
      n.WrittenAs t → ParentWritten (some n) [k.val, t]

/-! ## Levels -/

/-- How tightly an expression binds, from the loosest level to the tightest. -/
inductive Level
  | logical | comparison | sum | term | factor | access | primary
deriving DecidableEq, Repr

/-- The next tighter level. -/
def Level.next : Level → Level
  | logical => comparison
  | comparison => sum
  | sum => term
  | term => factor
  | factor => access
  | access | primary => primary

def Operator.level : Operator → Level
  | and | or => .logical
  | equal | notEqual | order _ => .comparison
  | add | subtract => .sum
  | multiply | divide | remainder => .term

/-! ## Phrases -/

/-- The phrases of the grammar. -/
inductive Phrase
  | expression (level : Level) (e : Expression)
  /-- Expressions with commas between them. -/
  | row (es : List Expression)
  /-- Expressions with a comma before each. -/
  | further (es : List Expression)
  | entries (es : List (Key × Expression))
  | furtherEntries (es : List (Key × Expression))
  | accesses (accesses : List Access)
  | step (step : Option Expression)
  | statement (s : Statement)
  | statements (ss : List Statement)
  | braced (body : List Statement)
  | branches (bs : List Branch)
  | last (body : Option (List Statement))
  | clauses (cs : List Clause)

/-- The tokens write the phrase. -/
inductive Written : Phrase → List Token → Prop
  -- primary expressions
  | number {n : Num} {t : Token} : t.Says .number n.literal →
      Written (.expression .primary (.number n)) [t]
  | text {s : String} {t : Token} : t.Says .string (.str s) →
      Written (.expression .primary (.text s)) [t]
  | true (t : Mark .true) : Written (.expression .primary (.bool true)) [t.val]
  | false (t : Mark .false) : Written (.expression .primary (.bool false)) [t.val]
  | null (t : Mark .null) : Written (.expression .primary .null) [t.val]
  | name {w : Word} {t : Token} : w.WrittenAs t → Written (.expression .primary (.name w)) [t]
  | call {w : Word} {t : Token} {es : List Expression} {ts : List Token} (o : Mark .leftParen)
      (c : Mark .rightParen) : w.WrittenAs t → Written (.row es) ts →
      Written (.expression .primary (.call w es)) (t :: o.val :: (ts ++ [c.val]))
  | list {es : List Expression} {ts : List Token} (o : Mark .leftBracket)
      (c : Mark .rightBracket) : Written (.row es) ts →
      Written (.expression .primary (.list es)) (o.val :: (ts ++ [c.val]))
  | object {es : List (Key × Expression)} {ts : List Token} (o : Mark .leftBrace)
      (c : Mark .rightBrace) : Written (.entries es) ts →
      Written (.expression .primary (.object es)) (o.val :: (ts ++ [c.val]))
  | parens {e : Expression} {ts : List Token} (o : Mark .leftParen) (c : Mark .rightParen) :
      Written (.expression .logical e) ts →
      Written (.expression .primary e) (o.val :: (ts ++ [c.val]))
  -- accesses
  | property {e : Expression} {n : Name} {ts : List Token} {t : Token} (p : Mark .dot) :
      Written (.expression .access e) ts → n.WrittenAs t →
      Written (.expression .access (.property e n)) (ts ++ [p.val, t])
  | method {e : Expression} {n : Name} {es : List Expression} {ts us : List Token} {t : Token}
      (p : Mark .dot) (o : Mark .leftParen) (c : Mark .rightParen) :
      Written (.expression .access e) ts → n.WrittenAs t → Written (.row es) us →
      Written (.expression .access (.method e n es))
        (ts ++ p.val :: t :: o.val :: (us ++ [c.val]))
  | index {e place : Expression} {ts us : List Token} (o : Mark .leftBracket)
      (c : Mark .rightBracket) : Written (.expression .access e) ts →
      Written (.expression .logical place) us →
      Written (.expression .access (.index e place)) (ts ++ o.val :: (us ++ [c.val]))
  -- unary operators
  | plus {e : Expression} {ts : List Token} (t : Mark .plus) :
      Written (.expression .factor e) ts → Written (.expression .factor e) (t.val :: ts)
  | negative {e : Expression} {ts : List Token} (t : Mark .minus) :
      Written (.expression .factor e) ts →
      Written (.expression .factor (.negative e)) (t.val :: ts)
  | not {e : Expression} {ts : List Token} (t : Mark .not) :
      Written (.expression .factor e) ts → Written (.expression .factor (.not e)) (t.val :: ts)
  -- binary operators
  | binary {op : Operator} {left right : Expression} {ts os us : List Token} :
      Written (.expression op.level left) ts → op.WrittenAs os →
      Written (.expression op.level.next right) us →
      Written (.expression op.level (.binary op left right)) (ts ++ (os ++ us))
  | tighter {l : Level} {e : Expression} {ts : List Token} :
      Written (.expression l.next e) ts → Written (.expression l e) ts
  -- rows
  | emptyRow : Written (.row []) []
  | row {e : Expression} {es : List Expression} {ts us : List Token} :
      Written (.expression .logical e) ts → Written (.further es) us →
      Written (.row (e :: es)) (ts ++ us)
  | noFurther : Written (.further []) []
  | further {e : Expression} {es : List Expression} {ts us : List Token} (m : Mark .comma) :
      Written (.expression .logical e) ts → Written (.further es) us →
      Written (.further (e :: es)) (m.val :: (ts ++ us))
  | noEntries : Written (.entries []) []
  | entries {k : Key} {e : Expression} {es : List (Key × Expression)} {ts us : List Token}
      {t : Token} (m : Mark .colon) : k.WrittenAs t → Written (.expression .logical e) ts →
      Written (.furtherEntries es) us → Written (.entries ((k, e) :: es))
        (t :: m.val :: (ts ++ us))
  | noFurtherEntries : Written (.furtherEntries []) []
  | furtherEntries {es : List (Key × Expression)} {ts : List Token} (m : Mark .comma) :
      es ≠ [] → Written (.entries es) ts → Written (.furtherEntries es) (m.val :: ts)
  | noAccess : Written (.accesses []) []
  | propertyAccess {n : Name} {rest : List Access} {t : Token} {ts : List Token}
      (p : Mark .dot) : n.WrittenAs t → Written (.accesses rest) ts →
      Written (.accesses (.property n :: rest)) (p.val :: t :: ts)
  | methodAccess {n : Name} {es : List Expression} {rest : List Access} {t : Token}
      {ts us : List Token} (p : Mark .dot) (o : Mark .leftParen) (c : Mark .rightParen) :
      n.WrittenAs t → Written (.row es) ts → Written (.accesses rest) us →
      Written (.accesses (.method n es :: rest))
        (p.val :: t :: o.val :: (ts ++ c.val :: us))
  | indexAccess {place : Expression} {rest : List Access} {ts us : List Token}
      (o : Mark .leftBracket) (c : Mark .rightBracket) : Written (.expression .logical place) ts →
      Written (.accesses rest) us →
      Written (.accesses (.index place :: rest)) (o.val :: (ts ++ c.val :: us))
  -- statements
  | declaration {spot : Spot} {constant : Bool} {type : Option TypeWord} {n : Name}
      {e : Expression} {t u : Token} {os ts : List Token} (m : Mark .equal) :
      DeclarationOpening constant type t os → t.Starts spot → n.WrittenAs u →
      Written (.expression .logical e) ts →
      Written (.statement (.declaration spot constant type n e))
        (t :: (os ++ u :: m.val :: ts))
  | function {n : Name} {params : List Name} {body : List Statement} {t : Token}
      {ts us : List Token} (k : Mark .hawl) (o : Mark .leftParen) (c : Mark .rightParen) :
      n.WrittenAs t → ParamsWritten params ts → Written (.braced body) us →
      Written (.statement (.function n params body))
        (k.val :: t :: o.val :: (ts ++ c.val :: us))
  | returned {e : Expression} {ts : List Token} (k : Mark .celi) :
      Written (.expression .logical e) ts → Written (.statement (.returned e)) (k.val :: ts)
  | print {spot : Spot} {e : Expression} {ts : List Token} (k : Mark .qor) (o : Mark .leftParen)
      (c : Mark .rightParen) : k.val.Starts spot → Written (.expression .logical e) ts →
      Written (.statement (.print spot e)) (k.val :: o.val :: (ts ++ [c.val]))
  | input {es : List Expression} {ts : List Token} (k : Mark .gelin) (o : Mark .leftParen)
      (c : Mark .rightParen) : Written (.row es) ts →
      Written (.statement (.input es)) (k.val :: o.val :: (ts ++ [c.val]))
  | callStatement {n : Name} {es : List Expression} {t : Token} {ts : List Token}
      (o : Mark .leftParen) (c : Mark .rightParen) : n.WrittenAs t → Written (.row es) ts →
      Written (.statement (.call n es)) (t :: o.val :: (ts ++ [c.val]))
  | access {target : Chain} {t : Token} {ts : List Token} : target.start.WrittenAs t →
      Written (.accesses target.accesses) ts → Written (.statement (.access target)) (t :: ts)
  | assignment {spot : Spot} {target : Chain} {e : Expression} {t : Token} {ts us : List Token}
      (m : Mark .equal) : target.start.WrittenAs t → t.Starts spot →
      Written (.accesses target.accesses) ts → Written (.expression .logical e) us →
      Written (.statement (.assignment spot target e)) (t :: (ts ++ m.val :: us))
  | conditional {e : Expression} {body : List Statement} {others : List Branch}
      {last : Option (List Statement)} {ts us vs ws : List Token} (k : Mark .haddii)
      (o : Mark .leftParen) (c : Mark .rightParen) : Written (.expression .logical e) ts →
      Written (.braced body) us → Written (.branches others) vs → Written (.last last) ws →
      Written (.statement (.conditional e body others last))
        (k.val :: o.val :: (ts ++ c.val :: (us ++ (vs ++ ws))))
  | switch {e : Expression} {cs : List Clause} {ts us : List Token} (k : Mark .dooro)
      (o : Mark .leftParen) (c : Mark .rightParen) (ob : Mark .leftBrace) (cb : Mark .rightBrace) :
      Written (.expression .logical e) ts → Written (.clauses cs) us →
      Written (.statement (.switch e cs))
        (k.val :: o.val :: (ts ++ c.val :: ob.val :: (us ++ [cb.val])))
  | loop {n : Name} {first last : Expression} {step : Option Expression} {body : List Statement}
      {t : Token} {ts us vs ws : List Token} (k : Mark .kuceli) (o : Mark .leftParen)
      (upTo : Mark .identifier) (c : Mark .rightParen) : n.WrittenAs t →
      Written (.expression .sum first) ts → Written (.expression .sum last) us →
      Written (.step step) vs → Written (.braced body) ws →
      Written (.statement (.loop n first last step body))
        (k.val :: o.val :: t :: (ts ++ upTo.val :: (us ++ (vs ++ c.val :: ws))))
  | whileLoop {e : Expression} {body : List Statement} {ts us : List Token} (k : Mark .intay)
      (o : Mark .leftParen) (c : Mark .rightParen) : Written (.expression .logical e) ts →
      Written (.braced body) us →
      Written (.statement (.whileLoop e body)) (k.val :: o.val :: (ts ++ c.val :: us))
  | breakLoop (k : Mark .jooji) : Written (.statement .breakLoop) [k.val]
  | continueLoop (k : Mark .soco) : Written (.statement .continueLoop) [k.val]
  | tryCatch {n : Name} {body handler : List Statement} {t : Token} {ts us : List Token}
      (k : Mark .iskuDay) (q : Mark .qabo) (o : Mark .leftParen) (c : Mark .rightParen) :
      Written (.braced body) ts → n.WrittenAs t → Written (.braced handler) us →
      Written (.statement (.tryCatch body n handler))
        (k.val :: (ts ++ q.val :: o.val :: t :: c.val :: us))
  | importFile {path : String} {t : Token} (k : Mark .kaKeen) : t.Says .string (.str path) →
      Written (.statement (.importFile path)) [k.val, t]
  | classDefinition {n : Name} {parent : Option Name} {body : List Statement} {t : Token}
      {ts us : List Token} (k : Mark .fasalka) : n.WrittenAs t → ParentWritten parent ts →
      Written (.braced body) us →
      Written (.statement (.classDefinition n parent body)) (k.val :: t :: (ts ++ us))
  | block {body : List Statement} {ts : List Token} : Written (.braced body) ts →
      Written (.statement (.block body)) ts
  -- parts of statements
  | noStatements : Written (.statements []) []
  | statements {s : Statement} {ss : List Statement} {ts us : List Token} :
      Written (.statement s) ts → Written (.statements ss) us →
      Written (.statements (s :: ss)) (ts ++ us)
  | braced {body : List Statement} {ts : List Token} (o : Mark .leftBrace) (c : Mark .rightBrace) :
      Written (.statements body) ts → Written (.braced body) (o.val :: (ts ++ [c.val]))
  | noStep : Written (.step none) []
  | step {e : Expression} {ts : List Token} (a b : Mark .colon) :
      Written (.expression .sum e) ts → Written (.step (some e)) (a.val :: b.val :: ts)
  | noBranches : Written (.branches []) []
  | branches {e : Expression} {body : List Statement} {bs : List Branch} {ts us vs : List Token}
      (k : Mark .haddiiKale) (o : Mark .leftParen) (c : Mark .rightParen) :
      Written (.expression .logical e) ts → Written (.braced body) us →
      Written (.branches bs) vs →
      Written (.branches (.mk e body :: bs))
        (k.val :: o.val :: (ts ++ c.val :: (us ++ vs)))
  | noLast : Written (.last none) []
  | last {body : List Statement} {ts : List Token} (k : Mark .ugudambeyn) :
      Written (.braced body) ts → Written (.last (some body)) (k.val :: ts)
  | noClauses : Written (.clauses []) []
  | valueClause {e : Expression} {body : List Statement} {cs : List Clause}
      {ts us vs : List Token} (k : Mark .xaalad) : Written (.expression .logical e) ts →
      Written (.braced body) us → Written (.clauses cs) vs →
      Written (.clauses (.value e body :: cs)) (k.val :: (ts ++ (us ++ vs)))
  | lastClause {body : List Statement} {cs : List Clause} {ts us : List Token}
      (k : Mark .ugudambeyn) : Written (.braced body) ts → Written (.clauses cs) us →
      Written (.clauses (.last body :: cs)) (k.val :: (ts ++ us))

/-- The tokens write the program: its statements, one after the other, and the end token. -/
def Program.WrittenAs (p : Program) (tokens : List Token) : Prop :=
  ∃ (ts : List Token) (e : Mark .eof), Written (.statements p) ts ∧ tokens = ts ++ [e.val]

end Luuqad

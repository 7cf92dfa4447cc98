import Luuqad.Proofs.Grammar.Facing
import Luuqad.Proofs.Tree.Shape

/-!
# The trees of the parser are well formed

`Ensures p Q` says what holds of the result and of the cursor wherever the parser `p` returns. Every
parser of the grammar puts the parts that a kind of node requires among its children, so all trees
that are returned are well formed (`parse_wellFormed`), with one exception on the way: a return
without a value ends in front of a semicolon. No statement starts there, so the row in which it
stands does not go on.
-/

namespace Luuqad.Parser

variable {α β : Type}

/-- Where the parser returns, `Q` holds of the result and of the cursor. -/
def Ensures (p : Parser α) (Q : α → Cursor → Prop) : Prop := ∀ c a c', p c = .ok a c' → Q a c'

/-- What the parser returns is as `P` says. -/
abbrev Yields (p : Parser α) (P : α → Prop) : Prop := Ensures p fun a _ => P a

namespace Ensures

variable {p q : Parser α} {f : α → Parser β} {P P' : α → Prop} {Q : α → Cursor → Prop}
  {R : β → Cursor → Prop}

/-! ## Rules -/

theorem pure {a : α} (h : P a) : Yields (Pure.pure a) P := by
  intro c b c' hrun
  cases hrun
  exact h

theorem bind (hp : Yields p P) (hf : ∀ a, P a → Ensures (f a) R) : Ensures (p >>= f) R := by
  intro c b c' hrun
  obtain ⟨a, c₁, hfirst, hsecond⟩ := bind_eq_ok hrun
  exact hf a (hp c a c₁ hfirst) c₁ b c' hsecond

theorem after (hf : ∀ a, Ensures (f a) R) : Ensures (p >>= f) R :=
  bind (P := fun _ => True) (fun _ _ _ _ => trivial) fun a _ => hf a

theorem ite {b : Prop} [Decidable b] (hp : Ensures p Q) (hq : Ensures q Q) :
    Ensures (if b then p else q) Q := by
  split
  · exact hp
  · exact hq

theorem mono (hp : Yields p P) (h : ∀ a, P a → P' a) : Yields p P' :=
  fun c a c' hrun => h a (hp c a c' hrun)

theorem throw (e : ParseStop) : Ensures (MonadExcept.throw e : Parser α) Q := by
  intro c a c' hrun
  cases hrun

theorem fail (cause : Cause) : Ensures (Parser.fail cause) Q := .after fun _ => .throw _

theorem failExpecting (expected : String) : Ensures (Parser.failExpecting expected) Q :=
  .after fun _ => .fail _

theorem failUnexpected : Ensures Parser.failUnexpected Q := .after fun _ => .fail _

/-! ## Rows -/

variable {item : Parser α} {stop close : TokenKind}

theorem cons_mem {a : α} {more : List α} (ha : P a) (hmore : ∀ b ∈ more, P b) :
    ∀ b ∈ a :: more, P b := by
  simpa using ⟨ha, hmore⟩

theorem itemsUntil (h : Yields item P) (fuel : Nat) :
    Yields (Parser.itemsUntil stop item fuel) fun items => ∀ a ∈ items, P a := by
  induction fuel with
  | zero => exact .throw _
  | succ fuel ih =>
    refine .after fun _ => .ite (.pure (by simp)) (.bind h fun a ha => ?_)
    exact .bind ih fun more hmore => .pure (cons_mem ha hmore)

theorem many (h : Yields item P) : Yields (Parser.many stop item) fun items => ∀ a ∈ items, P a :=
  .after fun _ => h.itemsUntil _

theorem itemsAfterCommas (h : Yields item P) (fuel : Nat) :
    Yields (Parser.itemsAfterCommas item fuel) fun items => ∀ a ∈ items, P a := by
  induction fuel with
  | zero => exact .throw _
  | succ fuel ih =>
    refine .after fun _ => .ite (.after fun _ => .bind h fun a ha => ?_) (.pure (by simp))
    exact .bind ih fun more hmore => .pure (cons_mem ha hmore)

theorem arguments (h : Yields item P) :
    Yields (Parser.arguments item) fun items => ∀ a ∈ items, P a := by
  have hclose {items : List α} (hitems : ∀ a ∈ items, P a) :
      Yields (Parser.expect .rightParen >>= fun _ => Pure.pure items)
        fun items => ∀ a ∈ items, P a :=
    .after fun _ => .pure hitems
  refine .after fun _ => .ite (.bind (.pure rfl) fun items hitems => ?_) (.bind h fun a ha => ?_)
  · subst hitems
    exact hclose (by simp)
  · refine .after fun _ => .bind (h.itemsAfterCommas _) fun more hmore => ?_
    exact .bind (.pure (cons_mem ha hmore)) fun items hitems => hclose hitems

theorem separatedUntil (h : Yields item P) (fuel : Nat) :
    Yields (Parser.separatedUntil close item fuel) fun items => ∀ a ∈ items, P a := by
  induction fuel with
  | zero => exact .throw _
  | succ fuel ih =>
    refine .after fun _ => .ite (.pure (by simp)) (.bind h fun a ha => .after fun _ => .ite ?_ ?_)
    · exact .after fun _ => .bind ih fun more hmore => .pure (cons_mem ha hmore)
    · exact .pure (by simpa using ha)

/-- An item may be wrong if it ends in front of a token that neither starts an item nor ends the
row: then the row is not passed. -/
theorem itemsUntil_unless {k : TokenKind} (h : Ensures item fun a c => P a ∨ c.current.kind = k)
    (hstart : ∀ c a c', item c = .ok a c' → c.current.kind ≠ k) (hstop : stop ≠ k) (fuel : Nat) :
    Yields (Parser.itemsUntil stop item fuel) fun items => ∀ a ∈ items, P a := by
  -- what follows an item starts with the next one, or with the end
  have hnext (fuel : Nat) (c c' : Cursor) (items : List α)
      (hrun : Parser.itemsUntil stop item fuel c = .ok items c') : c.current.kind ≠ k := by
    cases fuel with
    | zero => cases hrun
    | succ fuel =>
      obtain ⟨_, _, hkind, hrun⟩ := bind_eq_ok hrun
      cases hkind
      by_cases hc : c.current.kind = stop
      · rwa [hc]
      · rw [if_neg hc] at hrun
        obtain ⟨a, c₁, hitem, -⟩ := bind_eq_ok hrun
        exact hstart c a c₁ hitem
  induction fuel with
  | zero => exact .throw _
  | succ fuel ih =>
    refine .after fun _ => .ite (.pure (by simp)) fun c items c' hrun => ?_
    obtain ⟨a, c₁, hitem, hrun⟩ := bind_eq_ok hrun
    obtain ⟨more, c₂, hmore, hrun⟩ := bind_eq_ok hrun
    cases hrun
    have ha : P a := (h c a c₁ hitem).resolve_right (hnext fuel c₁ c' more hmore)
    exact cons_mem ha (ih c₁ more c' hmore)

end Ensures

/-- A statement is well formed unless a semicolon follows, and none starts with a semicolon. -/
structure StatementShaped (p : Parser Node) : Prop where
  shaped : Ensures p fun n c => n.WellFormed ∨ c.current.kind = .semicolon
  start (c c' : Cursor) (n : Node) : p c = .ok n c' → c.current.kind ≠ .semicolon

/-- The parsers of nested parts return well formed trees. -/
structure NestedShaped (inner : Nested) : Prop where
  statement : StatementShaped inner.statement
  expression : Yields inner.expression Node.WellFormed
  factor : Yields inner.factor Node.WellFormed

theorem StatementShaped.many {p : Parser Node} (h : StatementShaped p) {stop : TokenKind}
    (hstop : stop ≠ .semicolon) :
    Yields (Parser.many stop p) fun nodes => ∀ m ∈ nodes, m.WellFormed :=
  .after fun _ => h.shaped.itemsUntil_unless (fun c a c' => h.start c c' a) hstop _

namespace NestedShaped

variable {inner : Nested} (h : NestedShaped inner)
include h

/-! ## Expressions -/

theorem callOf (v : Value) : Yields (Parser.callOf v inner) Node.WellFormed :=
  .after fun _ => .bind h.expression.arguments fun args hargs => .after fun _ =>
    .pure (by simpa [Node.Shaped] using hargs)

theorem listLiteral : Yields (Parser.listLiteral inner) Node.WellFormed :=
  .after fun _ => .after fun _ => .bind (h.expression.separatedUntil _) fun items hitems =>
    .after fun _ => .pure (by simpa [Node.Shaped] using hitems)

theorem entry : Yields (Parser.entry inner) fun m =>
    m.WellFormed ∧ m.kind = .literal ∧ m.children.length = 1 := by
  refine .after fun _ => .ite (.after fun _ => .after fun _ => ?_) (.failExpecting _)
  exact .bind h.expression fun v hv => .pure (by simpa [Node.Shaped] using hv)

theorem objectLiteral : Yields (Parser.objectLiteral inner) Node.WellFormed := by
  refine .after fun _ => .after fun _ => .bind (h.entry.separatedUntil _) fun entries hentries => ?_
  refine .after fun _ => .pure (Node.wellFormed_mk.mpr ⟨?_, fun m hm => (hentries m hm).1⟩)
  exact fun m hm => (hentries m hm).2

omit h in
theorem literal (v : Value) : (Parser.literal v).WellFormed := by simp [Parser.literal, Node.Shaped]

omit h in
theorem binary (v : Value) {left right : Node} (hleft : left.WellFormed)
    (hright : right.WellFormed) :
    (Parser.binary v left right).WellFormed := by
  simp [Parser.binary, Node.Shaped, hleft, hright]

theorem primary : Yields (Parser.primary inner) Node.WellFormed := by
  refine .after fun t => ?_
  have hliteral (v : Value) :
      Yields (advance >>= fun _ => pure (Parser.literal v)) Node.WellFormed :=
    .after fun _ => .pure (literal v)
  have hword (v : Value) : Yields (advance >>= fun _ => kind >>= fun k => if k = .leftParen
      then Parser.callOf v inner else pure { kind := .identifier, value := v }) Node.WellFormed :=
    .after fun _ => .after fun _ => .ite (h.callOf v) (.pure (by simp [Node.Shaped]))
  generalize t.kind = k
  cases k with
  | number | string | true | false | null => exact hliteral _
  | leftParen =>
    exact .after fun _ => .bind h.expression fun e he => .after fun _ => .pure he
  | leftBracket => exact h.listLiteral
  | leftBrace => exact h.objectLiteral
  | identifier | qor | gelin | abn | jajab | qoraal | bool | teed | walax => exact hword _
  | _ => exact .failUnexpected

theorem access (notName : Parser Unit) {target : Node} (htarget : target.WellFormed) :
    Yields (Parser.access notName inner target) fun n => n.WellFormed ∧ n.kind.isTarget = true := by
  have hmember (t : Token) : Yields (advance >>= fun _ => kind >>= fun k => if k = .leftParen then
      advance >>= fun _ => inner.expression.arguments >>= fun args =>
        (pure { kind := .methodCall, value := t.value, children := target :: args } : Parser Node)
      else pure { kind := .property, value := t.value, children := [target] })
      fun n => n.WellFormed ∧ n.kind.isTarget = true := by
    refine .after fun _ => .after fun _ => .ite (.after fun _ => ?_) ?_
    · refine .bind h.expression.arguments fun args hargs => .pure ?_
      simpa [Node.Shaped, NodeKind.isTarget, htarget] using hargs
    · exact .pure (by simp [Node.Shaped, NodeKind.isTarget, htarget])
  refine .after fun _ => .ite (.after fun _ => .after fun t => ?_) ?_
  · exact .ite (.after fun _ => hmember t) (hmember t)
  · refine .after fun _ => .bind h.expression fun i hi => .after fun _ => .pure ?_
    simp [Node.Shaped, NodeKind.isTarget, htarget, hi]

theorem accesses (notName : Parser Unit) {target : Node} (htarget : target.WellFormed)
    (fuel : Nat) :
    Yields (Parser.accesses notName inner target fuel) fun n =>
      n.WellFormed ∧ (target.kind.isTarget = true → n.kind.isTarget = true) := by
  induction fuel generalizing target with
  | zero => exact .throw _
  | succ fuel ih =>
    refine .after fun _ => .ite (.bind (h.access notName htarget) fun m hm => ?_) ?_
    · exact (ih hm.1).mono fun n hn => ⟨hn.1, fun _ => hn.2 hm.2⟩
    · exact .pure ⟨htarget, id⟩

theorem postfixed : Yields (Parser.postfixed inner) Node.WellFormed :=
  .bind h.primary fun _ he => .after fun _ => (h.accesses _ he _).mono fun _ hn => hn.1

omit h in
theorem negated {e : Node} (he : e.WellFormed) : (Parser.negated e).WellFormed := by
  have hproduct : (Parser.binary (.str "*") (Parser.literal (.int (-1))) e).WellFormed :=
    binary _ (literal _) he
  unfold Parser.negated
  dsimp only
  split
  · split
    · exact literal _
    · exact literal _
    · exact literal _
    · exact literal _
    · exact hproduct
  · exact hproduct

theorem factorParser : Yields (Parser.factor inner) Node.WellFormed := by
  refine .after fun k => ?_
  split
  · exact .after fun _ => h.factor
  · exact .after fun _ => .bind h.factor fun e he => .pure (negated he)
  · exact .after fun _ => .bind h.factor fun e he => .pure (by simpa [Node.Shaped] using he)
  · exact h.postfixed

omit h in
theorem level {isOperator : TokenKind → Bool} {operand : Parser Node}
    (hp : Yields operand Node.WellFormed) :
    Yields (Parser.level isOperator operand) Node.WellFormed := by
  have hoperations (fuel : Nat) {left : Node} (hleft : left.WellFormed) :
      Yields (Parser.operations isOperator operand left fuel) Node.WellFormed := by
    induction fuel generalizing left with
    | zero => exact .throw _
    | succ fuel ih =>
      refine .after fun t => .ite (.after fun _ => .bind hp fun right hright => ?_) (.pure hleft)
      exact ih (binary _ hleft hright)
  exact .bind hp fun left hleft => .after fun _ => hoperations _ hleft

theorem sum : Yields (Parser.sum inner) Node.WellFormed := level (level h.factorParser)

theorem comparisons {left : Node} (hleft : left.WellFormed) (fuel : Nat) :
    Yields (Parser.comparisons inner left fuel) Node.WellFormed := by
  induction fuel generalizing left with
  | zero => exact .throw _
  | succ fuel ih =>
    refine .after fun t => .ite (.after fun _ => .after fun k => ?_) (.pure hleft)
    have hright (v : Value) : Yields
        (Parser.sum inner >>=
        fun right => Parser.comparisons inner (Parser.binary v left right) fuel)
        Node.WellFormed := .bind h.sum fun right hright => ih (binary v hleft hright)
    exact .ite (.after fun _ => hright _) (hright _)

theorem expressionParser : Yields (Parser.expression inner) Node.WellFormed :=
  level (.bind h.sum fun _ hleft => .after fun _ => h.comparisons hleft _)

/-! ## Statements -/

theorem braced : Yields (Parser.braced inner) fun nodes => ∀ m ∈ nodes, m.WellFormed :=
  .after fun _ => .bind (h.statement.many (by decide)) fun _ hbody => .after fun _ => .pure hbody

theorem condition : Yields (Parser.condition inner) Node.WellFormed :=
  .after fun _ => .bind h.expression fun _ he => .after fun _ => .pure he

theorem binding (declared : Option TokenKind) (constant : Bool) (start : Token) :
    Yields (Parser.binding inner declared constant start) Node.WellFormed := by
  refine .after fun t => .ite (.after fun _ => ?_) ?_
  all_goals
    refine .after fun _ => .after fun _ => .bind h.expression fun e he => .pure ?_
    simpa [Node.Shaped] using he

theorem declaration (typed constant : Bool) :
    Yields (Parser.declaration inner typed constant) Node.WellFormed :=
  .after fun _ => .ite (.after fun _ => h.binding _ _ _) (h.binding _ _ _)

theorem constant : Yields (Parser.constant inner) Node.WellFormed :=
  .after fun _ => .after fun _ => .after fun _ =>
    .ite (.after fun _ => h.binding _ _ _) (h.binding _ _ _)

theorem function : Yields (Parser.function inner) Node.WellFormed := by
  have hparameter : Yields (name >>= fun p => skip .comma >>= fun _ =>
      pure ({ kind := .identifier, value := p } : Node)) Node.WellFormed :=
    .after fun _ => .after fun _ => .pure (by simp [Node.Shaped])
  refine .after fun _ => .after fun _ => .after fun _ => .bind hparameter.many
    fun params hparams => ?_
  refine .after fun _ => .bind h.braced fun body hbody => .pure ?_
  exact Node.wellFormed_mk.mpr ⟨trivial, List.forall_mem_append.mpr ⟨hparams, hbody⟩⟩

theorem call : Yields (Parser.call inner) Node.WellFormed := by
  refine .after fun t => .ite (.after fun _ => ?_) ?_
  all_goals exact .after fun _ => .bind (h.callOf _) fun n hn => .after fun _ => .pure hn

omit h in
theorem importFile : Yields Parser.importFile Node.WellFormed := by
  have hfile (v : Value) : Node.WellFormed { kind := .importFile, value := v } := by
    simp [Node.Shaped]
  refine .after fun _ => .after fun t => .ite (.after fun _ => ?_) (.after fun _ => .pure (hfile _))
  exact .after fun _ => .pure (hfile _)

omit h in
theorem conditioned {k : NodeKind} (hk : k = .conditional ∨ k = .whileLoop) {e : Node}
    {body : List Node} (he : e.WellFormed) (hbody : ∀ m ∈ body, m.WellFormed) :
    Node.WellFormed { kind := k, children := e :: body } := by
  rcases hk with rfl | rfl <;> simpa [Node.Shaped, he] using hbody

theorem alternatives (fuel : Nat) :
    Yields (Parser.alternatives inner fuel) fun nodes => ∀ m ∈ nodes, m.WellFormed := by
  induction fuel with
  | zero => exact .throw _
  | succ fuel ih =>
    refine .after fun _ => .ite (.after fun _ => .bind h.condition fun e he => ?_) (.pure (by simp))
    refine .bind h.braced fun body hbody => .bind ih fun more hmore => .pure ?_
    exact Ensures.cons_mem (conditioned (.inl rfl) he hbody) hmore

theorem conditional : Yields (Parser.conditional inner) Node.WellFormed := by
  refine .after fun _ => .bind h.condition fun e he => .bind h.braced fun body hbody => ?_
  refine .after fun _ => .bind (h.alternatives _) fun others hothers => .after fun _ => ?_
  have hall {last : List Node} (hlast : ∀ m ∈ last, m.WellFormed) :
      Node.WellFormed { kind := .conditional, children := e :: body ++ others ++ last } := by
    have hrest : ∀ m ∈ body ++ others ++ last, m.WellFormed :=
      List.forall_mem_append.mpr ⟨List.forall_mem_append.mpr ⟨hbody, hothers⟩, hlast⟩
    exact conditioned (.inl rfl) he hrest
  have hblock {nodes : List Node} (hnodes : ∀ m ∈ nodes, m.WellFormed) :
      ∀ m ∈ [({ kind := .block, children := nodes } : Node)], m.WellFormed := by
    simpa [Node.Shaped] using hnodes
  refine .ite (.after fun _ => .bind h.braced fun nodes hnodes => ?_) ?_
  · exact .bind (.pure (hblock hnodes)) fun last hlast => .pure (hall hlast)
  · exact .bind (.pure (P := fun last => ∀ m ∈ last, m.WellFormed) (by simp)) fun last hlast =>
      .pure (hall hlast)

theorem loopStep : Yields (Parser.loopStep inner) fun nodes => ∀ m ∈ nodes, m.WellFormed := by
  refine .after fun _ => .ite (.after fun _ => .after fun _ => .ite ?_ (.failExpecting _)) ?_
  · exact .after fun _ => .bind h.sum fun e he => .pure (by simpa using he)
  · exact .pure (by simp)

theorem loop : Yields (Parser.loop inner) Node.WellFormed := by
  refine .after fun _ => .after fun _ => .after fun _ => .bind h.sum fun first hfirst => ?_
  refine .after fun _ => .bind h.sum fun last hlast => .bind h.loopStep fun step hstep => ?_
  refine .after fun _ => .bind h.braced fun body hbody => .pure ?_
  refine Node.wellFormed_mk.mpr ⟨by simp [Node.Shaped], ?_⟩
  have hrest : ∀ m ∈ step ++ body, m.WellFormed := List.forall_mem_append.mpr ⟨hstep, hbody⟩
  exact Ensures.cons_mem hfirst (Ensures.cons_mem hlast hrest)

theorem whileLoop : Yields (Parser.whileLoop inner) Node.WellFormed :=
  .after fun _ => .bind h.condition fun _ he => .bind h.braced fun _ hbody =>
    .pure (conditioned (.inr rfl) he hbody)

theorem tryCatch : Yields (Parser.tryCatch inner) Node.WellFormed := by
  refine .after fun _ => .bind h.braced fun body hbody => .after fun _ => .after fun _ => ?_
  refine .after fun _ => .after fun _ => .bind h.braced fun handler hhandler => .pure ?_
  simpa [Node.Shaped] using ⟨hbody, hhandler⟩

theorem classDefinition : Yields (Parser.classDefinition inner) Node.WellFormed := by
  have hbody (v : Value) : Yields (Parser.braced inner >>= fun body =>
      pure ({ kind := .classDefinition, value := v, children := body } : Node)) Node.WellFormed :=
    .bind h.braced fun body hbody => .pure (by simpa [Node.Shaped] using hbody)
  refine .after fun _ => .after fun _ => .after fun _ => .ite ?_ (.after fun _ => hbody _)
  exact .after fun _ => .after fun _ => .after fun _ => hbody _

theorem returnValue : Ensures (Parser.returnValue inner) fun n c =>
    n.WellFormed ∨ c.current.kind = .semicolon := by
  have hvalue : Yields (inner.expression >>= fun e =>
      pure ({ kind := .returnValue, children := [e] } : Node)) Node.WellFormed :=
    .bind h.expression fun e he => .pure (by simpa [Node.Shaped] using he)
  refine .after fun _ c n c' hrun => ?_
  obtain ⟨_, _, hkind, hrun⟩ := bind_eq_ok hrun
  cases hkind
  by_cases hc : c.current.kind = .semicolon
  · rw [if_pos hc] at hrun
    cases hrun
    exact .inr hc
  · rw [if_neg hc] at hrun
    exact .inl (hvalue c n c' hrun)

theorem clause : Yields (Parser.clause inner) Node.WellFormed := by
  refine .after fun k => ?_
  split
  · refine .after fun _ => .bind h.expression fun v hv => .bind h.braced fun body hbody => .pure ?_
    simpa [Node.Shaped, hv] using hbody
  · exact .after fun _ => .bind h.braced fun body hbody =>
      .pure (by simpa [Node.Shaped] using hbody)
  · exact .failExpecting _

theorem switch : Yields (Parser.switch inner) Node.WellFormed := by
  refine .after fun _ => .bind h.condition fun e he => .after fun _ => ?_
  refine .bind h.clause.many fun clauses hclauses => .after fun _ => .pure ?_
  simpa [Node.Shaped, he] using hclauses

theorem named : Yields (Parser.named inner) Node.WellFormed := by
  have hassigned (start : Token) {target : Node} (htarget : target.WellFormed)
      (hkind : target.kind.isTarget = true) : Yields (advance >>= fun _ =>
      inner.expression >>= fun v =>
      (pure { kind := .assignment, children := [target, v], line := start.line,
              column := start.column } : Parser Node)) Node.WellFormed :=
    .after fun _ => .bind h.expression fun v hv =>
      .pure (by simpa [Node.Shaped, htarget, hkind] using hv)
  refine .after fun start => .after fun _ => .after fun k => ?_
  have hname : Node.WellFormed { kind := .identifier, value := start.value } := by
    simp [Node.Shaped]
  have hchain (notName : Parser Unit) (fuel : Nat) :=
    h.accesses notName hname fuel
  split
  · refine .after fun _ => .bind (hchain _ _) fun target htarget => .after fun _ => ?_
    exact .ite (hassigned start htarget.1 (htarget.2 rfl)) (.pure htarget.1)
  · refine .after fun _ => .bind (hchain _ _) fun target htarget => .after fun _ => ?_
    exact .ite (hassigned start htarget.1 (htarget.2 rfl)) (.pure htarget.1)
  · refine .after fun _ => .bind h.expression.arguments fun args hargs => .pure ?_
    simpa [Node.Shaped] using hargs
  · exact hassigned start hname rfl
  · exact .pure hname

omit h in
theorem unless_semicolon {p : Parser Node} (hp : Yields p Node.WellFormed) :
    Ensures p fun n c => n.WellFormed ∨ c.current.kind = .semicolon :=
  fun c n c' hrun => .inl (hp c n c' hrun)

theorem shaped_statement : Ensures (Parser.statement inner) fun n c =>
    n.WellFormed ∨ c.current.kind = .semicolon := by
  refine .after fun t => ?_
  generalize t.kind = k
  cases k with
  | celi => exact h.returnValue
  | haddii => exact unless_semicolon h.conditional
  | dooro => exact unless_semicolon h.switch
  | abn | jajab | qoraal | bool | teed | walax | door => exact unless_semicolon (h.declaration _ _)
  | madoor => exact unless_semicolon h.constant
  | hawl => exact unless_semicolon h.function
  | qor =>
    refine .after fun _ => unless_semicolon (.bind h.sum fun e he => .pure ?_)
    simpa [Node.Shaped] using he
  | gelin => exact unless_semicolon h.call
  | kuceli => exact unless_semicolon h.loop
  | intay => exact unless_semicolon h.whileLoop
  | jooji | soco => exact unless_semicolon (.after fun _ => .pure (by simp [Node.Shaped]))
  | iskuDay => exact unless_semicolon h.tryCatch
  | kaKeen => exact unless_semicolon importFile
  | fasalka => exact unless_semicolon h.classDefinition
  | leftBrace =>
    refine unless_semicolon (.bind h.braced fun body hbody => .pure ?_)
    simpa [Node.Shaped] using hbody
  | identifier => exact unless_semicolon h.named
  | _ => exact .failUnexpected

theorem statementParser : StatementShaped (Parser.statement inner) where
  shaped := h.shaped_statement
  start c c' n hrun hkind := by
    obtain ⟨t, c₁, hcurrent, hrun⟩ := bind_eq_ok hrun
    cases hcurrent
    rw [hkind] at hrun
    exact Ensures.failUnexpected (Q := fun _ _ => False) c n c' hrun

end NestedShaped

theorem nestedShaped (d : Nat) : NestedShaped (.upTo d) := by
  induction d with
  | zero => exact ⟨⟨.throw _, fun c c' n hrun => by cases hrun⟩, .throw _, .throw _⟩
  | succ d ih => exact ⟨ih.statementParser, ih.expressionParser, ih.factorParser⟩

theorem program_shaped (d : Nat) : Yields (program (.upTo d)) Node.WellFormed :=
  .bind ((nestedShaped d).statementParser.many (by decide)) fun _ hstatements =>
    .pure (Node.wellFormed_mk.mpr ⟨trivial, hstatements⟩)

end Luuqad.Parser

namespace Luuqad

/-- The tree of every program that the parser accepts is well formed. -/
theorem parse_wellFormed {tokens : List Token} {n : Node} (h : parse tokens = .ok n) :
    n.WellFormed := by
  unfold parse at h
  split at h
  · cases h
  · rename_i node c hrun
    cases h
    unfold Parser.run at hrun
    obtain ⟨start, -, hprogram⟩ := Option.map_eq_some_iff.mp hrun
    exact Parser.program_shaped _ start n c hprogram
  · cases h
  · cases h

theorem readProgram_wellFormed {source : String} {n : Node} (h : readProgram source = .ok n) :
    n.WellFormed := by
  unfold readProgram at h
  split at h
  · cases h
  · exact parse_wellFormed h

end Luuqad

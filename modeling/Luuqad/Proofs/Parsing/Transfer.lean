import Luuqad.Proofs.Parsing.Statements

/-!
# What follows a statement does not matter

Where a parser returns in front of the end token, it also returns, with the same result, if a
statement follows in place of the end token. Every parser is either sure to stop at the end token,
or it only asks there for kinds of tokens that start no statement. `Transfers` says so of two
parsers, since the limits of loops grow with the number of tokens ahead; the rules follow the
constructs that parsers are built with.
-/

namespace Luuqad.Parser

/-- Whether a token of this kind can stand where a program ends: the end token, or the first token
of a further statement. -/
def isSequel (k : TokenKind) : Bool := k == .eof || Statement.opens k

/-- An end token, and the tokens that are to stand in its place. -/
structure Sequel where
  eof : Mark .eof
  more : List Token
  begins : Begins (isSequel · = true) more

variable {α β : Type} {w : Sequel} {heads heads' : TokenKind → Prop}

/-- In front of tokens that begin with a kind among `heads` and are followed by the end token, a run
of `p` that returns is also a run of `p'` if other tokens stand in place of the end token. -/
def TransfersFrom (w : Sequel) (heads : TokenKind → Prop) (p p' : Parser α) : Prop :=
  ∀ (i : Nat) (ts : List Token) (a : α) (c : Cursor), Begins heads (ts ++ [w.eof.val]) →
    p (.facing i (ts ++ [w.eof.val])) = .ok a c →
    ∃ pre post, ts = pre ++ post ∧ c = .facing (i + pre.length) (post ++ [w.eof.val]) ∧
      p' (.facing i (ts ++ w.more)) = .ok a (.facing (i + pre.length) (post ++ w.more))

abbrev Transfers (w : Sequel) (p p' : Parser α) : Prop := TransfersFrom w (fun _ => True) p p'

/-- The parser does not return in front of an end token. -/
def Balks (p : Parser α) : Prop :=
  ∀ (e : Mark .eof) (i : Nat) (rest : List Token) (a : α) (c : Cursor),
    p (.facing i (e.val :: rest)) ≠ .ok a c

theorem Complains.bind {p : Parser α} {f : α → Parser β} (h : Complains p) :
    Complains (p >>= f) := by
  intro t
  obtain ⟨cause, hclass, hstop⟩ := h t
  refine ⟨cause, hclass, fun i rest => ?_⟩
  rw [bind_apply, hstop]

namespace Balks

variable {p : Parser α} {f : α → Parser β}

theorem bind (h : Balks p) : Balks (p >>= f) := by
  intro e i rest b c hrun
  obtain ⟨a, c₁, hp, -⟩ := bind_eq_ok hrun
  exact h e i rest a c₁ hp

theorem complains (h : Complains p) : Balks p := by
  intro e i rest a c hrun
  obtain ⟨cause, -, hstop⟩ := h e.val
  rw [hstop i rest] at hrun
  cases hrun

theorem kind {f : TokenKind → Parser α} (h : Balks (f .eof)) : Balks (Parser.kind >>= f) := by
  intro e i rest a c hrun
  rw [bind_apply, kind_facing, e.2] at hrun
  exact h e i rest a c hrun

theorem current {f : Token → Parser α} (h : ∀ e : Mark .eof, Balks (f e.val)) :
    Balks (Parser.current >>= f) :=
  fun e i rest a c hrun => h e e i rest a c hrun

theorem expect {k : TokenKind} (hk : k ≠ .eof) : Balks (Parser.expect k) := by
  refine .current fun e => ?_
  have hne : ¬e.val.kind = k := by rw [e.2]; exact hk.symm
  rw [if_neg hne]
  exact .complains (.failExpecting _)

end Balks

namespace TransfersFrom

variable {p p' q q' : Parser α} {f f' : α → Parser β}

/-! ## Rules -/

theorem restrict (h : TransfersFrom w heads p p') (hheads : ∀ k, heads' k → heads k) :
    TransfersFrom w heads' p p' :=
  fun i ts a c hbegins => h i ts a c (hbegins.mono hheads)

theorem of_any (h : Transfers w p p') : TransfersFrom w heads p p' :=
  h.restrict fun _ _ => trivial

theorem pure (a : α) : TransfersFrom w heads (Pure.pure a) (Pure.pure a) := by
  intro i ts b c _ hrun
  cases hrun
  exact ⟨[], ts, rfl, rfl, rfl⟩

theorem bind (hp : TransfersFrom w heads p p') (hf : ∀ a, Transfers w (f a) (f' a)) :
    TransfersFrom w heads (p >>= f) (p' >>= f') := by
  intro i ts b c hbegins hrun
  obtain ⟨a, c₁, hfirst, hsecond⟩ := bind_eq_ok hrun
  obtain ⟨pre, post, rfl, rfl, hfirst'⟩ := hp i ts a c₁ hbegins hfirst
  obtain ⟨pre', post', rfl, rfl, hsecond'⟩ :=
    hf a _ post b c (.of_ne_nil (by simp)) hsecond
  refine ⟨pre ++ pre', post', by rw [List.append_assoc], ?_, ?_⟩
  · rw [List.length_append, Nat.add_assoc]
  · rw [bind_apply, hfirst', List.length_append, ← Nat.add_assoc]
    exact hsecond'

theorem stops (h : ∀ c a c', p c ≠ .ok a c') : TransfersFrom w heads p p' :=
  fun _ _ a c _ hrun => absurd hrun (h _ a c)

theorem complains (h : Complains p) : TransfersFrom w heads p p' := by
  intro i ts a c hbegins hrun
  obtain ⟨t, us, heq, -⟩ := hbegins.exists_cons
  obtain ⟨cause, -, hstop⟩ := h t
  rw [heq, hstop i us] at hrun
  cases hrun

theorem of_balks (hb : Balks p) (h : TransfersFrom w (· ≠ .eof) p p') :
    TransfersFrom w heads p p' := by
  intro i ts a c _ hrun
  cases ts with
  | nil => exact absurd hrun (hb w.eof i [] a c)
  | cons t us =>
    by_cases ht : t.kind = .eof
    · exact absurd hrun (hb ⟨t, ht⟩ i _ a c)
    · exact h i (t :: us) a c ht hrun

theorem advance (heof : ¬heads .eof) : TransfersFrom w heads Parser.advance Parser.advance := by
  intro i ts a c hbegins hrun
  cases ts with
  | nil => exact absurd (show heads w.eof.val.kind from hbegins) (by rw [w.eof.2]; exact heof)
  | cons t us =>
    rw [List.cons_append, advance_facing (by simp)] at hrun
    cases hrun
    refine ⟨[t], us, rfl, rfl, ?_⟩
    rw [List.cons_append, advance_facing (by simp [w.begins.ne_nil])]
    rfl

theorem ite {b : Prop} [Decidable b] (hp : b → TransfersFrom w heads p p')
    (hq : ¬b → TransfersFrom w heads q q') :
    TransfersFrom w heads (if b then p else q) (if b then p' else q') := by
  split
  · exact hp ‹_›
  · exact hq ‹_›

/-- What is done depends on the token under the cursor. At the end token, all that can stand in its
place count as one. -/
theorem current {f f' : Token → Parser α}
    (h : ∀ t, heads t.kind → TransfersFrom w (· = t.kind) (f t) (f' t))
    (hend : heads .eof → ∀ t, isSequel t.kind = true → f' t = f' w.eof.val) :
    TransfersFrom w heads (Parser.current >>= f) (Parser.current >>= f') := by
  intro i ts a c hbegins hrun
  cases ts with
  | nil =>
    have hheads : heads w.eof.val.kind := hbegins
    obtain ⟨pre, post, heq, hc, hrun'⟩ := h _ hheads i [] a c rfl hrun
    obtain ⟨t, us, hmore, ht⟩ := w.begins.exists_cons
    refine ⟨pre, post, heq, hc, ?_⟩
    rw [← hend (w.eof.2 ▸ hheads) t ht] at hrun'
    rw [List.nil_append, hmore] at hrun' ⊢
    exact hrun'
  | cons t us => exact h t hbegins i (t :: us) a c rfl hrun

theorem kind {f f' : TokenKind → Parser α}
    (h : ∀ k, heads k → TransfersFrom w (· = k) (f k) (f' k))
    (hend : heads .eof → ∀ k, isSequel k = true → f' k = f' .eof) :
    TransfersFrom w heads (Parser.kind >>= f) (Parser.kind >>= f') := by
  show TransfersFrom w heads (Parser.current >>= fun t => f t.kind)
    (Parser.current >>= fun t => f' t.kind)
  refine current (fun t => h t.kind) ?_
  intro heof t ht
  rw [w.eof.2]
  exact hend heof _ ht

/-- A question that has the answer no wherever the program can end. -/
theorem test {c : TokenKind → Prop} [DecidablePred c] (hc : ∀ k, isSequel k = true → ¬c k)
    (hp : TransfersFrom w c p p') (hq : TransfersFrom w heads q q') :
    TransfersFrom w heads (Parser.kind >>= fun k => if c k then p else q)
      (Parser.kind >>= fun k => if c k then p' else q') := by
  refine kind (fun k hk => ite (fun hyes => hp.restrict ?_) fun _ => hq.restrict ?_)
    fun _ k hk => ?_
  · rintro _ rfl
    exact hyes
  · rintro _ rfl
    exact hk
  · rw [if_neg (hc k hk), if_neg (hc .eof rfl)]

theorem when {k : TokenKind} (hk : isSequel k = false) (hp : TransfersFrom w (· = k) p p')
    (hq : TransfersFrom w heads q q') :
    TransfersFrom w heads (Parser.kind >>= fun k' => if k' = k then p else q)
      (Parser.kind >>= fun k' => if k' = k then p' else q') := by
  refine test (fun k' hk' => ?_) hp hq
  rintro rfl
  simp [hk] at hk'

theorem bounded {p p' : Nat → Parser α} (h : ∀ r r', r ≤ r' → TransfersFrom w heads (p r) (p' r')) :
    TransfersFrom w heads (get >>= fun c => p c.bound) (get >>= fun c => p' c.bound) := by
  intro i ts a c hbegins hrun
  have hle : (Cursor.facing i (ts ++ [w.eof.val])).bound ≤
      (Cursor.facing i (ts ++ w.more)).bound := by
    obtain ⟨t, us, hmore, -⟩ := w.begins.exists_cons
    rw [hmore]
    cases ts <;> simp [Cursor.facing, Cursor.bound]
  exact h _ _ hle i ts a c hbegins hrun

theorem boundedThen {p p' : Nat → Parser α}
    (h : ∀ r r', r ≤ r' → TransfersFrom w heads (p r) (p' r'))
    (hf : ∀ a, Transfers w (f a) (f' a)) :
    TransfersFrom w heads (get >>= fun c => p c.bound >>= f) (get >>= fun c => p' c.bound >>= f') :=
  bounded fun r r' hr => (h r r' hr).bind hf

/-! ## Single tokens -/

theorem expect {k : TokenKind} (hk : k ≠ .eof) :
    TransfersFrom w heads (Parser.expect k) (Parser.expect k) := by
  refine of_balks (.expect hk) (current (fun t ht => ite (fun _ => ?_) fun _ => ?_) (absurd rfl))
  · exact (advance ht.symm).bind fun _ => pure t
  · exact complains (.failExpecting _)

theorem require {c : TokenKind → Prop} [DecidablePred c] {stop : Parser Unit}
    {f f' : Token → Parser α} (hstop : Complains stop) (heof : c .eof)
    (hf : ∀ t, Transfers w (f t) (f' t)) :
    TransfersFrom w heads
      (Parser.current >>= fun t => if c t.kind then stop >>= fun _ => Parser.advance >>=
        fun _ => f t
        else Parser.advance >>= fun _ => f t)
      (Parser.current >>= fun t => if c t.kind then stop >>= fun _ => Parser.advance >>=
        fun _ => f' t
        else Parser.advance >>= fun _ => f' t) := by
  refine of_balks (.current fun e => ?_)
    (current (fun t ht => ite (fun _ => ?_) fun _ => ?_) (absurd rfl))
  · rw [if_pos (by rwa [e.2])]
    exact .complains hstop.bind
  · exact complains hstop.bind
  · exact (advance ht.symm).bind fun _ => hf t

theorem skip {k : TokenKind} (hk : isSequel k = false) :
    TransfersFrom w heads (Parser.skip k) (Parser.skip k) := by
  refine when hk (advance ?_) (pure ())
  rintro rfl
  cases hk

theorem name : TransfersFrom w heads Parser.name Parser.name :=
  (expect (by decide)).bind fun _ => pure _

/-! ## Rows -/

variable {item : Parser α} {stop close : TokenKind}

theorem throws (e : ParseStop) : TransfersFrom w heads (throw e : Parser α) p' :=
  stops fun c a c' h => by cases h

theorem itemsUntil (hitem : Transfers w item item) (hb : Balks item) (hstop : stop ≠ .eof)
    {r r' : Nat} (hr : r ≤ r') :
    TransfersFrom w heads (Parser.itemsUntil stop item r) (Parser.itemsUntil stop item r') := by
  induction r generalizing r' heads with
  | zero => exact throws _
  | succ r ih =>
    obtain ⟨r', rfl⟩ : ∃ s, r' = s + 1 := ⟨r' - 1, by omega⟩
    refine of_balks (.kind ?_) (kind (fun k _ => ite (fun _ => pure []) fun _ => ?_) (absurd rfl))
    · rw [if_neg hstop.symm]
      exact hb.bind
    · exact hitem.of_any.bind fun a => (ih (by omega)).bind fun more => pure _

theorem many (hitem : Transfers w item item) (hb : Balks item) (hstop : stop ≠ .eof) :
    TransfersFrom w heads (Parser.many stop item) (Parser.many stop item) :=
  bounded fun _ _ hr => hitem.itemsUntil hb hstop hr

theorem itemsAfterCommas (hitem : Transfers w item item) {r r' : Nat} (hr : r ≤ r') :
    TransfersFrom w heads (Parser.itemsAfterCommas item r) (Parser.itemsAfterCommas item r') := by
  induction r generalizing r' heads with
  | zero => exact throws _
  | succ r ih =>
    obtain ⟨r', rfl⟩ : ∃ s, r' = s + 1 := ⟨r' - 1, by omega⟩
    refine when rfl ?_ (pure [])
    exact (advance (by simp)).bind fun _ => hitem.bind fun a => (ih (by omega)).bind
      fun more => pure _

theorem arguments (hitem : Transfers w item item) :
    TransfersFrom w heads (Parser.arguments item) (Parser.arguments item) := by
  have hclose (items : List α) : Transfers w
      (Parser.expect .rightParen >>= fun _ => Pure.pure items)
      (Parser.expect .rightParen >>= fun _ => Pure.pure items) :=
    (expect (by decide)).bind fun _ => pure _
  refine when rfl ?_ ?_
  · exact (pure []).bind fun _ => hclose _
  · refine hitem.of_any.bind fun a => boundedThen (fun _ _ hr => hitem.itemsAfterCommas hr)
      fun more => ?_
    exact (pure _).bind fun _ => hclose _

theorem separatedUntil (hitem : Transfers w item item) (hb : Balks item) (hclose : close ≠ .eof)
    {r r' : Nat} (hr : r ≤ r') :
    TransfersFrom w heads (Parser.separatedUntil close item r)
    (Parser.separatedUntil close item r') := by
  induction r generalizing r' heads with
  | zero => exact throws _
  | succ r ih =>
    obtain ⟨r', rfl⟩ : ∃ s, r' = s + 1 := ⟨r' - 1, by omega⟩
    refine of_balks (.kind ?_) (kind (fun k _ => ite (fun _ => pure []) fun _ => ?_) (absurd rfl))
    · rw [if_neg hclose.symm]
      exact hb.bind
    · refine hitem.of_any.bind fun a => when rfl ?_ (pure _)
      exact (advance (by simp)).bind fun _ => (ih (by omega)).bind fun more => pure _

end TransfersFrom

/-- The parsers of nested parts transfer, and none of them returns in front of an end token. -/
structure NestedTransfers (w : Sequel) (inner : Nested) : Prop where
  statement : Transfers w inner.statement inner.statement
  statementBalks : Balks inner.statement
  expression : Transfers w inner.expression inner.expression
  expressionBalks : Balks inner.expression
  factor : Transfers w inner.factor inner.factor

namespace NestedTransfers

variable {inner : Nested} (h : NestedTransfers w inner)
include h

/-! ## Expressions -/

theorem callOf (v : Value) :
    TransfersFrom w heads (Parser.callOf v inner) (Parser.callOf v inner) :=
  .bind (.expect (by decide)) fun _ => .bind h.expression.arguments fun _ =>
    .bind (.skip rfl) fun _ => .pure _

theorem listLiteral :
    TransfersFrom w heads (Parser.listLiteral inner) (Parser.listLiteral inner) := by
  refine .bind (.expect (by decide)) fun _ => .boundedThen (fun _ _ hr => ?_) fun _ => ?_
  · exact h.expression.separatedUntil h.expressionBalks (by decide) hr
  · exact .bind (.expect (by decide)) fun _ => .pure _

omit h in
theorem balks_entry : Balks (Parser.entry inner) := by
  refine .current fun e => ?_
  rw [if_neg (by rw [e.2]; decide)]
  exact .complains (.failExpecting _)

theorem entry : TransfersFrom w heads (Parser.entry inner) (Parser.entry inner) := by
  refine .of_balks balks_entry (.current (fun t ht => .ite (fun _ => ?_) fun _ => ?_) (absurd rfl))
  · exact .bind (.advance ht.symm) fun _ => .bind (.expect (by decide)) fun _ =>
      .bind h.expression fun _ => .pure _
  · exact .complains (.failExpecting _)

theorem objectLiteral :
    TransfersFrom w heads (Parser.objectLiteral inner) (Parser.objectLiteral inner) := by
  refine .bind (.expect (by decide)) fun _ => .boundedThen (fun _ _ hr => ?_) fun _ => ?_
  · exact h.entry.separatedUntil balks_entry (by decide) hr
  · exact .bind (.expect (by decide)) fun _ => .pure _

omit h in
theorem balks_primary : Balks (Parser.primary inner) := by
  refine .current fun e => ?_
  rw [e.2]
  exact .complains .failUnexpected

theorem primary : TransfersFrom w heads (Parser.primary inner) (Parser.primary inner) := by
  refine .of_balks balks_primary (.current (fun t ht => ?_) (absurd rfl))
  have hliteral (v : Value) : TransfersFrom w (· = t.kind)
      (advance >>= fun _ => pure (literal v)) (advance >>= fun _ => pure (literal v)) :=
    .bind (.advance ht.symm) fun _ => .pure _
  have hword (v : Value) : TransfersFrom w (· = t.kind)
      (advance >>= fun _ => kind >>= fun k => if k = .leftParen then Parser.callOf v inner
        else pure { kind := .identifier, value := v })
      (advance >>= fun _ => kind >>= fun k => if k = .leftParen then Parser.callOf v inner
        else pure { kind := .identifier, value := v }) :=
    .bind (.advance ht.symm) fun _ =>
      .when rfl (h.callOf v) (.pure _)
  generalize t.kind = k at ht hliteral hword
  cases k with
  | number | string | true | false | null => exact hliteral _
  | leftParen =>
    exact .bind (.advance ht.symm) fun _ => .bind h.expression fun _ =>
      .bind (.expect (by decide)) fun _ => .pure _
  | leftBracket => exact h.listLiteral
  | leftBrace => exact h.objectLiteral
  | identifier | qor | gelin | abn | jajab | qoraal | bool | teed | walax => exact hword _
  | _ => exact .complains .failUnexpected

theorem access {notName : Parser Unit} (hname : Complains notName) (target : Node) :
    TransfersFrom w heads (Parser.access notName inner target)
    (Parser.access notName inner target) := by
  refine .when rfl ?_ ?_
  · refine .bind (.advance (by simp)) fun _ => .require (c := (· ≠ .identifier)) hname
      (by decide) ?_
    intro t
    refine .when rfl ?_ (.pure _)
    exact .bind (.advance (by simp)) fun _ => .bind h.expression.arguments fun _ => .pure _
  · exact .bind (.expect (by decide)) fun _ => .bind h.expression fun _ =>
      .bind (.expect (by decide)) fun _ => .pure _

theorem accesses {notName : Parser Unit} (hname : Complains notName) (target : Node) {r r' : Nat}
    (hr : r ≤ r') : TransfersFrom w heads (Parser.accesses notName inner target r)
      (Parser.accesses notName inner target r') := by
  induction r generalizing r' target heads with
  | zero => exact .throws _
  | succ r ih =>
    obtain ⟨r', rfl⟩ : ∃ s, r' = s + 1 := ⟨r' - 1, by omega⟩
    refine .test (c := fun k => k = .dot ∨ k = .leftBracket) ?_ ?_ (.pure _)
    · rintro _ hk (rfl | rfl) <;> cases hk
    · exact .bind (h.access hname target) fun _ => ih _ (by omega)

theorem postfixed : TransfersFrom w heads (Parser.postfixed inner) (Parser.postfixed inner) :=
  .bind h.primary fun _ => .bounded fun _ _ hr => h.accesses (.failExpecting _) _ hr

omit h in
theorem balks_factor : Balks (Parser.factor inner) := .kind balks_primary.bind

theorem factorParser : TransfersFrom w heads (Parser.factor inner) (Parser.factor inner) := by
  refine .of_balks balks_factor (.kind (fun k hk => ?_) (absurd rfl))
  split
  · exact .bind (.advance (by simp)) fun _ => h.factor
  · exact .bind (.advance (by simp)) fun _ => .bind h.factor fun _ => .pure _
  · exact .bind (.advance (by simp)) fun _ => .bind h.factor fun _ => .pure _
  · exact h.postfixed

omit h in
/-- No operator starts a statement. -/
theorem level {isOperator : TokenKind → Bool} {operand : Parser Node}
    (hno : ∀ k, isSequel k = true → isOperator k = false) (hp : Transfers w operand operand) :
    TransfersFrom w heads (Parser.level isOperator operand) (Parser.level isOperator operand) := by
  have hoperations (left : Node) {r r' : Nat} (hr : r ≤ r') : Transfers w
      (Parser.operations isOperator operand left r)
      (Parser.operations isOperator operand left r') := by
    induction r generalizing r' left with
    | zero => exact .throws _
    | succ r ih =>
      obtain ⟨r', rfl⟩ : ∃ s, r' = s + 1 := ⟨r' - 1, by omega⟩
      refine .current (fun t _ => .ite (fun ht => ?_) fun _ => .pure _) fun _ t ht => ?_
      · refine .bind (.advance fun heof => ?_) fun _ => .bind hp fun _ => ih _ (by omega)
        rw [← heof, hno .eof rfl] at ht
        cases ht
      · rw [if_neg (by simp [hno _ ht]), if_neg (by simp [w.eof.2, hno .eof rfl])]
  exact .bind hp.of_any fun left => .bounded fun _ _ hr => hoperations left hr

theorem sum : TransfersFrom w heads (Parser.sum inner) (Parser.sum inner) :=
  level (by intro k; cases k <;> decide) (level (by intro k; cases k <;> decide) h.factorParser)

omit h in
theorem balks_sum : Balks (Parser.sum inner) := balks_factor.bind.bind

theorem comparisons (left : Node) {r r' : Nat} (hr : r ≤ r') : TransfersFrom w heads
    (Parser.comparisons inner left r) (Parser.comparisons inner left r') := by
  have hno (k : TokenKind) : isSequel k = true → isComparison k = false := by cases k <;> decide
  induction r generalizing r' left heads with
  | zero => exact .throws _
  | succ r ih =>
    obtain ⟨r', rfl⟩ : ∃ s, r' = s + 1 := ⟨r' - 1, by omega⟩
    refine .current (fun t _ => .ite (fun ht => ?_) fun _ => .pure _) fun _ t ht => ?_
    · refine .bind (.advance fun heof => ?_) fun _ => .kind
        (fun k _ => .ite (fun hk => ?_) fun _ => ?_)
        fun _ k hk => ?_
      · rw [← heof, hno .eof rfl] at ht
        cases ht
      · refine .bind (.advance fun heof => ?_) fun _ => .bind h.sum fun _ => ih _ (by omega)
        rw [← heof] at hk
        cases hk.2
      · exact .bind h.sum fun _ => ih _ (by omega)
      · -- the operator names a second equals sign, which does not stand where a statement starts
        have hne : k ≠ .equal := by
          rintro rfl
          cases hk
        simp only [hne, reduceCtorEq, and_false, if_false]
    · rw [if_neg (by simp [hno _ ht]), if_neg (by simp [w.eof.2, hno .eof rfl])]

theorem expressionParser :
    TransfersFrom w heads (Parser.expression inner) (Parser.expression inner) :=
  level (by intro k; cases k <;> decide)
    (.bind h.sum fun _ => .bounded fun _ _ hr => h.comparisons _ hr)

omit h in
theorem balks_expression : Balks (Parser.expression inner) := balks_sum.bind.bind

/-! ## Statements -/

theorem braced : TransfersFrom w heads (Parser.braced inner) (Parser.braced inner) :=
  .bind (.expect (by decide)) fun _ => .bind (h.statement.many h.statementBalks (by decide))
    fun _ =>
    .bind (.expect (by decide)) fun _ => .pure _

theorem condition : TransfersFrom w heads (Parser.condition inner) (Parser.condition inner) :=
  .bind (.expect (by decide)) fun _ => .bind h.expression fun _ =>
    .bind (.expect (by decide)) fun _ => .pure _

theorem binding (declared : Option TokenKind) (constant : Bool) (start : Token) :
    TransfersFrom w heads (Parser.binding inner declared constant start)
      (Parser.binding inner declared constant start) := by
  refine .require (c := (· ≠ .identifier)) (.failExpecting _) (by decide) fun _ => ?_
  exact .bind (.expect (by decide)) fun _ => .bind h.expression fun _ => .pure _

theorem declaration (typed : Bool) (heof : ¬heads .eof) : TransfersFrom w heads
    (Parser.declaration inner typed false) (Parser.declaration inner typed false) := by
  refine .current (fun t ht => .bind (.advance ?_) fun _ => h.binding _ _ _) fun hk =>
    absurd hk heof
  rintro hk
  exact heof (hk ▸ ht)

theorem constant (heof : ¬heads .eof) :
    TransfersFrom w heads (Parser.constant inner) (Parser.constant inner) := by
  refine .current (fun t ht => .bind (.advance ?_) fun _ => .of_balks (.kind ?_) ?_)
    fun hk => absurd hk heof
  · rintro hk
    exact heof (hk ▸ ht)
  · exact .current fun e => by
      rw [if_pos (by rw [e.2]; decide)]
      exact .complains (Complains.failExpecting _).bind
  · refine .kind (fun k hk => .ite (fun _ => ?_) fun _ => h.binding _ _ _) (absurd rfl)
    exact .bind (.advance hk.symm) fun _ => h.binding _ _ _

theorem function : TransfersFrom w heads (Parser.function inner) (Parser.function inner) := by
  refine .bind (.expect (by decide)) fun _ => .bind .name fun _ =>
    .bind (.expect (by decide)) fun _ => ?_
  refine .bind (.many (.bind .name fun _ => .bind (.skip rfl) fun _ => .pure _) ?_ (by decide))
    fun _ => ?_
  · exact (Balks.expect (by decide)).bind.bind
  · exact .bind (.expect (by decide)) fun _ => .bind h.braced fun _ => .pure _

theorem call : TransfersFrom w heads (Parser.call inner) (Parser.call inner) := by
  refine .require (c := fun k => k ≠ .identifier ∧ ¬k.isFunctionWord) (.failExpecting _) (by decide)
    fun _ => ?_
  exact .bind (h.callOf _) fun _ => .bind (.skip rfl) fun _ => .pure _

omit h in
theorem importFile : TransfersFrom w heads Parser.importFile Parser.importFile :=
  .bind (.expect (by decide)) fun _ =>
    .require (c := (· ≠ .string)) (.failExpecting _) (by decide) fun _ => .pure _

theorem alternatives {r r' : Nat} (hr : r ≤ r') :
    TransfersFrom w heads (Parser.alternatives inner r) (Parser.alternatives inner r') := by
  induction r generalizing r' heads with
  | zero => exact .throws _
  | succ r ih =>
    obtain ⟨r', rfl⟩ : ∃ s, r' = s + 1 := ⟨r' - 1, by omega⟩
    refine .when rfl ?_ (.pure _)
    exact .bind (.advance (by simp)) fun _ => .bind h.condition fun _ => .bind h.braced fun _ =>
      .bind (ih (by omega)) fun _ => .pure _

theorem conditional :
    TransfersFrom w heads (Parser.conditional inner) (Parser.conditional inner) := by
  refine .bind (.expect (by decide)) fun _ => .bind h.condition fun _ => .bind h.braced fun _ => ?_
  refine .boundedThen (fun _ _ hr => h.alternatives hr) fun _ => ?_
  refine .when rfl ?_ (.bind (.pure _) fun _ => .pure _)
  exact .bind (.advance (by simp)) fun _ => .bind h.braced fun _ => .bind (.pure _) fun _ => .pure _

theorem loopStep : TransfersFrom w heads (Parser.loopStep inner) (Parser.loopStep inner) := by
  refine .when rfl (.bind (.advance (by simp)) fun _ => .when rfl ?_ ?_) (.pure _)
  · exact .bind (.advance (by simp)) fun _ => .bind h.sum fun _ => .pure _
  · exact .complains (.failExpecting _)

theorem loop : TransfersFrom w heads (Parser.loop inner) (Parser.loop inner) := by
  refine .bind (.expect (by decide)) fun _ => .bind (.expect (by decide)) fun _ =>
    .bind .name fun _ => ?_
  refine .bind h.sum fun _ => .bind (.expect (by decide)) fun _ => .bind h.sum fun _ => ?_
  exact .bind h.loopStep fun _ => .bind (.expect (by decide)) fun _ => .bind h.braced
    fun _ => .pure _

theorem whileLoop : TransfersFrom w heads (Parser.whileLoop inner) (Parser.whileLoop inner) :=
  .bind (.expect (by decide)) fun _ => .bind h.condition fun _ => .bind h.braced fun _ => .pure _

theorem tryCatch : TransfersFrom w heads (Parser.tryCatch inner) (Parser.tryCatch inner) := by
  refine .bind (.expect (by decide)) fun _ => .bind h.braced fun _ =>
    .bind (.expect (by decide)) fun _ => ?_
  refine .bind (.expect (by decide)) fun _ => .bind .name fun _ =>
    .bind (.expect (by decide)) fun _ => ?_
  exact .bind h.braced fun _ => .pure _

theorem classDefinition :
    TransfersFrom w heads (Parser.classDefinition inner) (Parser.classDefinition inner) := by
  refine .bind (.expect (by decide)) fun _ => .bind .name fun _ =>
    .when rfl ?_ ?_
  · refine .bind (.advance (by simp)) fun _ => .bind .name fun _ => .bind (.pure _) fun _ => ?_
    exact .bind h.braced fun _ => .pure _
  · exact .bind (.pure _) fun _ => .bind h.braced fun _ => .pure _

theorem returnValue : TransfersFrom w heads (Parser.returnValue inner) (Parser.returnValue inner) :=
  .bind (.expect (by decide)) fun _ => .when rfl
    (.pure _) (.bind h.expression fun _ => .pure _)

omit h in
theorem balks_clause : Balks (Parser.clause inner) := .kind (.complains (.failExpecting _))

theorem clause : TransfersFrom w heads (Parser.clause inner) (Parser.clause inner) := by
  refine .of_balks balks_clause (.kind (fun k hk => ?_) (absurd rfl))
  split
  · exact .bind (.advance (by simp)) fun _ => .bind h.expression fun _ => .bind h.braced
      fun _ => .pure _
  · exact .bind (.advance (by simp)) fun _ => .bind h.braced fun _ => .pure _
  · exact .complains (.failExpecting _)

theorem switch : TransfersFrom w heads (Parser.switch inner) (Parser.switch inner) := by
  refine .bind (.expect (by decide)) fun _ => .bind h.condition fun _ =>
    .bind (.expect (by decide)) fun _ => ?_
  exact .bind (h.clause.many balks_clause (by decide)) fun _ => .bind (.expect (by decide))
    fun _ => .pure _

theorem named (heof : ¬heads .eof) :
    TransfersFrom w heads (Parser.named inner) (Parser.named inner) := by
  have hassigned (start : Token) (target : Node) : TransfersFrom w (· = .equal)
      (advance >>= fun _ => inner.expression >>= fun v =>
        (pure { kind := .assignment, children := [target, v], line := start.line,
                column := start.column } : Parser Node))
      (advance >>= fun _ => inner.expression >>= fun v =>
        (pure { kind := .assignment, children := [target, v], line := start.line,
                column := start.column } : Parser Node)) :=
    .bind (.advance (by simp)) fun _ => .bind h.expression fun _ => .pure _
  have hname :
      Complains (kind >>= fun k => fail (.expectedToken "IDENTIFIER" k.shown) : Parser Unit) :=
    .fail fun _ => rfl
  refine .current (fun start hstart => .bind (.advance fun hk => heof (hk ▸ hstart)) fun _ => ?_)
    fun hk => absurd hk heof
  refine .kind (fun k _ => ?_) fun _ k hk => ?_
  · cases k with
    | dot | leftBracket =>
      refine .boundedThen (fun _ _ hr => h.accesses hname _ hr) fun _ => ?_
      exact .when rfl (hassigned start _) (.pure _)
    | leftParen =>
      exact .bind (.advance (by simp)) fun _ => .bind h.expression.arguments fun _ => .pure _
    | equal => exact hassigned start _
    | _ => exact .pure _
  · cases k with
    | dot | leftBracket | leftParen | equal => cases hk
    | _ => rfl

omit h in
theorem balks_statement : Balks (Parser.statement inner) := by
  refine .current fun e => ?_
  rw [e.2]
  exact .complains .failUnexpected

theorem statementParser :
    TransfersFrom w heads (Parser.statement inner) (Parser.statement inner) := by
  refine .of_balks balks_statement (.current (fun t ht => ?_) (absurd rfl))
  generalize hkind : t.kind = k at ht ⊢
  cases k with
  | haddii => exact h.conditional
  | dooro => exact h.switch
  | abn | jajab | qoraal | bool | teed | walax | door => exact h.declaration _ (by simp)
  | madoor => exact h.constant (by simp)
  | hawl => exact h.function
  | celi => exact h.returnValue
  | qor => exact .bind (.advance (by simp)) fun _ => .bind h.sum fun _ => .pure _
  | gelin => exact h.call
  | kuceli => exact h.loop
  | intay => exact h.whileLoop
  | jooji | soco => exact .bind (.expect (by decide)) fun _ => .pure _
  | iskuDay => exact h.tryCatch
  | kaKeen => exact importFile
  | fasalka => exact h.classDefinition
  | leftBrace => exact .bind h.braced fun _ => .pure _
  | identifier => exact h.named (by simp)
  | _ => exact .complains .failUnexpected

end NestedTransfers

theorem nestedTransfers (w : Sequel) (d : Nat) : NestedTransfers w (.upTo d) := by
  induction d with
  | zero =>
    have hbalks : Balks (throw .tooDeep : Parser Node) := fun e i rest a c h => by cases h
    exact ⟨.throws _, hbalks, .throws _, hbalks, .throws _⟩
  | succ d ih =>
    exact ⟨ih.statementParser, NestedTransfers.balks_statement, ih.expressionParser,
      NestedTransfers.balks_expression, ih.factorParser⟩

end Luuqad.Parser

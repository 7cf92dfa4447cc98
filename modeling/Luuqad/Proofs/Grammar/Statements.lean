import Luuqad.Proofs.Grammar.Expressions

/-!
# Reading statements

What the parser does with each form of statement, given what it does with the parts. Statements have
no terminators. `Statement.ends` holds the kinds of tokens that carry no statement on, and
`Statement.ends_of_opens` shows that every token which can start a statement is among them; so a
statement never takes the first token of the next one.
-/

namespace Luuqad

open Luuqad.Parser

variable {t : Token} {ts us : List Token}

/-! ## Where a statement starts and ends -/

namespace Statement

/-- Whether a statement can start with a token of this kind. -/
def opens : TokenKind → Bool
  | .haddii | .dooro | .door | .madoor | .hawl | .celi | .qor | .gelin | .kuceli | .intay | .jooji
  | .soco | .iskuDay | .kaKeen | .fasalka | .leftBrace | .identifier => true
  | k => k.isTypeName

/-- Whether no statement goes on with a token of this kind. -/
def ends (k : TokenKind) : Bool :=
  Level.logical.stops k && k != .haddiiKale && k != .ugudambeyn

theorem ends_of_opens {k : TokenKind} (h : opens k = true) : ends k = true := by
  revert h
  cases k <;> decide

theorem stops_of_ends {k : TokenKind} (h : ends k = true) : Level.logical.stops k = true := by
  simp only [ends, Bool.and_eq_true] at h
  exact h.1.1

theorem sum_stops_of_ends {k : TokenKind} (h : ends k = true) : Level.sum.stops k = true :=
  Level.stops_next (l := .comparison) (Level.stops_next (l := .logical) (stops_of_ends h))

theorem access_stops_of_ends {k : TokenKind} (h : ends k = true) : Level.access.stops k = true :=
  Level.stops_next (l := .factor) (Level.stops_next (l := .term)
    (Level.stops_next (l := .sum) (sum_stops_of_ends h)))

theorem primary_stops_of_ends {k : TokenKind} (h : ends k = true) :
    Level.primary.stops k = true :=
  Level.stops_next (l := .access) (access_stops_of_ends h)

end Statement

/-- The tokens are read as the statement. -/
abbrev StatementRead (s : Statement) (ts : List Token) : Prop :=
  Reads Parser.statement (Statement.ends · = true) s.toNode ts

/-! ## Loops over items -/

namespace Parser

variable {α : Type} {stop : TokenKind} {item : Parser α} {i fuel : Nat}

theorem itemsUntil_stop (ht : t.kind = stop) (hf : 0 < fuel) :
    itemsUntil stop item fuel (.facing i (t :: ts)) = .ok [] (.facing i (t :: ts)) := by
  obtain ⟨fuel, rfl⟩ : ∃ f, fuel = f + 1 := ⟨fuel - 1, by omega⟩
  simp only [itemsUntil, bind_apply, kind_facing, ht, if_true, pure_apply]

theorem itemsUntil_item {c c' : Cursor} {a : α} {more : List α} (ht : Begins (· ≠ stop) ts)
    (h : item (.facing i ts) = .ok a c) (hmore : itemsUntil stop item fuel c = .ok more c') :
    itemsUntil stop item (fuel + 1) (.facing i ts) = .ok (a :: more) c' := by
  obtain ⟨t, ts, rfl, ht⟩ := ht.exists_cons
  simp only [itemsUntil, bind_apply, kind_facing, if_neg ht, h, hmore, pure_apply]

end Parser

/-! ## Bodies -/

/-- Statements are read up to the end of a body or of the program. -/
structure StatementsRead (ss : List Statement) (ts : List Token) : Prop where
  begins : ts = [] ∨ Begins (Statement.opens · = true) ts
  reads (d i fuel : Nat) (c : Token) (rest : List Token) (hd : ts.length ≤ d)
    (hf : ts.length < fuel) (hc : c.kind = .rightBrace ∨ c.kind = .eof) :
    itemsUntil c.kind (Parser.statement (.upTo d)) fuel (.facing i (ts ++ c :: rest)) =
      .ok (Statement.toNodes ss) (.facing (i + ts.length) (c :: rest))

theorem statementsRead_nil : StatementsRead [] [] := by
  refine ⟨.inl rfl, fun d i fuel c rest _ hf _ => ?_⟩
  exact itemsUntil_stop rfl (by simpa using hf)

theorem statementsRead_cons {s : Statement} {ss : List Statement}
    (hopen : Begins (Statement.opens · = true) ts) (hs : StatementRead s ts)
    (hss : StatementsRead ss us) : StatementsRead (s :: ss) (ts ++ us) := by
  refine ⟨.inr hopen.append, fun d i fuel c rest hd hf hc => ?_⟩
  simp only [List.length_append] at hd hf ⊢
  have hpos := hopen.length_pos
  obtain ⟨fuel, rfl⟩ : ∃ f, fuel = f + 1 := ⟨fuel - 1, by omega⟩
  -- what follows is the next statement or the end
  have hends : Begins (Statement.ends · = true) (us ++ c :: rest) := by
    refine .append_of
      (hss.begins.imp_right (Begins.mono · fun _ => Statement.ends_of_opens)) ?_
    show Statement.ends c.kind = true
    rcases hc with hc | hc <;> rw [hc] <;> rfl
  have hne : Begins (· ≠ c.kind) (ts ++ (us ++ c :: rest)) := by
    refine (hopen.mono fun k hk => ?_).append
    rcases hc with hc | hc <;> rw [hc] <;> rintro rfl <;> exact absurd hk (by decide)
  have hmore := hss.reads d (i + ts.length) fuel c rest (by omega) (by omega) hc
  rw [List.append_assoc, itemsUntil_item hne (hs d i _ (by omega) hends) hmore, Statement.toNodes]
  exact congrArg _ (Cursor.facing_congr (by omega))

/-- The tokens are read as a body in braces. -/
abbrev BracedRead (body : List Statement) (ts : List Token) : Prop :=
  Reads Parser.braced (fun _ => True) (Statement.toNodes body) ts

theorem Begins.of_ne_nil (h : ts ≠ []) : Begins (fun _ => True) ts := by
  obtain ⟨t, ts, rfl⟩ := List.exists_cons_of_ne_nil h
  trivial

theorem bracedRead {body : List Statement} (o : Mark .leftBrace) (c : Mark .rightBrace)
    (h : StatementsRead body ts) : BracedRead body (o.val :: (ts ++ [c.val])) := by
  intro d i rest hd hr
  simp only [List.length_cons, List.length_append, List.length_nil] at hd ⊢
  obtain ⟨d, rfl⟩ : ∃ e, d = e + 1 := ⟨d - 1, by omega⟩
  have hbound := Cursor.length_lt_bound (i + 1) (ts ++ c.val :: rest)
  have hbody := h.reads d (i + 1) (Cursor.facing (i + 1) (ts ++ c.val :: rest)).bound c.val rest
    (by omega) (by simp only [List.length_append] at hbound; omega) (.inl c.2)
  rw [c.2] at hbody
  have hnested : (Nested.upTo (d + 1)).statement = Parser.statement (.upTo d) := rfl
  simp only [List.cons_append, List.append_assoc, List.nil_append, braced, bind_apply,
    expect_facing o.2 (show ts ++ c.val :: rest ≠ [] by simp), many, get_apply, hnested, hbody,
    expect_facing c.2 hr.ne_nil, pure_apply]
  exact congrArg _ (Cursor.facing_congr (by omega))

theorem condition_facing {n : Node} {d : Nat} {rest : List Token} (i : Nat) (o : Mark .leftParen)
    (c : Mark .rightParen) (h : Level.logical.Reaches n ts) (hd : ts.length < d) (hr : rest ≠ []) :
    condition (.upTo d) (.facing i (o.val :: (ts ++ c.val :: rest))) =
      .ok n (.facing (i + ts.length + 2) rest) := by
  have he := h.expression_upTo (d := d) (i + 1) hd (c.begins rest rfl)
  simp only [condition, bind_apply, expect_facing o.2 (show ts ++ c.val :: rest ≠ [] by simp), he,
    expect_facing c.2 hr, pure_apply]
  exact congrArg _ (Cursor.facing_congr (by omega))

/-! ## Declarations -/

theorem Name.WrittenAs.name_facing {n : Name} {i : Nat} (h : n.WrittenAs t) (hne : ts ≠ []) :
    name (.facing i (t :: ts)) = .ok (.str n.text) (.facing (i + 1) ts) := by
  simp only [name, bind_apply, expect_facing h.1 hne, h.2, pure_apply]

theorem binding_facing {n : Name} {e : Expression} {u : Token} {d : Nat} {rest : List Token}
    (declared : Option TokenKind) (constant : Bool) (start : Token) (i : Nat) (m : Mark .equal)
    (hn : n.WrittenAs u) (he : Level.logical.Reaches e.toNode ts) (hd : ts.length < d)
    (hr : Begins (Statement.ends · = true) rest) :
    binding (.upTo d) declared constant start (.facing i (u :: m.val :: (ts ++ rest))) =
      .ok { kind := .declaration, value := .str n.text, children := [e.toNode], declared, constant,
            line := start.line, column := start.column } (.facing (i + ts.length + 2) rest) := by
  have hread := he.expression_upTo (d := d) (i + 1 + 1) hd
    (hr.mono fun _ => Statement.stops_of_ends)
  have hne : ts ++ rest ≠ [] := by simp [hr.ne_nil]
  simp only [binding, bind_apply, current_facing, hn.1, ne_eq, not_true, if_false,
    advance_facing (List.cons_ne_nil _ _), expect_facing m.2 hne, hread, hn.2, pure_apply]
  exact congrArg _ (Cursor.facing_congr (by omega))

theorem mem_of_isTypeName {k : TokenKind} (h : k.isTypeName = true) :
    k ∈ [.abn, .jajab, .qoraal, .bool, .teed, .walax] := by
  revert h
  cases k <;> decide

theorem statement_typed {k : TokenKind} {inner : Nested} {i : Nat} (hk : k.isTypeName = true)
    (ht : t.kind = k) : Parser.statement inner (.facing i (t :: ts)) =
      declaration inner true false (.facing i (t :: ts)) := by
  have hmem := mem_of_isTypeName hk
  simp only [List.mem_cons, List.not_mem_nil, or_false] at hmem
  simp only [↓Parser.statement, ↓bind_apply, current_facing, ht]
  rcases hmem with rfl | rfl | rfl | rfl | rfl | rfl <;> rfl

theorem statementRead_declaration {spot : Spot} {constant : Bool} {type : Option TypeWord}
    {n : Name} {e : Expression} {u : Token} {os : List Token} (m : Mark .equal)
    (ho : DeclarationOpening constant type t os) (hs : t.Starts spot) (hn : n.WrittenAs u)
    (he : Level.logical.Reaches e.toNode ts) :
    StatementRead (.declaration spot constant type n e) (t :: (os ++ u :: m.val :: ts)) := by
  intro d i rest hd hr
  simp only [List.length_cons, List.length_append] at hd ⊢
  simp only [Statement.toNode, ← hs.1, ← hs.2]
  have hb (declared : Option TokenKind) (constant : Bool) (start : Token) (j : Nat) :=
    binding_facing (d := d) declared constant start j m hn he (by omega) hr
  -- with `↓` the first token is known before the cases of the statement parser are looked at
  cases ho with
  | untyped t =>
    simp only [List.cons_append, List.nil_append, ↓Parser.statement, ↓bind_apply,
      current_facing, t.2, declaration, Bool.not_false, Bool.true_or, if_true,
      advance_facing (List.cons_ne_nil _ _), hb]
    exact congrArg _ (Cursor.facing_congr (by simp only [List.length_nil]; omega))
  | @typed w t =>
    simp only [List.cons_append, List.nil_append, statement_typed w.isType t.2, bind_apply,
      current_facing, t.2, declaration, Bool.not_false, Bool.true_or, if_true,
      advance_facing (List.cons_ne_nil _ _), hb]
    exact congrArg _ (Cursor.facing_congr (by simp only [List.length_nil]; omega))
  | constant t =>
    have hu : u.kind.isTypeName = false := by rw [hn.1]; rfl
    simp only [List.cons_append, List.nil_append, ↓Parser.statement, ↓bind_apply,
      current_facing, t.2, Parser.constant, advance_facing (List.cons_ne_nil _ _), kind_facing, hu,
      Bool.false_eq_true, if_false, hb]
    exact congrArg _ (Cursor.facing_congr (by simp only [List.length_nil]; omega))
  | @typedConstant w t v =>
    simp only [List.cons_append, List.nil_append, ↓Parser.statement, ↓bind_apply,
      current_facing, t.2, Parser.constant, advance_facing (List.cons_ne_nil _ _), kind_facing,
      v.2, w.isType, if_true, hb]
    exact congrArg _ (Cursor.facing_congr (by simp only [List.length_cons, List.length_nil]; omega))

/-! ## Functions and classes -/

def param : Parser Node := do
  let p ← name
  skip .comma
  return { kind := .identifier, value := p }

theorem params_facing {ns : List Name} (h : ParamsWritten ns ts) (i fuel : Nat) {c : Token}
    (rest : List Token) (hc : c.kind = .rightParen) (hf : ts.length < fuel) :
    itemsUntil .rightParen param fuel (.facing i (ts ++ c :: rest)) =
      .ok (paramNodes ns) (.facing (i + ts.length) (c :: rest)) := by
  induction h generalizing i fuel with
  | none => exact itemsUntil_stop hc (by simpa using hf)
  | @one n t hn =>
    simp only [List.length_cons, List.length_nil] at hf ⊢
    obtain ⟨fuel, rfl⟩ : ∃ f, fuel = f + 1 := ⟨fuel - 1, by omega⟩
    have hitem : param (.facing i (t :: c :: rest)) =
        .ok { kind := .identifier, value := .str n.text } (.facing (i + 1) (c :: rest)) := by
      simp only [param, bind_apply, hn.name_facing (List.cons_ne_nil _ _),
        skip_facing (show Begins (· ≠ .comma) (c :: rest) by simp [Begins, hc]), pure_apply]
    have hne : Begins (· ≠ .rightParen) (t :: c :: rest) := by simp [Begins, hn.1]
    exact itemsUntil_item hne hitem (itemsUntil_stop hc (by omega))
  | @cons n m ns t ts comma hn hns ih =>
    simp only [List.length_cons] at hf ⊢
    obtain ⟨fuel, rfl⟩ : ∃ f, fuel = f + 1 := ⟨fuel - 1, by omega⟩
    have hitem : param (.facing i (t :: comma.val :: (ts ++ c :: rest))) =
        .ok { kind := .identifier, value := .str n.text }
          (.facing (i + 1 + 1) (ts ++ c :: rest)) := by
      simp only [param, bind_apply, hn.name_facing (List.cons_ne_nil _ _),
        skip_facing_of_eq comma.2 (show ts ++ c :: rest ≠ [] by simp), pure_apply]
    have hne : Begins (· ≠ .rightParen) (t :: comma.val :: (ts ++ c :: rest)) := by
      simp [Begins, hn.1]
    rw [List.cons_append, List.cons_append,
      itemsUntil_item hne hitem (ih (i + 1 + 1) fuel (by omega))]
    exact congrArg _ (Cursor.facing_congr (by omega))

theorem statementRead_function {n : Name} {params : List Name} {body : List Statement}
    (k : Mark .hawl) (o : Mark .leftParen) (c : Mark .rightParen) (hn : n.WrittenAs t)
    (hp : ParamsWritten params ts) (hb : BracedRead body us) :
    StatementRead (.function n params body) (k.val :: t :: o.val :: (ts ++ c.val :: us)) := by
  intro d i rest hd hr
  simp only [List.length_cons, List.length_append] at hd ⊢
  have hne : us ++ rest ≠ [] := by simp [hr.ne_nil]
  have hbound := Cursor.length_lt_bound (i + 1 + 1 + 1) (ts ++ c.val :: (us ++ rest))
  have hparams := params_facing hp (i + 1 + 1 + 1)
    (Cursor.facing (i + 1 + 1 + 1) (ts ++ c.val :: (us ++ rest))).bound (us ++ rest) c.2
    (by simp only [List.length_append] at hbound; omega)
  have hbody := hb d (i + 1 + 1 + 1 + ts.length + 1) rest (by omega) (.of_ne_nil hr.ne_nil)
  simp only [param] at hparams
  simp only [List.cons_append, List.append_assoc, ↓Parser.statement, ↓bind_apply,
    current_facing, k.2, function, expect_facing k.2 (List.cons_ne_nil _ _),
    hn.name_facing (List.cons_ne_nil _ _),
    expect_facing o.2 (show ts ++ c.val :: (us ++ rest) ≠ [] by simp), many, get_apply, hparams,
    expect_facing c.2 hne, hbody, pure_apply, Statement.toNode]
  exact congrArg _ (Cursor.facing_congr (by omega))

theorem heading_eq (n : Name) (parent : Option Name) :
    heading (.str n.text) (parent.map fun p => .str p.text) = classHeading n parent := by
  cases parent with
  | none => rfl
  | some p =>
    have hp : p.text.isEmpty = false := by simpa [String.isEmpty_iff] using p.nonempty
    simp [heading, classHeading, Value.isTrue, hp]

theorem statementRead_classDefinition {n : Name} {parent : Option Name} {body : List Statement}
    (k : Mark .fasalka) (hn : n.WrittenAs t) (hp : ParentWritten parent ts)
    (hbegins : Begins (· = .leftBrace) us) (hb : BracedRead body us) :
    StatementRead (.classDefinition n parent body) (k.val :: t :: (ts ++ us)) := by
  intro d i rest hd hr
  simp only [List.length_cons, List.length_append] at hd ⊢
  have hbody (j : Nat) := hb d j rest (by omega) (.of_ne_nil hr.ne_nil)
  have hheading := heading_eq n parent
  cases hp with
  | none =>
    obtain ⟨u, us, rfl, hu⟩ := hbegins.exists_cons
    simp only [List.cons_append] at hbody
    simp only [List.cons_append, List.nil_append, ↓Parser.statement, ↓bind_apply,
      current_facing, k.2, classDefinition, expect_facing k.2 (List.cons_ne_nil _ _),
      hn.name_facing (List.cons_ne_nil _ _), kind_facing, hu, reduceCtorEq, if_false, pure_apply,
      hbody, Statement.toNode, ← hheading, Option.map_none]
    exact congrArg _ (Cursor.facing_congr (by simp only [List.length_nil]; omega))
  | some m hm =>
    have hne : us ++ rest ≠ [] := by simp [hr.ne_nil]
    simp only [List.cons_append, List.nil_append, ↓Parser.statement, ↓bind_apply,
      current_facing, k.2, classDefinition, expect_facing k.2 (List.cons_ne_nil _ _),
      hn.name_facing (List.cons_ne_nil _ _), kind_facing, m.2, if_true,
      advance_facing (List.cons_ne_nil _ _), hm.name_facing hne, pure_apply, hbody,
      Statement.toNode, ← hheading, Option.map_some]
    exact congrArg _ (Cursor.facing_congr (by simp only [List.length_cons, List.length_nil]; omega))

/-! ## Calls, results and imports -/

theorem statementRead_returned {e : Expression} (k : Mark .celi)
    (hopen : Begins (Level.logical.opens · = true) ts) (he : Level.logical.Reaches e.toNode ts) :
    StatementRead (.returned e) (k.val :: ts) := by
  intro d i rest hd hr
  simp only [List.length_cons] at hd ⊢
  have hread := he.expression_upTo (d := d) (i + 1) (by omega)
    (hr.mono fun _ => Statement.stops_of_ends)
  obtain ⟨t, ts, rfl, ht⟩ := hopen.exists_cons
  have hsemicolon : t.kind ≠ .semicolon := ne_of_opens ht (by decide)
  simp only [List.cons_append] at hread
  simp only [List.cons_append, ↓Parser.statement, ↓bind_apply, current_facing, k.2, returnValue,
    expect_facing k.2 (List.cons_ne_nil _ _), kind_facing, if_neg hsemicolon, hread, pure_apply,
    Statement.toNode]
  exact congrArg _ (Cursor.facing_congr (by omega))

/-- The argument of a print statement is read as a sum; parentheses make it one. -/
theorem reaches_sum_of_parens {n : Node} (o : Mark .leftParen) (c : Mark .rightParen)
    (h : Level.logical.Reaches n ts) : Level.sum.Reaches n (o.val :: (ts ++ [c.val])) := by
  have hb {l : Level} (hl : l.opens .leftParen = true) :
      Begins (l.opens · = true) (o.val :: (ts ++ [c.val])) := o.begins _ hl
  have haccess : Level.access.Reaches n (o.val :: (ts ++ [c.val])) :=
    reaches_tighter (hb rfl) (primaryRead_parens o c h).reaches
  have hterm : Level.term.Reaches n (o.val :: (ts ++ [c.val])) :=
    reaches_tighter (hb rfl) (reaches_tighter (l := .factor) (hb rfl) haccess)
  exact reaches_tighter (hb rfl) hterm

theorem statementRead_print {spot : Spot} {e : Expression} (k : Mark .qor) (o : Mark .leftParen)
    (c : Mark .rightParen) (hs : k.val.Starts spot) (he : Level.logical.Reaches e.toNode ts) :
    StatementRead (.print spot e) (k.val :: o.val :: (ts ++ [c.val])) := by
  intro d i rest hd hr
  have hread := (reaches_sum_of_parens o c he).reads d (i + 1) rest
    (by simp only [List.length_cons] at hd ⊢; omega)
    (hr.mono fun _ => Statement.sum_stops_of_ends)
  simp only [Level.parser, List.cons_append, List.length_cons] at hread
  simp only [List.cons_append, ↓Parser.statement, ↓bind_apply, current_facing, k.2,
    advance_facing (List.cons_ne_nil _ _), hread, pure_apply, Statement.toNode, hs.1, hs.2,
    List.length_cons]
  exact congrArg _ (Cursor.facing_congr (by omega))

theorem statementRead_input {es : List Expression} (k : Mark .gelin) (o : Mark .leftParen)
    (c : Mark .rightParen) (hrow : RowRead es ts) :
    StatementRead (.input es) (k.val :: o.val :: (ts ++ [c.val])) := by
  intro d i rest hd hr
  simp only [List.length_cons, List.length_append, List.length_nil] at hd ⊢
  have hargs := (hrow d (i + 1 + 1) c.val rest (by omega) hr.ne_nil).1 c.2
  have hskip {j : Nat} := skip_facing (i := j)
    (hr.mono fun _ h => not_semicolon_of_stops (Statement.primary_stops_of_ends h))
  have hword : ¬(k.val.kind ≠ .identifier ∧ ¬k.val.kind.isFunctionWord = true) := by
    rw [k.2]
    decide
  have hname : nameOf k.val = .str "gelin" := by
    rw [nameOf, k.2]
    rfl
  simp only [List.cons_append, List.append_assoc, List.nil_append, ↓Parser.statement, ↓bind_apply,
    current_facing, k.2]
  simp only [call, bind_apply, current_facing, if_neg hword, pure_apply,
    advance_facing (List.cons_ne_nil _ _), hname, callOf,
    expect_facing o.2 (show ts ++ c.val :: rest ≠ [] by simp), hargs, hskip, Statement.toNode]
  exact congrArg _ (Cursor.facing_congr (by omega))

theorem statementRead_importFile {path : String} (k : Mark .kaKeen)
    (ht : t.Says .string (.str path)) : StatementRead (.importFile path) [k.val, t] := by
  intro d i rest _ hr
  simp only [List.cons_append, List.nil_append, ↓Parser.statement, ↓bind_apply, current_facing, k.2,
    importFile, expect_facing k.2 (List.cons_ne_nil _ _), ht.1, ne_eq, not_true, if_false,
    advance_facing hr.ne_nil, ht.2, pure_apply, Statement.toNode]
  rfl

/-! ## Statements that start with a name -/

theorem statementRead_call {n : Name} {es : List Expression} (o : Mark .leftParen)
    (c : Mark .rightParen) (hn : n.WrittenAs t) (hrow : RowRead es ts) :
    StatementRead (.call n es) (t :: o.val :: (ts ++ [c.val])) := by
  intro d i rest hd hr
  simp only [List.length_cons, List.length_append, List.length_nil] at hd ⊢
  have hargs := (hrow d (i + 1 + 1) c.val rest (by omega) hr.ne_nil).1 c.2
  simp only [List.cons_append, List.append_assoc, List.nil_append, ↓Parser.statement, ↓bind_apply,
    current_facing, hn.1, named, advance_facing (List.cons_ne_nil _ _), kind_facing, o.2,
    advance_facing (show ts ++ c.val :: rest ≠ [] by simp), hargs, hn.2, pure_apply,
    Statement.toNode]
  exact congrArg _ (Cursor.facing_congr (by omega))

/-- What the parser does once it has read a chain: an equals sign makes it the target of an
assignment. -/
def afterChain (inner : Nested) (start : Token) (target : Node) : Parser Node := do
  if (← kind) = .equal then
    advance
    let v ← inner.expression
    return { kind := .assignment, children := [target, v], line := start.line,
             column := start.column }
  else return target

theorem statement_chain {target : Chain} {d i : Nat} {rest : List Token}
    (hn : target.start.WrittenAs t) (h : AccessesRead target.accesses ts) (hd : ts.length ≤ d)
    (hr : Begins (Level.access.stops · = true) rest) :
    Parser.statement (.upTo d) (.facing i (t :: (ts ++ rest))) =
      afterChain (.upTo d) t target.toExpression.toNode (.facing (i + 1 + ts.length) rest) := by
  have hne : ts ++ rest ≠ [] := by simp [hr.ne_nil]
  have hstart : (Expression.name (.name target.start)).toNode =
      { kind := .identifier, value := t.value } := by
    simp only [Expression.toNode, Word.toValue, hn.2]
  simp only [↓Parser.statement, ↓bind_apply, current_facing, hn.1, named, advance_facing hne]
  rcases h.begins with ⟨hnil, rfl⟩ | hbegins
  · obtain ⟨r, rest, rfl, hk⟩ := hr.exists_cons
    simp only [List.nil_append, kind_facing, afterChain, bind_apply, Chain.toExpression, hnil,
      List.foldl_nil, hstart, List.length_nil, Nat.add_zero]
    generalize r.kind = k at hk
    cases k <;> first | rfl | exact absurd hk (by decide)
  · have hbound := Cursor.length_lt_bound (i + 1) (ts ++ rest)
    have hread (notName : Parser Unit) := h.reads notName (.name (.name target.start)) d (i + 1)
      (Cursor.facing (i + 1) (ts ++ rest)).bound rest hd
      (by simp only [List.length_append] at hbound; omega) hr
    rw [hstart] at hread
    obtain ⟨u, us, rfl, hu⟩ := hbegins.exists_cons
    have hk : u.kind = .dot ∨ u.kind = .leftBracket := by simpa [Level.continues] using hu
    obtain ⟨r, rest, rfl, -⟩ := hr.exists_cons
    simp only [List.cons_append] at hread
    rcases hk with hk | hk <;>
    simp only [List.cons_append, kind_facing, hk, bind_apply, get_apply, hread, afterChain,
      Chain.toExpression]

theorem statementRead_access {target : Chain} (hn : target.start.WrittenAs t)
    (h : AccessesRead target.accesses ts) : StatementRead (.access target) (t :: ts) := by
  intro d i rest hd hr
  simp only [List.length_cons] at hd ⊢
  rw [List.cons_append, statement_chain hn h (by omega)
    (hr.mono fun _ => Statement.access_stops_of_ends)]
  obtain ⟨r, rest, rfl, hends⟩ := hr.exists_cons
  have hequal : r.kind ≠ .equal := by
    intro hk
    rw [hk] at hends
    exact absurd hends (by decide)
  simp only [afterChain, bind_apply, kind_facing, if_neg hequal, pure_apply, Statement.toNode]
  exact congrArg _ (Cursor.facing_congr (by omega))

theorem statementRead_assignment {spot : Spot} {target : Chain} {e : Expression} (m : Mark .equal)
    (hn : target.start.WrittenAs t) (hs : t.Starts spot) (h : AccessesRead target.accesses ts)
    (he : Level.logical.Reaches e.toNode us) :
    StatementRead (.assignment spot target e) (t :: (ts ++ m.val :: us)) := by
  intro d i rest hd hr
  simp only [List.length_cons, List.length_append] at hd ⊢
  have hread := he.expression_upTo (d := d) (i + 1 + ts.length + 1) (by omega)
    (hr.mono fun _ => Statement.stops_of_ends)
  have hne : us ++ rest ≠ [] := by simp [hr.ne_nil]
  rw [List.cons_append, List.append_assoc, List.cons_append,
    statement_chain hn h (by omega) (m.begins _ rfl)]
  simp only [afterChain, bind_apply, kind_facing, m.2, if_true,
    advance_facing hne, hread, pure_apply, Statement.toNode, assignmentNode, hs.1, hs.2]
  exact congrArg _ (Cursor.facing_congr (by omega))

/-! ## Loops -/

/-- The step of a loop is read up to the closing parenthesis. -/
structure StepRead (step : Option Expression) (ts : List Token) : Prop where
  begins : ts = [] ∨ Begins (· = .colon) ts
  reads : Reads Parser.loopStep (· = .rightParen) (step.map Expression.toNode).toList ts

theorem stepRead_none : StepRead none [] := by
  refine ⟨.inl rfl, fun d i rest _ hr => ?_⟩
  obtain ⟨r, rest, rfl, hk⟩ := hr.exists_cons
  simp only [List.nil_append, loopStep, bind_apply, kind_facing, hk, reduceCtorEq, if_false,
    pure_apply, Option.map_none, Option.toList_none, List.length_nil, Nat.add_zero]

theorem stepRead_some {e : Expression} (a b : Mark .colon) (he : Level.sum.Reaches e.toNode ts) :
    StepRead (some e) (a.val :: b.val :: ts) := by
  refine ⟨.inr (a.begins _ rfl), fun d i rest hd hr => ?_⟩
  simp only [List.length_cons] at hd ⊢
  have hne : ts ++ rest ≠ [] := by simp [hr.ne_nil]
  have hread := he.reads d (i + 1 + 1) rest (by omega) (hr.mono fun k hk => by rw [hk]; rfl)
  simp only [Level.parser] at hread
  simp only [List.cons_append, loopStep, bind_apply, kind_facing, a.2, b.2, if_true,
    advance_facing (List.cons_ne_nil _ _), advance_facing hne, hread, pure_apply, Option.map_some,
    Option.toList_some]
  exact congrArg _ (Cursor.facing_congr (by omega))

theorem statementRead_loop {n : Name} {first last : Expression} {step : Option Expression}
    {body : List Statement} {vs ws : List Token} (k : Mark .kuceli) (o : Mark .leftParen)
    (upTo : Mark .identifier) (c : Mark .rightParen) (hn : n.WrittenAs t)
    (hfirst : Level.sum.Reaches first.toNode ts) (hlast : Level.sum.Reaches last.toNode us)
    (hstep : StepRead step vs) (hb : BracedRead body ws) :
    StatementRead (.loop n first last step body)
      (k.val :: o.val :: t :: (ts ++ upTo.val :: (us ++ (vs ++ c.val :: ws)))) := by
  intro d i rest hd hr
  simp only [List.length_cons, List.length_append] at hd ⊢
  have hfirst := hfirst.reads d (i + 1 + 1 + 1) (upTo.val :: (us ++ (vs ++ c.val :: (ws ++ rest))))
    (by omega) (upTo.begins _ rfl)
  have hcolon : Begins (Level.sum.stops · = true) (vs ++ c.val :: (ws ++ rest)) :=
    .append_of (hstep.begins.imp_right (Begins.mono · fun k hk => by rw [hk]; rfl))
      (c.begins _ rfl)
  have hlast := hlast.reads d (i + 1 + 1 + 1 + ts.length + 1) _ (by omega) hcolon
  have hstep := hstep.reads d (i + 1 + 1 + 1 + ts.length + 1 + us.length)
    (c.val :: (ws ++ rest)) (by omega) (c.begins _ rfl)
  have hbody := hb d (i + 1 + 1 + 1 + ts.length + 1 + us.length + vs.length + 1) rest (by omega)
    (.of_ne_nil hr.ne_nil)
  simp only [Level.parser] at hfirst hlast
  simp only [List.cons_append, List.append_assoc, ↓Parser.statement, ↓bind_apply,
    current_facing, k.2, Parser.loop, expect_facing k.2 (List.cons_ne_nil _ _),
    expect_facing o.2 (List.cons_ne_nil _ _),
    hn.name_facing (show ts ++ upTo.val :: (us ++ (vs ++ c.val :: (ws ++ rest))) ≠ [] by simp),
    hfirst, expect_facing upTo.2 (show us ++ (vs ++ c.val :: (ws ++ rest)) ≠ [] by simp), hlast,
    hstep, expect_facing c.2 (show ws ++ rest ≠ [] by simp [hr.ne_nil]), hbody, pure_apply,
    Statement.toNode]
  exact congrArg _ (Cursor.facing_congr (by omega))

theorem statementRead_whileLoop {e : Expression} {body : List Statement} (k : Mark .intay)
    (o : Mark .leftParen) (c : Mark .rightParen) (he : Level.logical.Reaches e.toNode ts)
    (hb : BracedRead body us) :
    StatementRead (.whileLoop e body) (k.val :: o.val :: (ts ++ c.val :: us)) := by
  intro d i rest hd hr
  simp only [List.length_cons, List.length_append] at hd ⊢
  have hcond := condition_facing (d := d) (i + 1) o c he (by omega)
    (show us ++ rest ≠ [] by simp [hr.ne_nil])
  have hbody := hb d (i + 1 + ts.length + 2) rest (by omega) (.of_ne_nil hr.ne_nil)
  simp only [List.cons_append, List.append_assoc, ↓Parser.statement, ↓bind_apply,
    current_facing, k.2, Parser.whileLoop, expect_facing k.2 (List.cons_ne_nil _ _), hcond,
    hbody, pure_apply, Statement.toNode]
  exact congrArg _ (Cursor.facing_congr (by omega))

theorem statementRead_breakLoop (k : Mark .jooji) : StatementRead .breakLoop [k.val] := by
  intro d i rest _ hr
  simp only [List.cons_append, List.nil_append, ↓Parser.statement, ↓bind_apply, current_facing, k.2,
    Parser.breakLoop, expect_facing k.2 hr.ne_nil, pure_apply, Statement.toNode, List.length_cons,
    List.length_nil, Nat.zero_add]

theorem statementRead_continueLoop (k : Mark .soco) : StatementRead .continueLoop [k.val] := by
  intro d i rest _ hr
  simp only [List.cons_append, List.nil_append, ↓Parser.statement, ↓bind_apply, current_facing, k.2,
    Parser.continueLoop, expect_facing k.2 hr.ne_nil, pure_apply, Statement.toNode,
    List.length_cons, List.length_nil, Nat.zero_add]

/-! ## Conditionals and switches -/

/-- Further conditions are read up to a token that starts no other. -/
def BranchesRead (bs : List Branch) (ts : List Token) : Prop :=
  ∀ (d i fuel : Nat) (rest : List Token), ts.length ≤ d → ts.length < fuel →
    Begins (· ≠ .haddiiKale) rest →
    alternatives (.upTo d) fuel (.facing i (ts ++ rest)) =
      .ok (Statement.branchNodes bs) (.facing (i + ts.length) rest)

theorem branchesRead_nil : BranchesRead [] [] := by
  intro d i fuel rest _ hf hr
  obtain ⟨fuel, rfl⟩ : ∃ f, fuel = f + 1 := ⟨fuel - 1, by simp at hf; omega⟩
  obtain ⟨r, rest, rfl, hk⟩ := hr.exists_cons
  simp only [List.nil_append, alternatives, bind_apply, kind_facing, if_neg hk, pure_apply,
    Statement.branchNodes, List.length_nil, Nat.add_zero]

theorem branchesRead_cons {e : Expression} {body : List Statement} {bs : List Branch}
    {vs : List Token} (k : Mark .haddiiKale) (o : Mark .leftParen) (c : Mark .rightParen)
    (he : Level.logical.Reaches e.toNode ts) (hb : BracedRead body us) (hbs : BranchesRead bs vs) :
    BranchesRead (.mk e body :: bs) (k.val :: o.val :: (ts ++ c.val :: (us ++ vs))) := by
  intro d i fuel rest hd hf hr
  simp only [List.length_cons, List.length_append] at hd hf ⊢
  obtain ⟨fuel, rfl⟩ : ∃ f, fuel = f + 1 := ⟨fuel - 1, by omega⟩
  have hne : vs ++ rest ≠ [] := by simp [hr.ne_nil]
  have hcond := condition_facing (d := d) (i + 1) o c he (by omega)
    (show us ++ (vs ++ rest) ≠ [] by simp [hr.ne_nil])
  have hbody := hb d (i + 1 + ts.length + 2) (vs ++ rest) (by omega) (.of_ne_nil hne)
  have hmore := hbs d (i + 1 + ts.length + 2 + us.length) fuel rest (by omega) (by omega) hr
  simp only [List.cons_append, List.append_assoc, alternatives, bind_apply, kind_facing, k.2,
    if_true, advance_facing (List.cons_ne_nil _ _), hcond, hbody, hmore, pure_apply,
    Statement.branchNodes]
  exact congrArg _ (Cursor.facing_congr (by omega))

def lastResort (inner : Nested) : Parser (List Node) := do
  if (← kind) = .ugudambeyn then
    advance
    let b ← braced inner
    pure [{ kind := .block, children := b }]
  else pure []

theorem conditional_eq (inner : Nested) :
    conditional inner = do
      let _ ← expect .haddii
      let c ← condition inner
      let body ← braced inner
      let others ← alternatives inner (← get).bound
      let last ← lastResort inner
      return { kind := .conditional, children := c :: body ++ others ++ last } := by
  have hite {α β : Type} (p : Prop) [Decidable p] (x y : Parser α) (f : α → Parser β) :
      (if p then x else y) >>= f = if p then x >>= f else y >>= f := by
    split <;> rfl
  simp only [conditional, lastResort, bind_assoc, hite]

/-- The last resort of a conditional is read up to the end of the statement. -/
structure LastRead (last : Option (List Statement)) (ts : List Token) : Prop where
  begins : ts = [] ∨ Begins (· = .ugudambeyn) ts
  reads : Reads lastResort (Statement.ends · = true) (Statement.lastNodes last) ts

theorem lastRead_none : LastRead none [] := by
  refine ⟨.inl rfl, fun d i rest _ hr => ?_⟩
  obtain ⟨r, rest, rfl, hends⟩ := hr.exists_cons
  have hk : r.kind ≠ .ugudambeyn := by
    intro hk
    rw [hk] at hends
    exact absurd hends (by decide)
  simp only [List.nil_append, lastResort, bind_apply, kind_facing, if_neg hk, pure_apply,
    Statement.lastNodes, List.length_nil, Nat.add_zero]

theorem lastRead_some {body : List Statement} (k : Mark .ugudambeyn) (hb : BracedRead body ts) :
    LastRead (some body) (k.val :: ts) := by
  refine ⟨.inr (k.begins _ rfl), fun d i rest hd hr => ?_⟩
  simp only [List.length_cons] at hd ⊢
  have hne : ts ++ rest ≠ [] := by simp [hr.ne_nil]
  have hbody := hb d (i + 1) rest (by omega) (.of_ne_nil hr.ne_nil)
  simp only [List.cons_append, lastResort, bind_apply, kind_facing, k.2, if_true,
    advance_facing hne, hbody, pure_apply, Statement.lastNodes]
  exact congrArg _ (Cursor.facing_congr (by omega))

theorem statementRead_conditional {e : Expression} {body : List Statement} {others : List Branch}
    {last : Option (List Statement)} {vs ws : List Token} (k : Mark .haddii) (o : Mark .leftParen)
    (c : Mark .rightParen) (he : Level.logical.Reaches e.toNode ts) (hb : BracedRead body us)
    (hothers : BranchesRead others vs) (hlast : LastRead last ws) :
    StatementRead (.conditional e body others last)
      (k.val :: o.val :: (ts ++ c.val :: (us ++ (vs ++ ws)))) := by
  intro d i rest hd hr
  simp only [List.length_cons, List.length_append] at hd ⊢
  have hcond := condition_facing (d := d) (i + 1) o c he (by omega)
    (show us ++ (vs ++ (ws ++ rest)) ≠ [] by simp [hr.ne_nil])
  have hbody := hb d (i + 1 + ts.length + 2) (vs ++ (ws ++ rest)) (by omega)
    (.of_ne_nil (by simp [hr.ne_nil]))
  -- neither the last resort nor the next statement is a further condition
  have hno : Begins (· ≠ .haddiiKale) (ws ++ rest) := by
    refine .append_of (hlast.begins.imp_right (Begins.mono · fun k hk => by rw [hk]; decide))
      (hr.mono fun k hk => ?_)
    rintro rfl
    exact absurd hk (by decide)
  have hbound := Cursor.length_lt_bound (i + 1 + ts.length + 2 + us.length) (vs ++ (ws ++ rest))
  have hothers := hothers d (i + 1 + ts.length + 2 + us.length)
    (Cursor.facing (i + 1 + ts.length + 2 + us.length) (vs ++ (ws ++ rest))).bound (ws ++ rest)
    (by omega) (by simp only [List.length_append] at hbound; omega) hno
  have hlast := hlast.reads d (i + 1 + ts.length + 2 + us.length + vs.length) rest (by omega) hr
  simp only [List.cons_append, List.append_assoc, ↓Parser.statement, ↓bind_apply, current_facing,
    k.2, conditional_eq, expect_facing k.2 (List.cons_ne_nil _ _), hcond, hbody, get_apply, hothers,
    hlast, pure_apply, Statement.toNode]
  exact congrArg _ (Cursor.facing_congr (by omega))

/-- Clauses are read up to the end of a switch. -/
def ClausesRead (cs : List Clause) (ts : List Token) : Prop :=
  ∀ (d i fuel : Nat) (c : Token) (rest : List Token), ts.length ≤ d → ts.length < fuel →
    c.kind = .rightBrace →
    itemsUntil .rightBrace (clause (.upTo d)) fuel (.facing i (ts ++ c :: rest)) =
      .ok (Statement.clauseNodes cs) (.facing (i + ts.length) (c :: rest))

theorem clausesRead_nil : ClausesRead [] [] := by
  intro d i fuel c rest _ hf hc
  exact itemsUntil_stop hc (by simpa using hf)

theorem clausesRead_value {e : Expression} {body : List Statement} {cs : List Clause}
    {vs : List Token} (k : Mark .xaalad) (he : Level.logical.Reaches e.toNode ts)
    (hbegins : Begins (· = .leftBrace) us) (hb : BracedRead body us) (hcs : ClausesRead cs vs) :
    ClausesRead (.value e body :: cs) (k.val :: (ts ++ (us ++ vs))) := by
  intro d i fuel c rest hd hf hc
  simp only [List.length_cons, List.length_append] at hd hf ⊢
  obtain ⟨fuel, rfl⟩ : ∃ f, fuel = f + 1 := ⟨fuel - 1, by omega⟩
  have hstops : Begins (Level.logical.stops · = true) (us ++ (vs ++ c :: rest)) :=
    (hbegins.mono fun k hk => by rw [hk]; rfl).append
  have hread := he.expression_upTo (d := d) (i + 1) (by omega) hstops
  have hbody := hb d (i + 1 + ts.length) (vs ++ c :: rest) (by omega) (.of_ne_nil (by simp))
  have hmore := hcs d (i + 1 + ts.length + us.length) fuel c rest (by omega) (by omega) hc
  have hitem : clause (.upTo d) (.facing i (k.val :: (ts ++ (us ++ (vs ++ c :: rest))))) =
      .ok { kind := .block, children := e.toNode :: Statement.toNodes body }
        (.facing (i + 1 + ts.length + us.length) (vs ++ c :: rest)) := by
    simp only [clause, bind_apply, kind_facing, k.2,
      advance_facing (show ts ++ (us ++ (vs ++ c :: rest)) ≠ [] by simp), hread, hbody, pure_apply]
  simp only [List.cons_append, List.append_assoc, Statement.clauseNodes]
  rw [itemsUntil_item (k.begins _ (by decide)) hitem hmore]
  exact congrArg _ (Cursor.facing_congr (by omega))

theorem clausesRead_last {body : List Statement} {cs : List Clause} (k : Mark .ugudambeyn)
    (hb : BracedRead body ts) (hcs : ClausesRead cs us) :
    ClausesRead (.last body :: cs) (k.val :: (ts ++ us)) := by
  intro d i fuel c rest hd hf hc
  simp only [List.length_cons, List.length_append] at hd hf ⊢
  obtain ⟨fuel, rfl⟩ : ∃ f, fuel = f + 1 := ⟨fuel - 1, by omega⟩
  have hbody := hb d (i + 1) (us ++ c :: rest) (by omega) (.of_ne_nil (by simp))
  have hmore := hcs d (i + 1 + ts.length) fuel c rest (by omega) (by omega) hc
  have hitem : clause (.upTo d) (.facing i (k.val :: (ts ++ (us ++ c :: rest)))) =
      .ok { kind := .block, children := Statement.toNodes body }
        (.facing (i + 1 + ts.length) (us ++ c :: rest)) := by
    simp only [clause, bind_apply, kind_facing, k.2,
      advance_facing (show ts ++ (us ++ c :: rest) ≠ [] by simp), hbody, pure_apply]
  simp only [List.cons_append, List.append_assoc, Statement.clauseNodes]
  rw [itemsUntil_item (k.begins _ (by decide)) hitem hmore]
  exact congrArg _ (Cursor.facing_congr (by omega))

theorem statementRead_switch {e : Expression} {cs : List Clause} (k : Mark .dooro)
    (o : Mark .leftParen) (c : Mark .rightParen) (ob : Mark .leftBrace) (cb : Mark .rightBrace)
    (he : Level.logical.Reaches e.toNode ts) (hcs : ClausesRead cs us) :
    StatementRead (.switch e cs)
      (k.val :: o.val :: (ts ++ c.val :: ob.val :: (us ++ [cb.val]))) := by
  intro d i rest hd hr
  simp only [List.length_cons, List.length_append, List.length_nil] at hd ⊢
  have hcond := condition_facing (d := d) (i + 1) o c he (by omega)
    (List.cons_ne_nil ob.val (us ++ cb.val :: rest))
  have hbound := Cursor.length_lt_bound (i + 1 + ts.length + 2 + 1) (us ++ cb.val :: rest)
  have hclauses := hcs d (i + 1 + ts.length + 2 + 1)
    (Cursor.facing (i + 1 + ts.length + 2 + 1) (us ++ cb.val :: rest)).bound cb.val rest (by omega)
    (by simp only [List.length_append] at hbound; omega) cb.2
  simp only [List.cons_append, List.append_assoc, List.nil_append, ↓Parser.statement, ↓bind_apply,
    current_facing, k.2, switch, expect_facing k.2 (List.cons_ne_nil _ _), hcond,
    expect_facing ob.2 (show us ++ cb.val :: rest ≠ [] by simp), many, get_apply, hclauses,
    expect_facing cb.2 hr.ne_nil, pure_apply, Statement.toNode]
  exact congrArg _ (Cursor.facing_congr (by omega))

/-! ## Blocks and handlers -/

theorem statementRead_tryCatch {n : Name} {body handler : List Statement} (k : Mark .iskuDay)
    (q : Mark .qabo) (o : Mark .leftParen) (c : Mark .rightParen) (hb : BracedRead body ts)
    (hn : n.WrittenAs t) (hh : BracedRead handler us) :
    StatementRead (.tryCatch body n handler)
      (k.val :: (ts ++ q.val :: o.val :: t :: c.val :: us)) := by
  intro d i rest hd hr
  simp only [List.length_cons, List.length_append] at hd ⊢
  have hbody := hb d (i + 1) (q.val :: o.val :: t :: c.val :: (us ++ rest)) (by omega)
    (.of_ne_nil (by simp))
  have hhandler := hh d (i + 1 + ts.length + 1 + 1 + 1 + 1) rest (by omega)
    (.of_ne_nil hr.ne_nil)
  simp only [List.cons_append, List.append_assoc, ↓Parser.statement, ↓bind_apply,
    current_facing, k.2, Parser.tryCatch,
    expect_facing k.2 (show ts ++ q.val :: o.val :: t :: c.val :: (us ++ rest) ≠ [] by simp), hbody,
    expect_facing q.2 (List.cons_ne_nil _ _), expect_facing o.2 (List.cons_ne_nil _ _),
    hn.name_facing (List.cons_ne_nil _ _),
    expect_facing c.2 (show us ++ rest ≠ [] by simp [hr.ne_nil]), hhandler, pure_apply,
    Statement.toNode]
  exact congrArg _ (Cursor.facing_congr (by omega))

theorem statementRead_block {body : List Statement} (hbegins : Begins (· = .leftBrace) ts)
    (hb : BracedRead body ts) : StatementRead (.block body) ts := by
  intro d i rest hd hr
  have hbody := hb d i rest hd (.of_ne_nil hr.ne_nil)
  obtain ⟨t, ts, rfl, ht⟩ := hbegins.exists_cons
  simp only [List.cons_append] at hbody ⊢
  simp only [↓Parser.statement, ↓bind_apply, current_facing, ht, hbody, pure_apply,
    Statement.toNode]

end Luuqad

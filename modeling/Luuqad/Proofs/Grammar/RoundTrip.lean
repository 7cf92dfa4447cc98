import Luuqad.Proofs.Grammar.Render
import Luuqad.Proofs.Grammar.Statements

/-!
# The parser reads every program back

The tokens of a phrase are understood: the parser of the phrase passes exactly them and returns the
tree of the phrase. This is shown by one induction over the rules of `Written`, with the lemmas of
`Luuqad.Proofs.Grammar.Expressions` and `Luuqad.Proofs.Grammar.Statements` as its cases. Besides the
tree, the induction carries the first tokens of expressions, statements and bodies, which is what
tells apart the statements that stand side by side.
-/

namespace Luuqad

open Luuqad.Parser

variable {ts : List Token}

/-- What the parser does with the tokens of a phrase. -/
def Phrase.Understood : Phrase → List Token → Prop
  | expression l e, ts => Begins (l.opens · = true) ts ∧ l.Reaches e.toNode ts
  | row es, ts => RowRead es ts
  | further es, ts => FurtherRead es ts
  | entries es, ts => EntriesRead es ts
  | furtherEntries es, ts => FurtherEntriesRead es ts
  | accesses as, ts => AccessesRead as ts
  | step s, ts => StepRead s ts
  | statement s, ts => Begins (Statement.opens · = true) ts ∧ StatementRead s ts
  | statements ss, ts => StatementsRead ss ts
  | braced body, ts => Begins (· = .leftBrace) ts ∧ BracedRead body ts
  | branches bs, ts => BranchesRead bs ts
  | last body, ts => LastRead body ts
  | clauses cs, ts => ClausesRead cs ts

theorem opens_of_isFunctionWord {k : TokenKind} (h : k.isFunctionWord = true) :
    Level.primary.opens k = true := by
  revert h
  cases k <;> decide

theorem Word.WrittenAs.opens {w : Word} {t : Token} (h : w.WrittenAs t) :
    Level.primary.opens t.kind = true := by
  cases w with
  | name n =>
    rw [h.1]
    rfl
  | keyword k hk =>
    have ht : t.kind = k := h
    rw [ht]
    exact opens_of_isFunctionWord hk

theorem DeclarationOpening.opens {constant : Bool} {type : Option TypeWord} {t : Token}
    {os : List Token} (h : DeclarationOpening constant type t os) :
    Statement.opens t.kind = true := by
  cases h with
  | untyped t | constant t | typedConstant t _ =>
    rw [t.2]
    rfl
  | @typed w t =>
    have hmem := mem_of_isTypeName w.isType
    rw [t.2]
    simp only [List.mem_cons, List.not_mem_nil, or_false] at hmem
    rcases hmem with h | h | h | h | h | h <;> rw [h] <;> rfl

theorem Name.WrittenAs.opens {n : Name} {t : Token} (h : n.WrittenAs t) :
    Statement.opens t.kind = true := by
  rw [h.1]
  rfl

theorem Token.Says.begins {t : Token} {k : TokenKind} {v : Value} {p : TokenKind → Prop}
    {rest : List Token} (h : t.Says k v) (hk : p k) : Begins p (t :: rest) := by
  show p t.kind
  rw [h.1]
  exact hk

theorem literal?_eq {t : Token} {k : TokenKind} (hk : k = .number ∨ k = .string)
    {v : Value} (h : t.Says k v) : t.literal? = some v := by
  rcases hk with rfl | rfl <;> simp only [Token.literal?, h.1, h.2]

/-- What is written is understood. -/
theorem Written.understood {p : Phrase} (h : Written p ts) : p.Understood ts := by
  induction h with
  | number h => exact ⟨h.begins rfl, (primaryRead_literal (literal?_eq (.inl rfl) h)).reaches⟩
  | text h => exact ⟨h.begins rfl, (primaryRead_literal (literal?_eq (.inr rfl) h)).reaches⟩
  | true t =>
    exact ⟨t.begins _ rfl, (primaryRead_literal (by simp only [Token.literal?, t.2])).reaches⟩
  | false t =>
    exact ⟨t.begins _ rfl, (primaryRead_literal (by simp only [Token.literal?, t.2])).reaches⟩
  | null t =>
    exact ⟨t.begins _ rfl, (primaryRead_literal (by simp only [Token.literal?, t.2])).reaches⟩
  | name h => exact ⟨h.opens, (primaryRead_name h).reaches⟩
  | call o c h _ ih => exact ⟨h.opens, (primaryRead_call o c h ih).reaches⟩
  | list o c _ ih => exact ⟨o.begins _ rfl, (primaryRead_list o c ih).reaches⟩
  | object o c _ ih => exact ⟨o.begins _ rfl, (primaryRead_object o c ih).reaches⟩
  | parens o c _ ih => exact ⟨o.begins _ rfl, (primaryRead_parens o c ih.2).reaches⟩
  | property p _ hn ih => exact ⟨ih.1.append, reaches_access ih.2 (accessRead_property p hn)⟩
  | method p o c _ hn _ ih ihrow =>
    exact ⟨ih.1.append, reaches_access ih.2 (accessRead_method p o c hn ihrow)⟩
  | index o c _ _ ih ihplace =>
    exact ⟨ih.1.append, reaches_access ih.2 (accessRead_index o c ihplace.2)⟩
  | plus t _ ih => exact ⟨t.begins _ rfl, reaches_plus t ih.1.ne_nil ih.2⟩
  | negative t _ ih =>
    exact ⟨t.begins _ rfl, Expression.toNode_negative _ ▸ reaches_negative t ih.1.ne_nil ih.2⟩
  | not t _ ih => exact ⟨t.begins _ rfl, reaches_not t ih.1.ne_nil ih.2⟩
  | binary _ ho _ ihleft ihright =>
    exact ⟨ihleft.1.append, reaches_binary ihleft.2 ho ihright.1.ne_nil ihright.2⟩
  | tighter _ ih =>
    exact ⟨ih.1.mono fun _ => Level.opens_of_next, reaches_tighter ih.1 ih.2⟩
  | emptyRow => exact rowRead_nil
  | row _ _ ih ihmore => exact rowRead_cons ih.1 ih.2 ihmore
  | noFurther => exact furtherRead_nil
  | further m _ _ ih ihmore => exact furtherRead_cons m ih.1 ih.2 ihmore
  | noEntries => exact entriesRead_nil
  | entries m hk _ _ ih ihmore => exact entriesRead_cons m hk ih.1.ne_nil ih.2 ihmore
  | noFurtherEntries => exact furtherEntriesRead_nil
  | furtherEntries m _ _ ih => exact furtherEntriesRead_cons m ih
  | noAccess => exact accessesRead_nil
  | propertyAccess p hn _ ih => exact accessesRead_cons (accessRead_property p hn) ih
  | methodAccess p o c hn _ _ ihrow ih =>
    simpa [Phrase.Understood] using accessesRead_cons (accessRead_method p o c hn ihrow) ih
  | indexAccess o c _ _ ihplace ih =>
    simpa [Phrase.Understood] using accessesRead_cons (accessRead_index o c ihplace.2) ih
  | declaration m ho hs hn _ ih => exact ⟨ho.opens, statementRead_declaration m ho hs hn ih.2⟩
  | function k o c hn hp _ ih =>
    exact ⟨k.begins _ rfl, statementRead_function k o c hn hp ih.2⟩
  | returned k _ ih => exact ⟨k.begins _ rfl, statementRead_returned k ih.1 ih.2⟩
  | print k o c hs _ ih => exact ⟨k.begins _ rfl, statementRead_print k o c hs ih.2⟩
  | input k o c _ ih => exact ⟨k.begins _ rfl, statementRead_input k o c ih⟩
  | callStatement o c hn _ ih => exact ⟨hn.opens, statementRead_call o c hn ih⟩
  | access hn _ ih => exact ⟨hn.opens, statementRead_access hn ih⟩
  | assignment m hn hs _ _ ihtarget ih =>
    exact ⟨hn.opens, statementRead_assignment m hn hs ihtarget ih.2⟩
  | conditional k o c _ _ _ _ ih ihbody ihothers ihlast =>
    exact ⟨k.begins _ rfl, statementRead_conditional k o c ih.2 ihbody.2 ihothers ihlast⟩
  | switch k o c ob cb _ _ ih ihclauses =>
    exact ⟨k.begins _ rfl, statementRead_switch k o c ob cb ih.2 ihclauses⟩
  | loop k o upTo c hn _ _ _ _ ihfirst ihlast ihstep ihbody =>
    exact ⟨k.begins _ rfl,
      statementRead_loop k o upTo c hn ihfirst.2 ihlast.2 ihstep ihbody.2⟩
  | whileLoop k o c _ _ ih ihbody =>
    exact ⟨k.begins _ rfl, statementRead_whileLoop k o c ih.2 ihbody.2⟩
  | breakLoop k => exact ⟨k.begins _ rfl, statementRead_breakLoop k⟩
  | continueLoop k => exact ⟨k.begins _ rfl, statementRead_continueLoop k⟩
  | tryCatch k q o c _ hn _ ihbody ihhandler =>
    exact ⟨k.begins _ rfl, statementRead_tryCatch k q o c ihbody.2 hn ihhandler.2⟩
  | importFile k ht => exact ⟨k.begins _ rfl, statementRead_importFile k ht⟩
  | classDefinition k hn hp _ ih =>
    exact ⟨k.begins _ rfl, statementRead_classDefinition k hn hp ih.1 ih.2⟩
  | block _ ih =>
    exact ⟨ih.1.mono fun k hk => by rw [hk]; rfl, statementRead_block ih.1 ih.2⟩
  | noStatements => exact statementsRead_nil
  | statements _ _ ih ihmore => exact statementsRead_cons ih.1 ih.2 ihmore
  | braced o c _ ih => exact ⟨o.begins _ rfl, bracedRead o c ih⟩
  | noStep => exact stepRead_none
  | step a b _ ih => exact stepRead_some a b ih.2
  | noBranches => exact branchesRead_nil
  | branches k o c _ _ _ ih ihbody ihmore => exact branchesRead_cons k o c ih.2 ihbody.2 ihmore
  | noLast => exact lastRead_none
  | last k _ ih => exact lastRead_some k ih.2
  | noClauses => exact clausesRead_nil
  | valueClause k _ _ _ ih ihbody ihmore =>
    exact clausesRead_value k ih.2 ihbody.1 ihbody.2 ihmore
  | lastClause k _ _ ih ihmore => exact clausesRead_last k ih.2 ihmore

theorem parse_of_statementsRead {p : Program} (e : Mark .eof) (h : StatementsRead p ts) :
    parse (ts ++ [e.val]) = .ok p.toNode := by
  have hstart : Cursor.ofTokens? (ts ++ [e.val]) = some (.facing 0 (ts ++ [e.val])) := by
    cases ts <;> rfl
  have hbound := Cursor.length_lt_bound 0 (ts ++ [e.val])
  have hread := h.reads ((ts ++ [e.val]).length + 2) 0 (Cursor.facing 0 (ts ++ [e.val])).bound
    e.val [] (by simp only [List.length_append]; omega)
    (by simp only [List.length_append] at hbound; omega) (.inr e.2)
  rw [e.2] at hread
  have hprogram : program (.upTo ((ts ++ [e.val]).length + 2)) (.facing 0 (ts ++ [e.val])) =
      .ok p.toNode (.facing (0 + ts.length) [e.val]) := by
    simp only [program, many, bind_apply, get_apply, hread, pure_apply, Program.toNode]
  have hrun : run program (ts ++ [e.val]) =
      some (.ok p.toNode (.facing (0 + ts.length) [e.val])) := by
    unfold run
    rw [hstart]
    exact congrArg some hprogram
  unfold parse
  rw [hrun]

/-- Every program can be written, and however it is written, the parser reads exactly its tree. -/
theorem parse_writtenAs (p : Program) :
    p.WrittenAs p.render ∧ ∀ tokens, p.WrittenAs tokens → parse tokens = .ok p.toNode := by
  refine ⟨p.writtenAs_render, fun tokens h => ?_⟩
  obtain ⟨ts, e, hts, rfl⟩ := h
  exact parse_of_statementsRead e hts.understood

/-- The statements `x = 1 - 1 - 1` and `x` side by side, without any parentheses. -/
theorem parse_writtenAs_differences :
    let x : Name := ⟨"x", by decide⟩
    let one : Expression := .number (.int 1)
    let p : Program :=
      [.assignment ⟨none, none⟩ ⟨x, []⟩ (.binary .subtract (.binary .subtract one one) one),
       .access ⟨x, []⟩]
    let number : Token := { kind := .number, value := .int 1 }
    let minus : Token := { kind := .minus, value := .str "-" }
    let tokens : List Token :=
      [x.render, (Mark.plain .equal).val, number, minus, number, minus, number, x.render,
       (Mark.plain .eof).val]
    p.WrittenAs tokens ∧ parse tokens = .ok p.toNode := by
  intro x one p number minus tokens
  have hone (l : Level) : Written (.expression l one) [number] :=
    (Written.number (n := .int 1) ⟨rfl, rfl⟩).at_level l
  have hminus : Operator.subtract.WrittenAs [minus] := .single (by decide) ⟨rfl, rfl⟩
  have hdifference : Written (.expression Operator.subtract.level (.binary .subtract one one))
      [number, minus, number] := .binary (hone _) hminus (hone _)
  have hvalue : Written
      (.expression Operator.subtract.level (.binary .subtract (.binary .subtract one one) one))
      [number, minus, number, minus, number] := .binary hdifference hminus (hone _)
  have hp : p.WrittenAs tokens :=
    ⟨_, Mark.plain .eof,
      .statements (.assignment (Mark.plain .equal) x.writtenAs_render ⟨rfl, rfl⟩ .noAccess
          (.tighter (.tighter hvalue)))
        (.statements (.access x.writtenAs_render .noAccess) .noStatements), rfl⟩
  exact ⟨hp, (parse_writtenAs p).2 tokens hp⟩

end Luuqad

import Luuqad.Proofs.Parsing.Statements
import Luuqad.Proofs.Parsing.Steps

/-!
# Parsing any tokens

The parser comes to an end on all tokens whose last one is an end token, however wrong those before
it are. It never looks past the first end token. A syntax error is reported at the first token at
which no program can go on: the tokens before it can be completed to a program, and nothing that
follows it is looked at.
-/

namespace Luuqad

open Luuqad.Parser Luuqad.Parser.Graded

def EndsInEof (tokens : List Token) : Prop := ∃ e, tokens.getLast? = some e ∧ e.kind = .eof

def firstEof (tokens : List Token) : Nat := tokens.findIdx (·.kind == .eof)

variable {tokens pre rest : List Token} {t : Token}

theorem EndsInEof.exists_eof (h : EndsInEof tokens) : ∃ t ∈ tokens, t.kind = .eof := by
  obtain ⟨e, he, hkind⟩ := h
  exact ⟨e, List.mem_of_getLast? he, hkind⟩

theorem EndsInEof.append_eof (ts : List Token) (e : Mark .eof) : EndsInEof (ts ++ [e.val]) :=
  ⟨e.val, by simp, e.2⟩

theorem firstEof_append (hpre : ∀ u ∈ pre, u.kind ≠ .eof) (rest : List Token) :
    firstEof (pre ++ rest) = firstEof rest + pre.length := by
  have hnone : ¬pre.findIdx (·.kind == .eof) < pre.length := by
    rw [List.findIdx_lt_length]
    rintro ⟨u, hu, hkind⟩
    exact hpre u hu (by simpa using hkind)
  rw [firstEof, List.findIdx_append, if_neg hnone, firstEof]

theorem firstEof_of_kind (h : t.kind = .eof) : firstEof (t :: rest) = 0 := by
  simp [firstEof, List.findIdx_cons, h]

/-! ## Running the parser of programs -/

theorem run_facing {α : Type} (p : Nested → Parser α) (h : tokens ≠ []) :
    Parser.run p tokens = some (p (.upTo (tokens.length + 2)) (.facing 0 tokens)) := by
  obtain ⟨t, ts, rfl⟩ := List.exists_cons_of_ne_nil h
  rfl

theorem parse_of_ok {node : Node} {c : Cursor}
    (h : Parser.run program tokens = some (.ok node c)) : parse tokens = .ok node := by
  rw [parse, h]

theorem parse_of_error {e : Diagnostic} {c : Cursor}
    (h : Parser.run program tokens = some (.error (.error e) c)) :
    parse tokens = .error (.fault (.error e)) := by
  rw [parse, h]

theorem itemsUntil_current {α : Type} {stop : TokenKind} {item : Parser α} {fuel : Nat}
    {c c' : Cursor} {items : List α} (h : itemsUntil stop item fuel c = .ok items c') :
    c'.current.kind = stop := by
  induction fuel generalizing c items with
  | zero => cases h
  | succ fuel ih =>
    obtain ⟨k, c₁, hkind, h⟩ := bind_eq_ok h
    cases hkind
    by_cases hk : c.current.kind = stop
    · rw [if_pos hk] at h
      cases h
      exact hk
    · rw [if_neg hk] at h
      obtain ⟨a, c₁, -, h⟩ := bind_eq_ok h
      obtain ⟨more, c₂, hmore, h⟩ := bind_eq_ok h
      cases h
      exact ih hmore

theorem program_current {d : Nat} {c c' : Cursor} {node : Node}
    (h : program (.upTo d) c = .ok node c') : node.kind = .program ∧ c'.current.kind = .eof := by
  obtain ⟨statements, c₁, hmany, h⟩ := bind_eq_ok h
  cases h
  exact ⟨rfl, itemsUntil_current hmany⟩

/-- The tokens are passed as a program in front of the token `t`, at every depth that is large
enough. -/
def Accepted (pre : List Token) (t : Token) (node : Node) : Prop :=
  ∀ d rest, pre.length ≤ d →
    program (.upTo d) (.facing 0 (pre ++ t :: rest)) = .ok node (.facing pre.length (t :: rest))

/-- The tokens are passed, and then an error is reported at the token `t`, at every depth that is
large enough. -/
def Rejected (pre : List Token) (t : Token) (e : Diagnostic) : Prop :=
  ∀ d rest, pre.length ≤ d →
    program (.upTo d) (.facing 0 (pre ++ t :: rest)) =
      .error (.error e) (.facing pre.length (t :: rest))

theorem accepted_of_passes {ends : TokenKind → Prop} {node : Node}
    (h : Passes (fun d _ => program (.upTo d)) 0 ends node pre) (ht : ends t.kind) :
    Accepted pre t node := by
  intro d rest hd
  have hrun := h d (pre.length + 1) 0 (t :: rest) hd (Nat.lt_succ_self _) ht
  rwa [Nat.zero_add] at hrun

theorem Accepted.run {node : Node} (h : Accepted pre t node) (rest : List Token) :
    Parser.run program (pre ++ t :: rest) = some (.ok node (.facing pre.length (t :: rest))) := by
  have hdepth : pre.length ≤ (pre ++ t :: rest).length + 2 := by simp; omega
  rw [run_facing _ (by simp), h _ rest hdepth]

theorem Rejected.run {e : Diagnostic} (h : Rejected pre t e) (rest : List Token) :
    Parser.run program (pre ++ t :: rest) =
      some (.error (.error e) (.facing pre.length (t :: rest))) := by
  have hdepth : pre.length ≤ (pre ++ t :: rest).length + 2 := by simp; omega
  rw [run_facing _ (by simp), h _ rest hdepth]

theorem Accepted.kind {node : Node} (h : Accepted pre t node) :
    node.kind = .program ∧ t.kind = .eof :=
  program_current (h pre.length [] (Nat.le_refl _))

/-- Tokens with an end token are passed up to one that decides what comes of them. What has been
passed can be completed to a program. -/
theorem program_decided (h : ∃ t ∈ tokens, t.kind = .eof) :
    ∃ pre t rest, tokens = pre ++ t :: rest ∧ (∀ u ∈ pre, u.kind ≠ .eof) ∧
      ((∃ node, Accepted pre t node) ∨
        ∃ e, e.cause.errorClass = .parser ∧ e.line = t.line ∧ e.column = t.column ∧
          Rejected pre t e) ∧
      ∃ more node, Accepted (pre ++ more) (Mark.plain .eof).val node := by
  obtain ⟨u, hu, -⟩ := id h
  obtain ⟨pre, t, rest, heq, hinside, hdecided, hcompleted⟩ :=
    viable_program.tracks tokens (Nat.le_refl _) h (.of_ne_nil (List.ne_nil_of_mem hu))
  refine ⟨pre, t, rest, heq, hinside, ?_, ?_⟩
  · rcases hdecided with ⟨node, hpass, -⟩ | ⟨cause, hcause, hrefuse⟩
    · exact .inl ⟨node, accepted_of_passes hpass rfl⟩
    · refine .inr ⟨⟨cause, t.line, t.column⟩, hcause, rfl, rfl, fun d rest hd => ?_⟩
      have hrun := hrefuse d (pre.length + 1) 0 rest hd (Nat.lt_succ_self _)
      rwa [Nat.zero_add] at hrun
  · by_cases hpre : pre = []
    · obtain ⟨ts, node, hpass, -⟩ := (viable_program (n := 0)).opens
      exact ⟨ts, node, hpre ▸ accepted_of_passes hpass rfl⟩
    · obtain ⟨more, node, hpass⟩ := hcompleted hpre
      exact ⟨more, node, accepted_of_passes hpass rfl⟩

/-! ## Every run ends -/

/-- On tokens that end in an end token, all parsers of programs that may go at least as deep as
there are tokens have the same result, which is a program or a syntax error. On the way, no cursor
is past the first end token, and in front of it the program ends. -/
theorem program_settles (h : EndsInEof tokens) :
    ∃ r, Parser.run program tokens = some r ∧
      (∀ d, tokens.length ≤ d → program (.upTo d) (.facing 0 tokens) = r) ∧
      (∀ d, Stepwise (program (.upTo d))) ∧
      (∀ d c, tokens.length ≤ d → (program (.upTo d)).Visits (.facing 0 tokens) c →
        c.index ≤ firstEof tokens) ∧
      ((∃ node c, r = .ok node c ∧ parse tokens = .ok node ∧ node.kind = .program ∧
          c.index = firstEof tokens) ∨
        ∃ e c, r = .error (.error e) c ∧ parse tokens = .error (.fault (.error e)) ∧
          e.cause.errorClass = .parser) := by
  obtain ⟨pre, t, rest, rfl, hinside, hdecided, -⟩ := program_decided h.exists_eof
  have hlast := firstEof_append hinside (t :: rest)
  have hdepth (d : Nat) (hd : (pre ++ t :: rest).length ≤ d) : pre.length ≤ d := by
    rw [List.length_append] at hd
    omega
  -- a run ends after the tokens `pre`, so it goes through no cursor past them
  have hvisits (d : Nat) (c : Cursor)
      (hv : (program (.upTo d)).Visits (.facing 0 (pre ++ t :: rest)) c)
      (hend : (endOf (program (.upTo d) (.facing 0 (pre ++ t :: rest)))).index = pre.length) :
      c.index ≤ firstEof (pre ++ t :: rest) := by
    have hle := hv.index_le (stepwise_program d)
    omega
  rcases hdecided with ⟨node, haccepted⟩ | ⟨e, hclass, -, -, hrejected⟩
  · obtain ⟨hkind, ht⟩ := haccepted.kind
    have hrun := haccepted.run rest
    refine ⟨_, hrun, fun d hd => haccepted d rest (hdepth d hd), stepwise_program,
      fun d c hd hv => ?_, .inl ⟨node, _, rfl, parse_of_ok hrun, hkind, ?_⟩⟩
    · exact hvisits d c hv (by rw [haccepted d rest (hdepth d hd)]; rfl)
    · rw [hlast, firstEof_of_kind ht, Nat.zero_add]
      rfl
  · have hrun := hrejected.run rest
    refine ⟨_, hrun, fun d hd => hrejected d rest (hdepth d hd), stepwise_program,
      fun d c hd hv => ?_, .inr ⟨e, _, rfl, parse_of_error hrun, hclass⟩⟩
    exact hvisits d c hv (by rw [hrejected d rest (hdepth d hd)]; rfl)

/-- The parser stops at an end token in the middle, where the value of an assignment is missing. -/
theorem program_settles_of_early_eof :
    let tokens := [someName.render, (Mark.plain .equal).val, (Mark.plain .eof).val, someName.render,
      (Mark.plain .eof).val]
    EndsInEof tokens ∧
      (∀ d c, 5 ≤ d → (program (.upTo d)).Visits (.facing 0 tokens) c → c.index ≤ 2) ∧
      ∃ e, parse tokens = .error (.fault (.error e)) ∧ e.cause.errorClass = .parser := by
  intro tokens
  have hends : EndsInEof tokens := ⟨_, rfl, rfl⟩
  obtain ⟨r, hrun, -, -, hvisits, hresult⟩ := program_settles hends
  refine ⟨hends, hvisits, ?_⟩
  rcases hresult with ⟨node, c, -, hparse, -⟩ | ⟨e, c, -, hparse, hclass⟩
  · cases hparse
  · exact ⟨e, hparse, hclass⟩

/-! ## Where an error is reported -/

/-- A syntax error is reported at a token whose place is the one of the cursor. The tokens before it
can be completed to a program, and no program starts with the tokens up to it: they are rejected in
the same way whatever follows. -/
theorem syntax_error_earliest {stop : ParseStop} {c : Cursor} (h : EndsInEof tokens)
    (hrun : Parser.run program tokens = some (.error stop c)) :
    ∃ t e, tokens[c.index]? = some t ∧ stop = .error e ∧ e.cause.errorClass = .parser ∧
      e.line = t.line ∧ e.column = t.column ∧
      (∃ rest node, EndsInEof rest ∧ parse (tokens.take c.index ++ rest) = .ok node) ∧
      ∀ more, parse (tokens.take (c.index + 1) ++ more) = .error (.fault (.error e)) ∧
        ∃ c', Parser.run program (tokens.take (c.index + 1) ++ more) = some (.error (.error e) c') ∧
          c'.index = c.index := by
  obtain ⟨pre, t, rest, rfl, -, hdecided, more, node, hcompleted⟩ := program_decided h.exists_eof
  rcases hdecided with ⟨node, haccepted⟩ | ⟨e, hclass, hline, hcolumn, hrejected⟩
  · rw [haccepted.run rest] at hrun
    cases hrun
  · rw [hrejected.run rest] at hrun
    cases hrun
    have htake : (pre ++ t :: rest).take pre.length = pre := List.take_left
    have htake' : (pre ++ t :: rest).take (pre.length + 1) = pre ++ [t] := by
      rw [List.take_length_add_append]
      rfl
    refine ⟨t, e, ?_, rfl, hclass, hline, hcolumn, ⟨more ++ [(Mark.plain .eof).val], node, ?_, ?_⟩,
      fun following => ?_⟩
    · show (pre ++ t :: rest)[pre.length]? = some t
      simp
    · exact .append_eof more _
    · show parse ((pre ++ t :: rest).take pre.length ++ _) = _
      rw [htake, ← List.append_assoc]
      exact parse_of_ok (hcompleted.run [])
    · show parse ((pre ++ t :: rest).take (pre.length + 1) ++ _) = _ ∧
        ∃ c', Parser.run program ((pre ++ t :: rest).take (pre.length + 1) ++ _) = _ ∧ _
      rw [htake', List.append_assoc, List.singleton_append]
      exact ⟨parse_of_error (hrejected.run following), _, hrejected.run following, rfl⟩

/-- A list that a brace closes: the brace is reported, and the list before it can be completed. -/
theorem syntax_error_earliest_of_brace :
    let tokens := [someName.render, (Mark.plain .equal).val, (Mark.plain .leftBracket).val,
      someName.render, (Mark.on .rightBrace ⟨some 2, some 7⟩).val, (Mark.plain .eof).val]
    EndsInEof tokens ∧ ∃ stop c, Parser.run program tokens = some (.error stop c) ∧ c.index = 4 ∧
      (∃ e, stop = .error e ∧ e.line = some 2 ∧ e.column = some 7) ∧
      (∃ rest node, EndsInEof rest ∧ parse (tokens.take 4 ++ rest) = .ok node) ∧
      ∀ more, ∃ stop c', Parser.run program (tokens.take 5 ++ more) = some (.error stop c') ∧
        c'.index = 4 := by
  intro tokens
  have hends : EndsInEof tokens := ⟨_, rfl, rfl⟩
  obtain ⟨stop, c, hrun, hindex⟩ : ∃ stop c, Parser.run program tokens = some (.error stop c) ∧
      c.index = 4 := ⟨_, _, rfl, rfl⟩
  obtain ⟨t, e, ht, hstop, -, hline, hcolumn, hviable, hrejected⟩ :=
    syntax_error_earliest hends hrun
  rw [hindex] at ht hviable hrejected
  cases ht
  refine ⟨hends, stop, c, hrun, hindex, ⟨e, hstop, hline, hcolumn⟩, hviable, fun more => ?_⟩
  obtain ⟨-, c', hrun', hindex'⟩ := hrejected more
  exact ⟨_, c', hrun', hindex'⟩

end Luuqad

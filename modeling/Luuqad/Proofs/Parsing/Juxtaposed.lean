import Luuqad.Interpreter.Program
import Luuqad.Proofs.Parsing.Program
import Luuqad.Proofs.Parsing.Transfer

/-!
# Programs side by side

The statements of a program are read in the same way whether the end token or another program
follows. So the tokens of two programs, without the end token between them, are read as the
statements of the one followed by those of the other, and running them is running the one and then
the other.
-/

namespace Luuqad

open Luuqad.Parser Luuqad.Parser.Graded

/-! ## Reading -/

/-- Items in front of the end token, and then those of the tokens that stand in its place. Each
round takes one off both limits, so what the limit of the longer run has more is left for the
further tokens. -/
theorem Parser.itemsUntil_sequel {α : Type} {w : Sequel} {item : Parser α} {extra : Nat}
    {more : List α} {last : Nat → Cursor} (hitem : Transfers w item item)
    (hmore : ∀ r j, extra < r → itemsUntil .eof item r (.facing j w.more) = .ok more (last j))
    {f f' i : Nat} {ts : List Token} {items : List α} {c : Cursor}
    (hinside : ∀ u ∈ ts, u.kind ≠ .eof)
    (hrun : itemsUntil .eof item f (.facing i (ts ++ [w.eof.val])) = .ok items c)
    (hf : f + extra ≤ f') :
    itemsUntil .eof item f' (.facing i (ts ++ w.more)) = .ok (items ++ more)
    (last (i + ts.length)) := by
  induction f generalizing f' i ts items with
  | zero => cases hrun
  | succ f ih =>
    obtain ⟨k, c₁, hkind, hrun⟩ := bind_eq_ok hrun
    cases ts with
    | nil =>
      cases hkind
      have heof : (Cursor.facing i ([] ++ [w.eof.val])).current.kind = .eof := w.eof.2
      rw [if_pos heof] at hrun
      cases hrun
      exact hmore f' i (by omega)
    | cons t us =>
      cases hkind
      have hne : (Cursor.facing i (t :: us ++ [w.eof.val])).current.kind ≠ .eof :=
        hinside t List.mem_cons_self
      rw [if_neg hne] at hrun
      obtain ⟨a, c₁, hfirst, hrun⟩ := bind_eq_ok hrun
      obtain ⟨rest, c₂, hrest, hrun⟩ := bind_eq_ok hrun
      cases hrun
      obtain ⟨pre, post, hsplit, rfl, hfirst'⟩ := hitem i (t :: us) a c₁ trivial hfirst
      have hpost : ∀ u ∈ post, u.kind ≠ .eof := fun u hu =>
        hinside u (by rw [hsplit]; exact List.mem_append_right _ hu)
      obtain ⟨f', rfl⟩ : ∃ g, f' = g + 1 := ⟨f' - 1, by omega⟩
      have hall := ih hpost hrest (show f + extra ≤ f' by omega)
      have hlength : i + (t :: us).length = i + pre.length + post.length := by
        rw [hsplit, List.length_append]
        omega
      rw [itemsUntil, List.cons_append, bind_apply, kind_facing]
      dsimp only
      rw [if_neg (show ¬t.kind = .eof from hne), ← List.cons_append, bind_apply, hfirst']
      dsimp only
      rw [bind_apply, hall, hlength]
      rfl

theorem Parser.opens_of_statement {inner : Nested} {i : Nat} {t : Token}
    {ts : List Token} {a : Node} {c : Cursor}
    (h : statement inner (.facing i (t :: ts)) = .ok a c) : Statement.opens t.kind = true := by
  rw [statement, bind_apply, current_facing] at h
  dsimp only at h
  generalize t.kind = k at h ⊢
  cases k <;> first | rfl | cases h

/-- The last token is an end token, and no other one is. -/
def EndsInOnlyEof (tokens : List Token) : Prop :=
  EndsInEof tokens ∧ ∀ t ∈ tokens.dropLast, t.kind ≠ .eof

/-- The statements that a parser of programs passes, in front of every end token. -/
def PassesStatements (statements : List Node) (pre : List Token) : Prop :=
  Passes (fun d r => itemsUntil .eof (statement (.upTo d)) r) 0 (· = .eof) statements pre

theorem run_program (pre : List Token) (u : Token) (rest : List Token) :
    ∃ d r, pre.length ≤ d ∧ pre.length < r ∧
      Parser.run program (pre ++ u :: rest) = some ((itemsUntil .eof (statement (.upTo d)) r >>=
        fun statements => pure { kind := .program, children := statements })
          (.facing 0 (pre ++ u :: rest))) := by
  have hbound := Cursor.length_lt_bound 0 (pre ++ u :: rest)
  have hlength : (pre ++ u :: rest).length = pre.length + rest.length + 1 := by simp [Nat.add_assoc]
  rw [run_facing _ (by simp)]
  exact ⟨_, _, by omega, by omega, rfl⟩

theorem PassesStatements.parsed {statements : List Node} {pre : List Token}
    (h : PassesStatements statements pre) (e : Mark .eof) :
    parse (pre ++ [e.val]) = .ok { kind := .program, children := statements } := by
  obtain ⟨d, r, hd, hr, hrun⟩ := run_program pre e.val []
  have hitems : itemsUntil .eof (statement (.upTo d)) r (.facing 0 (pre ++ [e.val])) =
      .ok statements _ :=
    h d r 0 [e.val] hd hr e.2
  rw [bind_apply, hitems] at hrun
  exact parse_of_ok hrun

theorem passesStatements_of_parse {tokens : List Token} {n : Node} (h : EndsInOnlyEof tokens)
    (hparse : parse tokens = .ok n) :
    ∃ (statements : List Node) (pre : List Token) (e : Mark .eof), tokens = pre ++ [e.val] ∧
      (∀ u ∈ pre, u.kind ≠ .eof) ∧ n = { kind := .program, children := statements } ∧
      PassesStatements statements pre := by
  obtain ⟨heof, honly⟩ := h
  have hviable :
      Viable (fun d r => itemsUntil .eof (statement (.upTo d)) r) tokens.length _ (· = .eof)
      (· = .eof) False := (nestedViable tokens.length).statementParser.itemsUntil rfl
  have hne : tokens ≠ [] := by
    obtain ⟨u, hu, -⟩ := heof.exists_eof
    exact List.ne_nil_of_mem hu
  obtain ⟨pre, t, rest, rfl, hinside, hdecided, -⟩ :=
    hviable.tracks tokens (Nat.le_refl _) heof.exists_eof (.of_ne_nil hne)
  obtain ⟨d, r, hd, hr, hrun⟩ := run_program pre t rest
  rcases hdecided with ⟨statements, hpass, -⟩ | ⟨cause, -, hrefuse⟩
  · have hitems := hpass d r 0 (t :: rest) hd hr rfl
    have ht : t.kind = .eof := itemsUntil_current hitems
    obtain rfl : rest = [] := by
      cases rest with
      | nil => rfl
      | cons u rest =>
        refine absurd ht (honly t ?_)
        rw [List.dropLast_append_of_ne_nil (by simp)]
        simp
    have hstatements : PassesStatements statements pre := hpass.mono (Nat.le_refl _) fun k hk => by
      rw [ht, hk]
    refine ⟨statements, pre, ⟨t, ht⟩, rfl, hinside, ?_, hstatements⟩
    rw [hstatements.parsed ⟨t, ht⟩] at hparse
    exact (Except.ok.inj hparse).symm
  · have hitems : itemsUntil .eof (statement (.upTo d)) r (.facing 0 (pre ++ t :: rest))
        = .error (.error ⟨cause, t.line, t.column⟩) _ := hrefuse d r 0 rest hd hr
    rw [bind_apply, hitems] at hrun
    rw [parse_of_error hrun] at hparse
    cases hparse

/-- The first token behind a program may also be the first one of another program. -/
theorem PassesStatements.begins {statements : List Node} {pre : List Token}
    (h : PassesStatements statements pre) (hinside : ∀ u ∈ pre, u.kind ≠ .eof) (e : Mark .eof) :
    Begins (isSequel · = true) (pre ++ [e.val]) := by
  cases pre with
  | nil => simp [Begins, isSequel, e.2]
  | cons t us =>
    have hrun := h (t :: us).length ((t :: us).length + 1) 0 [e.val] (Nat.le_refl _)
      (Nat.lt_succ_self _) e.2
    obtain ⟨k, c₁, hkind, hrun⟩ := bind_eq_ok hrun
    cases hkind
    rw [if_neg (show (Cursor.facing 0 (t :: us ++ [e.val])).current.kind ≠ .eof from
      hinside t List.mem_cons_self)] at hrun
    obtain ⟨a, c₁, hstatement, -⟩ := bind_eq_ok hrun
    simp [Begins, isSequel, opens_of_statement hstatement]

theorem PassesStatements.append {first second : List Node} {pre pre' : List Token}
    (e e' : Mark .eof) (h : PassesStatements first pre) (hinside : ∀ u ∈ pre, u.kind ≠ .eof)
    (h' : PassesStatements second pre') (hinside' : ∀ u ∈ pre', u.kind ≠ .eof) :
    parse (pre ++ (pre' ++ [e'.val])) = .ok { kind := .program, children := first ++ second } := by
  let w : Sequel := ⟨e, pre' ++ [e'.val], h'.begins hinside' e'⟩
  have htokens : pre ++ (pre' ++ [e'.val]) = (pre ++ pre') ++ [e'.val] := by simp
  obtain ⟨d, r, hd, hr, hrun⟩ := run_program (pre ++ pre') e'.val []
  rw [List.length_append] at hd hr
  have hfirst := h d (pre.length + 1) 0 [e.val] (by omega) (by omega) e.2
  have hsecond (r j : Nat) (hr : pre'.length < r) :
      itemsUntil .eof (statement (.upTo d)) r (.facing j w.more)
        = .ok second (.facing (j + pre'.length) [e'.val]) :=
    h' d r j [e'.val] (by omega) hr e'.2
  have hall := itemsUntil_sequel ((nestedTransfers w d).statementParser) hsecond hinside hfirst
    (show pre.length + 1 + pre'.length ≤ r by omega)
  rw [← htokens, bind_apply, show pre ++ (pre' ++ [e'.val]) = pre ++ w.more from rfl, hall] at hrun
  exact parse_of_ok hrun

/-! ## Running -/

theorem Evaluator.outermostAll_append (self : Evaluator) (first second : List Node) :
    self.outermostAll (first ++ second)
      = self.outermostAll first >>= fun _ => self.outermostAll second := by
  induction first with
  | nil => rfl
  | cons n rest ih =>
    rw [List.cons_append, Evaluator.outermostAll, Evaluator.outermostAll, ih, bind_assoc]

/-- The tokens of two programs, without the end token of the first one, are a program. Its
statements are those of the first one and then those of the second one, and to run it is to run them
one after the other. -/
theorem parse_juxtaposed {tokens tokens' : List Token} {n n' : Node} (h : EndsInOnlyEof tokens)
    (h' : EndsInOnlyEof tokens') (hparse : parse tokens = .ok n)
    (hparse' : parse tokens' = .ok n') :
    ∃ joined, parse (tokens.dropLast ++ tokens') = .ok joined ∧
      joined.children = n.children ++ n'.children ∧
      ∀ (l : Limits) (s : State), l.evaluator.program joined s
        = (l.evaluator.program n >>= fun _ => l.evaluator.program n') s := by
  obtain ⟨first, pre, e, rfl, hinside, rfl, hfirst⟩ := passesStatements_of_parse h hparse
  obtain ⟨second, pre', e', rfl, hinside', rfl, hsecond⟩ := passesStatements_of_parse h' hparse'
  refine ⟨{ kind := .program, children := first ++ second }, ?_, rfl, fun l s => ?_⟩
  · rw [List.dropLast_concat]
    exact hfirst.append e e' hinside hsecond hinside'
  · exact congrFun (Evaluator.outermostAll_append l.evaluator first second) s

/-- A name that stands alone, and a block: the brace is not read as part of the first statement. -/
theorem parse_juxtaposed_of_block :
    let block := [(Mark.plain .leftBrace).val, (Mark.plain .rightBrace).val, (Mark.plain .eof).val]
    ∃ joined, parse (someName.render :: block) = .ok joined ∧ joined.children.length = 2 := by
  intro block
  have hname : EndsInOnlyEof [someName.render, (Mark.plain .eof).val] :=
    ⟨⟨_, rfl, rfl⟩, by simp [Name.render]⟩
  have hblock : EndsInOnlyEof block := ⟨⟨_, rfl, rfl⟩, by simp [block, Mark.plain]⟩
  obtain ⟨joined, hparse, hchildren, -⟩ := parse_juxtaposed hname hblock rfl rfl
  exact ⟨joined, hparse, by rw [hchildren]; rfl⟩

end Luuqad

import Luuqad.Proofs.Grammar.Levels

/-!
# Reading expressions

What the parser does with each form of expression, given what it does with the parts. The lemmas
follow the rules of `Written`; rows of expressions, entries and chains of accesses are read by
loops, which need as many rounds as there are tokens.
-/

namespace Luuqad

open Luuqad.Parser

variable {t : Token} {ts us : List Token}

theorem Mark.begins {k : TokenKind} {p : TokenKind → Prop} (c : Mark k) (rest : List Token)
    (h : p k) : Begins p (c.val :: rest) := by
  show p c.val.kind
  rw [c.2]
  exact h

/-! ## Loops over rows -/

namespace Parser

variable {α : Type} {close : TokenKind} {item : Parser α} {i fuel : Nat}

/-- What `separatedUntil` does after an item. -/
def separatedRest (close : TokenKind) (item : Parser α) (fuel : Nat) : Parser (List α) := do
  if (← kind) = .comma then
    advance
    separatedUntil close item fuel
  else return []

theorem separatedUntil_close (ht : t.kind = close) (hf : 0 < fuel) :
    separatedUntil close item fuel (.facing i (t :: ts)) = .ok [] (.facing i (t :: ts)) := by
  obtain ⟨fuel, rfl⟩ : ∃ f, fuel = f + 1 := ⟨fuel - 1, by omega⟩
  simp only [separatedUntil, bind_apply, kind_facing, ht, if_true, pure_apply]

theorem separatedUntil_item {c c' : Cursor} {a : α} {more : List α} (ht : Begins (· ≠ close) ts)
    (h : item (.facing i ts) = .ok a c) (hmore : separatedRest close item fuel c = .ok more c') :
    separatedUntil close item (fuel + 1) (.facing i ts) = .ok (a :: more) c' := by
  obtain ⟨t, ts, rfl, ht⟩ := ht.exists_cons
  have hk : kind c = .ok c.current.kind c := rfl
  simp only [separatedRest, bind_apply, hk] at hmore
  simp only [separatedUntil, bind_apply, kind_facing, if_neg ht, h, hk]
  by_cases hcomma : c.current.kind = .comma
  · simp only [if_pos hcomma, bind_apply] at hmore ⊢
    cases hadvance : advance c with
    | error e c'' => simp [hadvance] at hmore
    | ok _ c'' =>
      simp only [hadvance] at hmore
      simp only [hmore, pure_apply]
  · simp only [if_neg hcomma, pure_apply] at hmore ⊢
    cases hmore
    rfl

end Parser

/-! ## Primary expressions -/

/-- The primary parser reads the tokens as `n`. -/
abbrev PrimaryRead (n : Node) (ts : List Token) : Prop :=
  Reads Parser.primary (Level.primary.stops · = true) n ts

theorem PrimaryRead.reaches {n : Node} (h : PrimaryRead n ts) : Level.primary.Reaches n ts :=
  .of_reads (.inr rfl) h

/-- The value of a token that is a literal by itself. -/
def Token.literal? (t : Token) : Option Value :=
  match t.kind with
  | .number | .string => some t.value
  | .true => some (.bool true)
  | .false => some (.bool false)
  | .null => some .null
  | _ => none

theorem primaryRead_literal {v : Value} (h : t.literal? = some v) :
    PrimaryRead (Parser.literal v) [t] := by
  intro d i rest _ hr
  unfold Token.literal? at h
  split at h
  all_goals first | (obtain rfl := Option.some.inj h) | exact absurd h (by simp)
  all_goals
    rename_i hk
    simp only [List.singleton_append, primary, bind_apply, current_facing, hk,
      advance_facing hr.ne_nil, pure_apply, List.length_singleton]

theorem mem_of_isFunctionWord {k : TokenKind} (h : k.isFunctionWord = true) :
    k ∈ [.qor, .gelin, .abn, .jajab, .qoraal, .bool, .teed, .walax] := by
  revert h
  cases k <;> decide

theorem primary_word {w : Word} {inner : Nested} {i : Nat} (h : w.WrittenAs t) (hts : ts ≠ []) :
    primary inner (.facing i (t :: ts)) =
      (do
        if (← kind) = .leftParen then callOf w.toValue inner
        else return { kind := .identifier, value := w.toValue } : Parser Node)
        (.facing (i + 1) ts) := by
  cases w with
  | name n =>
    simp only [primary, bind_apply, current_facing, h.1, true_or, if_true, advance_facing hts,
      nameOf, h.2, Word.toValue]
  | keyword k hk =>
    have ht : t.kind = k := h
    have hmem := mem_of_isFunctionWord hk
    simp only [List.mem_cons, List.not_mem_nil, or_false] at hmem
    rcases hmem with rfl | rfl | rfl | rfl | rfl | rfl | rfl | rfl <;>
    · simp only [primary, bind_apply, current_facing, ht, nameOf, reduceCtorEq, if_false]
      rw [if_pos (.inr rfl)]
      simp only [bind_apply, advance_facing hts, Word.toValue]

theorem not_leftParen_of_stops {k : TokenKind} (h : Level.primary.stops k = true) :
    k ≠ .leftParen := by
  rintro rfl
  exact absurd h (by decide)

theorem not_semicolon_of_stops {k : TokenKind} (h : Level.primary.stops k = true) :
    k ≠ .semicolon := by
  rintro rfl
  exact absurd h (by decide)

theorem primaryRead_name {w : Word} (h : w.WrittenAs t) :
    PrimaryRead (Expression.name w).toNode [t] := by
  intro d i rest _ hr
  rw [List.singleton_append, primary_word h hr.ne_nil]
  obtain ⟨r, rest, rfl, hr⟩ := hr.exists_cons
  simp only [bind_apply, kind_facing, if_neg (not_leftParen_of_stops hr), pure_apply,
    Expression.toNode, List.length_singleton]

/-- Expressions with commas between them are read as arguments and as the items of a list. -/
def RowRead (es : List Expression) (ts : List Token) : Prop :=
  ∀ (d i : Nat) (c : Token) (rest : List Token), ts.length < d → rest ≠ [] →
    (c.kind = .rightParen →
      arguments (Nested.upTo d).expression (.facing i (ts ++ c :: rest)) =
        .ok (Expression.toNodes es) (.facing (i + ts.length + 1) rest)) ∧
    (c.kind = .rightBracket → ∀ fuel, ts.length < fuel →
      separatedUntil .rightBracket (Nested.upTo d).expression fuel (.facing i (ts ++ c :: rest)) =
        .ok (Expression.toNodes es) (.facing (i + ts.length) (c :: rest)))

theorem primaryRead_call {w : Word} {es : List Expression} (o : Mark .leftParen)
    (c : Mark .rightParen) (h : w.WrittenAs t) (hrow : RowRead es ts) :
    PrimaryRead (Expression.call w es).toNode (t :: o.val :: (ts ++ [c.val])) := by
  intro d i rest hd hr
  simp only [List.length_cons, List.length_append, List.length_nil] at hd ⊢
  have hargs := (hrow d (i + 1 + 1) c.val rest (by omega) hr.ne_nil).1 c.2
  simp only [List.cons_append, List.append_assoc, List.nil_append]
  rw [primary_word h (by simp)]
  simp only [bind_apply, kind_facing, o.2, if_true, callOf,
    expect_facing o.2 (show ts ++ c.val :: rest ≠ [] by simp), hargs,
    skip_facing (hr.mono fun _ => not_semicolon_of_stops), pure_apply, Expression.toNode]
  exact congrArg _ (Cursor.facing_congr (by omega))

theorem primaryRead_list {es : List Expression} (o : Mark .leftBracket) (c : Mark .rightBracket)
    (hrow : RowRead es ts) :
    PrimaryRead (Expression.list es).toNode (o.val :: (ts ++ [c.val])) := by
  intro d i rest hd hr
  simp only [List.length_cons, List.length_append, List.length_nil] at hd ⊢
  have hbound := Cursor.length_lt_bound (i + 1) (ts ++ c.val :: rest)
  have hitems := (hrow d (i + 1) c.val rest (by omega) hr.ne_nil).2 c.2
    (Cursor.facing (i + 1) (ts ++ c.val :: rest)).bound (by simp at hbound; omega)
  simp only [List.cons_append, List.append_assoc, List.nil_append, primary, bind_apply,
    current_facing, o.2, listLiteral, get_apply,
    expect_facing o.2 (show ts ++ c.val :: rest ≠ [] by simp), hitems,
    expect_facing c.2 hr.ne_nil, pure_apply, Expression.toNode]
  exact congrArg _ (Cursor.facing_congr (by omega))

/-- Entries are read up to the end of an object. -/
def EntriesRead (es : List (Key × Expression)) (ts : List Token) : Prop :=
  ∀ (d i fuel : Nat) (c : Token) (rest : List Token), ts.length < d → ts.length < fuel →
    c.kind = .rightBrace →
    separatedUntil .rightBrace (entry (Nested.upTo d)) fuel (.facing i (ts ++ c :: rest)) =
      .ok (Expression.entryNodes es) (.facing (i + ts.length) (c :: rest))

theorem primaryRead_object {es : List (Key × Expression)} (o : Mark .leftBrace)
    (c : Mark .rightBrace) (hrow : EntriesRead es ts) :
    PrimaryRead (Expression.object es).toNode (o.val :: (ts ++ [c.val])) := by
  intro d i rest hd hr
  simp only [List.length_cons, List.length_append, List.length_nil] at hd ⊢
  have hbound := Cursor.length_lt_bound (i + 1) (ts ++ c.val :: rest)
  have hentries := hrow d (i + 1) (Cursor.facing (i + 1) (ts ++ c.val :: rest)).bound c.val rest
    (by omega) (by simp at hbound; omega) c.2
  simp only [List.cons_append, List.append_assoc, List.nil_append, primary, bind_apply,
    current_facing, o.2, objectLiteral, get_apply,
    expect_facing o.2 (show ts ++ c.val :: rest ≠ [] by simp), hentries,
    expect_facing c.2 hr.ne_nil, pure_apply, Expression.toNode]
  exact congrArg _ (Cursor.facing_congr (by omega))

theorem primaryRead_parens {n : Node} (o : Mark .leftParen) (c : Mark .rightParen)
    (h : Level.logical.Reaches n ts) : PrimaryRead n (o.val :: (ts ++ [c.val])) := by
  intro d i rest hd hr
  simp only [List.length_cons, List.length_append, List.length_nil] at hd ⊢
  have he := h.expression_upTo (d := d) (i + 1) (by omega) (c.begins rest rfl)
  simp only [List.cons_append, List.append_assoc, List.nil_append, primary, bind_apply,
    current_facing, o.2, advance_facing (show ts ++ c.val :: rest ≠ [] by simp), he,
    expect_facing c.2 hr.ne_nil, pure_apply]
  exact congrArg _ (Cursor.facing_congr (by omega))

/-! ## Rows of expressions -/

/-- Expressions, each after a comma, are read up to the end of arguments and of a list. -/
structure FurtherRead (es : List Expression) (ts : List Token) : Prop where
  begins : ts = [] ∨ Begins (· = .comma) ts
  reads (d i fuel : Nat) (c : Token) (rest : List Token) (hd : ts.length < d)
    (hf : ts.length < fuel) :
    (c.kind = .rightParen →
      itemsAfterCommas (Nested.upTo d).expression fuel (.facing i (ts ++ c :: rest)) =
        .ok (Expression.toNodes es) (.facing (i + ts.length) (c :: rest))) ∧
    (c.kind = .rightBracket →
      separatedRest .rightBracket (Nested.upTo d).expression fuel (.facing i (ts ++ c :: rest)) =
        .ok (Expression.toNodes es) (.facing (i + ts.length) (c :: rest)))

theorem furtherRead_nil : FurtherRead [] [] := by
  refine ⟨.inl rfl, fun d i fuel c rest _ hf => ?_⟩
  obtain ⟨fuel, rfl⟩ : ∃ f, fuel = f + 1 := ⟨fuel - 1, by simp at hf; omega⟩
  refine ⟨fun hc => ?_, fun hc => ?_⟩
  · simp only [List.nil_append, itemsAfterCommas, bind_apply, kind_facing, hc, reduceCtorEq,
      if_false, pure_apply, Expression.toNodes, List.length_nil, Nat.add_zero]
  · simp only [List.nil_append, separatedRest, bind_apply, kind_facing, hc, reduceCtorEq,
      if_false, pure_apply, Expression.toNodes, List.length_nil, Nat.add_zero]

theorem FurtherRead.stops {es : List Expression} {c : Token} (rest : List Token)
    (h : FurtherRead es ts) (hc : c.kind = .rightParen ∨ c.kind = .rightBracket) :
    Begins (Level.logical.stops · = true) (ts ++ c :: rest) := by
  refine Begins.append_of (h.begins.imp_right (Begins.mono · ?_)) ?_
  · rintro _ rfl
    rfl
  · show Level.logical.stops c.kind = true
    rcases hc with hc | hc <;> rw [hc] <;> rfl

theorem ne_of_opens {k close : TokenKind} (h : Level.logical.opens k = true)
    (hc : Level.logical.opens close = false) : k ≠ close := by
  rintro rfl
  rw [h] at hc
  exact absurd hc (by decide)

theorem furtherRead_cons {e : Expression} {es : List Expression} (m : Mark .comma)
    (hopen : Begins (Level.logical.opens · = true) ts) (he : Level.logical.Reaches e.toNode ts)
    (hes : FurtherRead es us) : FurtherRead (e :: es) (m.val :: (ts ++ us)) := by
  refine ⟨.inr (m.begins _ rfl), fun d i fuel c rest hd hf => ?_⟩
  simp only [List.length_cons, List.length_append] at hd hf ⊢
  obtain ⟨fuel, rfl⟩ : ∃ f, fuel = f + 1 := ⟨fuel - 1, by omega⟩
  have hmore := hes.reads d (i + 1 + ts.length) fuel c rest (by omega) (by omega)
  have hbegins : Begins (Level.logical.opens · = true) (ts ++ (us ++ c :: rest)) := hopen.append
  simp only [List.cons_append, List.append_assoc]
  refine ⟨fun hc => ?_, fun hc => ?_⟩
  · have hitem := he.expression_upTo (d := d) (i + 1) (by omega) (hes.stops rest (.inl hc))
    simp only [itemsAfterCommas, bind_apply, kind_facing, m.2, if_true,
      advance_facing hbegins.ne_nil, hitem, hmore.1 hc, pure_apply, Expression.toNodes]
    exact congrArg _ (Cursor.facing_congr (by omega))
  · have hitem := he.expression_upTo (d := d) (i + 1) (by omega) (hes.stops rest (.inr hc))
    have hrow := separatedUntil_item (hbegins.mono fun _ h => ne_of_opens h (by decide)) hitem
      (hmore.2 hc)
    simp only [separatedRest, bind_apply, kind_facing, m.2, if_true,
      advance_facing hbegins.ne_nil, hrow, Expression.toNodes]
    exact congrArg _ (Cursor.facing_congr (by omega))

theorem rowRead_nil : RowRead [] [] := by
  intro d i c rest _ hr
  refine ⟨fun hc => ?_, fun hc fuel hf => ?_⟩
  · simp only [List.nil_append, arguments, bind_apply, kind_facing, hc, if_true, pure_apply,
      expect_facing hc hr, Expression.toNodes, List.length_nil, Nat.add_zero]
  · exact separatedUntil_close hc (by simpa using hf)

theorem rowRead_cons {e : Expression} {es : List Expression}
    (hopen : Begins (Level.logical.opens · = true) ts) (he : Level.logical.Reaches e.toNode ts)
    (hes : FurtherRead es us) : RowRead (e :: es) (ts ++ us) := by
  intro d i c rest hd hr
  simp only [List.length_append] at hd ⊢
  have hbegins : Begins (Level.logical.opens · = true) (ts ++ (us ++ c :: rest)) := hopen.append
  simp only [List.append_assoc]
  refine ⟨fun hc => ?_, fun hc fuel hf => ?_⟩
  · have hitem := he.expression_upTo (d := d) i (by omega) (hes.stops rest (.inl hc))
    have hbound := Cursor.length_lt_bound (i + ts.length) (us ++ c :: rest)
    have hmore := (hes.reads d (i + ts.length)
      (Cursor.facing (i + ts.length) (us ++ c :: rest)).bound c rest (by omega)
      (by simp only [List.length_append] at hbound; omega)).1 hc
    obtain ⟨t, vs, hvs, ht⟩ := hbegins.exists_cons
    have hne : t.kind ≠ .rightParen := ne_of_opens ht (by decide)
    rw [hvs] at hitem ⊢
    simp only [arguments, bind_apply, kind_facing, if_neg hne, hitem, get_apply, hmore, pure_apply,
      expect_facing hc hr, Expression.toNodes]
    exact congrArg _ (Cursor.facing_congr (by omega))
  · obtain ⟨fuel, rfl⟩ : ∃ f, fuel = f + 1 := ⟨fuel - 1, by omega⟩
    have hpos := hopen.length_pos
    have hitem := he.expression_upTo (d := d) i (by omega) (hes.stops rest (.inr hc))
    have hmore := (hes.reads d (i + ts.length) fuel c rest (by omega) (by omega)).2 hc
    have hrow := separatedUntil_item (hbegins.mono fun _ h => ne_of_opens h (by decide)) hitem hmore
    simp only [hrow, Expression.toNodes]
    exact congrArg _ (Cursor.facing_congr (by omega))

/-! ## Entries of objects -/

/-- Entries, each after a comma, are read up to the end of an object. -/
structure FurtherEntriesRead (es : List (Key × Expression)) (ts : List Token) : Prop where
  begins : ts = [] ∨ Begins (· = .comma) ts
  reads (d i fuel : Nat) (c : Token) (rest : List Token) (hd : ts.length < d)
    (hf : ts.length < fuel) (hc : c.kind = .rightBrace) :
    separatedRest .rightBrace (entry (Nested.upTo d)) fuel (.facing i (ts ++ c :: rest)) =
      .ok (Expression.entryNodes es) (.facing (i + ts.length) (c :: rest))

theorem furtherEntriesRead_nil : FurtherEntriesRead [] [] := by
  refine ⟨.inl rfl, fun d i fuel c rest _ _ hc => ?_⟩
  simp only [List.nil_append, separatedRest, bind_apply, kind_facing, hc, reduceCtorEq,
    if_false, pure_apply, Expression.entryNodes, List.length_nil, Nat.add_zero]

theorem furtherEntriesRead_cons {es : List (Key × Expression)} (m : Mark .comma)
    (hes : EntriesRead es ts) : FurtherEntriesRead es (m.val :: ts) := by
  refine ⟨.inr (m.begins _ rfl), fun d i fuel c rest hd hf hc => ?_⟩
  simp only [List.length_cons] at hd hf ⊢
  have hrow := hes d (i + 1) fuel c rest (by omega) (by omega) hc
  simp only [List.cons_append, separatedRest, bind_apply, kind_facing, m.2, if_true,
    advance_facing (show ts ++ c :: rest ≠ [] by simp), hrow]
  exact congrArg _ (Cursor.facing_congr (by omega))

theorem entriesRead_nil : EntriesRead [] [] := by
  intro d i fuel c rest _ hf hc
  exact separatedUntil_close hc (by simpa using hf)

theorem Key.WrittenAs.kind {k : Key} (h : k.WrittenAs t) :
    (t.kind = .identifier ∨ t.kind = .string) ∧ t.value = k.toValue := by
  cases k with
  | name n => exact ⟨.inl h.1, h.2⟩
  | text s => exact ⟨.inr h.1, h.2⟩

theorem entriesRead_cons {k : Key} {e : Expression} {es : List (Key × Expression)}
    (m : Mark .colon) (hk : k.WrittenAs t) (hopen : ts ≠ [])
    (he : Level.logical.Reaches e.toNode ts) (hes : FurtherEntriesRead es us) :
    EntriesRead ((k, e) :: es) (t :: m.val :: (ts ++ us)) := by
  intro d i fuel c rest hd hf hc
  simp only [List.length_cons, List.length_append] at hd hf ⊢
  obtain ⟨fuel, rfl⟩ : ∃ f, fuel = f + 1 := ⟨fuel - 1, by omega⟩
  obtain ⟨hkind, hvalue⟩ := hk.kind
  have hstops : Begins (Level.logical.stops · = true) (us ++ c :: rest) := by
    refine Begins.append_of (hes.begins.imp_right (Begins.mono · ?_)) ?_
    · rintro _ rfl
      rfl
    · show Level.logical.stops c.kind = true
      rw [hc]
      rfl
  have hvalueRead := he.expression_upTo (d := d) (i + 1 + 1) (by omega) hstops
  have hitem : entry (Nested.upTo d) (.facing i (t :: m.val :: (ts ++ (us ++ c :: rest)))) =
      .ok { kind := .literal, value := k.toValue, children := [e.toNode] }
        (.facing (i + 1 + 1 + ts.length) (us ++ c :: rest)) := by
    simp only [entry, bind_apply, current_facing, if_pos hkind,
      advance_facing (List.cons_ne_nil _ _),
      expect_facing m.2 (show ts ++ (us ++ c :: rest) ≠ [] by simp [hopen]), hvalueRead, pure_apply,
      hvalue]
  have hne : t.kind ≠ .rightBrace := by rcases hkind with h | h <;> rw [h] <;> decide
  have hmore := hes.reads d (i + 1 + 1 + ts.length) fuel c rest (by omega) (by omega) hc
  have hrow := separatedUntil_item (show Begins (· ≠ TokenKind.rightBrace) (t :: _) from hne) hitem
    hmore
  simp only [List.cons_append, List.append_assoc, hrow, Expression.entryNodes]
  exact congrArg _ (Cursor.facing_congr (by omega))

/-! ## Accesses -/

/-- One access is read, whatever its target. -/
structure AccessRead (a : Access) (ts : List Token) : Prop where
  begins : Begins (Level.access.continues · = true) ts
  reads (notName : Parser Unit) (target : Expression) (d i : Nat) (rest : List Token)
    (hd : ts.length ≤ d) (hr : Begins (Level.primary.stops · = true) rest) :
    access notName (Nested.upTo d) target.toNode (.facing i (ts ++ rest)) =
      .ok (a.on target).toNode (.facing (i + ts.length) rest)

theorem accessRead_property {n : Name} (p : Mark .dot) (hn : n.WrittenAs t) :
    AccessRead (.property n) [p.val, t] := by
  refine ⟨p.begins _ rfl, fun notName target d i rest _ hr => ?_⟩
  obtain ⟨r, rest, rfl, hr⟩ := hr.exists_cons
  simp only [List.cons_append, List.nil_append, access, bind_apply, kind_facing, p.2, if_true,
    advance_facing (List.cons_ne_nil _ _), current_facing, hn.1, ne_eq, not_true, if_false,
    if_neg (not_leftParen_of_stops hr), hn.2, pure_apply, Access.on, Expression.toNode]
  rfl

theorem accessRead_method {n : Name} {es : List Expression} (p : Mark .dot) (o : Mark .leftParen)
    (c : Mark .rightParen) (hn : n.WrittenAs t) (hrow : RowRead es ts) :
    AccessRead (.method n es) (p.val :: t :: o.val :: (ts ++ [c.val])) := by
  refine ⟨p.begins _ rfl, fun notName target d i rest hd hr => ?_⟩
  simp only [List.length_cons, List.length_append, List.length_nil] at hd ⊢
  have hargs := (hrow d (i + 1 + 1 + 1) c.val rest (by omega) hr.ne_nil).1 c.2
  simp only [List.cons_append, List.append_assoc, List.nil_append, access, bind_apply, kind_facing,
    p.2, if_true, advance_facing (List.cons_ne_nil _ _), current_facing, hn.1, ne_eq, not_true,
    if_false, o.2, advance_facing (show ts ++ c.val :: rest ≠ [] by simp), hargs, hn.2, pure_apply,
    Access.on, Expression.toNode]
  exact congrArg _ (Cursor.facing_congr (by omega))

theorem accessRead_index {place : Expression} (o : Mark .leftBracket) (c : Mark .rightBracket)
    (h : Level.logical.Reaches place.toNode ts) :
    AccessRead (.index place) (o.val :: (ts ++ [c.val])) := by
  refine ⟨o.begins _ rfl, fun notName target d i rest hd hr => ?_⟩
  simp only [List.length_cons, List.length_append, List.length_nil] at hd ⊢
  have he := h.expression_upTo (d := d) (i + 1) (by omega) (c.begins rest rfl)
  simp only [List.cons_append, List.append_assoc, List.nil_append, access, bind_apply, kind_facing,
    o.2, reduceCtorEq, if_false, expect_facing o.2 (show ts ++ c.val :: rest ≠ [] by simp), he,
    expect_facing c.2 hr.ne_nil, pure_apply, Access.on, Expression.toNode]
  exact congrArg _ (Cursor.facing_congr (by omega))

theorem AccessRead.step {a : Access} {notName : Parser Unit} {target : Expression}
    {d i fuel : Nat} {rest : List Token} (h : AccessRead a ts) (hd : ts.length ≤ d)
    (hr : Begins (Level.primary.stops · = true) rest) :
    accesses notName (Nested.upTo d) target.toNode (fuel + 1) (.facing i (ts ++ rest)) =
      accesses notName (Nested.upTo d) (a.on target).toNode fuel
        (.facing (i + ts.length) rest) := by
  have hread := h.reads notName target d i rest hd hr
  obtain ⟨t, us, rfl, ht⟩ := h.begins.exists_cons
  have hk : t.kind = .dot ∨ t.kind = .leftBracket := by simpa [Level.continues] using ht
  simp only [List.cons_append] at hread ⊢
  simp only [accesses, bind_apply, kind_facing, if_pos hk, hread]

theorem reaches_access {a : Access} {e : Expression} (he : Level.access.Reaches e.toNode ts)
    (ha : AccessRead a us) : Level.access.Reaches (a.on e).toNode (ts ++ us) := by
  intro d i rest hd hr
  simp only [List.length_append] at hd ⊢
  have hstops : Begins (Level.access.next.stops · = true) (us ++ rest) := by
    refine (ha.begins.mono fun k hk => ?_).append
    revert hk
    cases k <;> decide
  obtain ⟨fuel, hfuel, hp⟩ := he d i (us ++ rest) (by omega) hstops
  have hpos := ha.begins.length_pos
  simp only [List.length_append] at hfuel
  obtain ⟨fuel, rfl⟩ : ∃ f, fuel = f + 1 := ⟨fuel - 1, by omega⟩
  refine ⟨fuel, by omega, ?_⟩
  rw [List.append_assoc, hp, ← Nat.add_assoc]
  exact ha.step (by omega) hr

/-- Accesses to a target are read up to a token that is no access. -/
structure AccessesRead (accesses : List Access) (ts : List Token) : Prop where
  begins : accesses = [] ∧ ts = [] ∨ Begins (Level.access.continues · = true) ts
  reads (notName : Parser Unit) (target : Expression) (d i fuel : Nat) (rest : List Token)
    (hd : ts.length ≤ d) (hf : ts.length < fuel)
    (hr : Begins (Level.access.stops · = true) rest) :
    Parser.accesses notName (Nested.upTo d) target.toNode fuel (.facing i (ts ++ rest)) =
      .ok (accesses.foldl Access.on target).toNode (.facing (i + ts.length) rest)

theorem accessesRead_nil : AccessesRead [] [] := by
  refine ⟨.inl ⟨rfl, rfl⟩, fun notName target d i fuel rest _ hf hr => ?_⟩
  obtain ⟨fuel, rfl⟩ : ∃ f, fuel = f + 1 := ⟨fuel - 1, by simp at hf; omega⟩
  obtain ⟨r, rest, rfl, hr⟩ := hr.exists_cons
  have hk : ¬(r.kind = .dot ∨ r.kind = .leftBracket) := by
    simpa [Level.continues] using Level.not_continues hr
  simp only [List.nil_append, accesses, bind_apply, kind_facing, if_neg hk, pure_apply,
    List.foldl_nil, List.length_nil, Nat.add_zero]

theorem accessesRead_cons {a : Access} {as : List Access} (ha : AccessRead a ts)
    (has : AccessesRead as us) : AccessesRead (a :: as) (ts ++ us) := by
  refine ⟨.inr ha.begins.append, fun notName target d i fuel rest hd hf hr => ?_⟩
  simp only [List.length_append] at hd hf ⊢
  have hpos := ha.begins.length_pos
  obtain ⟨fuel, rfl⟩ : ∃ f, fuel = f + 1 := ⟨fuel - 1, by omega⟩
  have hstops : Begins (Level.primary.stops · = true) (us ++ rest) := by
    refine Begins.append_of (has.begins.imp And.right (Begins.mono · fun k hk => ?_))
      (hr.mono fun _ => Level.stops_next)
    revert hk
    cases k <;> decide
  rw [List.append_assoc, ha.step (by omega) hstops, ← Nat.add_assoc]
  exact has.reads notName (a.on target) d _ fuel rest (by omega) (by omega) hr

/-! ## Unary operators -/

theorem reaches_unary {n n' : Node} {t : Token} (h : Level.factor.Reaches n ts)
    (hfactor : ∀ (inner : Nested) (i j : Nat) (rest : List Token),
      inner.factor (.facing (i + 1) (ts ++ rest)) = .ok n (.facing j rest) →
      factor inner (.facing i (t :: (ts ++ rest))) = .ok n' (.facing j rest)) :
    Level.factor.Reaches n' (t :: ts) := by
  refine .of_reads (.inl rfl) fun d i rest hd hr => ?_
  simp only [List.length_cons] at hd ⊢
  have hf := h.factor_upTo (d := d) (i + 1) (by omega) hr
  have hread := hfactor _ _ _ _ hf
  rw [List.cons_append]
  exact hread.trans (congrArg _ (Cursor.facing_congr (by omega)))

theorem reaches_plus {n : Node} (t : Mark .plus) (hne : ts ≠ []) (h : Level.factor.Reaches n ts) :
    Level.factor.Reaches n (t.val :: ts) := by
  refine reaches_unary h fun inner i j rest hf => ?_
  simp only [factor, bind_apply, kind_facing, t.2,
    advance_facing (show ts ++ rest ≠ [] by simp [hne]), hf]

theorem reaches_negative {n : Node} (t : Mark .minus) (hne : ts ≠ [])
    (h : Level.factor.Reaches n ts) : Level.factor.Reaches (negated n) (t.val :: ts) := by
  refine reaches_unary h fun inner i j rest hf => ?_
  simp only [factor, bind_apply, kind_facing, t.2,
    advance_facing (show ts ++ rest ≠ [] by simp [hne]), hf, pure_apply]

theorem reaches_not {n : Node} (t : Mark .not) (hne : ts ≠ []) (h : Level.factor.Reaches n ts) :
    Level.factor.Reaches { kind := .unary, value := .str "!", children := [n] } (t.val :: ts) := by
  refine reaches_unary h fun inner i j rest hf => ?_
  simp only [factor, bind_apply, kind_facing, t.2,
    advance_facing (show ts ++ rest ≠ [] by simp [hne]), hf, pure_apply]

/-! ## Binary operators -/

theorem Operator.WrittenAs.begins {op : Operator} {os : List Token} (h : op.WrittenAs os) :
    Begins (· = op.tokenKind) os := by
  cases h with
  | equal first _ => exact first.2
  | single _ h => exact h.1

theorem Operator.stops_tokenKind (op : Operator) : op.level.next.stops op.tokenKind = true := by
  cases op with
  | order r => cases r <;> decide
  | _ => decide

theorem operations_step {isOperator : TokenKind → Bool} {operand : Parser Node} {left right : Node}
    {i fuel : Nat} {c : Cursor} (ht : isOperator t.kind = true) (hne : ts ≠ [])
    (h : operand (.facing (i + 1) ts) = .ok right c) :
    operations isOperator operand left (fuel + 1) (.facing i (t :: ts)) =
      operations isOperator operand (Parser.binary t.value left right) fuel c := by
  simp only [operations, bind_apply, current_facing, ht, if_true, advance_facing hne, h]

theorem comparisons_step {inner : Nested} {left right : Node} {i fuel : Nat} {c : Cursor}
    (ht : isComparison t.kind = true) (hequal : t.kind ≠ .equal) (hne : ts ≠ [])
    (h : Parser.sum inner (.facing (i + 1) ts) = .ok right c) :
    comparisons inner left (fuel + 1) (.facing i (t :: ts)) =
      comparisons inner (Parser.binary t.value left right) fuel c := by
  obtain ⟨u, us, rfl⟩ := List.exists_cons_of_ne_nil hne
  simp only [comparisons, bind_apply, current_facing, ht, if_true, advance_facing hne, kind_facing,
    hequal, false_and, if_false, h]

theorem comparisons_equality {inner : Nested} {left right : Node} {i fuel : Nat} {c : Cursor}
    (first second : Mark .equal) (hne : ts ≠ [])
    (h : Parser.sum inner (.facing (i + 1 + 1) ts) = .ok right c) :
    comparisons inner left (fuel + 1) (.facing i (first.val :: second.val :: ts)) =
      comparisons inner (Parser.binary (.str "==") left right) fuel c := by
  simp only [comparisons, bind_apply, current_facing, first.2, isComparison, if_true,
    advance_facing (List.cons_ne_nil _ _), kind_facing, second.2, and_self, advance_facing hne, h]

theorem Operator.WrittenAs.step {op : Operator} {os : List Token} {left right : Node}
    {d i fuel : Nat} {c : Cursor} (ho : op.WrittenAs os) (hne : us ≠ [])
    (hright : op.level.next.parser (.upTo d) (.facing (i + os.length) us) = .ok right c) :
    op.level.loop (.upTo d) left (fuel + 1) (.facing i (os ++ us)) =
      op.level.loop (.upTo d) (Parser.binary (.str op.symbol) left right) fuel c := by
  cases ho with
  | equal first second => exact comparisons_equality first second hne hright
  | single hop h =>
    obtain ⟨hk, hv⟩ := h
    rw [← hv]
    cases op with
    | equal => exact absurd rfl hop
    | and | or | add | subtract | multiply | divide | remainder =>
      exact operations_step (by rw [hk]; rfl) hne hright
    | notEqual => exact comparisons_step (by rw [hk]; rfl) (by rw [hk]; decide) hne hright
    | order r =>
      exact comparisons_step (by rw [hk]; cases r <;> rfl) (by rw [hk]; cases r <;>
        decide) hne hright

theorem reaches_binary {op : Operator} {os : List Token} {left right : Node}
    (hleft : op.level.Reaches left ts) (ho : op.WrittenAs os) (hne : us ≠ [])
    (hright : op.level.next.Reaches right us) :
    op.level.Reaches (Parser.binary (.str op.symbol) left right) (ts ++ (os ++ us)) := by
  intro d i rest hd hr
  simp only [List.length_append] at hd ⊢
  have hstops : Begins (op.level.next.stops · = true) (os ++ (us ++ rest)) :=
    (ho.begins.mono fun _ hk => hk ▸ op.stops_tokenKind).append
  obtain ⟨fuel, hfuel, hp⟩ := hleft d i _ (by omega) hstops
  have hpos := ho.begins.length_pos
  simp only [List.length_append] at hfuel
  obtain ⟨fuel, rfl⟩ : ∃ f, fuel = f + 1 := ⟨fuel - 1, by omega⟩
  refine ⟨fuel, by omega, ?_⟩
  rw [List.append_assoc, List.append_assoc, hp,
    ho.step (by simp [hne]) (hright.reads d _ rest (by omega) hr)]
  exact congrArg _ (Cursor.facing_congr (by omega))

/-! ## Levels -/

theorem factor_of_opens {inner : Nested} {i : Nat} (ht : Level.access.opens t.kind = true) :
    factor inner (.facing i (t :: ts)) = postfixed inner (.facing i (t :: ts)) := by
  simp only [factor, bind_apply, kind_facing]
  generalize t.kind = k at ht
  cases k <;> first | rfl | exact absurd ht (by decide)

/-- What is written a level tighter is read at the level too. -/
theorem reaches_tighter {l : Level} {n : Node} (hb : Begins (l.next.opens · = true) ts)
    (h : l.next.Reaches n ts) : l.Reaches n ts := by
  by_cases hprimary : l = .primary
  · subst hprimary
    exact h
  · by_cases hfactor : l = .factor
    · subst hfactor
      refine .of_reads (.inl rfl) fun d i rest hd hr => ?_
      have hread := h.reads d i rest hd hr
      obtain ⟨t, ts, rfl, ht⟩ := hb.exists_cons
      rw [← hread]
      exact factor_of_opens ht
    · intro d i rest hd hr
      have hread := h.reads d i rest hd hr
      refine ⟨_, ?_, Level.parser_of_next hfactor hprimary hread⟩
      exact Nat.le_of_lt (Cursor.length_lt_bound _ _)

end Luuqad

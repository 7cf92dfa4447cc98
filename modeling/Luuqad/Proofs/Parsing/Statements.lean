import Luuqad.Proofs.Parsing.Expressions

/-!
# Statements are viable

The parser of every form of statement is viable, given that the parsers of nested parts are. The
depth of nesting is then increased step by step, so the parsers of nested parts are viable without a
condition. A single name opens a statement too.
-/

namespace Luuqad.Parser

open Luuqad.Parser.Graded

variable {n : Nat}

theorem opens_statement : Opens (fun d _ => statement (.upTo d)) 0 (· = .identifier)
    (Statement.ends · = true) True := by
  have hwritten : Written (.statement (.access ⟨someName, []⟩)) [someName.render] :=
    .access someName.writtenAs_render .noAccess
  have hread : StatementRead _ [someName.render] := hwritten.understood.2
  exact ⟨_, _, hread.passes, fun _ _ => rfl, fun _ => by simp⟩

theorem viable_name {x : Nat} :
    Viable (fun _ _ => name) n x (· = .identifier) (fun _ => True) True :=
  (Viable.expect (by decide)).map _

section Nested

variable (h : NestedViable n)
include h

/-! ## Parts of statements -/

theorem NestedViable.braced :
    Viable (fun d _ => braced (.upTo d)) n 0 (· = .leftBrace) (fun _ => True) True := by
  apply Viable.expectThen (by decide)
  intro _
  apply (h.statement.many rfl (Nat.le_refl _)).bind
  · exact fun _ => (Viable.expect (by decide)).map _
  · exact fun _ hk => hk

theorem NestedViable.condition :
    Viable (fun d _ => condition (.upTo d)) n 0 (· = .leftParen) (fun _ => True) True := by
  apply Viable.expectThen (by decide)
  intro _
  apply h.expression.andThen
  · exact fun _ => (Viable.expect (by decide)).map _
  · rintro _ rfl
    rfl

theorem NestedViable.bracedMap {α : Type} {x : Nat} (g : List Node → α) :
    Viable (fun d _ => Parser.braced (.upTo d) >>= fun body => pure (g body)) n x (· = .leftBrace)
      (fun _ => True) True :=
  (h.braced.closed (Nat.zero_le _)).map g

theorem NestedViable.guarded {α : Type} {x : Nat} (g : Node → List Node → α) :
    Viable (fun d _ => Parser.condition (.upTo d) >>= fun c => Parser.braced (.upTo d) >>=
      fun body =>
      pure (g c body)) n x (· = .leftParen) (fun _ => True) True := by
  apply h.condition.closedThen (Nat.zero_le x)
  exact fun c => h.bracedMap (g c)

/-! ## Declarations and definitions -/

theorem NestedViable.binding (declared : Option TokenKind) (constant : Bool) (start : Token) :
    Viable (fun d _ => binding (.upTo d) declared constant start) n 0 (· = .identifier)
      (Level.logical.stops · = true) True := by
  apply Viable.require (c := (· ≠ .identifier)) (k := .identifier) (.failExpecting _) (by decide)
    (by decide)
  intro t
  exact .expectThen (by decide) fun _ => (h.expression.later (by omega)).map _

theorem NestedViable.declaration {heads : TokenKind → Prop} (typed : Bool) (heof : ¬heads .eof) :
    Tracks (fun d _ => declaration (.upTo d) typed false) n 0 heads (Level.logical.stops · = true)
      True := by
  apply Tracks.current
  intro start hstart
  apply Tracks.pass
  · exact fun hk => heof (hk ▸ hstart)
  · exact (h.binding _ false start).later (Nat.zero_le _)

theorem NestedViable.constantBinding (start : Token) : Viable (fun d _ => kind >>= fun k =>
      if k.isTypeName then advance >>= fun _ => Parser.binding (.upTo d) (some k) true start
      else Parser.binding (.upTo d) none true start) n 1 (· = .identifier)
      (Level.logical.stops · = true) True := by
  have huntyped := (h.binding none true start).later (Nat.zero_le 1)
  refine ⟨.kind fun k _ => .ite (fun hk => ?_) fun _ => huntyped.tracksFrom, ?_⟩
  · apply Tracks.pass
    · rintro rfl
      cases hk
    · exact (h.binding (some k) true start).later (Nat.zero_le _)
  · exact .kind (by rintro _ rfl; rfl) huntyped.opens

theorem NestedViable.constant :
    Tracks (fun d _ => constant (.upTo d)) n 0 (· = .madoor)
    (Level.logical.stops · = true) True := by
  apply Tracks.current
  intro start hstart
  exact .pass (by rw [hstart]; decide) (h.constantBinding start)

theorem NestedViable.function :
    Viable (fun d _ => function (.upTo d)) n 0 (· = .hawl) (fun _ => True) True := by
  have hparam {x : Nat} : Viable (fun _ _ => name >>= fun p => skip .comma >>= fun _ =>
      (pure { kind := .identifier, value := p } : Parser Node)) n x (· = .identifier)
        (fun _ => True)
      True :=
    viable_name.closedThen (Nat.le_refl _) fun _ => (Viable.skip (by decide)).map _
  have hbody (f : Value) (params : List Node) := h.bracedMap (x := 4)
    fun body => ({ kind := .function, value := f, children := params ++ body } : Node)
  apply Viable.expectThen (by decide)
  intro _
  apply viable_name.closedThen (Nat.le_refl _)
  intro f
  apply Viable.expectThen (by decide)
  intro _
  apply ((hparam.many trivial (Nat.le_refl 1)).later (by omega)).bind
  · exact fun params => .expectThen (by decide) fun _ => hbody f params
  · exact fun _ hk => hk

theorem NestedViable.classDefinition :
    Viable (fun d _ => classDefinition (.upTo d)) n 0 (· = .fasalka) (fun _ => True) True := by
  have hbody (c : Value) (parent : Option Value) {x : Nat} := h.bracedMap (x := x)
    fun body => ({ kind := .classDefinition, value := heading c parent, children := body } : Node)
  apply Viable.expectThen (by decide)
  intro _
  apply viable_name.closedThen (Nat.le_refl _)
  intro c
  apply Viable.unless (c := (· = .kaDhaxal))
  · apply Tracks.pass (by simp)
    exact viable_name.closedThen (Nat.le_refl _) fun parent => hbody c (some parent)
  · exact hbody c none
  · rintro _ rfl
    decide

omit h in
theorem viable_importFile :
    Viable (fun _ _ => importFile) n 0 (· = .kaKeen) (fun _ => True) True := by
  apply Viable.expectThen (by decide)
  intro _
  exact .require (c := (· ≠ .string)) (k := .string) (.failExpecting _) (by decide) (by decide)
    fun _ => .pure _

/-! ## Calls and returns -/

theorem NestedViable.call :
    Viable (fun d _ => call (.upTo d)) n 0 (· = .identifier) (fun _ => True) True := by
  apply Viable.require (c := fun k => k ≠ .identifier ∧ ¬k.isFunctionWord) (k := .identifier)
    (.failExpecting _) (by decide) (by decide)
  intro t
  apply (h.callOf _).closedThen (Nat.zero_le _)
  exact fun _ => (Viable.skip (by decide)).map _

theorem NestedViable.print (start : Token) :
    Tracks (fun d _ => advance >>= fun _ => Parser.sum (.upTo d) >>= fun e =>
      (pure { kind := .call, value := .str "qor", children := [e], line := start.line,
              column := start.column } : Parser Node)) n 0 (· = .qor) (Level.logical.stops · = true)
      True := by
  apply Tracks.pass (by simp)
  apply ((h.sum.later (Nat.zero_le _)).map _).before
  exact fun _ hk => Level.stops_next (l := .comparison) (Level.stops_next (l := .logical) hk)

theorem NestedViable.returnValue :
    Viable (fun d _ => returnValue (.upTo d)) n 0 (· = .celi)
    (Level.logical.stops · = true) True := by
  apply Viable.expectThen (by decide)
  intro _
  apply Viable.unless (c := (· = .semicolon))
  · exact (Viable.pure _).tracksFrom
  · exact (h.expression.map _).still
  · rintro _ rfl
    decide

/-! ## Branches and loops -/

omit h in
theorem not_haddiiKale_of_ends {k : TokenKind} (hk : Statement.ends k = true) :
    k ≠ .haddiiKale := by
  rintro rfl
  cases hk

omit h in
theorem not_ugudambeyn_of_ends {k : TokenKind} (hk : Statement.ends k = true) :
    k ≠ .ugudambeyn := by
  rintro rfl
  cases hk

theorem NestedViable.alternatives :
    Viable (fun d r => alternatives (.upTo d) r) n 1 (· ≠ .haddiiKale) (· ≠ .haddiiKale) False := by
  refine .loop (fun _ d r => Parser.alternatives (.upTo d) r)
    (fun next s d r => kind >>= fun k => if k = .haddiiKale then
      advance >>= fun _ => Parser.condition (.upTo d) >>= fun c =>
      Parser.braced (.upTo d) >>= fun body => next s d r >>= fun more =>
      pure (({ kind := .conditional, children := c :: body } : Node) :: more) else pure [])
    (fun _ _ _ => rfl) (fun _ => .nothing [] fun d r i rest hr hrest => ?_)
    (fun next n' hn hnext s => ?_) ()
  · obtain ⟨r, rfl⟩ : ∃ k, r = k + 1 := ⟨r - 1, by omega⟩
    obtain ⟨t, rest, rfl, ht⟩ := hrest.exists_cons
    simp only [Parser.alternatives, bind_apply, kind_facing, if_neg ht, pure_apply]
  · have h := h.below hn
    have hround : Tracks (fun d r => advance >>= fun _ => Parser.condition (.upTo d) >>= fun c =>
        Parser.braced (.upTo d) >>= fun body => next s d r >>= fun more =>
        pure (({ kind := .conditional, children := c :: body } : Node) :: more)) n' 1
        (· = .haddiiKale) (· ≠ .haddiiKale) True := by
      apply Tracks.pass (by simp)
      apply h.condition.closedThen (Nat.zero_le _)
      intro c
      apply h.braced.closedThen (Nat.zero_le _)
      exact fun body => ((hnext s).later (by omega)).map _
    exact (Viable.unless (c := (· = .haddiiKale)) hround.still (.pure []) fun _ hk => hk).tracks

theorem NestedViable.conditional :
    Viable (fun d _ => conditional (.upTo d)) n 0 (· = .haddii) (Statement.ends · = true) True := by
  apply Viable.expectThen (by decide)
  intro _
  apply h.condition.closedThen (Nat.zero_le _)
  intro c
  apply h.braced.closedThen (Nat.zero_le _)
  intro body
  apply h.alternatives.boundedThen (Nat.le_refl _) (by omega)
  · intro others
    apply Viable.unless (c := (· = .ugudambeyn))
    · apply Tracks.still
      apply Tracks.pass (by simp)
      exact (h.bracedMap _).closed (Nat.le_refl _)
    · exact .pure _
    · exact fun _ => not_ugudambeyn_of_ends
  · exact fun _ => not_haddiiKale_of_ends

theorem NestedViable.secondColon :
    Viable (fun d _ => kind >>= fun k => if k = .colon then advance >>= fun _ =>
      Parser.sum (.upTo d) >>= fun e => pure [e] else failExpecting "':'") n 1 (· = .colon)
      (· = .rightParen) True := by
  have hsum : Viable (fun d _ => Parser.sum (.upTo d) >>= fun e => pure [e]) n 2 (· = .identifier)
      (· = .rightParen) True := by
    apply ((h.sum.later (Nat.zero_le _)).map _).before
    rintro _ rfl
    rfl
  refine ⟨.kind fun k _ => .ite (fun hk => .pass ?_ hsum) fun _ => .complains (.failExpecting _),
    ?_⟩
  · rw [hk]
    decide
  · exact .kind (by rintro _ rfl; rfl) (.pass hsum.opens)

theorem NestedViable.loopStep :
    Viable (fun d _ => loopStep (.upTo d)) n 0 (· = .rightParen) (· = .rightParen) False := by
  apply Viable.unless (c := (· = .colon))
  · exact (Tracks.pass (by simp) h.secondColon).still
  · exact .pure _
  · rintro _ rfl
    decide

theorem NestedViable.loop :
    Viable (fun d _ => loop (.upTo d)) n 0 (· = .kuceli) (fun _ => True) True := by
  apply Viable.expectThen (by decide)
  intro _
  apply Viable.expectThen (by decide)
  intro _
  apply viable_name.closedThen (Nat.le_refl _)
  intro variableName
  apply (h.sum.later (Nat.zero_le _)).andThen
  · intro first
    apply Viable.expectThen (by decide)
    intro _
    apply (h.sum.later (Nat.zero_le _)).andThen
    · intro last
      apply (h.loopStep.later (Nat.zero_le _)).bind
      · intro step
        exact .expectThen (by decide) fun _ => h.bracedMap _
      · exact fun _ hk => hk
    · rintro _ rfl
      rfl
  · rintro _ rfl
    rfl

theorem NestedViable.whileLoop :
    Viable (fun d _ => whileLoop (.upTo d)) n 0 (· = .intay) (fun _ => True) True :=
  .expectThen (by decide) fun _ => h.guarded _

/-! ## Handlers and switches -/

theorem NestedViable.tryCatch :
    Viable (fun d _ => tryCatch (.upTo d)) n 0 (· = .iskuDay) (fun _ => True) True := by
  apply Viable.expectThen (by decide)
  intro _
  apply h.braced.closedThen (Nat.zero_le _)
  intro body
  apply Viable.expectThen (by decide)
  intro _
  apply Viable.expectThen (by decide)
  intro _
  apply viable_name.closedThen (Nat.le_refl _)
  intro e
  exact .expectThen (by decide) fun _ => h.bracedMap _

theorem NestedViable.clause :
    Viable (fun d _ => clause (.upTo d)) n 1 (· = .ugudambeyn) (fun _ => True) True := by
  have hlast := h.bracedMap (x := 2) fun body => ({ kind := .block, children := body } : Node)
  refine ⟨.kind fun k _ => ?_, .kind (by rintro _ rfl; rfl) (.pass hlast.opens)⟩
  cases k with
  | xaalad =>
    apply Tracks.pass (by simp)
    apply (h.expression.later (Nat.le_succ _)).andThen
    · exact fun v => h.bracedMap _
    · rintro _ rfl
      rfl
  | ugudambeyn => exact .pass (by simp) hlast
  | _ => exact .complains (.failExpecting _)

theorem NestedViable.switch :
    Viable (fun d _ => switch (.upTo d)) n 0 (· = .dooro) (fun _ => True) True := by
  apply Viable.expectThen (by decide)
  intro _
  apply h.condition.closedThen (Nat.zero_le _)
  intro e
  apply Viable.expectThen (by decide)
  intro _
  apply ((h.clause.many trivial (Nat.le_refl _)).later (by omega)).bind
  · exact fun clauses => (Viable.expect (by decide)).map _
  · exact fun _ hk => hk

/-! ## Statements that start with a name -/

theorem NestedViable.assigned {x : Nat} (start : Token) (target : Node) :
    Tracks (fun d _ => advance >>= fun _ => (Nested.upTo d).expression >>= fun v =>
      (pure { kind := .assignment, children := [target, v], line := start.line,
              column := start.column } : Parser Node)) n x (· = .equal) (Statement.ends · = true)
      True := by
  apply Tracks.pass (by simp)
  exact ((h.expression.later (by omega)).map _).before fun _ => Statement.stops_of_ends

theorem NestedViable.named :
    Tracks (fun d _ => named (.upTo d)) n 0 (· = .identifier) (Statement.ends · = true) True := by
  apply Tracks.current
  intro start hstart
  refine .pass (by rw [hstart]; decide)
    (?_ : Viable _ n 1 (Statement.ends · = true) (Statement.ends · = true) False)
  refine ⟨.kind fun k _ => ?_, .kind (fun k hk => ?_)
    (Opens.pure ({ kind := .identifier, value := start.value } : Node))⟩
  · cases k with
    | dot | leftBracket =>
      apply Viable.tracksFrom
      apply (h.accesses (.fail fun _ => rfl) _).boundedThen (Nat.zero_le _) (Nat.zero_le _)
      · intro target
        apply Viable.unless (c := (· = .equal)) (h.assigned start target).still (.pure target)
        rintro _ hk rfl
        cases hk
      · exact fun _ => Statement.access_stops_of_ends
    | leftParen =>
      apply Tracks.still
      apply Tracks.pass (by simp)
      exact ((h.expression.arguments rfl).map _).closed (by omega)
    | equal => exact (h.assigned start _).still
    | _ => exact (Viable.pure _).tracksFrom
  · cases k with
    | dot | leftBracket | leftParen | equal => cases hk
    | _ => rfl

theorem NestedViable.statementParser :
    Viable (fun d _ => Parser.statement (.upTo d)) n 0 (· = .identifier) (Statement.ends · = true)
      True := by
  refine ⟨.current fun t _ => ?_, opens_statement⟩
  have hclosed {p : Graded Node} {starts : TokenKind → Prop}
      (hp : p.Viable n 0 starts (fun _ => True) True) :
      p.Tracks n 0 (· = t.kind) (Statement.ends · = true) True :=
        (hp.closed (Nat.le_refl _)).tracksFrom
  have hstops {p : Graded Node}
      (hp : p.Tracks n 0 (· = t.kind) (Level.logical.stops · = true) True) :
      p.Tracks n 0 (· = t.kind) (Statement.ends · = true) True :=
    hp.before fun _ => Statement.stops_of_ends
  generalize hk : t.kind = k at hclosed hstops
  cases k with
  | haddii => exact h.conditional.tracksFrom
  | dooro => exact hclosed h.switch
  | abn | jajab | qoraal | bool | teed | walax => exact hstops (h.declaration true (by simp))
  | door => exact hstops (h.declaration false (by simp))
  | madoor => exact hstops h.constant
  | hawl => exact hclosed h.function
  | celi => exact hstops h.returnValue.tracksFrom
  | qor => exact hstops (h.print t)
  | gelin => exact hclosed h.call
  | kuceli => exact hclosed h.loop
  | intay => exact hclosed h.whileLoop
  | jooji | soco => exact hclosed ((Viable.expect (by decide)).map _)
  | iskuDay => exact hclosed h.tryCatch
  | kaKeen => exact hclosed viable_importFile
  | fasalka => exact hclosed h.classDefinition
  | leftBrace => exact hclosed (h.bracedMap _)
  | identifier => exact h.named
  | _ => exact .complains .failUnexpected

end Nested

/-! ## Any depth -/

/-- A nested part is one token shorter than what it is nested in, so the induction is on the number
of tokens. -/
theorem nestedViable (n : Nat) : NestedViable n := by
  have hstatement := opens_statement.nested (q := fun d _ => (Nested.upTo d).statement)
    fun _ _ => rfl
  have hexpression := (opens_level .logical).nested (q := fun d _ => (Nested.upTo d).expression)
    fun _ _ => rfl
  have hfactor := (opens_level .factor).nested (q := fun d _ => (Nested.upTo d).factor)
    fun _ _ => rfl
  induction n with
  | zero =>
    exact ⟨⟨.of_le (Nat.zero_le _), hstatement⟩, ⟨.of_le (Nat.zero_le _), hexpression⟩,
      ⟨.of_le (Nat.zero_le _), hfactor⟩⟩
  | succ n ih =>
    exact ⟨⟨ih.statementParser.tracks.nested fun _ _ => rfl, hstatement⟩,
      ⟨ih.expressionParser.tracks.nested fun _ _ => rfl, hexpression⟩,
      ⟨ih.factorParser.tracks.nested fun _ _ => rfl, hfactor⟩⟩

theorem viable_program :
    Viable (fun d _ => program (.upTo d)) n 0 (· = .eof) (· = .eof) False :=
  ((nestedViable n).statementParser.many rfl (Nat.zero_le _)).map _

end Luuqad.Parser

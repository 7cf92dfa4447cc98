import Luuqad.Proofs.Parsing.Items

/-!
# Expressions are viable

The parser of every level of expressions is viable, given that the parsers of nested parts are. A
single name opens each of them, and `Level.stops` holds the kinds of tokens in front of which it can
end.
-/

namespace Luuqad.Parser

open Luuqad.Parser.Graded

/-- The parsers of nested parts are viable. A part is nested after at least one token of the outer
one. -/
structure NestedViable (n : Nat) : Prop where
  statement : Viable (fun d _ => (Nested.upTo d).statement) n 1 (· = .identifier)
    (Statement.ends · = true) True
  expression : Viable (fun d _ => (Nested.upTo d).expression) n 1 (· = .identifier)
    (Level.logical.stops · = true) True
  factor : Viable (fun d _ => (Nested.upTo d).factor) n 1 (· = .identifier)
    (Level.factor.stops · = true) True

variable {n n' : Nat}

theorem NestedViable.below (h : NestedViable n) (hn : n' ≤ n) : NestedViable n' :=
  ⟨h.statement.below hn, h.expression.below hn, h.factor.below hn⟩

/-! ## A name as an expression -/

theorem Reads.passes {α : Type} {p : Nested → Parser α} {ends : TokenKind → Prop} {a : α}
    {ts : List Token} (h : Reads p ends a ts) : Passes (fun d _ => p (.upTo d)) 0 ends a ts :=
  fun d _ i rest hd _ hrest => h d i rest hd hrest

def someName : Name := ⟨"x", by decide⟩

theorem opens_level (l : Level) :
    Opens (fun d _ => l.parser (.upTo d)) 0 (· = .identifier) (l.stops · = true) True := by
  have hwritten : Written (.expression l (.name (.name someName))) [someName.render] :=
    (Written.name (w := .name someName) someName.writtenAs_render).at_level l
  have hreaches : l.Reaches _ [someName.render] := hwritten.understood.2
  exact ⟨_, _, hreaches.reads.passes, fun _ _ => rfl, fun _ => by simp⟩

theorem not_leftParen_of_access_stops {k : TokenKind} (h : Level.access.stops k = true) :
    k ≠ .leftParen :=
  not_leftParen_of_stops (Level.stops_next (l := .access) h)

theorem not_access_of_stops {k : TokenKind} (h : Level.access.stops k = true) :
    ¬(k = .dot ∨ k = .leftBracket) := by
  simpa [Level.continues] using Level.not_continues h

/-! ## Primary expressions -/

section Nested

variable (h : NestedViable n)
include h

theorem NestedViable.callOf (v : Value) :
    Viable (fun d _ => callOf v (.upTo d)) n 0 (· = .leftParen) (fun _ => True) True := by
  apply Viable.expectThen (by decide)
  intro _
  apply Viable.bind (h.expression.arguments rfl)
  · exact fun _ => (Viable.skip (by decide)).map _
  · exact fun _ _ => trivial

theorem NestedViable.listLiteral :
    Viable (fun d _ => listLiteral (.upTo d)) n 0 (· = .leftBracket) (fun _ => True) True := by
  apply Viable.expectThen (by decide)
  intro _
  apply (h.expression.separatedUntil rfl (by decide)).boundedThen (Nat.le_refl _) (Nat.le_refl _)
  · exact fun _ => (Viable.expect (by decide)).map _
  · exact fun _ hk => hk

theorem NestedViable.entry :
    Viable (fun d _ => entry (.upTo d)) n 1 (· = .identifier)
    (Level.logical.stops · = true) True := by
  apply Viable.accept (c := fun k => k = .identifier ∨ k = .string)
    (fun _ => refuses_of_complains (.failExpecting _)) (by decide) (.inl rfl)
  intro t
  exact .expectThen (by decide) fun _ => (h.expression.later (by omega)).map _

theorem NestedViable.objectLiteral :
    Viable (fun d _ => objectLiteral (.upTo d)) n 0 (· = .leftBrace) (fun _ => True) True := by
  apply Viable.expectThen (by decide)
  intro _
  apply (h.entry.separatedUntil rfl (by decide)).boundedThen (Nat.le_refl _) (Nat.le_refl _)
  · exact fun _ => (Viable.expect (by decide)).map _
  · exact fun _ hk => hk

theorem NestedViable.word (v : Value) :
    Viable (fun d _ => kind >>= fun k => if k = .leftParen then Parser.callOf v (.upTo d)
      else pure { kind := .identifier, value := v }) n 1 (Level.primary.stops · = true)
      (Level.primary.stops · = true) False :=
  .unless (c := (· = .leftParen)) ((h.callOf v).closed (Nat.zero_le _)).still.tracksFrom (.pure _)
    fun _ => not_leftParen_of_stops

theorem NestedViable.primary : Viable (fun d _ => primary (.upTo d)) n 0 (· = .identifier)
    (Level.primary.stops · = true) True := by
  refine ⟨.current fun t _ => ?_, opens_level .primary⟩
  have hliteral (hne : t.kind ≠ .eof) (v : Value) : Tracks
      (fun _ _ => advance >>= fun _ => pure (literal v)) n 0 (· = t.kind)
      (Level.primary.stops · = true) True := .pass hne.symm (.pure _)
  have hword (hne : t.kind ≠ .eof) (v : Value) : Tracks
      (fun d _ => advance >>= fun _ => kind >>= fun k => if k = .leftParen
        then Parser.callOf v (.upTo d) else pure { kind := .identifier, value := v }) n 0
      (· = t.kind) (Level.primary.stops · = true) True := .pass hne.symm (h.word v)
  generalize t.kind = k at hliteral hword
  cases k with
  | number | string | true | false | null => exact hliteral (by simp) _
  | leftParen =>
    apply Tracks.pass (by simp)
    apply h.expression.andThen
    · exact fun _ => ((Viable.expect (by decide)).map _).closed (Nat.le_refl _)
    · rintro _ rfl
      rfl
  | leftBracket => exact (h.listLiteral.closed (Nat.le_refl _)).tracksFrom
  | leftBrace => exact (h.objectLiteral.closed (Nat.le_refl _)).tracksFrom
  | identifier | qor | gelin | abn | jajab | qoraal | bool | teed | walax => exact hword (by simp) _
  | _ => exact .complains .failUnexpected

/-! ## Accesses -/

theorem NestedViable.access {notName : Parser Unit} (hname : Complains notName) (target : Node) :
    Viable (fun d _ => access notName (.upTo d) target) n 0 (· = .leftBracket) (· ≠ .leftParen)
      True := by
  apply Viable.unless (c := (· = .dot))
  · apply Tracks.pass (by simp)
    apply Viable.require (c := (· ≠ .identifier)) (k := .identifier) hname (by decide) (by decide)
    intro name
    apply Viable.unless (c := (· = .leftParen))
    · apply Tracks.still
      apply Tracks.pass (by simp)
      exact ((h.expression.arguments rfl).map _).closed (by omega)
    · exact .pure _
    · exact fun _ hk => hk
  · apply Viable.expectThen (by decide)
    intro _
    apply h.expression.andThen
    · exact fun _ => ((Viable.expect (by decide)).map _).closed (Nat.le_refl _)
    · rintro _ rfl
      rfl
  · rintro _ rfl
    decide

theorem NestedViable.accesses {notName : Parser Unit} (hname : Complains notName) (target : Node) :
    Viable (fun d r => accesses notName (.upTo d) target r) n 0 (Level.access.stops · = true)
      (Level.access.stops · = true) False := by
  refine .loop (fun target d r => Parser.accesses notName (.upTo d) target r)
    (fun next target d r => kind >>= fun k => if k = .dot ∨ k = .leftBracket then
      Parser.access notName (.upTo d) target >>= fun t => next t d r else pure target)
    (fun _ _ _ => rfl) (fun target => .nothing target fun d r i rest hr hrest => ?_)
    (fun next n' hn hnext target => ?_) target
  · obtain ⟨r, rfl⟩ : ∃ k, r = k + 1 := ⟨r - 1, by omega⟩
    obtain ⟨t, rest, rfl, ht⟩ := hrest.exists_cons
    simp only [Parser.accesses, bind_apply, kind_facing, if_neg (not_access_of_stops ht),
      pure_apply]
  · have hround := ((h.below hn).access hname target).andThen hnext
      fun _ => not_leftParen_of_access_stops
    exact (Viable.unless (c := fun k => k = .dot ∨ k = .leftBracket) hround.still.tracksFrom
      (.pure target) fun _ => not_access_of_stops).tracks

theorem NestedViable.postfixed :
    Viable (fun d _ => postfixed (.upTo d)) n 0 (· = .identifier) (Level.access.stops · = true)
      True := by
  apply h.primary.andThen
  · exact fun e => ((h.accesses (.failExpecting _) e).bounded (Nat.zero_le _)).later (Nat.zero_le _)
  · exact fun _ => Level.stops_next (l := .access)

theorem NestedViable.factorParser :
    Viable (fun d _ => Parser.factor (.upTo d)) n 0 (· = .identifier) (Level.factor.stops · = true)
      True := by
  refine ⟨.kind fun k _ => ?_, opens_level .factor⟩
  cases k with
  | plus => exact .pass (by simp) h.factor
  | minus | not => exact .pass (by simp) (h.factor.map _)
  | _ => exact (h.postfixed.before fun _ => Level.stops_next (l := .factor)).tracksFrom

end Nested

/-! ## Binary operators -/

theorem Graded.Viable.operations {isOperator : TokenKind → Bool} {operand : Nat → Parser Node}
    {starts mids ends : TokenKind → Prop}
    (hoperand : Viable (fun d _ => operand d) n 0 starts mids True) (heof : isOperator .eof = false)
    (hends : ∀ k, ends k → mids k) (hstop : ∀ k, ends k → isOperator k = false) (left : Node) :
    Viable (fun d r => operations isOperator (operand d) left r) n 0 ends ends False := by
  have hno (k : TokenKind) (hk : ends k) : ¬isOperator k = true := by simp [hstop k hk]
  refine .loop (fun left d r => Parser.operations isOperator (operand d) left r)
    (fun next left d r => current >>= fun t => if isOperator t.kind then
      advance >>= fun _ => operand d >>= fun right => next (binary t.value left right) d r
      else Pure.pure left)
    (fun _ _ _ => rfl) (fun left => .nothing left fun d r i rest hr hrest => ?_)
    (fun next n' hn hnext left => ?_) left
  · obtain ⟨r, rfl⟩ : ∃ k, r = k + 1 := ⟨r - 1, by omega⟩
    obtain ⟨t, rest, rfl, ht⟩ := hrest.exists_cons
    simp only [Parser.operations, bind_apply, current_facing, if_neg (hno _ ht), pure_apply]
  · apply (Viable.unlessToken (c := fun k => isOperator k = true)
      (fun t ht => ?_) (.pure left) hno).tracks
    apply Tracks.pass (by simp [heof])
    apply ((hoperand.below hn).later (Nat.zero_le 1)).andThen
    · exact fun _ => (hnext _).later (by omega)
    · exact hends

theorem Graded.Viable.level {isOperator : TokenKind → Bool} {operand : Nat → Parser Node}
    {starts mids ends : TokenKind → Prop}
    (hoperand : Viable (fun d _ => operand d) n 0 starts mids True) (heof : isOperator .eof = false)
    (hends : ∀ k, ends k → mids k) (hstop : ∀ k, ends k → isOperator k = false) :
    Viable (fun d _ => level isOperator (operand d)) n 0 starts ends True := by
  apply hoperand.andThen
  · intro left
    exact ((hoperand.operations heof hends hstop left).bounded (Nat.zero_le _)).later
      (Nat.zero_le _)
  · exact hends

section Nested

variable (h : NestedViable n)
include h

theorem NestedViable.term : Viable (fun d _ => term (.upTo d)) n 0 (· = .identifier)
    (Level.term.stops · = true) True :=
  h.factorParser.level rfl (fun _ => Level.stops_next (l := .term))
    fun _ => Level.not_continues (l := .term)

theorem NestedViable.sum : Viable (fun d _ => sum (.upTo d)) n 0 (· = .identifier)
    (Level.sum.stops · = true) True :=
  h.term.level rfl (fun _ => Level.stops_next (l := .sum)) fun _ => Level.not_continues (l := .sum)

theorem NestedViable.comparisons (left : Node) :
    Viable (fun d r => comparisons (.upTo d) left r) n 0 (Level.comparison.stops · = true)
      (Level.comparison.stops · = true) False := by
  have hno (k : TokenKind) (hk : Level.comparison.stops k = true) : ¬isComparison k = true := by
    have hk : isComparison k = false := Level.not_continues hk
    simp [hk]
  refine .loop (fun left d r => Parser.comparisons (.upTo d) left r)
    (fun next left d r => current >>= fun t => if isComparison t.kind then
      advance >>= fun _ => kind >>= fun k =>
        if t.kind = .equal ∧ k = .equal then advance >>= fun _ => Parser.sum (.upTo d) >>=
          fun right =>
          next (binary (.str "==") left right) d r
        else Parser.sum (.upTo d) >>= fun right => next (binary t.value left right) d r
      else pure left)
    (fun left d r => ?_) (fun left => .nothing left fun d r i rest hr hrest => ?_)
    (fun next n' hn hnext left => ?_) left
  · -- the operator is known once it is known whether a second equals sign follows
    simp only [Parser.comparisons, Nat.add_sub_cancel]
    refine bind_congr fun t => ?_
    congr 1
    refine bind_congr fun _ => bind_congr fun k => ?_
    by_cases hk : t.kind = .equal ∧ k = .equal
    · simp only [if_pos hk]
    · simp only [if_neg hk]
  · exact Level.loop_stops (l := .comparison) hr (hrest.mono fun _ => Level.not_continues)
  · apply (Viable.unlessToken (c := fun k => isComparison k = true)
      (fun t ht => ?_) (.pure left) hno).tracks
    apply Tracks.pass (by simp [isComparison])
    have hoperand {y : Nat} (op : Value) : Viable (fun d r => Parser.sum (.upTo d) >>= fun right =>
        next (binary op left right) d r) n' (y + 1) (· = .identifier)
        (Level.comparison.stops · = true) True := by
      apply ((h.below hn).sum.later (Nat.zero_le (y + 1))).andThen
      · exact fun _ => (hnext _).later (by omega)
      · exact fun _ => Level.stops_next (l := .comparison)
    apply Viable.unless (c := fun k => t.kind = .equal ∧ k = .equal)
    · exact .pass (by simp) (hoperand _)
    · exact hoperand _
    · rintro _ rfl ⟨-, hk⟩
      cases hk

theorem NestedViable.comparison : Viable (fun d _ => comparison (.upTo d)) n 0 (· = .identifier)
    (Level.comparison.stops · = true) True := by
  apply h.sum.andThen
  · exact fun left => ((h.comparisons left).bounded (Nat.zero_le _)).later (Nat.zero_le _)
  · exact fun _ => Level.stops_next (l := .comparison)

theorem NestedViable.expressionParser : Viable (fun d _ => Parser.expression (.upTo d)) n 0
    (· = .identifier) (Level.logical.stops · = true) True :=
  h.comparison.level rfl (fun _ => Level.stops_next (l := .logical))
    fun _ => Level.not_continues (l := .logical)

end Nested

end Luuqad.Parser

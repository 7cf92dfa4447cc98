import Luuqad.Proofs.Grammar.Facing
import Luuqad.Proofs.Grammar.Written

/-!
# The parsers of the levels

A level of the grammar has a parser, and the parser of an operator level is a loop: it reads an
operand of the next level and goes on as long as operators of its own level follow.
`Level.Reaches l n ts` says that the parser of level `l`, once it has passed the tokens `ts`, is in
its loop with the tree `n` to the left. This is what an operand to the left of an operator needs,
and `Level.Reaches.reads` derives from it that the whole of `ts` is read as `n` as soon as a token
follows that stops the level.
-/

namespace Luuqad

open Luuqad.Parser

/-! ## Reading a given row of tokens -/

/-- In front of the tokens `ts` and a token with a kind among `ends`, the parser passes `ts` and
returns `a`. The parsers of nested parts may go as deep as there are tokens. -/
def Parser.Reads {α : Type} (p : Nested → Parser α) (ends : TokenKind → Prop) (a : α)
    (ts : List Token) : Prop :=
  ∀ (d i : Nat) (rest : List Token), ts.length ≤ d → Begins ends rest →
    p (.upTo d) (.facing i (ts ++ rest)) = .ok a (.facing (i + ts.length) rest)

namespace Level

/-! ## Where an expression ends -/

/-- Whether a token of this kind carries an expression on at exactly this level. -/
def continues : Level → TokenKind → Bool
  | logical, k => isLogical k
  | comparison, k => isComparison k
  | sum, k => isSumOperator k
  | term, k => isTermOperator k
  | factor, _ => false
  | access, k => k == .dot || k == .leftBracket
  | primary, k => k == .leftParen || k == .semicolon

/-- The level and all that are tighter. -/
def inside : Level → List Level
  | logical => [logical, comparison, sum, term, factor, access, primary]
  | comparison => [comparison, sum, term, factor, access, primary]
  | sum => [sum, term, factor, access, primary]
  | term => [term, factor, access, primary]
  | factor => [factor, access, primary]
  | access => [access, primary]
  | primary => [primary]

/-- Whether no expression of the level goes on with a token of this kind. -/
def stops (l : Level) (k : TokenKind) : Bool := l.inside.all fun m => !m.continues k

theorem stops_next {l : Level} {k : TokenKind} (h : l.stops k = true) : l.next.stops k = true := by
  cases l <;> simp_all [stops, inside, next]

theorem not_continues {l : Level} {k : TokenKind} (h : l.stops k = true) :
    l.continues k = false := by
  cases l <;> simp_all [stops, inside]

/-- Whether a primary expression can start with a token of this kind. -/
def opensPrimary : TokenKind → Bool
  | .number | .string | .true | .false | .null | .leftParen | .leftBracket | .leftBrace
  | .identifier => true
  | k => k.isFunctionWord

/-- Whether an expression of the level can start with a token of this kind. -/
def opens : Level → TokenKind → Bool
  | access, k | primary, k => opensPrimary k
  | _, k => k == .plus || k == .minus || k == .not || opensPrimary k

theorem opens_of_next {l : Level} {k : TokenKind} (h : l.next.opens k = true) :
    l.opens k = true := by
  cases l <;> simp_all [opens, next]

/-! ## Parsers and loops -/

def parser : Level → Nested → Parser Node
  | logical => Parser.expression
  | comparison => Parser.comparison
  | sum => Parser.sum
  | term => Parser.term
  | factor => Parser.factor
  | access => Parser.postfixed
  | primary => Parser.primary

/-- What the parser of a level does once it has read `left`, for at most `fuel` rounds. -/
def loop (l : Level) (inner : Nested) (left : Node) (fuel : Nat) : Parser Node :=
  match l with
  | logical => operations isLogical (Parser.comparison inner) left fuel
  | comparison => comparisons inner left fuel
  | sum => operations isSumOperator (Parser.term inner) left fuel
  | term => operations isTermOperator (Parser.factor inner) left fuel
  | access => accesses (failExpecting "property name") inner left fuel
  | factor | primary => pure left

theorem loop_stops {l : Level} {inner : Nested} {left : Node} {fuel i : Nat} {rest : List Token}
    (hf : 0 < fuel) (h : Begins (l.continues · = false) rest) :
    l.loop inner left fuel (.facing i rest) = .ok left (.facing i rest) := by
  obtain ⟨fuel, rfl⟩ : ∃ f, fuel = f + 1 := ⟨fuel - 1, by omega⟩
  obtain ⟨r, rest, rfl, hr⟩ := h.exists_cons
  cases l with
  | factor | primary => rfl
  | access =>
    have hk : ¬(r.kind = .dot ∨ r.kind = .leftBracket) := by simpa [continues] using hr
    simp only [loop, accesses, bind_apply, kind_facing, if_neg hk, pure_apply]
  | comparison =>
    simp only [continues] at hr
    simp [loop, comparisons, bind_apply, current_facing, hr, pure_apply]
  | logical | sum | term =>
    simp only [continues] at hr
    simp [loop, operations, bind_apply, current_facing, hr, pure_apply]

/-- The parser of an operator level reads an operand of the next level and enters its loop. -/
theorem parser_of_next {l : Level} {inner : Nested} {c c' : Cursor} {n : Node} (hf : l ≠ .factor)
    (hp : l ≠ .primary) (h : l.next.parser inner c = .ok n c') :
    l.parser inner c = l.loop inner n c'.bound c' := by
  cases l with
  | factor => exact absurd rfl hf
  | primary => exact absurd rfl hp
  | logical =>
    simp only [next, parser] at h
    simp only [parser, loop, Parser.expression, Parser.level, bind_apply, h, get_apply]
  | comparison =>
    simp only [next, parser] at h
    simp only [parser, loop, Parser.comparison, bind_apply, h, get_apply]
  | sum =>
    simp only [next, parser] at h
    simp only [parser, loop, Parser.sum, Parser.level, bind_apply, h, get_apply]
  | term =>
    simp only [next, parser] at h
    simp only [parser, loop, Parser.term, Parser.level, bind_apply, h, get_apply]
  | access =>
    simp only [next, parser] at h
    simp only [parser, loop, Parser.postfixed, bind_apply, h, get_apply]

/-- The parser of the level passes the tokens `ts` and is then in its loop, with `n` to the left and
enough rounds left for what follows. -/
def Reaches (l : Level) (n : Node) (ts : List Token) : Prop :=
  ∀ (d i : Nat) (rest : List Token), ts.length ≤ d → Begins (l.next.stops · = true) rest →
    ∃ fuel, rest.length ≤ fuel ∧
      l.parser (.upTo d) (.facing i (ts ++ rest)) =
        l.loop (.upTo d) n fuel (.facing (i + ts.length) rest)

theorem Reaches.reads {l : Level} {n : Node} {ts : List Token} (h : l.Reaches n ts) :
    Reads l.parser (l.stops · = true) n ts := by
  intro d i rest hd hr
  obtain ⟨fuel, hfuel, hp⟩ := h d i rest hd (hr.mono fun _ => stops_next)
  rw [hp]
  exact loop_stops (by have := hr.length_pos; omega) (hr.mono fun _ => not_continues)

theorem Reaches.of_reads {l : Level} {n : Node} {ts : List Token}
    (hl : l = .factor ∨ l = .primary) (h : Reads l.parser (l.next.stops · = true) n ts) :
    l.Reaches n ts := by
  intro d i rest hd hr
  refine ⟨rest.length, Nat.le_refl _, ?_⟩
  rw [h d i rest hd hr]
  rcases hl with rfl | rfl <;> rfl

/-- Parts nested in a phrase are read one level of depth below it. -/
theorem Reaches.expression_upTo {n : Node} {ts rest : List Token} {d : Nat} (i : Nat)
    (h : logical.Reaches n ts) (hd : ts.length < d) (hr : Begins (logical.stops · = true) rest) :
    (Nested.upTo d).expression (.facing i (ts ++ rest)) =
      .ok n (.facing (i + ts.length) rest) := by
  obtain ⟨d, rfl⟩ : ∃ e, d = e + 1 := ⟨d - 1, by omega⟩
  exact h.reads d i rest (by omega) hr

theorem Reaches.factor_upTo {n : Node} {ts rest : List Token} {d : Nat} (i : Nat)
    (h : factor.Reaches n ts) (hd : ts.length < d) (hr : Begins (factor.stops · = true) rest) :
    (Nested.upTo d).factor (.facing i (ts ++ rest)) = .ok n (.facing (i + ts.length) rest) := by
  obtain ⟨d, rfl⟩ : ∃ e, d = e + 1 := ⟨d - 1, by omega⟩
  exact h.reads d i rest (by omega) hr

end Level

end Luuqad

import Luuqad.Parser.Program
import Luuqad.Proofs.Grammar.RoundTrip
import Luuqad.Proofs.Shell.Formula

/-!
# How the language reads a line

A line that prints an expression or declares a variable, with any blanks except line breaks inside
it. Its tokens need no blanks between them: each ends where the next symbol starts. The lexer finds
them and the parser makes of them the statement that the line is meant to be (`readProgram_line`).
-/

namespace Luuqad.Shell

open Lexer (isNameChar isNumberChar lexeme scan scan_blank scan_token takeWhile_before)

/-! ## Lines -/

/-- A text between quotes, on one line. -/
structure Quoted where
  quote : Char
  body : List Char
  isQuote : Lexer.isQuote quote = true
  closed : quote ∉ body
  unbroken : '\n' ∉ body

def Quoted.chars (q : Quoted) : List Char := q.quote :: (q.body ++ [q.quote])

/-- A number with a point. -/
structure Decimal where
  first : Char
  more : List Char
  value : Float
  isDigit : first.isDigit = true
  isNumber : ∀ c ∈ more, isNumberChar c = true
  point : '.' ∈ more
  reads : Number.readFloat (String.ofList (first :: more)) = .ok value

inductive Term
  | name (x : Identifier)
  | text (q : Quoted)
  | decimal (d : Decimal)

def Term.chars : Term → List Char
  | name x => x.chars
  | text q => q.chars
  | decimal d => d.first :: d.more

theorem Term.chars_ne_nil (x : Term) : x.chars ≠ [] := by
  cases x with
  | name x => exact x.isName.ne_nil
  | text | decimal => exact List.cons_ne_nil _ _

def Arithmetic.chars (e : Arithmetic Term) : List Char := e.textWith Term.chars

/-- A line prints an expression or declares a variable. -/
inductive Command
  | print (gap gap' : Gap) (e : Arithmetic Term) (gap'' : Gap)
  | declare (gap : Gap) (apart : gap ≠ .none) (x : Identifier) (gap' gap'' : Gap)
      (e : Arithmetic Term)

def Command.expression : Command → Arithmetic Term
  | print _ _ e _ | declare _ _ _ _ _ e => e

def Command.chars : Command → List Char
  | print gap gap' e gap'' =>
    "qor".toList ++ (gap.chars ++ '(' :: ((gap'.chars ++ e.chars) ++ (gap''.chars ++ [')'])))
  | declare gap _ x gap' gap'' e =>
    "door".toList ++ (gap.chars ++ (x.chars ++ (gap'.chars ++ '=' :: (gap''.chars ++ e.chars))))

-- The texts are stated here because unfolding `Command.chars` computes the characters of the words.
theorem Command.chars_print (gap gap' : Gap) (e : Arithmetic Term) (gap'' : Gap) :
    (print gap gap' e gap'').chars =
      "qor".toList ++ (gap.chars ++ '(' :: (gap'.chars ++ (e.chars ++ (gap''.chars ++ [')'])))) :=
  congrArg (fun cs => "qor".toList ++ (gap.chars ++ '(' :: cs)) (List.append_assoc _ _ _)

theorem Command.chars_declare (gap : Gap) (apart : gap ≠ .none) (x : Identifier) (gap' gap'' : Gap)
    (e : Arithmetic Term) :
    (declare gap apart x gap' gap'' e).chars = "door".toList ++
      (gap.chars ++ (x.chars ++ (gap'.chars ++ '=' :: (gap''.chars ++ e.chars)))) :=
  rfl

/-- A line with blanks around the command. The end of a program is only seen behind a blank. -/
structure Line where
  before : List Char
  command : Command
  after : List Char
  blankBefore : ∀ c ∈ before, Text.isBlank c = true
  blankAfter : ∀ c ∈ after, Text.isBlank c = true
  ended : after ≠ []

def Line.text (l : Line) : String := String.ofList (l.before ++ (l.command.chars ++ l.after))

/-! ## What is meant -/

theorem Identifier.text_ne (x : Identifier) : x.text ≠ "" := by
  intro h
  have hnil : x.chars = [] := by simpa [Identifier.text] using congrArg String.toList h
  exact x.isName.ne_nil hnil

def Identifier.toName (x : Identifier) : Name := ⟨x.text, x.text_ne⟩

def Term.toExpression : Term → Expression
  | name x => .name (.name x.toName)
  | text q => .text (String.ofList q.body)
  | decimal d => .number (.float d.value)

def Joint.operator : Joint → Operator
  | add => .add
  | subtract => .subtract
  | multiply => .multiply
  | divide => .divide

def Arithmetic.toExpression : Arithmetic Term → Expression
  | number _ n => .number (.int n.value)
  | leaf _ x => x.toExpression
  | negative _ a => .negative a.toExpression
  | joined left _ j right => .binary j.operator left.toExpression right.toExpression
  | enclosed _ a _ => a.toExpression

/-- The statement that a command is, wherever it starts. -/
def Command.toStatement (spot : Spot) : Command → Statement
  | print _ _ e _ => .print spot e.toExpression
  | declare _ _ x _ _ e => .declaration spot false none x.toName e.toExpression

/-! ## Tokens -/

/-- Neither a name nor a number goes on. -/
def Boundary (rest : List Char) : Prop :=
  ∀ c ∈ rest.head?, isNameChar c = false ∧ isNumberChar c = false

/-- The lexer cuts a text into tokens with a property, and goes on behind them. -/
def Scans (P : List Token → Prop) (text rest : List Char) : Prop :=
  ∀ fresh p, ∃ ts q, P ts ∧ scan fresh p (text ++ rest) = (scan true q rest).map (ts ++ ·)

def Single (k : TokenKind) (v : Value) (ts : List Token) : Prop :=
  ∃ t : Token, ts = [t] ∧ t.Says k v

namespace Scans

variable {P Q R : List Token → Prop} {text more rest : List Char}

theorem append (htext : Scans P text (more ++ rest)) (hmore : Scans Q more rest)
    (h : ∀ {ts us}, P ts → Q us → R (ts ++ us)) : Scans R (text ++ more) rest := by
  intro fresh p
  obtain ⟨ts, q, hts, hscan⟩ := htext fresh p
  obtain ⟨us, r, hus, hscan'⟩ := hmore true q
  refine ⟨ts ++ us, r, h hts hus, ?_⟩
  rw [List.append_assoc, hscan, hscan']
  cases scan true r rest with
  | error e => rfl
  | ok vs => simp [Except.map]

theorem mono (htext : Scans P text rest) (h : ∀ {ts}, P ts → Q ts) : Scans Q text rest := by
  intro fresh p
  obtain ⟨ts, q, hts, hscan⟩ := htext fresh p
  exact ⟨ts, q, h hts, hscan⟩

theorem blanks (htext : Scans P text rest) {gap : List Char}
    (hgap : ∀ c ∈ gap, Text.isBlank c = true) :
    Scans P (gap ++ text) rest := by
  induction gap with
  | nil => exact htext
  | cons c gap ih =>
    intro fresh p
    rw [List.cons_append, List.cons_append, scan_blank fresh p (hgap c List.mem_cons_self)]
    exact ih (fun d hd => hgap d (List.mem_cons_of_mem _ hd)) false (p.after c)

theorem gap (htext : Scans P text rest) (g : Gap) : Scans P (g.chars ++ text) rest :=
  htext.blanks g.blank

theorem token {c : Char} {tail : List Char} {k : TokenKind} {v : Value}
    (hc : Text.isBlank c = false) (hslash : c = '/' → ∀ d ∈ (tail ++ rest).head?, d ≠ '/' ∧ d ≠ '*')
    (h : ∀ p, lexeme c (tail ++ rest) p = .ok (.at k v p, tail.length)) :
    Scans (Single k v) (c :: tail) rest := by
  intro fresh p
  refine ⟨[.at k v p], p.past (c :: tail), ⟨_, rfl, rfl, rfl⟩, ?_⟩
  rw [List.cons_append, scan_token fresh p hc hslash (h p)]
  rfl

theorem symbol {c : Char} {k : TokenKind} (h : ([c], k) ∈ Lexer.symbols)
    (halone : ∀ d, Lexer.twoCharOperator? c d = none)
    (hslash : c = '/' → ∀ d ∈ rest.head?, d ≠ '/' ∧ d ≠ '*') :
    Scans (Single k (.str c.toString)) [c] rest := by
  obtain ⟨hletter, hdigit, hquote, hblank, -⟩ := Lexer.symbols_class h
  refine token hblank hslash fun p => ?_
  have hone : Lexer.operator? c = some k := Lexer.symbolOf_of_mem_symbols h
  have htwo : rest.head?.bind (Lexer.twoCharOperator? c) = none := by
    cases rest with
    | nil => rfl
    | cons d rest => exact halone d
  rw [lexeme, if_neg (by simp [hletter]), if_neg (by simp [hdigit]), if_neg (by simp [hquote]),
    Lexer.operator]
  simp [htwo, hone]

theorem mark {c : Char} {k : TokenKind} (h : ([c], k) ∈ Lexer.symbols)
    (halone : ∀ d, Lexer.twoCharOperator? c d = none) (hc : c ≠ '/') :
    Scans (fun ts => ∃ t : Mark k, ts = [t.val]) [c] rest := by
  refine (symbol h halone fun hslash => absurd hslash hc).mono ?_
  rintro _ ⟨t, rfl, ht⟩
  exact ⟨⟨t, ht.1⟩, rfl⟩

theorem opening : Scans (fun ts => ∃ t : Mark .leftParen, ts = [t.val]) ['('] rest :=
  mark (by decide) (fun _ => rfl) (by decide)

theorem closing : Scans (fun ts => ∃ t : Mark .rightParen, ts = [t.val]) [')'] rest :=
  mark (by decide) (fun _ => rfl) (by decide)

theorem word {cs : List Char} (h : IsName cs) (hrest : Boundary rest) :
    Scans (Single (.ofWord (String.ofList cs)) (.str (String.ofList cs))) cs rest := by
  obtain ⟨c, more, rfl, hc, hmore⟩ := h
  have hhead := (Lexer.spells_word hc more).head
  have htake : (more ++ rest).takeWhile isNameChar = more := by
    cases rest with
    | nil => rw [List.append_nil, List.takeWhile_eq_self_iff.mpr hmore]
    | cons d rest => exact takeWhile_before hmore (hrest d rfl).1
  refine token hhead.1 ?_ fun p => ?_
  · rintro rfl
    exact absurd hc (by decide)
  · rw [lexeme, if_pos hc, Lexer.word, htake]

theorem number {c : Char} {more : List Char} {v : Value} (hc : c.isDigit = true)
    (hmore : ∀ d ∈ more, isNumberChar d = true) (hread : Lexer.readNumber (c :: more) = .ok v)
    (hrest : Boundary rest) :
    Scans (Single .number v) (c :: more) rest := by
  have hdigit := Lexer.isDigit_text hc
  have hhead := (Lexer.Spells.number hdigit hmore hread).head
  have hletter : ¬ Text.isLetter c = true := by simp [Text.isLetter_of_isDigit hdigit]
  have htake : (more ++ rest).takeWhile isNumberChar = more := by
    cases rest with
    | nil => rw [List.append_nil, List.takeWhile_eq_self_iff.mpr hmore]
    | cons d rest => exact takeWhile_before hmore (hrest d rfl).2
  refine token hhead.1 ?_ fun p => ?_
  · rintro rfl
    exact absurd hc (by decide)
  · rw [lexeme, if_neg hletter, if_pos hdigit, Lexer.number, htake]
    simp only [hread]

theorem numeral (n : Numeral) (hrest : Boundary rest) :
    Scans (Single .number (.int n.value)) n.digits rest := by
  have hpoint : n.digits.contains '.' = false := by
    by_contra hdot
    simp only [Bool.not_eq_false, List.contains_iff_mem] at hdot
    have hdigit := n.plain _ hdot
    simp at hdigit
  have hread : Lexer.readNumber n.digits = .ok (.int n.value) := by
    rw [Lexer.readNumber, hpoint, Number.readInt_digits n.plain n.nonempty n.short]
    rfl
  have hplain := n.plain
  obtain ⟨c, more, hdigits⟩ := List.exists_cons_of_ne_nil n.nonempty
  rw [hdigits] at hread hplain ⊢
  refine number (hplain c List.mem_cons_self) (fun d hd => ?_) hread hrest
  rw [isNumberChar, Lexer.isDigit_text (hplain d (List.mem_cons_of_mem _ hd)), Bool.true_or]

theorem decimal (d : Decimal) (hrest : Boundary rest) :
    Scans (Single .number (.float d.value)) (d.first :: d.more) rest := by
  have hread : Lexer.readNumber (d.first :: d.more) = .ok (.float d.value) := by
    have hpoint : (d.first :: d.more).contains '.' = true := by simp [d.point]
    rw [Lexer.readNumber, hpoint, if_pos rfl, d.reads]
    rfl
  exact number d.isDigit d.isNumber hread hrest

theorem quoted (q : Quoted) :
    Scans (Single .string (.str (String.ofList q.body))) q.chars rest := by
  have hhead := (Lexer.Spells.string q.isQuote q.closed).head
  refine token hhead.1 ?_ fun p => ?_
  · intro hslash
    have hquote := q.isQuote
    rw [hslash] at hquote
    cases hquote
  · rw [List.append_assoc, List.singleton_append, Lexer.lexeme_string p q.isQuote q.closed,
      List.length_append, List.length_singleton]

end Scans

/-! ## Expressions -/

/-- The level of the grammar at which a formula stands. -/
def levelOf : Nat → Level
  | 0 => .sum
  | 1 => .term
  | 2 => .factor
  | _ => .primary

theorem written_levelOf {k l : Nat} {e : Expression} {ts : List Token} (hkl : k ≤ l)
    (h : Written (.expression (levelOf l) e) ts) : Written (.expression (levelOf k) e) ts := by
  induction hkl with
  | refl => exact h
  | @step l hkl ih =>
    apply ih
    rcases l with _ | _ | _ | l
    · exact .tighter h
    · exact .tighter h
    · exact .tighter (.tighter h)
    · exact h

theorem Term.scans (x : Term) {rest : List Char} (hrest : Boundary rest) :
    Scans (fun ts => Written (.expression .primary x.toExpression) ts) x.chars rest := by
  cases x with
  | name x =>
    refine (Scans.word x.isName hrest).mono ?_
    rintro _ ⟨t, rfl, ht⟩
    rw [Lexer.ofWord_of_notMem x.free] at ht
    exact .name ht
  | text q =>
    refine (Scans.quoted q).mono ?_
    rintro _ ⟨t, rfl, ht⟩
    exact .text ht
  | decimal d =>
    refine (Scans.decimal d hrest).mono ?_
    rintro _ ⟨t, rfl, ht⟩
    exact .number ht

theorem IsGap.boundary {c : Char} (h : IsGap c) : isNameChar c = false ∧ isNumberChar c = false :=
  ⟨Lexer.isNameChar_of_isBlank h.1, Lexer.isNumberChar_of_isBlank h.1⟩

theorem Gap.boundary (g : Gap) (h : g ≠ .none) (rest : List Char) : Boundary (g.chars ++ rest) := by
  intro c hc
  obtain ⟨d, more, hg⟩ := List.exists_cons_of_ne_nil (mt eq_none h)
  rw [hg] at hc
  cases hc
  exact (g.isGap c (by simp [hg])).boundary

theorem boundary_gap (g : Gap) {c : Char} {rest : List Char}
    (hc : isNameChar c = false ∧ isNumberChar c = false) : Boundary (g.chars ++ c :: rest) := by
  refine fun d => Gap.head_append (P := fun c => isNameChar c = false ∧ isNumberChar c = false)
    (fun _ _ => IsGap.boundary) fun d hd => ?_
  cases hd
  exact hc

theorem Joint.scans (j : Joint) {rest : List Char} (hrest : ∀ d ∈ rest.head?, d ≠ '/' ∧ d ≠ '*') :
    Scans (j.operator.WrittenAs ·) [j.char] rest := by
  have hsymbol : ([j.char], j.operator.tokenKind) ∈ Lexer.symbols := by cases j <;> decide
  have halone (d : Char) : Lexer.twoCharOperator? j.char d = none := by cases j <;> rfl
  refine (Scans.symbol hsymbol halone fun _ => hrest).mono ?_
  rintro _ ⟨t, rfl, ht⟩
  refine .single (by cases j <;> decide) ⟨ht.1, ?_⟩
  rw [ht.2]
  cases j <;> rfl

theorem Scans.parenthesized {text rest : List Char} {l : Nat} {g : Gap} {e : Expression}
    (h : ∀ {rest}, Boundary rest → Scans (Written (.expression (levelOf l) e) ·) text rest) :
    Scans (fun ts => ∃ (o : Mark .leftParen) (c : Mark .rightParen) (us : List Token),
      ts = o.val :: (us ++ [c.val]) ∧ Written (.expression .logical e) us)
      ('(' :: (text ++ (g.chars ++ [')']))) rest := by
  have hbetween : Boundary ((g.chars ++ [')']) ++ rest) := by
    rw [List.append_assoc]
    exact boundary_gap g (by decide)
  have hclosed := (h hbetween).append (Scans.closing.gap g)
    (R := fun us => ∃ (c : Mark .rightParen) (ts : List Token), us = ts ++ [c.val] ∧
      Written (.expression (levelOf l) e) ts)
    (by rintro ts _ hts ⟨c, rfl⟩; exact ⟨c, ts, rfl, hts⟩)
  refine Scans.opening.append hclosed ?_
  rintro _ _ ⟨o, rfl⟩ ⟨c, ts, rfl, hts⟩
  exact ⟨o, c, ts, rfl, .tighter (.tighter (written_levelOf (Nat.zero_le _) hts))⟩

namespace Arithmetic

variable {e : Arithmetic Term}

theorem head_chars {rest : List Char} {c : Char} (h : c ∈ (e.chars ++ rest).head?) :
    c ≠ '/' ∧ c ≠ '*' := by
  have hdigit (c : Char) (hc : c.isDigit = true) : c ≠ '/' ∧ c ≠ '*' :=
    ⟨Number.ne_of_isDigit hc (by decide), Number.ne_of_isDigit hc (by decide)⟩
  refine head_textWith (P := fun c => c ≠ '/' ∧ c ≠ '*')
    (fun _ _ hgap => ⟨hgap.ne (by decide), hgap.ne (by decide)⟩) (by decide) (by decide) hdigit
    (fun x _ => x.chars_ne_nil) (fun x _ c hc => ?_) h
  cases x with
  | name x =>
    obtain ⟨d, more, hchars, hd, -⟩ := x.isName
    rw [Term.chars, hchars] at hc
    cases hc
    constructor
    · rintro rfl
      exact absurd hd (by decide)
    · rintro rfl
      exact absurd hd (by decide)
  | text q =>
    cases hc
    have hcases : q.quote = '\x22' ∨ q.quote = '\x27' := by simpa [Lexer.isQuote] using q.isQuote
    rcases hcases with heq | heq <;> rw [heq] <;> decide
  | decimal d =>
    cases hc
    exact hdigit _ d.isDigit

/-- The tokens of an expression write it. -/
theorem scans (h : e.WellFormed) {rest : List Char} (hrest : Boundary rest) :
    Scans (Written (.expression (levelOf e.tightness) e.toExpression) ·) e.chars rest := by
  induction e generalizing rest with
  | number gap n =>
    refine ((Scans.numeral n hrest).mono ?_).gap gap
    rintro _ ⟨t, rfl, ht⟩
    exact .number ht
  | leaf gap x => exact (x.scans hrest).gap gap
  | negative gap a ih =>
    have hminus : Scans (fun ts => ∃ t : Mark .minus, ts = [t.val]) ['-'] (a.chars ++ rest) :=
      Scans.mark (by decide) (fun _ => rfl) (by decide)
    refine (hminus.append (ih h.1 hrest) ?_).gap gap
    rintro _ us ⟨t, rfl⟩ hus
    exact .negative t (written_levelOf h.2 hus)
  | joined left gap j right ihleft ihright =>
    obtain ⟨hleft, hright, htight, htighter⟩ := h
    have hchar : isNameChar j.char = false ∧ isNumberChar j.char = false := by cases j <;> decide
    have hoperator : Scans (j.operator.WrittenAs ·) [j.char] (right.chars ++ rest) :=
      j.scans fun d hd => head_chars hd
    have hoperand := hoperator.append (ihright hright hrest)
      (R := fun us => ∃ os vs, us = os ++ vs ∧ j.operator.WrittenAs os ∧
        Written (.expression (levelOf right.tightness) right.toExpression) vs)
      fun hos hvs => ⟨_, _, rfl, hos, hvs⟩
    have hbetween : Boundary ((gap.chars ++ ([j.char] ++ right.chars)) ++ rest) := by
      rw [List.append_assoc]
      exact boundary_gap gap hchar
    refine (ihleft hleft hbetween).append (hoperand.gap gap) ?_
    rintro ts _ hts ⟨os, vs, rfl, hos, hvs⟩
    have hlevel : j.operator.level = levelOf j.tightness ∧
        j.operator.level.next = levelOf (j.tightness + 1) := by
      cases j <;> exact ⟨rfl, rfl⟩
    have hbinary : Written (.expression j.operator.level (joined left gap j right).toExpression)
        (ts ++ (os ++ vs)) :=
      .binary (hlevel.1 ▸ written_levelOf htight hts) hos (hlevel.2 ▸ written_levelOf htighter hvs)
    rw [hlevel.1] at hbinary
    exact hbinary
  | enclosed gap a gap' ih =>
    refine ((Scans.parenthesized fun hrest => ih h hrest).mono ?_).gap gap
    rintro _ ⟨o, c, ts, rfl, hts⟩
    exact .parens o c hts

end Arithmetic

/-! ## Statements -/

theorem Scans.keyword {word : String} {k : TokenKind} {rest : List Char}
    (h : (word, k) ∈ TokenKind.keywords) (hrest : Boundary rest) :
    Scans (fun ts => ∃ t : Mark k, ts = [t.val]) word.toList rest := by
  have hmem : (String.ofList word.toList, k) ∈ TokenKind.keywords := by rwa [String.ofList_toList]
  refine (Scans.word (Lexer.keyword_chars hmem) hrest).mono ?_
  rintro _ ⟨t, rfl, ht⟩
  rw [Lexer.ofWord_of_mem hmem] at ht
  exact ⟨⟨t, ht.1⟩, rfl⟩

theorem scans_print {e : Arithmetic Term} (h : e.WellFormed) (gap gap' gap'' : Gap)
    (rest : List Char) :
    Scans (fun ts => ∃ spot, Written (.statement (.print spot e.toExpression)) ts)
      (Command.print gap gap' e gap'').chars rest := by
  have hparens : Scans _ ('(' :: ((gap'.chars ++ e.chars) ++ (gap''.chars ++ [')']))) rest :=
    Scans.parenthesized fun hrest => (e.scans h hrest).gap gap'
  have hword : Scans (fun ts => ∃ t : Mark .qor, ts = [t.val]) "qor".toList
      ((gap.chars ++ '(' :: ((gap'.chars ++ e.chars) ++ (gap''.chars ++ [')']))) ++ rest) := by
    refine .keyword (by decide) ?_
    rw [List.append_assoc]
    exact boundary_gap gap (by decide)
  refine hword.append (hparens.gap gap) ?_
  rintro _ _ ⟨k, rfl⟩ ⟨o, c, ts, rfl, hts⟩
  exact ⟨⟨k.val.line, k.val.column⟩, .print k o c ⟨rfl, rfl⟩ hts⟩

theorem scans_declare {e : Arithmetic Term} (h : e.WellFormed) (gap : Gap) (apart : gap ≠ .none)
    (gap' gap'' : Gap) (x : Identifier) {rest : List Char} (hrest : Boundary rest) :
    Scans (fun ts => ∃ spot,
      Written (.statement (.declaration spot false none x.toName e.toExpression)) ts)
      (Command.declare gap apart x gap' gap'' e).chars rest := by
  have hequal :
      Scans (fun ts => ∃ t : Mark .equal, ts = [t.val]) ['='] ((gap''.chars ++ e.chars) ++ rest) :=
    Scans.mark (by decide) (fun _ => rfl) (by decide)
  have hvalue := hequal.append ((e.scans h hrest).gap gap'')
    (R := fun us => ∃ (m : Mark .equal) (ts : List Token), us = m.val :: ts ∧
      Written (.expression .logical e.toExpression) ts)
    (by
      rintro _ ts ⟨m, rfl⟩ hts
      exact ⟨m, ts, rfl, .tighter (.tighter (written_levelOf (Nat.zero_le _) hts))⟩)
  have hboundary : Boundary ((gap'.chars ++ '=' :: (gap''.chars ++ e.chars)) ++ rest) := by
    rw [List.append_assoc]
    exact boundary_gap gap' (by decide)
  have hnamed := (Scans.word x.isName hboundary).append (hvalue.gap gap')
    (R := fun us => ∃ (u : Token) (m : Mark .equal) (ts : List Token), us = u :: m.val :: ts ∧
    x.toName.WrittenAs u ∧
      Written (.expression .logical e.toExpression) ts)
    (by
      rintro _ _ ⟨u, rfl, hu⟩ ⟨m, ts, rfl, hts⟩
      rw [Lexer.ofWord_of_notMem x.free] at hu
      exact ⟨u, m, ts, rfl, hu, hts⟩)
  have hword : Scans (fun ts => ∃ t : Mark .door, ts = [t.val]) "door".toList
      ((gap.chars ++ (x.chars ++ (gap'.chars ++ '=' :: (gap''.chars ++ e.chars)))) ++ rest) := by
    refine .keyword (by decide) ?_
    rw [List.append_assoc]
    exact gap.boundary apart _
  refine hword.append (hnamed.gap gap) ?_
  rintro _ _ ⟨k, rfl⟩ ⟨u, m, ts, rfl, hu, hts⟩
  exact ⟨⟨k.val.line, k.val.column⟩, .declaration m (.untyped k) ⟨rfl, rfl⟩ hu hts⟩

theorem Command.scans {c : Command} (h : c.expression.WellFormed) {rest : List Char}
    (hrest : Boundary rest) :
    Scans (fun ts => ∃ spot, Written (.statement (c.toStatement spot)) ts) c.chars rest := by
  cases c with
  | print gap gap' e gap'' => exact scans_print h gap gap' gap'' rest
  | declare gap apart x gap' gap'' e => exact scans_declare h gap apart gap' gap'' x hrest

theorem scan_blanks {cs : List Char} (h : ∀ c ∈ cs, Text.isBlank c = true) (hne : cs ≠ [])
    (fresh : Bool) (p : Position) :
    ∃ q, scan fresh p cs = .ok [.at .eof .null q] := by
  induction cs generalizing fresh p with
  | nil => exact absurd rfl hne
  | cons c cs ih =>
    rw [scan_blank fresh p (h c List.mem_cons_self)]
    by_cases hnil : cs = []
    · rw [hnil, Lexer.scan_nil]
      exact ⟨_, rfl⟩
    · exact ih (fun d hd => h d (List.mem_cons_of_mem _ hd)) hnil false _

/-- The program of a line is the statement that it is meant to be. -/
theorem readProgram_line (l : Line) (h : l.command.expression.WellFormed) :
    ∃ spot, readProgram l.text = .ok (Program.toNode [l.command.toStatement spot]) := by
  have hboundary : Boundary l.after := by
    intro c hc
    have hblank := l.blankAfter c (List.mem_of_mem_head? hc)
    exact ⟨Lexer.isNameChar_of_isBlank hblank, Lexer.isNumberChar_of_isBlank hblank⟩
  obtain ⟨ts, q, ⟨spot, hwritten⟩, hscan⟩ :=
    ((l.command.scans h hboundary).blanks l.blankBefore) true .start
  obtain ⟨r, hend⟩ := scan_blanks l.blankAfter l.ended true q
  have htokens : tokenize l.text = .ok (ts ++ [.at .eof .null r]) := by
    rw [tokenize, Line.text, String.toList_ofList, ← List.append_assoc, hscan, hend]
    rfl
  refine ⟨spot, ?_⟩
  have hparse :=
    parse_of_statementsRead ⟨.at .eof .null r, rfl⟩
      (Written.statements hwritten .noStatements).understood
  rw [List.append_nil] at hparse
  rw [readProgram, htokens]
  exact hparse

end Luuqad.Shell

import Luuqad.Proofs.Shell.Numerals
import Luuqad.Proofs.Shell.Sums

/-!
# The shell and the language

The shell answers some lines by itself. For the expressions listed by `Printable` and `Bindable`,
what it prints or binds is what the language makes of the same line with the same variables
(`execute_agrees`). This is not so for all expressions: a printed sum of whole numbers comes out as
a double (`printed_sum_differs`).
-/

namespace Luuqad.Shell

variable {s : State}

/-! ## Formulas -/

namespace Arithmetic

variable {α β : Type}

theorem amount_map (f : α → β) (env : β → Int) (a : Arithmetic α) :
    (a.map f).amount env = a.amount (env ∘ f) := by
  induction a with
  | number | leaf => rfl
  | negative gap a ih | enclosed gap a gap' ih => simp [map, amount, ih]
  | joined left gap j right ihleft ihright => simp [map, amount, ihleft, ihright]

theorem isNumber_amount {a : Arithmetic α} {env : α → Int} {n : Num} (h : a.amount env = some n) :
    n.isNumber = true := by
  induction a generalizing n with
  | number | leaf =>
    cases h
    rfl
  | negative gap a ih =>
    obtain ⟨m, -, h⟩ := Option.bind_eq_some_iff.mp h
    cases m with
    | int i =>
      cases h
      rfl
    | float x => cases h
  | enclosed gap a gap' ih => exact ih h
  | joined left gap j right ihleft ihright =>
    obtain ⟨l, -, h⟩ := Option.bind_eq_some_iff.mp h
    obtain ⟨r, -, h⟩ := Option.bind_eq_some_iff.mp h
    exact (Option.filter_eq_some_iff.mp h).2

end Arithmetic

/-- The whole number that a name stands for. -/
def Term.wholeIn (env : Identifier → Int) : Term → Int
  | name x => env x
  | _ => 0

def Formula.toArithmetic (a : Formula) : Arithmetic Term := a.map Term.name

theorem Formula.chars_toArithmetic (a : Formula) : a.toArithmetic.chars = a.text :=
  Arithmetic.textWith_map Term.name Term.chars a

theorem Formula.lead_toArithmetic (a : Formula) : a.toArithmetic.lead = a.lead := by
  unfold toArithmetic
  induction a with
  | number | leaf | negative | enclosed => rfl
  | joined left gap j right ihleft ihright => exact ihleft

section Formula

variable {a : Formula} {env : Identifier → Int} {n : Num} {v : Value}

theorem Clear.named {vars : NameTable Value} {names : List Identifier} (h : Clear vars names env) :
    Named vars :=
  fun _ hmem => h.isName hmem

theorem gives_formula (hclear : Clear s.vars a.leaves env) (hn : a.amount env = some n) :
    Gives s a.toArithmetic.toExpression.toNode (· = n.literal) := by
  have hleaf : ∀ x ∈ a.toArithmetic.leaves,
      Gives s x.toExpression.toNode (· = .int (x.wholeIn env)) := by
    unfold Formula.toArithmetic
    rw [Arithmetic.leaves_map]
    intro _ hmem
    obtain ⟨x, hx, rfl⟩ := List.mem_map.mp hmem
    exact .name (hclear.holds hx) rfl
  refine Arithmetic.gives hleaf ?_
  rw [Formula.toArithmetic, Arithmetic.amount_map]
  exact hn

theorem eq_leaf_of_isName (h : IsName a.text) : ∃ x, a = .leaf .none x := by
  -- a gap would be the start of the name
  have hgap {g : Gap} {rest : List Char} (htext : a.text = g.chars ++ rest) :
      g = .none ∧ ∃ c ∈ rest.head?, Text.isLetter c = true := by
    obtain ⟨c, more, heq, hc, -⟩ := h
    rw [htext] at heq
    cases hg : g.chars with
    | nil =>
      rw [hg, List.nil_append] at heq
      exact ⟨Gap.eq_none hg, c, by rw [heq]; rfl, hc⟩
    | cons d cs =>
      rw [hg] at heq
      have hd := Text.isLetter_of_isBlank (g.blank d (by simp [hg]))
      rw [(List.cons.inj heq).1, hc] at hd
      cases hd
  cases a with
  | number gap k =>
    obtain ⟨-, c, hmem, hc⟩ := hgap rfl
    rw [Text.isLetter_of_isDigit
      (Lexer.isDigit_text (k.plain c (List.mem_of_mem_head? hmem)))] at hc
    cases hc
  | leaf gap x =>
    obtain ⟨rfl, -⟩ := hgap rfl
    exact ⟨x, rfl⟩
  | negative gap a | enclosed gap a gap' =>
    obtain ⟨-, c, hmem, hc⟩ := hgap rfl
    cases hmem
    exact absurd hc (by decide)
  | joined left gap j right =>
    have hchar : Lexer.isNameChar j.char = false ∧ Text.isLetter j.char = false := by
      cases j <;> decide
    refine absurd ?_ (h.notMem hchar.1 hchar.2)
    simp [Formula.text, Arithmetic.textWith]

theorem held?_text (hclear : Clear s.vars a.leaves env) (hn : a.amount env = some n)
    (h : held? s a.text = some v) :
    v = n.literal := by
  obtain ⟨x, rfl⟩ := eq_leaf_of_isName (isName_of_held? hclear.named h)
  have hx : held? s x.chars = some (.int (env x)) := hclear.holds (List.mem_singleton_self x)
  have htext : Formula.text (.leaf .none x) = x.chars := rfl
  rw [htext, hx] at h
  cases hn
  exact (Option.some.inj h).symm

end Formula

/-! ## Declarations -/

theorem Binding.vars_apply {name : String} {v : Value}
    (hv : ∀ x, v = .float x → (Num.float x).isNumber = true) :
    (Binding.apply { name, value := v } s).vars = s.vars.put name v := by
  cases v with
  | float x =>
    simp only [Binding.apply, double_of_isNumber (hv x rfl)]
  | _ => rfl

theorem isQuoted_of_head {cs : List Char} (h : ∀ c ∈ cs.head?, isQuote c = false) :
    isQuoted cs = false := by
  cases cs with
  | nil => rfl
  | cons c cs => simp [isQuoted, h c rfl]

theorem number?_name (x : Identifier) : number? x.chars = none := by
  have hpoint : '.' ∉ x.chars := x.isName.notMem (by decide) (by decide)
  rw [number?, if_neg (by simpa using hpoint)]
  cases hread : Number.readInt (String.ofList x.chars) with
  | error e => rfl
  | ok i => exact absurd hread x.readInt_chars

section Declare

variable {name : String}

theorem declareAny_text (q : Quoted) :
    (declareAny s name q.chars).binding = some { name, value := .str (String.ofList q.body) } := by
  unfold declareAny
  rw [if_pos (isQuoted_chars q), unquoted_chars]

theorem declareAny_decimal (d : Decimal) :
    (declareAny s name (d.first :: d.more)).binding = some { name, value := .float d.value } := by
  have hquoted : isQuoted (d.first :: d.more) = false :=
    isQuoted_of_head fun _ hc => isQuote_of_notMem_marks (d.notMem_marks (List.mem_of_mem_head? hc))
  have hnumber : number? (d.first :: d.more) = some (.float d.value) := by
    have hpoint : (d.first :: d.more).contains '.' = true := by simp [d.point]
    rw [number?, if_pos hpoint, d.reads]
    rfl
  unfold declareAny
  simp only [hquoted, hnumber, Bool.false_eq_true, if_false]

theorem declareAny_name {x : Identifier} {v : Value} (hx : s.vars.get? x.text = some v) :
    (declareAny s name x.chars).binding = some { name, value := v } := by
  have hquoted : isQuoted x.chars = false :=
    isQuoted_of_head fun _ hc => isQuote_of_notMem_marks (x.notMem_marks (List.mem_of_mem_head? hc))
  have hheld : held? s x.chars = some v := hx
  unfold declareAny
  simp only [hquoted, number?_name, hheld, Bool.false_eq_true, if_false]

theorem declareAny_formula {a : Formula} {env : Identifier → Int} {n : Num}
    (hclear : Clear s.vars a.leaves env) (hformed : a.WellFormed) (hlead : a.lead = .none)
    (hn : a.amount env = some n) (h : (declareAny s name a.text).verdict ≠ .unanswered) :
    (declareAny s name a.text).binding = some { name, value := n.literal } := by
  have hquoted : isQuoted a.text = false := by
    refine isQuoted_of_head fun c => head_text
      (fun _ _ hc => isQuote_of_notMem_marks hc.notMem_marks) (by decide) (by decide)
      (fun _ hd => isQuote_of_notMem_marks (notMem_marks_of_isDigit hd)) fun d hd =>
        isQuote_of_notMem_marks ?_
    exact notMem_of_any (p := Text.isLetter) (by decide) hd
  unfold declareAny at h ⊢
  simp only [hquoted, Bool.false_eq_true, if_false] at h ⊢
  cases hnumber : number? a.text with
  | some v => simp only [number?_text hlead hformed hn hnumber]
  | none =>
    cases hheld : held? s a.text with
    | some v => simp only [held?_text hclear hn hheld]
    | none =>
      simp only [hnumber, hheld] at h ⊢
      cases hcalculated : calculated? s a.text with
      | none => simp [hcalculated] at h
      | some v => simp only [calculated?_text hclear hformed hn hcalculated]

theorem declareAny_answered {t : String} {text : List Char} {v : Value}
    (h : calculated? s text = some v) (ht : v.text s.heap = .ok t) :
    (declareAny s name text).verdict ≠ .unanswered := by
  have hsaid (r : Except Failure String) : Verdict.ofText r ≠ .unanswered := by
    cases r <;> simp [Verdict.ofText]
  unfold declareAny
  split
  · simp
  · split
    · exact hsaid _
    · exact hsaid _
    · simp [h, ht]

end Declare

/-- The values of variables that a shell line can bind. -/
def IsSimple : Value → Prop
  | .int _ | .bool _ | .str _ => True
  | _ => False

/-- Expressions that the shell binds as the language does. -/
inductive Bindable (s : State) : Arithmetic Term → Prop
  | text (q : Quoted) : Bindable s (.leaf .none (.text q))
  | decimal {d : Decimal} : (Num.float d.value).isNumber = true →
      Bindable s (.leaf .none (.decimal d))
  | name {x : Identifier} {v : Value} : s.vars.get? x.text = some v → IsSimple v →
      Bindable s (.leaf .none (.name x))
  | formula {a : Formula} {env : Identifier → Int} {n : Num} : Clear s.vars a.leaves env →
      a.WellFormed → a.lead = .none →
    a.amount env = some n → Bindable s a.toArithmetic

/-- The shell and the language bind an expression to the same value. -/
structure BoundAs (s : State) (e : Arithmetic Term) (v : Value) : Prop where
  wellFormed : e.WellFormed
  lead : e.lead = .none
  unbroken : '\n' ∉ e.chars
  gives : Gives s e.toExpression.toNode (· = v)
  isNumber (x : Float) : v = .float x → (Num.float x).isNumber = true
  binding (name : String) : (declareAny s name e.chars).verdict ≠ .unanswered →
    (declareAny s name e.chars).binding = some { name, value := v }

theorem Bindable.boundAs {e : Arithmetic Term} (h : Bindable s e) : ∃ v, BoundAs s e v := by
  have hmarks {cs : List Char} (hcs : ∀ c ∈ cs, c ∉ marks) : '\n' ∉ cs :=
    fun hc => hcs _ hc (by decide)
  cases h with
  | text q =>
    have hquote : '\n' ≠ q.quote := fun heq => absurd (heq ▸ q.isQuote) (by decide)
    have hline : '\n' ∉ q.chars := by simp [Quoted.chars, hquote, q.unbroken]
    exact ⟨_, trivial, rfl, hline, .literal rfl, by simp, fun _ _ => declareAny_text q⟩
  | @decimal d hd =>
    refine ⟨_, trivial, rfl, hmarks fun _ => d.notMem_marks, .literal rfl, ?_,
      fun _ _ => declareAny_decimal d⟩
    intro x hx
    exact Value.float.inj hx ▸ hd
  | @name x v hx hv =>
    refine ⟨v, trivial, rfl, hmarks fun _ => x.notMem_marks, .name hx rfl, ?_,
      fun _ _ => declareAny_name hx⟩
    rintro y rfl
    exact hv.elim
  | @formula a env n hclear hformed hlead hn =>
    have hline : '\n' ∉ a.text :=
      notMem_text (by decide) (by decide) (by decide) (by decide) (by decide)
    refine ⟨_, Arithmetic.wellFormed_map _ hformed, a.lead_toArithmetic.trans hlead, ?_,
      gives_formula hclear hn, ?_, ?_⟩
    · rwa [a.chars_toArithmetic]
    · intro x hx
      have hnumber := Arithmetic.isNumber_amount hn
      cases n with
      | int i => cases hx
      | float y =>
        cases hx
        exact hnumber
    · intro name
      rw [a.chars_toArithmetic]
      exact declareAny_formula hclear hformed hlead hn

/-! ## Printing -/

/-- Expressions that the shell prints as the language does. -/
inductive Printable (s : State) : Arithmetic Term → Prop
  | text {q : Quoted} : q.Entire → Printable s (.leaf .none (.text q))
  | name {x : Identifier} {v : Value} : s.vars.get? x.text = some v → IsPlain v →
      Printable s (.leaf .none (.name x))
  | formula {a : Formula} {env : Identifier → Int} {n : Num} : Clear s.vars a.leaves env →
      a.WellFormed → a.lead = .none →
    a.Bare → a.amount env = some n → Printable s a.toArithmetic
  | sum {first : Arithmetic Term} {m : Num} {p : Gap × Arithmetic Term}
      {rest : List (Gap × Arithmetic Term)}
    {ns : List Num} {n : Num} : Named s.vars → Addend s first m → first.lead = .none →
    List.Forall₂ (fun p n => Addend s p.2 n) (p :: rest) ns → total? m ns = some n →
    Printable s (first.plus (p :: rest))
  | join {first second : Arithmetic Term} {gap : Gap} {rest : List (Gap × Arithmetic Term)}
      {v w : Value}
    {vs : List Value} : Named s.vars → Part s first v → Part s second w → IsText v ∨ IsText w →
    List.Forall₂ (fun p v => Part s p.2 v) rest vs → first.lead = .none →
    ¬ Spans (first.plus ((gap, second) :: rest)).chars →
      Printable s (first.plus ((gap, second) :: rest))

/-- The shell and the language print an expression alike, whose value has a property. -/
structure PrintedAs (s : State) (e : Arithmetic Term) (P : Value → Prop) : Prop where
  wellFormed : e.WellFormed
  gives : Gives s e.toExpression.toNode P
  said {v : Value} {t : String} (gap gap' gap'' : Gap) {verdict : Verdict} : P v →
    v.display s.heap = .ok t →
    print? s (Command.print gap gap' e gap'').chars = some verdict → verdict = .said (t ++ "\n")

section Print

variable {e : Arithmetic Term}

theorem not_spans {cs : List Char} (h : ∀ c ∈ cs, isQuote c = false) : ¬ Spans cs := by
  rintro ⟨⟨c, hc, hquote⟩, -⟩
  rw [h c (List.mem_of_mem_head? hc)] at hquote
  cases hquote

theorem print?_of_ends {gap gap' gap'' : Gap} (hlead : e.lead = .none)
    (hends : ∀ c ∈ e.chars, c ∉ ends) (hspans : ¬ Spans e.chars) :
    print? s (Command.print gap gap' e gap'').chars = printExpression? s e.chars :=
  print?_expression hlead (fun hc => hends _ hc (by decide)) (fun hc => hends _ hc (by decide))
    (fun hc => hends _ hc (by decide)) hspans

theorem print?_of_marks (gap gap' gap'' : Gap) (hlead : e.lead = .none)
    (hmarks : ∀ c ∈ e.chars, c ∉ marks) :
    print? s (Command.print gap gap' e gap'').chars = printExpression? s e.chars ∧
    ¬ e.chars.contains '+' = true := by
  refine ⟨print?_of_ends hlead (fun c hc => notMem_ends (notMem_breaks (hmarks c hc)))
    (not_spans fun c hc => isQuote_of_notMem_marks (hmarks c hc)), ?_⟩
  rw [List.contains_iff_mem]
  exact fun hc => hmarks _ hc (by decide)

theorem print?_plus {gap gap' gap'' : Gap} {first : Arithmetic Term} {p : Gap × Arithmetic Term}
    {rest : List (Gap × Arithmetic Term)} (hlead : first.lead = .none)
    (hfirst : ∀ c ∈ first.chars, c ∉ ends) (hrest : ∀ q ∈ p :: rest, ∀ c ∈ q.2.chars, c ∉ ends)
    (hspans : ¬ Spans (first.plus (p :: rest)).chars) :
    print? s (Command.print gap gap' (first.plus (p :: rest)) gap'').chars =
      some (printJoined s (first.plus (p :: rest)).chars) := by
  have hplus : '+' ∈ (first.plus (p :: rest)).chars := by
    simp [Arithmetic.chars_plus, Arithmetic.further]
  have hends : ∀ c ∈ (first.plus (p :: rest)).chars, c ∉ ends :=
    Arithmetic.forall_chars_plus (fun _ hc => hc.notMem (by decide)) (by decide) hfirst hrest
  rw [print?_of_ends (Arithmetic.lead_plus.trans hlead) hends hspans, printExpression?,
    if_pos (by simpa using hplus)]

theorem printedAs_text {q : Quoted} (hq : q.Entire) :
    PrintedAs s (.leaf .none (.text q)) (· = .str (String.ofList q.body)) where
  wellFormed := trivial
  gives := .literal rfl
  said := by
    rintro _ t gap gap' gap'' verdict rfl ht hprint
    rw [display_of_isPlain (v := .str _) trivial, text_str] at ht
    rw [print?_text hq] at hprint
    cases ht
    exact (Option.some.inj hprint).symm

theorem printedAs_name {x : Identifier} {v : Value} (hx : s.vars.get? x.text = some v)
    (hv : IsPlain v) :
    PrintedAs s (.leaf .none (.name x)) (· = v) where
  wellFormed := trivial
  gives := .name hx rfl
  said := by
    intro w t gap gap' gap'' verdict hw ht hprint
    have hchars : (Arithmetic.leaf .none (Term.name x)).chars = x.chars := rfl
    have hheld : held? s x.chars = some v := hx
    have hmarks : ∀ c ∈ (Arithmetic.leaf .none (Term.name x)).chars, c ∉ marks :=
      fun _ => x.notMem_marks
    obtain ⟨hfound, hplus⟩ := print?_of_marks (s := s) gap gap' gap'' rfl hmarks
    rw [hfound, printExpression?, if_neg hplus] at hprint
    rw [hw, display_of_isPlain hv] at ht
    simp only [hchars, hheld, ht, Verdict.ofText, Option.some.injEq] at hprint
    exact hprint.symm

theorem notMem_marks_of_bare {a : Formula} (hbare : a.Bare) : ∀ c ∈ a.text, c ∉ marks :=
  Arithmetic.forall_textWith (fun _ => IsGap.notMem_marks) (by decide) (by decide) (by decide)
    (.inl hbare) (fun _ => notMem_marks_of_isDigit) fun x _ _ => x.notMem_marks

theorem isPlain_literal (n : Num) : IsPlain n.literal := by cases n <;> trivial

theorem printedAs_formula {a : Formula} {env : Identifier → Int} {n : Num}
    (hclear : Clear s.vars a.leaves env) (hformed : a.WellFormed) (hlead : a.lead = .none)
    (hbare : a.Bare) (hn : a.amount env = some n) :
    PrintedAs s a.toArithmetic (· = n.literal) where
  wellFormed := Arithmetic.wellFormed_map _ hformed
  gives := gives_formula hclear hn
  said := by
    intro w t gap gap' gap'' verdict hw ht hprint
    have hmarks : ∀ c ∈ a.toArithmetic.chars, c ∉ marks := by
      rw [a.chars_toArithmetic]
      exact notMem_marks_of_bare hbare
    obtain ⟨hfound, hplus⟩ :=
      print?_of_marks (s := s) gap gap' gap'' (a.lead_toArithmetic.trans hlead) hmarks
    rw [hfound, printExpression?, if_neg hplus, a.chars_toArithmetic] at hprint
    rw [hw, display_of_isPlain (isPlain_literal n)] at ht
    cases hheld : held? s a.text with
    | some v =>
      rw [held?_text hclear hn hheld] at hheld
      simp only [hheld, ht, Verdict.ofText, Option.some.injEq] at hprint
      exact hprint.symm
    | none =>
      simp only [hheld] at hprint
      obtain ⟨v, hv, hprint⟩ := Option.bind_eq_some_iff.mp hprint
      rw [calculated?_text hclear hformed hn hv, ht] at hprint
      cases hprint
      rfl

theorem printedAs_sum {first : Arithmetic Term} {m : Num} {p : Gap × Arithmetic Term}
    {rest : List (Gap × Arithmetic Term)} {ns : List Num} {n : Num} (hnamed : Named s.vars)
    (hfirst : Addend s first m) (hlead : first.lead = .none)
    (hrest : List.Forall₂ (fun p n => Addend s p.2 n) (p :: rest) ns) (hn : total? m ns = some n) :
    PrintedAs s (first.plus (p :: rest)) (· = n.literal) where
  wellFormed :=
    Arithmetic.wellFormed_plus hfirst.wellFormed.1 (forall_of_forall₂ hrest Addend.wellFormed)
  gives := gives_total hfirst.gives hrest hn
  said := by
    intro w t gap gap' gap'' verdict hw ht hprint
    have hparts : ∀ q ∈ p :: rest, ∀ c ∈ q.2.chars, c ∉ marks :=
      forall_of_forall₂ hrest Addend.notMem_marks
    have hspans := not_spans (Arithmetic.forall_chars_plus (P := fun c => isQuote c = false)
      (fun _ hc => isQuote_of_notMem_marks hc.notMem_marks) (by decide)
      (fun c hc => isQuote_of_notMem_marks (hfirst.notMem_marks c hc))
      fun q hq c hc => isQuote_of_notMem_marks (hparts q hq c hc))
    rw [hw, display_of_isPlain (isPlain_literal n)] at ht
    rw [print?_plus hlead (fun c hc => notMem_ends (notMem_breaks (hfirst.notMem_marks c hc)))
      (fun q hq c hc => notMem_ends (notMem_breaks (hparts q hq c hc))) hspans,
      printJoined_sum hnamed hfirst hrest hn ht] at hprint
    exact (Option.some.inj hprint).symm

theorem printedAs_join {first second : Arithmetic Term} {gap : Gap}
    {rest : List (Gap × Arithmetic Term)} {v w : Value} {vs : List Value} (hnamed : Named s.vars)
    (hfirst : Part s first v) (hsecond : Part s second w) (htext : IsText v ∨ IsText w)
    (hrest : List.Forall₂ (fun p v => Part s p.2 v) rest vs) (hlead : first.lead = .none)
    (hspans : ¬ Spans (first.plus ((gap, second) :: rest)).chars) :
    PrintedAs s (first.plus ((gap, second) :: rest)) fun u => ∃ t, u = .str t ∧
    texts s.heap (v :: w :: vs) = .ok t where
  wellFormed := by
    refine Arithmetic.wellFormed_plus hfirst.wellFormed.1
      (List.forall_mem_cons.mpr ⟨hsecond.wellFormed, ?_⟩)
    exact forall_of_forall₂ hrest Part.wellFormed
  gives := gives_joined hfirst.stands hsecond.stands htext (hrest.imp fun _ _ => Part.stands)
  said := by
    rintro _ t n n' n'' verdict ⟨u, rfl, hu⟩ ht hprint
    rw [display_of_isPlain (v := .str u) trivial, text_str] at ht
    cases ht
    have hparts : ∀ q ∈ (gap, second) :: rest, ∀ c ∈ q.2.chars, c ∉ ends := by
      refine List.forall_mem_cons.mpr ⟨fun c hc => notMem_ends (hsecond.notMem_breaks c hc), ?_⟩
      exact forall_of_forall₂ hrest fun hq c hc => notMem_ends (hq.notMem_breaks c hc)
    rw [print?_plus hlead (fun c hc => notMem_ends (hfirst.notMem_breaks c hc)) hparts hspans,
      printJoined_join hnamed hfirst hsecond htext hrest hu] at hprint
    exact (Option.some.inj hprint).symm

theorem Printable.printedAs (h : Printable s e) : ∃ P, PrintedAs s e P := by
  cases h with
  | text hq => exact ⟨_, printedAs_text hq⟩
  | name hx hv => exact ⟨_, printedAs_name hx hv⟩
  | formula hclear hformed hlead hbare hn =>
    exact ⟨_, printedAs_formula hclear hformed hlead hbare hn⟩
  | sum hnamed hfirst hlead hrest hn => exact ⟨_, printedAs_sum hnamed hfirst hlead hrest hn⟩
  | join hnamed hfirst hsecond htext hrest hlead hspans =>
    exact ⟨_, printedAs_join hnamed hfirst hsecond htext hrest hlead hspans⟩

end Print

/-! ## Lines -/

/-- Lines on which the shell follows the language. -/
def Command.Faithful (s : State) : Command → Prop
  | print _ _ e _ => Printable s e
  | declare _ _ _ _ _ e => Bindable s e

theorem vars_execute (d : Delegate) (line : Line) :
    (execute d line.text s).vars =
      ((attempt s (tidy line.text)).binding.elim s (·.apply s)).vars := by
  rw [execute, if_neg (by simp [line.isSilent_text])]

theorem out_execute (d : Delegate) (line : Line) : (execute d line.text s).out =
    ((attempt s (tidy line.text)).binding.elim s (·.apply s)).out ++
      (attempt s (tidy line.text)).verdict.shown d := by
  rw [execute, if_neg (by simp [line.isSilent_text])]

theorem execute_print {l : Limits} {d : Delegate} {line : Line} {gap gap' gap'' : Gap}
    {e : Arithmetic Term} {t : State} (hline : line.command = .print gap gap' e gap'')
    (hqor : s.functions.get? "qor" = none) (he : Printable s e)
    (hanswered : (attempt s (tidy line.text)).verdict ≠ .unanswered)
    (hrun : l.runText line.text s = .ok () t) :
    (execute d line.text s).vars = t.vars ∧ (execute d line.text s).out = t.out := by
  obtain ⟨P, hprinted⟩ := he.printedAs
  obtain ⟨hvars, v, text, hv, htext, hout⟩ :=
    ensures_print hline hprinted.wellFormed hqor hprinted.gives () t hrun
  rw [vars_execute, out_execute]
  rw [tidy_print hline, hline, attempt_print] at hanswered ⊢
  cases hprint : print? s (Command.print gap gap' e gap'').chars with
  | none => simp [hprint] at hanswered
  | some verdict =>
    rw [hprinted.said gap gap' gap'' hv htext hprint, hvars, hout]
    exact ⟨rfl, rfl⟩

theorem execute_declare {l : Limits} {d : Delegate} {line : Line} {gap gap' gap'' : Gap}
    {apart : gap ≠ .none} {x : Identifier} {e : Arithmetic Term} {t : State}
    (hline : line.command = .declare gap apart x gap' gap'' e) (he : Bindable s e)
    (hanswered : (attempt s (tidy line.text)).verdict ≠ .unanswered)
    (hrun : l.runText line.text s = .ok () t) :
    (execute d line.text s).vars = t.vars := by
  obtain ⟨v, hbound⟩ := he.boundAs
  obtain ⟨w, rfl, hvars⟩ := ensures_declare hline hbound.wellFormed hbound.gives () t hrun
  obtain ⟨n, n', htidy⟩ := tidy_declare hline
  rw [vars_execute]
  rw [htidy, attempt_declare s hbound.lead hbound.unbroken] at hanswered ⊢
  by_cases hdoor : startsWith (Command.declare gap apart x n n' e).chars "door" = true
  · rw [if_pos hdoor] at hanswered ⊢
    rw [hvars, hbound.binding x.text hanswered]
    exact Binding.vars_apply hbound.isNumber
  · rw [if_neg hdoor] at hanswered
    exact absurd rfl hanswered

/-- What the shell prints for a line, or binds, is what the language prints or binds. -/
theorem execute_agrees {l : Limits} {d : Delegate} {line : Line} {t : State}
    (hfaithful : line.command.Faithful s) (hqor : s.functions.get? "qor" = none)
    (hanswered : (attempt s (tidy line.text)).verdict ≠ .unanswered)
    (hrun : l.runText line.text s = .ok () t) :
    (execute d line.text s).vars = t.vars ∧
      ∀ {gap gap' gap'' e}, line.command = .print gap gap' e gap'' →
        (execute d line.text s).out = t.out := by
  cases hline : line.command with
  | print gap gap' e gap'' =>
    rw [hline] at hfaithful
    obtain ⟨hvars, hout⟩ := execute_print (d := d) hline hqor hfaithful hanswered hrun
    exact ⟨hvars, fun _ => hout⟩
  | declare gap apart x gap' gap'' e =>
    rw [hline] at hfaithful
    exact ⟨execute_declare hline hfaithful hanswered hrun, by simp⟩

theorem execute_agrees_of_formula :
    let x : Identifier := ⟨['x'], ⟨'x', [], rfl, by decide, by simp⟩, by decide⟩
    let y : Identifier := ⟨['y'], ⟨'y', [], rfl, by decide, by simp⟩, by decide⟩
    let one : Numeral := ⟨['1'], by simp [Number.Digits], by decide, by decide⟩
    let two : Numeral := ⟨['2'], by simp [Number.Digits], by decide, by decide⟩
    let a : Formula :=
      .joined (.joined (.leaf .none x) .space .multiply (.number .space two)) .space .add
      (.number .space one)
    let line : Line := ⟨[], .declare .space Gap.space_ne_none y .space .space a.toArithmetic, [' '],
      by simp, List.forall_mem_singleton.mpr (by decide), by decide⟩
    let s : State := { vars := [("x", .int 4)] }
    line.text = "door y = x * 2 + 1 " ∧ line.command.Faithful s ∧
      (attempt s (tidy line.text)).verdict ≠ .unanswered ∧
      ∃ t, Limits.runText ⟨9, 9⟩ line.text s = .ok () t ∧ t.vars = [("x", .int 4), ("y", .int 9)] ∧
        (execute .absent line.text s).vars = t.vars := by
  intro x y one two a line s
  have htext : line.text = "door y = x * 2 + 1 " := by decide
  have hformed : a.WellFormed :=
    ⟨⟨trivial, trivial, by decide, by decide⟩, trivial, by decide, by decide⟩
  have hleaf {z : Identifier} (hz : z ∈ a.leaves) : z = x := by
    simpa [a, Arithmetic.leaves] using hz
  have hentry {name : String} {v : Value} (h : (name, v) ∈ s.vars) : name = "x" := by simp_all [s]
  have hclear : Clear s.vars a.leaves fun _ => 4 := by
    constructor
    · intro z hz
      rw [hleaf hz]
      rfl
    · intro name v hmem
      rw [hentry hmem]
      exact x.isName
    · intro z name v hz hmem _ _
      rw [hleaf hz, hentry hmem]
      rfl
  have hfaithful : line.command.Faithful s := .formula hclear hformed rfl rfl
  have hanswered : (attempt s (tidy line.text)).verdict ≠ .unanswered := by
    have htidy : tidy line.text =
        String.ofList
          (Command.declare .space Gap.space_ne_none y .space .space a.toArithmetic).chars := by
      decide
    have hsubstituted : substitute s a.text = .ok "4 * 2 + 1".toList := by
      have hreplaced : Text.replaceAll "x".toList (Number.decimal 4).toList a.text =
          "4 * 2 + 1".toList := by decide +kernel
      have hcontains : Text.contains "x".toList a.text = true := by decide
      have hfour : Value.text s.heap (.int 4) = .ok (Number.decimal 4) :=
        text_int_of_short _ (by decide +kernel)
      have hnumber : (Value.int 4).isNumber = true := rfl
      unfold substitute
      simp only [s] at hfour ⊢
      rw [List.foldlM_cons]
      simp only [hnumber, hcontains, hfour, Bool.and_self, if_true]
      exact congrArg Except.ok hreplaced
    have hcalculated : (calculated? s a.text).isSome := by
      unfold calculated?
      rw [hsubstituted]
      decide +kernel
    rw [htidy, attempt_declare s rfl (by decide), if_pos (by decide), a.chars_toArithmetic]
    obtain ⟨v, hv⟩ := Option.isSome_iff_exists.mp hcalculated
    refine declareAny_answered hv (t := Number.decimal 9) ?_
    rw [calculated?_text hclear hformed rfl hv]
    exact text_int_of_short _ (by decide +kernel)
  have hrun : Limits.runText ⟨9, 9⟩ line.text s =
      .ok () { s with vars := [("x", .int 4), ("y", .int 9)] } :=
    runText_of_statement (v := .null) (Arithmetic.wellFormed_map _ hformed) fun spot => rfl
  exact ⟨htext, hfaithful, hanswered, _, hrun, rfl, (execute_agrees hfaithful rfl hanswered hrun).1⟩

/-- The shell adds up whole numbers as doubles when it prints their sum. -/
theorem printed_sum_differs :
    (execute .absent "qor(1 + 2) " {}).out = "3.0\n" ∧
    ∃ t, Limits.runText ⟨9, 9⟩ "qor(1 + 2) " {} = .ok () t ∧ t.out = "3\n" := by
  constructor
  · have hattempt : attempt {} (tidy "qor(1 + 2) ") = ⟨none, printJoined {} "1 + 2".toList⟩ := by
      have htidy : tidy "qor(1 + 2) " = "qor(1 + 2)" := by decide
      rw [htidy]
      rfl
    have hparts : (Text.pieces ['+'] "1 + 2".toList).map Text.strip = ["1".toList, "2".toList] := by
      decide +kernel
    obtain ⟨x, hx, hshown, hnumber⟩ : ∃ x, ["1".toList, "2".toList].foldlM (addPart {}) (.int 0) =
        .ok (.float x) ∧
        Number.writeFloat x = "3.0" ∧ (Num.float x).isNumber = true :=
      ⟨_, rfl, by decide, by decide⟩
    have hsum : sumText {} ["1".toList, "2".toList] = .ok "3.0" := by
      unfold sumText
      rw [hx]
      change (((Num.float x).toValue {}).1.text _).mapError _ = _
      rw [toValue_of_isNumber hnumber]
      change (Value.text _ (.float x)).mapError _ = _
      rw [text_float, hshown]
      rfl
    have hprinted : printJoined {} "1 + 2".toList = .said "3.0\n" := by
      have hquote : "1 + 2".toList.any isQuote = false := by decide
      unfold printJoined
      simp only [hquote, hparts, hsum, Bool.false_eq_true, if_false]
      rfl
    have hsilent : isSilent "qor(1 + 2) " = false := by decide
    rw [execute, if_neg (by simp [hsilent]), hattempt, hprinted]
    rfl
  · let one : Numeral := ⟨['1'], by simp [Number.Digits], by decide, by decide⟩
    let two : Numeral := ⟨['2'], by simp [Number.Digits], by decide, by decide⟩
    let line : Line :=
      ⟨[], .print .none .none (.joined (.number .none one) .space .add (.number .space two)) .none,
      [' '], by simp, List.forall_mem_singleton.mpr (by decide), by decide⟩
    have htext : line.text = "qor(1 + 2) " := by decide
    have hdisplay : Value.display {} (.int 3) = .ok "3" := by
      rw [display_of_isPlain (v := .int 3) trivial]
      exact text_int_of_short _ (by decide +kernel)
    have hrun : Limits.runText ⟨9, 9⟩ line.text {} = .ok () { out := "3\n" } := by
      refine runText_of_statement (v := .str "3") ⟨trivial, trivial, by decide, by decide⟩
        fun spot => ?_
      exact run_print hdisplay
    exact ⟨_, htext ▸ hrun, rfl⟩

end Luuqad.Shell

import Luuqad.Proofs.Lexing.Numbers
import Luuqad.Proofs.Number.Sign
import Luuqad.Proofs.Shell.Answering
import Luuqad.Proofs.Shell.Running

/-!
# Printed sums

The shell does not calculate an expression with plus signs. It cuts it at the plus signs and adds up
what is between them, or joins the texts if not all of it is numbers. It prints what the language
makes of a sum in two cases: all parts are decimals and variables that hold whole numbers
(`printJoined_sum`); or one of the first two parts is a text, and the parts are written as they are
printed (`printJoined_join`).
-/

namespace Luuqad.Shell

open Text (strip pieces pieces_append pieces_of_notMem)

/-! ## The parts of a sum -/

namespace Arithmetic

variable {α : Type}

/-- An expression without the gap in front. -/
def flush : Arithmetic α → Arithmetic α
  | number _ n => number .none n
  | leaf _ x => leaf .none x
  | negative _ a => negative .none a
  | joined left gap j right => joined left.flush gap j right
  | enclosed _ a gap' => enclosed .none a gap'

theorem lead_flush (a : Arithmetic α) : a.flush.lead = .none := by
  induction a with
  | number | leaf | negative | enclosed => rfl
  | joined left gap j right ihleft ihright => exact ihleft

theorem textWith_flush (f : α → List Char) (a : Arithmetic α) :
    a.textWith f = a.lead.chars ++ a.flush.textWith f := by
  induction a with
  | number | leaf | negative | enclosed => rfl
  | joined left gap j right ihleft ihright =>
    rw [textWith, flush, textWith, ihleft, lead, List.append_assoc]

variable {first : Arithmetic Term} {rest : List (Gap × Arithmetic Term)}

theorem strip_chars (e : Arithmetic Term) (g : Gap) :
    strip (e.chars ++ g.chars) = e.flush.chars := by
  rw [chars, textWith_flush, List.append_assoc]
  exact Text.strip_eq e.lead.blank (firm_chars e.lead_flush) e.flush.chars_ne_nil g.blank

theorem lead_plus : (first.plus rest).lead = first.lead := by
  unfold plus
  induction rest generalizing first with
  | nil => rfl
  | cons p rest ih => exact ih

/-- The text behind the first part of a sum. -/
def further (rest : List (Gap × Arithmetic Term)) : List Char :=
  rest.flatMap fun p => p.1.chars ++ '+' :: p.2.chars

theorem chars_plus : (first.plus rest).chars = first.chars ++ further rest := by
  unfold plus
  induction rest generalizing first with
  | nil => simp [further]
  | cons p rest ih =>
    rw [List.foldl_cons, ih]
    simp [further, chars, textWith, Joint.char]

theorem forall_chars_plus {P : Char → Prop} (hgap : ∀ c, IsGap c → P c) (hplus : P '+')
    (hfirst : ∀ c ∈ first.chars, P c) (hrest : ∀ p ∈ rest, ∀ c ∈ p.2.chars, P c) :
    ∀ c ∈ (first.plus rest).chars, P c := by
  intro c hc
  rw [chars_plus, further, List.mem_append, List.mem_flatMap] at hc
  rcases hc with hc | ⟨p, hp, hc⟩
  · exact hfirst c hc
  · rcases List.mem_append.mp hc with hc | hc
    · exact hgap c (p.1.isGap c hc)
    · rcases List.mem_cons.mp hc with rfl | hc
      · exact hplus
      · exact hrest p hp c hc

theorem pieces_plus (hfirst : '+' ∉ first.chars) (hrest : ∀ p ∈ rest, '+' ∉ p.2.chars) :
    (pieces ['+'] (first.plus rest).chars).map strip = first.flush.chars :: rest.map fun p =>
      p.2.flush.chars := by
  rw [chars_plus]
  induction rest generalizing first with
  | nil =>
    have hstrip := first.strip_chars .none
    rw [further, List.flatMap_nil, pieces_of_notMem (by simpa using hfirst)]
    exact congrArg (· :: []) hstrip
  | cons p rest ih =>
    have hsplit : first.chars ++ further (p :: rest) =
        (first.chars ++ p.1.chars) ++ '+' :: (p.2.chars ++ further rest) := by
      simp [further]
    have hbefore : '+' ∉ first.chars ++ p.1.chars := by
      rw [List.mem_append, not_or]
      exact ⟨hfirst, p.1.notMem (by decide)⟩
    rw [hsplit, pieces_append hbefore, List.map_cons, strip_chars,
      ih (hrest p List.mem_cons_self) fun q hq => hrest q (List.mem_cons_of_mem _ hq),
      List.map_cons]

theorem wellFormed_plus (hfirst : first.WellFormed)
    (hrest : ∀ p ∈ rest, p.2.WellFormed ∧ 0 < p.2.tightness) :
    (first.plus rest).WellFormed := by
  unfold plus
  induction rest generalizing first with
  | nil => exact hfirst
  | cons p rest ih =>
    obtain ⟨hformed, htight⟩ := hrest p List.mem_cons_self
    exact ih ⟨hfirst, hformed, Nat.zero_le _, htight⟩ fun q hq =>
      hrest q (List.mem_cons_of_mem _ hq)

end Arithmetic

/-! ## Variables -/

/-- All variables have names. -/
def Named (vars : NameTable Value) : Prop := ∀ entry ∈ vars, IsName entry.1.toList

theorem mem_of_get? {vars : NameTable Value} {name : String} {v : Value}
    (h : vars.get? name = some v) :
    (name, v) ∈ vars := by
  induction vars with
  | nil => cases h
  | cons entry vars ih =>
    obtain ⟨n, w⟩ := entry
    rw [NameTable.get?_cons] at h
    by_cases hname : name = n
    · rw [if_pos hname] at h
      rw [hname, Option.some.inj h]
      exact List.mem_cons_self
    · rw [if_neg hname] at h
      exact List.mem_cons_of_mem _ (ih h)

variable {s : State}

theorem isName_of_held? (hnamed : Named s.vars) {cs : List Char} {v : Value}
    (h : held? s cs = some v) : IsName cs := by
  have hname := hnamed _ (mem_of_get? h)
  rwa [String.toList_ofList] at hname

theorem held?_eq_none (hnamed : Named s.vars) {c : Char} {more : List Char}
    (hc : Text.isLetter c = false) :
    held? s (c :: more) = none := by
  cases hheld : held? s (c :: more) with
  | none => rfl
  | some v =>
    obtain ⟨d, rest, heq, hd, -⟩ := isName_of_held? hnamed hheld
    rw [← (List.cons.inj heq).1, hc] at hd
    cases hd

theorem Numeral.held?_digits (hnamed : Named s.vars) (n : Numeral) : held? s n.digits = none := by
  obtain ⟨d, more, hdigits⟩ := List.exists_cons_of_ne_nil n.nonempty
  have hd : d.isDigit = true := n.plain d (by simp [hdigits])
  rw [hdigits]
  exact held?_eq_none hnamed (Text.isLetter_of_isDigit (Lexer.isDigit_text hd))

/-! ## Characters -/

/-- The characters that may mislead the shell about where a printed expression starts and ends. -/
def ends : List Char := ['(', ')', '\n']

/-- With these, it may also find parts where there are none. -/
def breaks : List Char := '+' :: ends

/-- With these, it may also find texts. -/
def marks : List Char := breaks ++ ['\x22', '\x27']

theorem notMem_ends {c : Char} (h : c ∉ breaks) : c ∉ ends :=
  fun hc => h (List.mem_cons_of_mem _ hc)

theorem notMem_breaks {c : Char} (h : c ∉ marks) : c ∉ breaks :=
  fun hc => h (List.mem_append_left _ hc)

theorem isQuote_of_notMem_marks {c : Char} (h : c ∉ marks) : isQuote c = false := by
  simp only [marks, List.mem_append, List.mem_cons, List.not_mem_nil, or_false, not_or] at h
  simp [isQuote, h.2]

theorem notMem_of_any {p : Char → Bool} {cs : List Char} {c : Char} (h : cs.any p = false)
    (hc : p c = true) : c ∉ cs :=
  fun hmem => List.any_eq_false.mp h c hmem hc

theorem Identifier.notMem_marks (x : Identifier) {c : Char} (hc : c ∈ x.chars) : c ∉ marks :=
  notMem_of_any (p := Lexer.isNameChar) (by decide) (x.isName.isNameChar hc)

theorem notMem_marks_of_isDigit {c : Char} (hc : c.isDigit = true) : c ∉ marks :=
  notMem_of_any (p := Char.isDigit) (by decide) hc

theorem Decimal.notMem_marks (d : Decimal) {c : Char} (hc : c ∈ d.first :: d.more) : c ∉ marks := by
  rcases List.mem_cons.mp hc with rfl | hc
  · exact notMem_marks_of_isDigit d.isDigit
  · exact notMem_of_any (p := Lexer.isNumberChar) (by decide) (d.isNumber c hc)

theorem forall_of_forall₂ {α β : Type} {R : α → β → Prop} {P : α → Prop} {l : List α} {l' : List β}
    (h : List.Forall₂ R l l') (hP : ∀ {a b}, R a b → P a) : ∀ a ∈ l, P a :=
  ((List.forall₂_and_left l l').mp (h.imp fun _ _ hab => ⟨hP hab, hab⟩)).1

theorem IsGap.notMem_marks {c : Char} (h : IsGap c) : c ∉ marks := h.notMem (by decide)

/-! ## Sums of numbers -/

/-- A part of a sum of numbers: a variable that holds a whole number, or a decimal. A whole number
is none, because the shell takes it for a double. -/
inductive Addend (s : State) : Arithmetic Term → Num → Prop
  | name (gap : Gap) {x : Identifier} {i : Int} :
    s.vars.get? x.text = some (.int i) → Addend s (.leaf gap (.name x)) (.int i)
  | decimal (gap : Gap) {d : Decimal} :
    (Num.float d.value).isNumber = true → Addend s (.leaf gap (.decimal d)) (.float d.value)

theorem Decimal.signBit_value (d : Decimal) : Number.signBit d.value = false := by
  have hnumerals : ∀ c ∈ (d.first :: d.more).map Number.plainChar, Number.Numeral c := by
    refine List.forall_mem_map.mpr (List.forall_mem_cons.mpr ⟨?_, fun c hc => ?_⟩)
    · refine Lexer.numeral_plainChar ?_
      rw [Lexer.isNumberChar, Lexer.isDigit_text d.isDigit, Bool.true_or]
    · exact Lexer.numeral_plainChar (d.isNumber c hc)
  have hreads := d.reads
  simp only [Number.readFloat, String.toList_ofList, Number.trimSpaces_numerals hnumerals,
    Number.splitSign_numerals hnumerals, Number.filter_numerals hnumerals,
    Number.underscoresFit_numerals hnumerals 'x' (by decide), Bool.not_true, Bool.false_eq_true,
    if_false] at hreads
  cases hread : Number.readUnsigned? false ((d.first :: d.more).map Number.plainChar) with
  | none =>
    rw [hread] at hreads
    cases hreads
  | some x =>
    rw [hread] at hreads
    cases hreads
    exact Number.signBit_readUnsigned? hread

namespace Addend

variable {e : Arithmetic Term} {n : Num}

theorem gives (h : Addend s e n) : Gives s e.toExpression.toNode (· = n.literal) := by
  cases h with
  | name gap hx => exact .name hx rfl
  | decimal gap hd => exact .literal rfl

theorem notMem_marks (h : Addend s e n) : ∀ c ∈ e.chars, c ∉ marks := by
  cases h with
  | @name gap x => exact gap.forall_append (fun _ => IsGap.notMem_marks) fun _ => x.notMem_marks
  | @decimal gap d => exact gap.forall_append (fun _ => IsGap.notMem_marks) fun _ => d.notMem_marks

theorem wellFormed (h : Addend s e n) : e.WellFormed ∧ 0 < e.tightness := by
  cases h <;> exact ⟨trivial, Nat.succ_pos 2⟩

theorem addPart_eq (hnamed : Named s.vars) (h : Addend s e n) (total : Num) :
    addPart s total e.flush.chars = (total.add n).mapError some := by
  cases h with
  | @name gap x i hx =>
    have hheld : held? s (Arithmetic.leaf gap (Term.name x)).flush.chars = some (.int i) := hx
    unfold addPart
    simp only [hheld]
    rfl
  | @decimal gap d hd =>
    have hheld : held? s (Arithmetic.leaf gap (Term.decimal d)).flush.chars = none :=
      held?_eq_none hnamed (Text.isLetter_of_isDigit (Lexer.isDigit_text d.isDigit))
    have hread : Number.readFloat
        (String.ofList (Arithmetic.leaf gap (Term.decimal d)).flush.chars) = .ok d.value := d.reads
    unfold addPart
    simp only [hheld, hread]

theorem isNumber (h : Addend s e n) : n.isNumber = true := by
  cases h with
  | name => rfl
  | decimal gap hd => exact hd

/-- The shell starts with zero, which makes no difference. -/
theorem zero_add (h : Addend s e n) : (Num.int 0).add n = .ok n := by
  refine Num.zero_add fun x hx => ?_
  cases h with
  | name => cases hx
  | @decimal gap d =>
    cases hx
    exact d.signBit_value

end Addend

/-- The total of some numbers, if all intermediate totals are numbers. -/
def total? (m : Num) (ns : List Num) : Option Num := ns.foldlM Joint.add.combine? m

section Total

variable {m n : Num} {ns : List Num} {first : Arithmetic Term} {rest : List (Gap × Arithmetic Term)}

theorem total?_cons {k : Num} (h : total? m (k :: ns) = some n) :
    ∃ m', Joint.add.combine? m k = some m' ∧ total? m' ns = some n := by
  unfold total? at h
  rw [List.foldlM_cons] at h
  exact Option.bind_eq_some_iff.mp h

theorem isNumber_total? (hm : m.isNumber = true) (h : total? m ns = some n) :
    n.isNumber = true := by
  induction ns generalizing m with
  | nil =>
    cases h
    exact hm
  | cons k ns ih =>
    obtain ⟨m', hm', h⟩ := total?_cons h
    exact ih (Option.filter_eq_some_iff.mp hm').2 h

theorem gives_total (hfirst : Gives s first.toExpression.toNode (· = m.literal))
    (hrest : List.Forall₂ (fun p n => Addend s p.2 n) rest ns) (h : total? m ns = some n) :
    Gives s (first.plus rest).toExpression.toNode (· = n.literal) := by
  induction hrest generalizing first m with
  | nil =>
    cases h
    exact hfirst
  | @cons p k rest ns hp hrest ih =>
    obtain ⟨m', hm', h⟩ := total?_cons h
    have hstep : Gives s (Arithmetic.joined first p.1 .add p.2).toExpression.toNode
        (· = m'.literal) := by
      refine Gives.binary hfirst hp.gives ?_
      rintro _ _ rfl rfl
      rw [applySymbol_joint]
      exact Joint.ensures_apply hm'
    exact ih hstep h

theorem foldlM_addPart (hnamed : Named s.vars)
    (hrest : List.Forall₂ (fun p n => Addend s p.2 n) rest ns) (h : total? m ns = some n) :
    (rest.map fun p => p.2.flush.chars).foldlM (addPart s) m = .ok n := by
  induction hrest generalizing m with
  | nil =>
    cases h
    rfl
  | @cons p k rest ns hp hrest ih =>
    obtain ⟨m', hm', h⟩ := total?_cons h
    have hadd : m.add k = .ok m' := eq_ok_of_toOption (Option.filter_eq_some_iff.mp hm').1
    rw [List.map_cons, List.foldlM_cons, hp.addPart_eq hnamed, hadd]
    exact ih h

theorem toValue_of_isNumber (hn : n.isNumber = true) (heap : Heap) :
    (n.toValue heap).1 = n.literal := by
  cases n with
  | int i => rfl
  | float x =>
    rw [Num.toValue, double_of_isNumber hn]
    rfl

/-- The shell prints the total of a sum. -/
theorem printJoined_sum (hnamed : Named s.vars) {t : String} (hfirst : Addend s first m)
    (hrest : List.Forall₂ (fun p n => Addend s p.2 n) rest ns) (h : total? m ns = some n)
    (ht : n.literal.text s.heap = .ok t) :
    printJoined s (first.plus rest).chars = .said (t ++ "\n") := by
  have hparts : ∀ p ∈ rest, ∀ c ∈ p.2.chars, c ∉ marks :=
    forall_of_forall₂ hrest Addend.notMem_marks
  have hplus {e : Arithmetic Term} (he : ∀ c ∈ e.chars, c ∉ marks) : '+' ∉ e.chars :=
    fun hc => he _ hc (by decide)
  have hquote : (first.plus rest).chars.any isQuote = false := by
    simp only [List.any_eq_false, Bool.not_eq_true]
    exact Arithmetic.forall_chars_plus (fun _ hc => isQuote_of_notMem_marks hc.notMem_marks)
      (by decide) (fun c hc => isQuote_of_notMem_marks (hfirst.notMem_marks c hc))
      fun p hp c hc => isQuote_of_notMem_marks (hparts p hp c hc)
  have hsum : sumText s ((pieces ['+'] (first.plus rest).chars).map strip) = .ok t := by
    unfold sumText
    rw [Arithmetic.pieces_plus (hplus hfirst.notMem_marks) fun p hp => hplus (hparts p hp),
      List.foldlM_cons, hfirst.addPart_eq hnamed, hfirst.zero_add]
    change (List.foldlM (addPart s) m _ >>= _) = _
    rw [foldlM_addPart hnamed hrest h]
    change (((n.toValue s.heap).1.text s.heap).mapError _) = _
    rw [toValue_of_isNumber (isNumber_total? hfirst.isNumber h), ht]
    rfl
  unfold printJoined
  simp only [hquote, hsum, Bool.false_eq_true, if_false]

end Total

/-! ## Joined texts -/

/-- A part of a joined text that is written as it is printed. -/
inductive Part (s : State) : Arithmetic Term → Value → Prop
  | number (gap : Gap) {n : Numeral} :
      n.digits = Number.digitsOf n.value → Part s (.number gap n) (.int n.value)
  | name (gap : Gap) {x : Identifier} {v : Value} :
    s.vars.get? x.text = some v → IsPlain v → Part s (.leaf gap (.name x)) v
  | text (gap : Gap) {q : Quoted} :
    (∀ c ∈ q.body, c ∉ breaks) → Part s (.leaf gap (.text q)) (.str (String.ofList q.body))

theorem isQuoted_chars (q : Quoted) : isQuoted q.chars = true := by
  have hlast : q.chars.getLast? = some q.quote := by
    rw [Quoted.chars, ← List.cons_append, List.getLast?_concat]
  have hquote : isQuote q.quote = true := q.isQuote
  rw [isQuoted, hlast]
  simp [Quoted.chars, hquote]

theorem unquoted_chars (q : Quoted) : unquoted q.chars = String.ofList q.body := by
  simp [unquoted, Quoted.chars]

theorem Quoted.held?_chars (hnamed : Named s.vars) (q : Quoted) : held? s q.chars = none := by
  have hletter : ∀ c, Lexer.isQuote c = true → Text.isLetter c = false := by
    intro c hc
    simp only [Lexer.isQuote, Bool.or_eq_true, beq_iff_eq] at hc
    rcases hc with rfl | rfl <;> decide
  exact held?_eq_none hnamed (hletter _ q.isQuote)

namespace Part

variable {e : Arithmetic Term} {v : Value}

theorem stands (h : Part s e v) : Stands s.vars e v ∧ IsPlain v := by
  cases h with
  | number gap => exact ⟨.number gap _, trivial⟩
  | name gap hx hv => exact ⟨.name gap hx, hv⟩
  | text gap => exact ⟨.text gap _, trivial⟩

theorem wellFormed (h : Part s e v) : e.WellFormed ∧ 0 < e.tightness := by
  cases h <;> exact ⟨trivial, Nat.succ_pos 2⟩

theorem notMem_breaks (h : Part s e v) : ∀ c ∈ e.chars, c ∉ breaks := by
  have hgap (c : Char) (hc : IsGap c) : c ∉ breaks := Shell.notMem_breaks hc.notMem_marks
  cases h with
  | @number gap n =>
    exact gap.forall_append hgap fun c hc => Shell.notMem_breaks
      (notMem_marks_of_isDigit (n.plain c hc))
  | @name gap x => exact gap.forall_append hgap fun _ hc => Shell.notMem_breaks (x.notMem_marks hc)
  | @text gap q hbody =>
    have hquote : q.quote ∉ breaks := notMem_of_any (p := Lexer.isQuote) (by decide) q.isQuote
    refine gap.forall_append hgap fun c hc => ?_
    simp only [Term.chars, Quoted.chars, List.mem_cons, List.mem_append, List.not_mem_nil,
      or_false] at hc
    rcases hc with rfl | hc | rfl
    · exact hquote
    · exact hbody c hc
    · exact hquote

theorem partText_eq (hnamed : Named s.vars) (h : Part s e v) {t : String}
    (ht : v.text s.heap = .ok t) :
    partText s e.flush.chars = .ok t := by
  cases h with
  | @number gap n hn =>
    have hchars : (Arithmetic.number gap n : Arithmetic Term).flush.chars = n.digits := rfl
    have hquoted : isQuoted n.digits = false := by
      obtain ⟨d, more, hdigits⟩ := List.exists_cons_of_ne_nil n.nonempty
      have hd := isQuote_of_notMem_marks (notMem_marks_of_isDigit (n.plain d (by simp [hdigits])))
      simp [isQuoted, hdigits, hd]
    have htext : String.ofList n.digits = t := by
      have hsign : ¬ (n.value : Int) < 0 := by omega
      rw [text_int] at ht
      rw [hn, ← String.ofList_toList (s := t), writeInt_ok ht]
      simp [decimal, Number.decimal, hsign]
    unfold partText
    simp only [hchars, n.held?_digits hnamed, hquoted, Bool.false_eq_true, if_false, htext]
  | @name gap x v hx hv =>
    have hheld : held? s (Arithmetic.leaf gap (Term.name x)).flush.chars = some v := hx
    unfold partText
    simp only [hheld, ht]
  | @text gap q hbody =>
    have hheld : held? s (Arithmetic.leaf gap (Term.text q)).flush.chars = none :=
      q.held?_chars hnamed
    have hquoted : isQuoted (Arithmetic.leaf gap (Term.text q)).flush.chars = true :=
      isQuoted_chars q
    have hunquoted : unquoted (Arithmetic.leaf gap (Term.text q)).flush.chars =
        String.ofList q.body := unquoted_chars q
    rw [text_str] at ht
    unfold partText
    simp only [hheld, hquoted, hunquoted, if_true, ht]

theorem addPart_eq (h : Part s e v) (htext : IsText v) (hquote : e.chars.any isQuote = false)
    (total : Num) :
    addPart s total e.flush.chars = .error none := by
  cases h with
  | number => exact htext.elim
  | @name gap x v hx hv =>
    have hheld : held? s (Arithmetic.leaf gap (Term.name x)).flush.chars = some v := hx
    have hnum : v.num? = none := by
      cases v with
      | str t => rfl
      | _ => exact htext.elim
    unfold addPart
    simp only [hheld, hnum]
  | @text gap q hbody =>
    have hmem : q.quote ∈ (Arithmetic.leaf gap (Term.text q)).chars := by
      simp [Arithmetic.chars, Arithmetic.textWith, Term.chars, Quoted.chars]
    have hq : isQuote q.quote = true := q.isQuote
    rw [List.any_eq_false] at hquote
    exact absurd hq (hquote _ hmem)

end Part

theorem addPart_zero (part : List Char) (f : Failure) :
    addPart s (.int 0) part ≠ .error (some f) := by
  have hadd (n : Num) : ∃ m, (Num.int 0).add n = .ok m := by cases n <;> exact ⟨_, rfl⟩
  intro h
  unfold addPart at h
  cases hheld : held? s part with
  | some v =>
    simp only [hheld] at h
    cases hv : v.num? with
    | none => simp [hv] at h
    | some n =>
      obtain ⟨m, hm⟩ := hadd n
      simp [hv, hm, Except.mapError] at h
  | none =>
    simp only [hheld] at h
    cases hread : Number.readFloat (String.ofList part) with
    | error e => simp [hread] at h
    | ok x =>
      obtain ⟨m, hm⟩ := hadd (.float x)
      simp [hread, hm, Except.mapError] at h

section Join

variable {first second : Arithmetic Term} {gap : Gap} {rest : List (Gap × Arithmetic Term)}
    {v w : Value} {vs : List Value}

theorem sumText_eq_error (hfirst : Part s first v) (hsecond : Part s second w)
    (htext : IsText v ∨ IsText w) (hquote : first.chars.any isQuote = false)
    (hquote' : second.chars.any isQuote = false) (more : List (List Char)) :
    sumText s (first.flush.chars :: second.flush.chars :: more) = .error none := by
  unfold sumText
  rw [List.foldlM_cons]
  rcases htext with htext | htext
  · rw [hfirst.addPart_eq htext hquote]
    rfl
  · cases hstart : addPart s (.int 0) first.flush.chars with
    | error failure =>
      cases failure with
      | none => rfl
      | some f => exact absurd hstart (addPart_zero _ f)
    | ok m =>
      change (List.foldlM (addPart s) m (second.flush.chars :: more) >>= _) = _
      rw [List.foldlM_cons, hsecond.addPart_eq htext hquote']
      rfl

theorem mapM_partText (hnamed : Named s.vars) {es : List (Arithmetic Term)}
    (hes : List.Forall₂ (Part s) es vs) {ts : List String}
    (h : vs.mapM (Value.text s.heap) = .ok ts) :
    (es.map fun e => e.flush.chars).mapM (partText s) = .ok ts := by
  induction hes generalizing ts with
  | nil => exact h
  | @cons e v es vs he hes ih =>
    rw [List.mapM_cons] at h
    cases ht : v.text s.heap with
    | error f =>
      rw [ht] at h
      cases h
    | ok t =>
      rw [ht] at h
      cases hmore : vs.mapM (Value.text s.heap) with
      | error f =>
        rw [hmore] at h
        cases h
      | ok more =>
        rw [hmore] at h
        cases h
        rw [List.map_cons, List.mapM_cons, he.partText_eq hnamed ht, ih hmore]
        rfl

/-- The shell joins the texts of the parts. -/
theorem printJoined_join (hnamed : Named s.vars) (hfirst : Part s first v)
    (hsecond : Part s second w) (htext : IsText v ∨ IsText w)
    (hrest : List.Forall₂ (fun p v => Part s p.2 v) rest vs) {t : String}
    (ht : texts s.heap (v :: w :: vs) = .ok t) :
    printJoined s (first.plus ((gap, second) :: rest)).chars = .said (t ++ "\n") := by
  have hplus {e : Arithmetic Term} {u : Value} (he : Part s e u) : '+' ∉ e.chars :=
    fun hc => he.notMem_breaks _ hc (by decide)
  have hparts : (pieces ['+'] (first.plus ((gap, second) :: rest)).chars).map strip =
      (first :: second :: rest.map Prod.snd).map fun e => e.flush.chars := by
    rw [Arithmetic.pieces_plus (hplus hfirst)]
    · simp
    · rw [List.forall_mem_cons]
      exact ⟨hplus hsecond, forall_of_forall₂ hrest hplus⟩
  obtain ⟨ts, hts, rfl⟩ : ∃ ts, (v :: w :: vs).mapM (Value.text s.heap) = .ok ts ∧
      String.join ts = t := by
    unfold texts at ht
    cases hmap : (v :: w :: vs).mapM (Value.text s.heap) with
    | error f =>
      rw [hmap] at ht
      cases ht
    | ok ts =>
      rw [hmap] at ht
      cases ht
      exact ⟨ts, rfl, rfl⟩
  have hall : List.Forall₂ (Part s) (first :: second :: rest.map Prod.snd) (v :: w :: vs) :=
    .cons hfirst (.cons hsecond (List.forall₂_map_left_iff.mpr hrest))
  have hsum : (if (first.plus ((gap, second) :: rest)).chars.any isQuote then .error none
      else sumText s ((first :: second :: rest.map Prod.snd).map fun e => e.flush.chars)) =
        .error none := by
    by_cases hquote : (first.plus ((gap, second) :: rest)).chars.any isQuote = true
    · rw [if_pos hquote]
    · rw [if_neg hquote]
      simp only [Arithmetic.chars_plus, Arithmetic.further, List.flatMap_cons, List.any_append,
        List.any_cons, Bool.or_eq_true, not_or, Bool.not_eq_true] at hquote
      exact sumText_eq_error hfirst hsecond htext hquote.1 hquote.2.1.2.2 _
  unfold printJoined
  simp only [hparts, hsum, mapM_partText hnamed hall hts]
  rfl

end Join

end Luuqad.Shell

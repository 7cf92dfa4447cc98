import Luuqad.Proofs.Shell.Reading
import Luuqad.Proofs.Text.Matching
import Luuqad.Shell.Delegate

/-!
# What the shell takes from a line

The shell strips a line, gives the equals sign of a declaration some spaces, and compares the rest
with its patterns. Of a line that prints an expression without closing parentheses it takes the
expression (`anyPrint_search`), unless the expression starts and ends with a quote
(`textPrint_search`); of a declaration it takes the name and the expression (`declared?_command`).
-/

namespace Luuqad.Shell

open Text (Pattern Firm Blank strip)
open Text.Pattern (matchStart matchStart_text matchStart_blanks matchStart_longest
    matchStart_shortest of_matchStart_text
  of_matchStart_blanks)

/-! ## The edges of an expression -/

theorem isBlank_of_isDigit {c : Char} (h : c.isDigit = true) : Text.isBlank c = false :=
  Text.isBlank_eq_false isPlainDigit_of_isBlank h

theorem isBlank_of_isQuote {c : Char} (h : Lexer.isQuote c = true) : Text.isBlank c = false := by
  have hcases : c = '\x22' ∨ c = '\x27' := by simpa [Lexer.isQuote] using h
  rcases hcases with rfl | rfl <;> decide

theorem IsName.isNameChar {cs : List Char} (h : IsName cs) {c : Char} (hc : c ∈ cs) :
    Lexer.isNameChar c = true := by
  obtain ⟨d, more, rfl, hd, hmore⟩ := h
  rcases List.mem_cons.mp hc with rfl | hc
  · simp [Lexer.isNameChar, Text.isWordChar, hd]
  · exact hmore c hc

theorem Term.isBlank_head {x : Term} {c : Char} (h : c ∈ x.chars.head?) :
    Text.isBlank c = false := by
  cases x with
  | name x =>
    exact Text.isBlank_eq_false Lexer.isNameChar_of_isBlank
      (x.isName.isNameChar (List.mem_of_mem_head? h))
  | text q =>
    cases h
    exact isBlank_of_isQuote q.isQuote
  | decimal d =>
    cases h
    exact isBlank_of_isDigit d.isDigit

/-- No expression ends with a blank or a semicolon. -/
def Stops (c : Char) : Prop := Text.isBlank c = false ∧ c ≠ ';'

theorem Stops.of_isDigit {c : Char} (h : c.isDigit = true) : Stops c :=
  ⟨isBlank_of_isDigit h, Number.ne_of_isDigit h (by decide)⟩

theorem Stops.of_class {p : Char → Bool} (hp : ∀ {b : Char}, Text.isBlank b = true → p b = false)
    (hsemicolon : p ';' = false) {c : Char} (h : p c = true) : Stops c := by
  refine ⟨Text.isBlank_eq_false hp h, ?_⟩
  rintro rfl
  rw [hsemicolon] at h
  cases h

theorem Term.stops_last {x : Term} {c : Char} (h : c ∈ x.chars.getLast?) : Stops c := by
  cases x with
  | name x =>
    exact .of_class Lexer.isNameChar_of_isBlank (by decide)
      (x.isName.isNameChar (List.mem_of_mem_getLast? h))
  | text q =>
    rw [chars, Quoted.chars, ← List.cons_append, List.getLast?_concat] at h
    cases h
    refine ⟨isBlank_of_isQuote q.isQuote, fun hsemicolon => ?_⟩
    have hquote := q.isQuote
    rw [hsemicolon] at hquote
    cases hquote
  | decimal d =>
    rcases List.mem_cons.mp (List.mem_of_mem_getLast? h) with rfl | hc
    · exact .of_isDigit d.isDigit
    · exact .of_class Lexer.isNumberChar_of_isBlank (by decide) (d.isNumber c hc)

namespace Arithmetic

variable {e : Arithmetic Term}

theorem chars_ne_nil : e.chars ≠ [] := textWith_ne_nil fun x _ => x.chars_ne_nil

theorem stops_last {c : Char} (h : c ∈ e.chars.getLast?) : Stops c :=
  last_textWith ⟨by decide, by decide⟩ (fun _ => .of_isDigit) (fun x _ => x.chars_ne_nil)
    (fun x _ _ hc => x.stops_last hc) h

theorem firm_chars (h : e.lead = .none) : Firm e.chars where
  head c hc := by
    rw [← List.append_nil e.chars] at hc
    exact head_textWith (P := fun c => Text.isBlank c = false) (fun hne => absurd h hne)
      (by decide) (by decide) (fun _ => isBlank_of_isDigit) (fun x _ => x.chars_ne_nil)
      (fun x _ c hc => x.isBlank_head hc) hc
  last _ hc := (stops_last hc).1

end Arithmetic

/-! ## The core of a line -/

theorem Command.chars_ne_nil (c : Command) : c.chars ≠ [] := by
  cases c <;> simp [chars_print, chars_declare]

theorem Command.last_chars (c : Command) :
    c.chars.getLast? = some ')' ∨ c.chars.getLast? = c.expression.chars.getLast? := by
  cases c with
  | print gap gap' e gap'' =>
    left
    have hsplit : (print gap gap' e gap'').chars =
        ("qor".toList ++ (gap.chars ++ '(' :: ((gap'.chars ++ e.chars) ++ gap''.chars))) ++
          [')'] := by
      simp [chars_print]
    rw [hsplit, List.getLast?_concat]
  | declare gap apart x gap' gap'' e =>
    right
    have hsplit : (declare gap apart x gap' gap'' e).chars =
        ("door".toList ++ (gap.chars ++ (x.chars ++ (gap'.chars ++ '=' :: gap''.chars)))) ++
          e.chars := by
      simp [chars_declare]
    rw [hsplit, List.getLast?_append_of_ne_nil _ e.chars_ne_nil, expression]

theorem Command.stops_last {c : Command} {d : Char} (h : d ∈ c.chars.getLast?) : Stops d := by
  rcases c.last_chars with hlast | hlast
  · rw [hlast] at h
    cases h
    exact ⟨by decide, by decide⟩
  · rw [hlast] at h
    exact c.expression.stops_last h

theorem Command.firm_chars (c : Command) : Firm c.chars := by
  refine ⟨fun d hd => ?_, fun d hd => (c.stops_last hd).1⟩
  cases c with
  | print | declare =>
    cases hd
    decide

theorem Command.dropSemicolon_chars (c : Command) : dropSemicolon c.chars = c.chars := by
  unfold dropSemicolon
  rw [if_neg]
  intro hlast
  exact (c.stops_last hlast).2 rfl

theorem Line.strip_text (l : Line) : strip l.text.toList = l.command.chars := by
  rw [text, String.toList_ofList]
  exact Text.strip_eq l.blankBefore l.command.firm_chars l.command.chars_ne_nil l.blankAfter

theorem Line.isSilent_text (l : Line) : isSilent l.text = false := by
  unfold isSilent
  rw [l.strip_text]
  cases l.command <;> rfl

/-! ## Lines that print -/

section Print

variable {gap gap' gap'' : Gap} {e : Arithmetic Term}

theorem goesOn_of_notMem {cs : List Char} (h : '\n' ∉ cs) {c : Char} (hc : c ∈ cs) :
    goesOn c = true := by
  have hne : c ≠ '\n' := fun heq => h (heq ▸ hc)
  simpa [goesOn] using hne

theorem isBlank_of_mem_head {c d : Char} {cs : List Char} (hc : Text.isBlank c = false)
    (h : d ∈ (c :: cs).head?) :
    Text.isBlank d = false := by
  cases h
  exact hc

theorem matchStart_printStart (gap gap' : Gap) {ps : Pattern} {cs : List Char}
    {kept : List (List Char)} {after : List Char} (hcs : ∀ c ∈ cs.head?, Text.isBlank c = false)
    (h : matchStart ps cs = some (kept, after)) :
    matchStart (printStart ++ ps) ("qor".toList ++ (gap.chars ++ '(' :: (gap'.chars ++ cs))) =
      some (kept, after) := by
  unfold printStart
  simp only [List.append_assoc]
  rw [matchStart_text]
  refine matchStart_blanks gap.blank (fun _ => isBlank_of_mem_head (by decide)) ?_
  have hopening : '(' :: (gap'.chars ++ cs) = "(".toList ++ (gap'.chars ++ cs) := rfl
  rw [hopening, matchStart_text]
  exact matchStart_blanks gap'.blank hcs h

theorem matchStart_closing (g : Gap) :
    matchStart (Pattern.blanks ++ Pattern.text ")") (g.chars ++ [')']) = some ([], []) := by
  refine matchStart_blanks g.blank (fun _ => isBlank_of_mem_head (by decide)) ?_
  rw [← List.append_nil (Pattern.text ")")]
  exact matchStart_text ")"

theorem matchStart_closing_eq_none {cs rest : List Char} {c : Char} (hc : Text.isBlank c = false)
    (hclosing : ')' ∉ cs ++ [c]) :
    matchStart (Pattern.blanks ++ Pattern.text ")") (cs ++ c :: rest) = none := by
  cases hmatch : matchStart (Pattern.blanks ++ Pattern.text ")") (cs ++ c :: rest) with
  | none => rfl
  | some result =>
    obtain ⟨run, more, kept, hcs, hrun, hmore⟩ := of_matchStart_blanks hmatch
    rw [← List.append_nil (Pattern.text ")")] at hmore
    obtain ⟨tail, -, rfl, -⟩ := of_matchStart_text hmore
    have hparen : ")".toList ++ tail = ')' :: tail := rfl
    rw [hparen] at hcs
    simp only [List.mem_append, List.mem_singleton, not_or] at hclosing
    rcases List.append_eq_append_iff.mp hcs with ⟨a, ha, hrest⟩ | ⟨a, ha, hrest⟩
    · cases a with
      | nil => exact absurd (List.cons.inj hrest).1.symm hclosing.2
      | cons d a =>
        obtain ⟨rfl, -⟩ := List.cons.inj hrest
        have hblank := hrun c (by simp [ha])
        rw [hc] at hblank
        cases hblank
    · cases a with
      | nil => exact absurd (List.cons.inj hrest).1 hclosing.2
      | cons d a =>
        obtain ⟨rfl, -⟩ := List.cons.inj hrest
        exact absurd (by simp [ha]) hclosing.1

theorem head_append {cs : List Char} (hcs : Firm cs) (hne : cs ≠ []) (rest : List Char) :
    ∀ c ∈ (cs ++ rest).head?, Text.isBlank c = false := by
  obtain ⟨c, more, rfl⟩ := List.exists_cons_of_ne_nil hne
  exact hcs.head

/-- The printed expression is what stands between the parentheses. -/
theorem anyPrint_search (hlead : e.lead = .none) (hline : '\n' ∉ e.chars)
    (hclosing : ')' ∉ e.chars) :
    anyPrint.search (Command.print gap gap' e gap'').chars = some [e.chars] := by
  have hfirm := e.firm_chars hlead
  have hnone (zs : List Char) (hne : zs ≠ []) (hzs : zs <:+ e.chars) :
      matchStart (Pattern.blanks ++ Pattern.text ")") (zs ++ (gap''.chars ++ [')'])) = none := by
    obtain rfl | ⟨cs, c, rfl⟩ := List.eq_nil_or_concat zs
    · exact absurd rfl hne
    · rw [List.concat_eq_append] at hzs ⊢
      have hc : c ∈ e.chars.getLast? := by
        obtain ⟨before, hbefore⟩ := hzs
        rw [← hbefore, ← List.append_assoc, List.getLast?_concat]
        rfl
      rw [List.append_assoc]
      exact matchStart_closing_eq_none (hfirm.last c hc) fun hmem => hclosing (hzs.subset hmem)
  have hmatch :
      matchStart (⟨goesOn, .shortest, false, true⟩ :: (Pattern.blanks ++ Pattern.text ")"))
      (e.chars ++ (gap''.chars ++ [')'])) = some ([e.chars], []) :=
    matchStart_shortest rfl rfl (fun _ => goesOn_of_notMem hline) (matchStart_closing gap'') hnone
  have hprint := matchStart_printStart gap gap' (head_append hfirm e.chars_ne_nil _) hmatch
  have hpattern : anyPrint = printStart ++
      (⟨goesOn, .shortest, false, true⟩ :: (Pattern.blanks ++ Pattern.text ")")) := by
    simp only [anyPrint, List.append_assoc, List.cons_append, List.nil_append]
  rw [Command.chars_print, hpattern]
  exact Pattern.search_of_matchStart hprint

/-- A text has no other quotes in it that a closing parenthesis may follow. -/
def Quoted.Entire (q : Quoted) : Prop := (∀ c ∈ q.body, Shell.isQuote c = false) ∨ ')' ∉ q.body

/-- A printed text is what stands between the quotes. -/
theorem textPrint_search {q : Quoted} (hbody : q.Entire) :
    textPrint.search (Command.print gap gap' (.leaf .none (.text q)) gap'').chars =
      some [q.body] := by
  have hlast : matchStart (quote ++ (Pattern.blanks ++ Pattern.text ")"))
      (q.quote :: (gap''.chars ++ [')'])) =
      some ([], []) := by
    unfold quote
    rw [List.singleton_append, Pattern.matchStart_one rfl q.isQuote, matchStart_closing]
    rfl
  have hnone (zs : List Char) (hne : zs ≠ []) (hzs : zs <:+ q.body) :
      matchStart (quote ++ (Pattern.blanks ++ Pattern.text ")"))
        (zs ++ q.quote :: (gap''.chars ++ [')'])) = none := by
    obtain ⟨c, zs, rfl⟩ := List.exists_cons_of_ne_nil hne
    by_cases hc : isQuote c = true
    · have hclosing : ')' ∉ zs ++ [q.quote] := by
        have hnot : ')' ∉ q.body := by
          refine hbody.resolve_left fun h => ?_
          rw [h c (hzs.subset List.mem_cons_self)] at hc
          cases hc
        have hquote : ')' ≠ q.quote := fun heq => absurd (heq ▸ q.isQuote) (by decide)
        rw [List.mem_append, List.mem_singleton, not_or]
        exact ⟨fun hmem => hnot (hzs.subset (List.mem_cons_of_mem _ hmem)), hquote⟩
      unfold quote
      rw [List.singleton_append, List.cons_append, Pattern.matchStart_one rfl hc,
        matchStart_closing_eq_none (isBlank_of_isQuote q.isQuote) hclosing]
      rfl
    · simp [quote, matchStart, Pattern.splitPart, hc]
  have hbetween :
      matchStart (⟨goesOn, .shortest, false, true⟩ ::
        (quote ++ (Pattern.blanks ++ Pattern.text ")")))
      (q.body ++ q.quote :: (gap''.chars ++ [')'])) = some ([q.body], []) :=
    matchStart_shortest rfl rfl (fun _ => goesOn_of_notMem q.unbroken) hlast hnone
  have hmatch :
      matchStart (quote ++
        (⟨goesOn, .shortest, false, true⟩ :: (quote ++ (Pattern.blanks ++ Pattern.text ")"))))
      (q.quote :: (q.body ++ q.quote :: (gap''.chars ++ [')']))) = some ([q.body], []) := by
    unfold quote at hbetween ⊢
    rw [List.singleton_append, Pattern.matchStart_one rfl q.isQuote, hbetween]
    rfl
  have hprint := matchStart_printStart gap gap'
    (fun _ => isBlank_of_mem_head (isBlank_of_isQuote q.isQuote)) hmatch
  have hchars : (Arithmetic.leaf .none (Term.text q)).chars ++ (gap''.chars ++ [')']) =
      q.quote :: (q.body ++ q.quote :: (gap''.chars ++ [')'])) := by
    simp [Arithmetic.chars, Arithmetic.textWith, Term.chars, Quoted.chars, Gap.none]
  have hpattern : textPrint = printStart ++
      (quote ++
      (⟨goesOn, .shortest, false, true⟩ :: (quote ++ (Pattern.blanks ++ Pattern.text ")")))) := by
    simp only [textPrint, List.append_assoc, List.cons_append, List.nil_append]
  rw [Command.chars_print, hchars, hpattern]
  exact Pattern.search_of_matchStart hprint

/-- An expression that starts and ends with a quote. -/
def Spans (cs : List Char) : Prop :=
  (∃ c ∈ cs.head?, isQuote c = true) ∧ ∃ c ∈ cs.getLast?, isQuote c = true

theorem eq_of_append_cons {c : Char} {xs ys xs' ys' : List Char} (hxs : c ∉ xs) (hys : c ∉ ys)
    (h : xs ++ c :: ys = xs' ++ c :: ys') : xs = xs' ∧ ys = ys' := by
  rcases List.append_eq_append_iff.mp h with ⟨a, ha, hrest⟩ | ⟨a, ha, hrest⟩
  · cases a with
    | nil => exact ⟨by simpa using ha.symm, (List.cons.inj hrest).2⟩
    | cons d a =>
      have hmem : c ∈ ys := by
        rw [(List.cons.inj hrest).2]
        exact List.mem_append_right _ List.mem_cons_self
      exact absurd hmem hys
  · cases a with
    | nil => exact ⟨by simpa using ha, (List.cons.inj hrest).2.symm⟩
    | cons d a =>
      have hmem : c ∈ xs := by
        rw [ha, (List.cons.inj hrest).1]
        exact List.mem_append_right _ List.mem_cons_self
      exact absurd hmem hxs

theorem of_matchStart_textPrint {zs after : List Char} {kept : List (List Char)}
    (h : matchStart textPrint zs = some (kept, after)) :
    ∃ run run' body run'' rest c d, zs = "qor".toList ++
      (run ++ '(' :: (run' ++ ((c :: (body ++ [d])) ++ (run'' ++ ')' :: rest)))) ∧
      Blank run ∧ Blank run' ∧ Blank run'' ∧ isQuote c = true ∧ isQuote d = true := by
  unfold textPrint printStart quote at h
  simp only [List.append_assoc] at h
  obtain ⟨_, _, rfl, hblanks⟩ := of_matchStart_text h
  obtain ⟨run, _, _, rfl, hrun, hopening⟩ := of_matchStart_blanks hblanks
  obtain ⟨_, _, rfl, hblanks'⟩ := of_matchStart_text hopening
  obtain ⟨run', _, _, rfl, hrun', hquote⟩ := of_matchStart_blanks hblanks'
  obtain ⟨one, _, _, rfl, hone, hbody⟩ := Pattern.matchStart_cons hquote
  obtain ⟨body, _, _, rfl, -, hquote'⟩ := Pattern.matchStart_cons hbody
  obtain ⟨one', _, _, rfl, hone', hblanks''⟩ := Pattern.matchStart_cons hquote'
  obtain ⟨run'', _, _, rfl, hrun'', hclosing⟩ := of_matchStart_blanks hblanks''
  rw [← List.append_nil (Pattern.text ")")] at hclosing
  obtain ⟨rest, _, rfl, -⟩ := of_matchStart_text hclosing
  obtain ⟨c, rfl⟩ := hone.one rfl
  obtain ⟨d, rfl⟩ := hone'.one rfl
  refine ⟨run, run', body, run'', rest, c, d, ?_, hrun, hrun', hrun'',
    hone.accepts c List.mem_cons_self, hone'.accepts d List.mem_cons_self⟩
  simp

/-- Only an expression that starts and ends with a quote is taken for a text. -/
theorem textPrint_search_eq_none (hlead : e.lead = .none) (hopening : '(' ∉ e.chars)
    (hclosing : ')' ∉ e.chars) (hspans : ¬ Spans e.chars) :
    textPrint.search (Command.print gap gap' e gap'').chars = none := by
  have hgaps : ¬ IsGap '(' ∧ ¬ IsGap ')' := by decide
  refine Pattern.search_eq_none fun zs hzs => ?_
  cases hmatch : matchStart textPrint zs with
  | none => rfl
  | some result =>
    refine absurd ?_ hspans
    obtain ⟨kept, after⟩ := result
    obtain ⟨before, hbefore⟩ := hzs
    obtain ⟨run, run', body, run'', rest, c, d, rfl, hrun, hrun', hrun'', hc, hd⟩ :=
      of_matchStart_textPrint hmatch
    -- the parentheses are the only ones on the line
    have hcode : "qor".toList ++ gap.chars ++ '(' ::
        (gap'.chars ++ (e.chars ++ (gap''.chars ++ [')']))) =
        before ++ "qor".toList ++ run ++ '(' ::
          (run' ++ ((c :: (body ++ [d])) ++ (run'' ++ ')' :: rest))) := by
      rw [Command.chars_print] at hbefore
      simpa only [List.append_assoc] using hbefore.symm
    have hinside : gap'.chars ++ (e.chars ++ (gap''.chars ++ [')'])) =
        run' ++ ((c :: (body ++ [d])) ++ (run'' ++ ')' :: rest)) := by
      refine (eq_of_append_cons ?_ ?_ hcode).2
      · simp [gap.notMem hgaps.1]
      · simp [gap'.notMem hgaps.1, gap''.notMem hgaps.1, hopening]
    have hbetween : gap'.chars ++ (e.chars ++ gap''.chars) =
        run' ++ ((c :: (body ++ [d])) ++ run'') := by
      have hcut : (gap'.chars ++ (e.chars ++ gap''.chars)) ++ ')' :: [] =
          (run' ++ ((c :: (body ++ [d])) ++ run'')) ++ ')' :: rest := by
        simpa only [List.append_assoc, List.cons_append] using hinside
      refine (eq_of_append_cons ?_ List.not_mem_nil hcut).1
      simp [gap'.notMem hgaps.2, gap''.notMem hgaps.2, hclosing]
    have hfirm : Firm (c :: (body ++ [d])) := by
      constructor
      · exact fun _ => isBlank_of_mem_head (isBlank_of_isQuote hc)
      · intro x hx
        rw [← List.cons_append, List.getLast?_concat] at hx
        cases hx
        exact isBlank_of_isQuote hd
    have hchars : e.chars = c :: (body ++ [d]) := by
      have hstrip := congrArg strip hbetween
      rwa [Text.strip_eq gap'.blank (e.firm_chars hlead) e.chars_ne_nil gap''.blank,
        Text.strip_eq hrun' hfirm (List.cons_ne_nil _ _) hrun''] at hstrip
    rw [hchars]
    refine ⟨⟨c, rfl, hc⟩, d, ?_, hd⟩
    rw [← List.cons_append, List.getLast?_concat]
    rfl

theorem startsWith_print {word : String} (h : word ∈ declarationWords) :
    startsWith (Command.print gap gap' e gap'').chars word = false := by
  have hqoraal {tail : List Char} (htail : ∀ c ∈ tail.head?, c ≠ 'a') :
      startsWith ("qor".toList ++ tail) "qoraal" = false := by
    cases tail with
    | nil => rfl
    | cons c tail =>
      have hc : ('a' == c) = false := beq_eq_false_iff_ne.mpr (htail c rfl).symm
      change ('a' == c && _) = false
      rw [hc, Bool.false_and]
  simp only [declarationWords, List.mem_cons, List.not_mem_nil, or_false] at h
  rcases h with rfl | rfl | rfl
  · rfl
  · rfl
  · refine hqoraal fun c => Gap.head_append (fun _ _ hgap => hgap.ne (by decide)) fun d hd => ?_
    cases hd
    decide

theorem tidy_print {l : Line} (hl : l.command = .print gap gap' e gap'') :
    tidy l.text = String.ofList l.command.chars := by
  unfold tidy
  rw [l.strip_text, hl]
  have hopening : (Command.print gap gap' e gap'').chars.contains '(' = true := by
    simp [Command.chars_print]
  have hwords : (declarationWords.any (startsWith (Command.print gap gap' e gap'').chars)) =
      false := by
    rw [List.any_eq_false]
    exact fun word hword => by simp [startsWith_print hword]
  simp only [hopening, hwords, Bool.not_true, Bool.and_false, Bool.false_and,
    Bool.false_eq_true, if_false]

theorem attempt_print (s : State) :
    attempt s (String.ofList (Command.print gap gap' e gap'').chars) =
    ⟨none, (print? s (Command.print gap gap' e gap'').chars).getD .unanswered⟩ := by
  unfold attempt
  rw [String.toList_ofList]
  cases hprint : print? s (Command.print gap gap' e gap'').chars with
  | some verdict => simp only [hprint, Option.getD_some]
  | none =>
    have hcalculation : calculation? (Command.print gap gap' e gap'').chars = none := by
      unfold calculation?
      rw [Command.dropSemicolon_chars]
      have hq : (Command.print gap gap' e gap'').chars.all Calculator.isFormulaChar = false := rfl
      simp [hq]
    have hdeclare : declare s (Command.print gap gap' e gap'').chars = ⟨none, .unanswered⟩ := by
      unfold declare
      rw [startsWith_print (by decide), startsWith_print (by decide), startsWith_print (by decide)]
      rfl
    simp only [hprint, hcalculation, hdeclare, Option.getD_none]

theorem print?_text {s : State} {q : Quoted} (hbody : q.Entire) :
    print? s (Command.print gap gap' (.leaf .none (.text q)) gap'').chars =
      some (.said (String.ofList q.body ++ "\n")) := by
  have hstart : "qor".toList.isPrefixOf
      (Command.print gap gap' (.leaf .none (.text q)) gap'').chars = true := rfl
  unfold print?
  rw [if_pos hstart, Command.dropSemicolon_chars]
  simp only [textPrint_search hbody]

theorem print?_expression {s : State} (hlead : e.lead = .none) (hline : '\n' ∉ e.chars)
    (hopening : '(' ∉ e.chars) (hclosing : ')' ∉ e.chars) (hspans : ¬ Spans e.chars) :
    print? s (Command.print gap gap' e gap'').chars = printExpression? s e.chars := by
  have hstart : "qor".toList.isPrefixOf (Command.print gap gap' e gap'').chars = true := rfl
  unfold print?
  rw [if_pos hstart, Command.dropSemicolon_chars]
  simp only [textPrint_search_eq_none hlead hopening hclosing hspans,
    anyPrint_search hlead hline hclosing]

end Print

/-! ## Declarations -/

section Declare

variable {gap gap' gap'' : Gap} {apart : gap ≠ .none} {x : Identifier} {e : Arithmetic Term}

/-- Both forms of an equals sign, with spaces around it and without, are the same to the shell. -/
theorem tidy_declare {l : Line} (hl : l.command = .declare gap apart x gap' gap'' e) :
    ∃ n n', tidy l.text = String.ofList (Command.declare gap apart x n n' e).chars := by
  unfold tidy
  rw [l.strip_text, hl]
  have hqor : "qor".toList.isPrefixOf (Command.declare gap apart x gap' gap'' e).chars = false :=
    rfl
  simp only [hqor, Bool.false_and, Bool.false_eq_true, if_false]
  split
  · refine ⟨gap'.append .space, Gap.space.append gap'', congrArg String.ofList ?_⟩
    have hequals : ¬ IsGap '=' := by decide
    have hname : '=' ∉ x.chars := x.isName.notMem (by decide) (by decide)
    have hsplit : (Command.declare gap apart x gap' gap'' e).chars =
        ("door".toList ++ (gap.chars ++ (x.chars ++ gap'.chars))) ++ '=' ::
          (gap''.chars ++ e.chars) := by
      simp [Command.chars_declare]
    rw [hsplit, Text.replaceFirst_char (by simp [gap.notMem hequals, gap'.notMem hequals, hname])]
    simp [Command.chars_declare, Gap.append, Gap.space]
  · exact ⟨gap', gap'', rfl⟩

theorem declared?_command (hlead : e.lead = .none) (hline : '\n' ∉ e.chars) :
    declared? "door" (Command.declare gap apart x gap' gap'' e).chars = some (x.text, e.chars) := by
  have hfirm := e.firm_chars hlead
  have hvalue : matchStart [⟨goesOn, .longest, true, true⟩] e.chars = some ([e.chars], []) := by
    have hall :=
      matchStart_longest (p := ⟨goesOn, .longest, true, true⟩) rfl (fun _ => e.chars_ne_nil)
      (fun _ => goesOn_of_notMem hline) (by simp) (rfl : matchStart [] [] = some ([], []))
    rwa [List.append_nil] at hall
  have hequals :
      matchStart (Pattern.blanks ++
        (Pattern.text "=" ++ (Pattern.blanks ++ [⟨goesOn, .longest, true, true⟩])))
      (gap'.chars ++ '=' :: (gap''.chars ++ e.chars)) = some ([e.chars], []) := by
    refine matchStart_blanks gap'.blank (fun _ => isBlank_of_mem_head (by decide)) ?_
    have hsign : '=' :: (gap''.chars ++ e.chars) = "=".toList ++ (gap''.chars ++ e.chars) := rfl
    rw [hsign, matchStart_text]
    exact matchStart_blanks gap''.blank hfirm.head hvalue
  have hrest : ∀ c ∈ (gap'.chars ++ '=' :: (gap''.chars ++ e.chars)).head?,
      isNamePart c = false := by
    refine fun c => Gap.head_append (P := fun c => isNamePart c = false)
      (fun _ _ hgap => Lexer.isNameChar_of_isBlank hgap.1) fun c hc => ?_
    cases hc
    decide
  have hname :=
    matchStart_longest (p := ⟨isNamePart, .longest, true, true⟩) rfl (fun _ => x.isName.ne_nil)
    (fun _ => x.isName.isNameChar) hrest hequals
  have hblank := matchStart_longest (p := ⟨Text.isBlank, .longest, true, false⟩) rfl
    (fun _ => mt Gap.eq_none apart) gap.blank (fun c hc => ?_) hname
  · have hpattern : declaration "door" = Pattern.text "door" ++
        (⟨Text.isBlank, .longest, true, false⟩ ::
        ⟨isNamePart, .longest, true, true⟩ ::
          (Pattern.blanks ++
            (Pattern.text "=" ++ (Pattern.blanks ++ [⟨goesOn, .longest, true, true⟩])))) := by
      simp only [declaration, List.append_assoc, List.cons_append, List.nil_append]
    have hmatch : matchStart (declaration "door") (Command.declare gap apart x gap' gap'' e).chars =
        some ([x.chars, e.chars], []) := by
      rw [hpattern, Command.chars_declare, matchStart_text]
      exact hblank
    unfold declared?
    rw [Command.dropSemicolon_chars, Pattern.search_of_matchStart hmatch]
    simp only [Text.strip_firm hfirm e.chars_ne_nil, Identifier.text]
  · obtain ⟨d, more, hchars, hd, -⟩ := x.isName
    rw [hchars] at hc
    cases hc
    exact Text.isBlank_eq_false Text.isLetter_of_isBlank hd

/-- Only the pattern of declarations answers a declaration, if there is a space behind its
keyword. -/
theorem attempt_declare (s : State) (hlead : e.lead = .none) (hline : '\n' ∉ e.chars) :
    attempt s (String.ofList (Command.declare gap apart x gap' gap'' e).chars) =
      if startsWith (Command.declare gap apart x gap' gap'' e).chars "door" then
        declareAny s x.text e.chars
      else ⟨none, .unanswered⟩ := by
  have hprint : print? s (Command.declare gap apart x gap' gap'' e).chars = none := rfl
  have hcalculation : calculation? (Command.declare gap apart x gap' gap'' e).chars = none := by
    unfold calculation?
    rw [Command.dropSemicolon_chars]
    have hd : (Command.declare gap apart x gap' gap'' e).chars.all Calculator.isFormulaChar =
        false :=
      rfl
    simp [hd]
  unfold attempt
  rw [String.toList_ofList]
  simp only [hprint, hcalculation, declare]
  split
  · rw [declared?_command hlead hline]
    rfl
  · rfl

end Declare

end Luuqad.Shell

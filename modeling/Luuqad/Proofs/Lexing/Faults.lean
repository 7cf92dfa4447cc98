import Luuqad.Proofs.Lexing.Ending
import Luuqad.Proofs.Lexing.Numbers

/-!
# What can be wrong with a text

A text is read stretch by stretch: `Stretch` says what is taken off its front in one step, `Passed`
what is taken off in several. Reading stops with an error of the lexer, which has a place in the
text, except at a row of digits and points that is no number: the failure to convert it has no
place, and is no error of the language (`tokenize_located_iff`).
-/

namespace Luuqad

/-- The fault is an error of the lexer at a place of the text, or just behind it. -/
def Fault.LocatedIn (f : Fault) (source : List Char) : Prop :=
  ∃ (cause : Cause) (i : Nat), cause.errorClass = .lexer ∧ i ≤ source.length ∧
    f = cause.at (.behind (source.take i))

theorem Cause.locatedIn_end (cause : Cause) (h : cause.errorClass = .lexer)
    (before cs : List Char) :
    (cause.at ((Position.behind before).past cs)).LocatedIn (before ++ cs) :=
  ⟨cause, (before ++ cs).length, h, Nat.le_refl _, by rw [Position.behind_past, List.take_length]⟩

namespace Lexer

open Number (Convertible)

/-! ### Stretches -/

/-- The text `digits` is a whole row of digits and points, if `rest` follows. -/
structure Row (digits rest : List Char) : Prop where
  head : ∃ c ∈ digits.head?, Text.isDigit c = true
  chars : ∀ d ∈ digits, isNumberChar d = true
  whole : ∀ d ∈ rest.head?, isNumberChar d = false

/-- What is taken off the front of a text in one step, if `rest` follows: a blank, a comment or a
token. -/
inductive Stretch : List Char → List Char → Prop
  | blank {c : Char} {rest : List Char} : Text.isBlank c = true → Stretch [c] rest
  | line {body rest : List Char} : '\n' ∉ body → (∀ c ∈ rest.head?, c = '\n') →
      Stretch ('/' :: '/' :: body) rest
  | block {body rest : List Char} : ¬['*', '/'] <:+: body →
      Stretch ('/' :: '*' :: (body ++ ['*', '/'])) rest
  | word {c : Char} {more rest : List Char} : Text.isLetter c = true →
      (∀ d ∈ more, isNameChar d = true) →
      (∀ d ∈ rest.head?, isNameChar d = false) → Stretch (c :: more) rest
  | number {digits rest : List Char} : Row digits rest → Convertible digits → Stretch digits rest
  | string {quote : Char} {body rest : List Char} : isQuote quote = true → quote ∉ body →
      Stretch (quote :: (body ++ [quote])) rest
  | double {c d : Char} {kind : TokenKind} {rest : List Char} : ([c, d], kind) ∈ symbols →
      Stretch [c, d] rest
  | single {c : Char} {kind : TokenKind} {rest : List Char} : ([c], kind) ∈ symbols →
      (∀ d ∈ rest.head?, ∀ kind, ([c, d], kind) ∉ symbols) →
        (c = '/' → ∀ d ∈ rest.head?, d ≠ '/' ∧ d ≠ '*') →
      Stretch [c] rest

/-- What is taken off the front of a text in some steps, if `rest` follows. -/
inductive Passed : List Char → List Char → Prop
  | nil {rest : List Char} : Passed [] rest
  | cons {chunk pre rest : List Char} : Stretch chunk (pre ++ rest) → Passed pre rest →
      Passed (chunk ++ pre) rest

/-- Reading the text comes to the row `digits`. -/
def Meets (source digits : List Char) : Prop :=
  ∃ pre rest, source = pre ++ (digits ++ rest) ∧ Passed pre (digits ++ rest) ∧ Row digits rest

theorem takeWhile_whole {p : Char → Bool} {text rest : List Char} (htext : ∀ d ∈ text, p d = true)
    (hrest : ∀ d ∈ rest.head?, p d = false) : (text ++ rest).takeWhile p = text := by
  cases rest with
  | nil => rw [List.append_nil, List.takeWhile_eq_self_iff.mpr htext]
  | cons b rest => exact takeWhile_before htext (hrest b rfl)

/-! ### Rows of digits -/

namespace Row

variable {c : Char} {more rest : List Char}

theorem isDigit (h : Row (c :: more) rest) : Text.isDigit c = true := by
  obtain ⟨d, hd, hdigit⟩ := h.head
  cases hd
  exact hdigit

theorem tail (h : Row (c :: more) rest) : ∀ d ∈ more, isNumberChar d = true :=
  fun d hd => h.chars d (List.mem_cons_of_mem _ hd)

theorem of_isDigit (hc : Text.isDigit c = true) (cs : List Char) :
    Row (c :: cs.takeWhile isNumberChar) (cs.dropWhile isNumberChar) where
  head := ⟨c, rfl, hc⟩
  chars :=
    List.forall_mem_cons.mpr ⟨by rw [isNumberChar, hc, Bool.true_or],
      fun _ hd => List.mem_takeWhile_imp hd⟩
  whole := head_dropWhile

theorem lexeme (h : Row (c :: more) rest) (p : Position) :
    Lexer.lexeme c (more ++ rest) p =
      ((readNumber (c :: more)).mapError Fault.failure).map fun v =>
        (.at .number v p, more.length) := by
  have hletter : ¬Text.isLetter c = true := by simp [Text.isLetter_of_isDigit h.isDigit]
  rw [Lexer.lexeme, if_neg hletter, if_pos h.isDigit, number, takeWhile_whole h.tail h.whole]
  cases readNumber (c :: more) <;> rfl

theorem readNumber_iff (h : Row (c :: more) rest) :
    (∃ v, readNumber (c :: more) = .ok v) ↔ Convertible (c :: more) :=
  readNumber_ok_iff h.isDigit h.tail

end Row

/-! ### What a step does -/

section

variable {c : Char} {chunk pre tail rest : List Char}

/-- Wherever the text is scanned, scanning goes on behind `chunk`. -/
def GoesOn (chunk rest : List Char) : Prop :=
  ∀ fresh p, ∃ fresh' marked, scan fresh p (chunk ++ rest) =
    (scan fresh' (p.past chunk) rest).map (marked ++ ·)

theorem GoesOn.of_skip (h : ∀ fresh p, scan fresh p (chunk ++ rest) =
    scan false (p.past chunk) rest) :
    GoesOn chunk rest := by
  intro fresh p
  refine ⟨false, [], ?_⟩
  rw [h fresh p]
  cases scan false (p.past chunk) rest <;> rfl

theorem GoesOn.of_lexeme (h : ∀ p, ∃ t, lexeme c (tail ++ rest) p = .ok (t, tail.length))
    (hslash : c = '/' → ∀ d ∈ rest.head?, d ≠ '/' ∧ d ≠ '*') : GoesOn (c :: tail) rest := by
  intro fresh p
  obtain ⟨t, ht⟩ := h p
  obtain ⟨tail', after, kind, value, hsplit, hlength, -, hspells⟩ := lexeme_ok ht
  obtain ⟨rfl, -⟩ := List.append_inj hsplit hlength.symm
  refine ⟨true, [t], scan_token fresh p hspells.head.1 (fun hc d hd => ?_) ht⟩
  rw [hspells.head.2 hc] at hd
  exact hslash hc d hd

theorem GoesOn.append (hchunk : GoesOn chunk (pre ++ rest)) (hpre : GoesOn pre rest) :
    GoesOn (chunk ++ pre) rest := by
  intro fresh p
  obtain ⟨fresh₁, marked₁, h₁⟩ := hchunk fresh p
  obtain ⟨fresh₂, marked₂, h₂⟩ := hpre fresh₁ (p.past chunk)
  refine ⟨fresh₂, marked₁ ++ marked₂, ?_⟩
  rw [List.append_assoc, h₁, h₂, Position.past_append]
  cases scan fresh₂ ((p.past chunk).past pre) rest with
  | error f => rfl
  | ok tokens => simp [Except.map]

theorem Stretch.goesOn (h : Stretch chunk rest) : GoesOn chunk rest := by
  cases h with
  | blank hc => exact .of_skip fun fresh p => scan_blank fresh p hc rest
  | line hbody hrest => exact .of_skip fun fresh p => scan_lineComment fresh p hbody hrest
  | @block body _ hbody =>
    refine .of_skip fun fresh p => ?_
    have hscan := scan_blockComment fresh p hbody rest
    simpa using hscan
  | @word c more _ hc hmore hrest =>
    refine .of_lexeme (fun p => ⟨(Lexer.word c (more ++ rest) p).1, ?_⟩) ?_
    · rw [lexeme, if_pos hc, Lexer.word, takeWhile_whole hmore hrest]
    · rintro rfl
      exact absurd hc (by decide +kernel)
  | number hrow hnumber =>
    cases chunk with
    | nil => simpa using hrow.head
    | cons c more =>
      obtain ⟨v, hv⟩ := hrow.readNumber_iff.mpr hnumber
      refine .of_lexeme (fun p => ⟨.at .number v p, ?_⟩) ?_
      · rw [hrow.lexeme, hv]
        rfl
      · rintro rfl
        exact absurd hrow.isDigit (by decide +kernel)
  | @string quote body _ hquote hbody =>
    refine .of_lexeme (fun p => ⟨.at .string (.str (String.ofList body)) p, ?_⟩) ?_
    · rw [List.append_assoc, List.singleton_append, lexeme_string p hquote hbody,
        List.length_append, List.length_singleton]
    · rintro rfl
      exact absurd hquote (by decide)
  | @double c d kind _ hmem =>
    obtain ⟨hletter, hdigit, hquote, -, hslash⟩ := symbols_class hmem
    have htwo : twoCharOperator? c d = some kind := symbolOf_of_mem_symbols hmem
    refine .of_lexeme (fun p => ⟨.at kind (.str (String.ofList [c, d])) p, ?_⟩) fun hc =>
      absurd (hslash hc) (by simp)
    rw [lexeme, if_neg (by simp [hletter]), if_neg (by simp [hdigit]), if_neg (by simp [hquote])]
    simp [operator, htwo]
  | @single c kind _ hmem hdouble hslash =>
    obtain ⟨hletter, hdigit, hquote, -⟩ := symbols_class hmem
    have hone : operator? c = some kind := symbolOf_of_mem_symbols hmem
    have htwo : rest.head?.bind (twoCharOperator? c) = none := by
      refine Option.bind_eq_none_iff.mpr fun d hd => Option.eq_none_iff_forall_ne_some.mpr
        fun kind hkind => ?_
      exact hdouble d hd kind (mem_symbols_of_twoCharOperator hkind)
    refine .of_lexeme (fun p => ⟨.at kind (.str c.toString) p, ?_⟩) hslash
    rw [lexeme, if_neg (by simp [hletter]), if_neg (by simp [hdigit]), if_neg (by simp [hquote])]
    simp [operator, htwo, hone]

theorem Passed.goesOn (h : Passed pre rest) : GoesOn pre rest := by
  induction h with
  | nil =>
    intro fresh p
    refine ⟨fresh, [], ?_⟩
    rw [List.nil_append, Position.past, List.foldl_nil]
    cases scan fresh p _ <;> rfl
  | cons hchunk _ ih => exact hchunk.goesOn.append ih

theorem Row.scan_failure {digits : List Char} {e : Failure} (h : Row digits rest)
    (he : readNumber digits = .error e) (fresh : Bool) (p : Position) :
    scan fresh p (digits ++ rest) = .error (.failure e) := by
  cases digits with
  | nil => simpa using h.head
  | cons c more =>
    have hblank : Text.isBlank c = false := by
      by_contra hblank
      have hdigit := h.isDigit
      rw [Text.isDigit_of_isBlank (by simpa using hblank)] at hdigit
      cases hdigit
    refine scan_fault hblank (fun hc => ?_) ?_
    · subst hc
      exact absurd h.isDigit (by decide +kernel)
    · rw [List.append_eq, h.lexeme, he]
      rfl

end

/-! ### What a text can go on with -/

section

variable {c : Char} {rest : List Char}

/-- Wherever the text stands, scanning it ends in an error of the lexer that has a place. -/
def Stops (cs : List Char) : Prop :=
  ∀ fresh before, ∃ f, scan fresh (.behind before) cs = .error f ∧ f.LocatedIn (before ++ cs)

/-- What can stand at the front of a text: a stretch, a row that is no number, or an error of the
lexer. -/
inductive Front (cs : List Char) : Prop
  | stretch (chunk after : List Char) :
      cs = chunk ++ after → chunk ≠ [] → Stretch chunk after → Front cs
  | row (digits after : List Char) :
      cs = digits ++ after → Row digits after → ¬Convertible digits → Front cs
  | stops : Stops cs → Front cs

theorem string_unclosed (h : c ∉ rest) (p : Position) :
    string c rest p = .error (Cause.unterminatedString.at (p.past (c :: rest))) := by
  have htake : rest.takeWhile (· != c) = rest := by
    refine List.takeWhile_eq_self_iff.mpr fun d hd => ?_
    have hne : d ≠ c := fun heq => h (heq ▸ hd)
    simpa using hne
  simp only [string, htake, if_neg (Nat.lt_irrefl _)]
  rfl

theorem Front.of_quote (hc : Text.isBlank c = false)
    (hslash : c = '/' → ∀ d ∈ rest.head?, d ≠ '/' ∧ d ≠ '*') (hletter : ¬Text.isLetter c = true)
    (hdigit : ¬Text.isDigit c = true) (hquote : isQuote c = true) :
    Front (c :: rest) := by
  by_cases hclosed : c ∈ rest
  · obtain ⟨body, after, rfl, hbody⟩ := List.eq_append_cons_of_mem hclosed
    exact .stretch (c :: (body ++ [c])) after (by simp) (by simp) (.string hquote hbody)
  · refine .stops fun fresh before =>
      ⟨_, scan_fault hc hslash ?_, Cause.unterminatedString.locatedIn_end rfl before (c :: rest)⟩
    rw [lexeme, if_neg hletter, if_neg hdigit, if_pos hquote, string_unclosed hclosed]

theorem Front.of_operator (hc : Text.isBlank c = false)
    (hslash : c = '/' → ∀ d ∈ rest.head?, d ≠ '/' ∧ d ≠ '*') (hletter : ¬Text.isLetter c = true)
    (hdigit : ¬Text.isDigit c = true) (hquote : ¬isQuote c = true) :
    Front (c :: rest) := by
  cases htwo : rest.head?.bind (twoCharOperator? c) with
  | some kind =>
    obtain ⟨d, hd, hkind⟩ := Option.bind_eq_some_iff.mp htwo
    obtain ⟨after, rfl⟩ := List.head?_eq_some_iff.mp hd
    exact .stretch [c, d] after rfl (by simp) (.double (mem_symbols_of_twoCharOperator hkind))
  | none =>
    cases hone : operator? c with
    | some kind =>
      refine .stretch [c] rest rfl (by simp)
        (.single (mem_symbols_of_operator hone) (fun d hd kind hmem => ?_) hslash)
      have hkind : twoCharOperator? c d = some kind := symbolOf_of_mem_symbols hmem
      rw [Option.bind_eq_none_iff.mp htwo d hd] at hkind
      cases hkind
    | none =>
      refine .stops fun fresh before => ⟨(Cause.unexpectedChar c).at (.behind before),
        scan_fault hc hslash ?_, ?_⟩
      · rw [lexeme, if_neg hletter, if_neg hdigit, if_neg hquote]
        simp only [operator, htwo, hone]
        rfl
      · exact ⟨_, before.length, rfl, by simp, by rw [List.take_left]⟩

theorem Front.of_token (hc : Text.isBlank c = false)
    (hslash : c = '/' → ∀ d ∈ rest.head?, d ≠ '/' ∧ d ≠ '*') :
    Front (c :: rest) := by
  by_cases hletter : Text.isLetter c = true
  · exact .stretch (c :: rest.takeWhile isNameChar) (rest.dropWhile isNameChar) (by simp) (by simp)
      (.word hletter (fun _ hd => List.mem_takeWhile_imp hd) head_dropWhile)
  by_cases hdigit : Text.isDigit c = true
  · have hsplit : c :: rest = c :: rest.takeWhile isNumberChar ++ rest.dropWhile isNumberChar := by
      simp
    have hrow := Row.of_isDigit hdigit rest
    by_cases hnumber : Convertible (c :: rest.takeWhile isNumberChar)
    · exact .stretch _ _ hsplit (by simp) (.number hrow hnumber)
    · exact .row _ _ hsplit hrow hnumber
  by_cases hquote : isQuote c = true
  · exact .of_quote hc hslash hletter hdigit hquote
  · exact .of_operator hc hslash hletter hdigit hquote

theorem front (c : Char) (rest : List Char) : Front (c :: rest) := by
  rcases text_cases c rest with hc | ⟨body, after, htext, hbody, hafter⟩ |
    ⟨body, after, htext, hbody⟩ |
    ⟨more, htext, hopen⟩ | ⟨hc, hslash⟩
  · exact .stretch [c] rest rfl (by simp) (.blank hc)
  · exact .stretch ('/' :: '/' :: body) after htext (by simp) (.line hbody hafter)
  · exact .stretch ('/' :: '*' :: (body ++ ['*', '/'])) after (by simp [htext]) (by simp)
      (.block hbody)
  · rw [htext]
    exact .stops fun fresh before =>
      ⟨_, scan_unclosed hopen, Cause.unterminatedComment.locatedIn_end rfl before _⟩
  · exact .of_token hc hslash

end

/-! ### Whole texts -/

/-- Scanning gives tokens or an error of the lexer that has a place, unless it comes to a row that
is no number. -/
theorem scan_outcome (fresh : Bool) (before cs : List Char) :
    (∃ tokens, scan fresh (.behind before) cs = .ok tokens) ∨
    (∃ f, scan fresh (.behind before) cs = .error f ∧ f.LocatedIn (before ++ cs)) ∨
    ∃ digits, Meets cs digits ∧ ¬Convertible digits := by
  -- each stretch that is taken off makes the text shorter
  induction hn : cs.length using Nat.strong_induction_on generalizing fresh before cs with
  | _ n ih =>
    subst hn
    cases cs with
    | nil => exact .inl ⟨_, scan_nil fresh _⟩
    | cons c rest =>
      cases front c rest with
      | stretch chunk after hsplit hne hstretch =>
        rw [hsplit]
        obtain ⟨fresh', marked, hscan⟩ := hstretch.goesOn fresh (.behind before)
        rw [Position.behind_past] at hscan
        have hshorter : after.length < (c :: rest).length := by
          have hpos := List.length_pos_of_ne_nil hne
          rw [hsplit, List.length_append]
          omega
        rw [hscan, ← List.append_assoc]
        rcases ih after.length hshorter fresh' (before ++ chunk) after rfl with
          ⟨tokens, hok⟩ | ⟨f, hfault, hplace⟩ | ⟨digits, ⟨pre, later, rfl, hpassed, hrow⟩, hnot⟩
        · exact .inl ⟨marked ++ tokens, by rw [hok, Except.map]⟩
        · exact .inr (.inl ⟨f, by rw [hfault, Except.map], hplace⟩)
        · exact .inr
            (.inr ⟨digits, ⟨chunk ++ pre, later, by simp, .cons hstretch hpassed, hrow⟩, hnot⟩)
      | row digits after hsplit hrow hnot =>
        exact .inr (.inr ⟨digits, ⟨[], after, by simpa using hsplit, .nil, hrow⟩, hnot⟩)
      | stops hstops => exact .inr (.inl (hstops fresh before))

theorem Row.readNumber_error {digits rest : List Char} (h : Row digits rest)
    (hnot : ¬Convertible digits) :
    ∃ e, readNumber digits = .error e ∧ e.category = .value := by
  cases digits with
  | nil => simpa using h.head
  | cons c more =>
    cases hread : readNumber (c :: more) with
    | ok v => exact absurd (h.readNumber_iff.mp ⟨v, hread⟩) hnot
    | error e => exact ⟨e, rfl, Lexer.readNumber_error hread⟩

theorem tokenize_of_meets {source : String} {digits : List Char} (h : Meets source.toList digits)
    (hnot : ¬Convertible digits) :
    ∃ e, tokenize source = .error (.failure e) ∧ e.category = .value ∧
    readNumber digits = .error e := by
  obtain ⟨pre, rest, hsplit, hpassed, hrow⟩ := h
  obtain ⟨e, hread, hvalue⟩ := hrow.readNumber_error hnot
  obtain ⟨fresh, marked, hscan⟩ := hpassed.goesOn true .start
  refine ⟨e, ?_, hvalue, hread⟩
  rw [tokenize, hsplit, hscan, hrow.scan_failure hread, Except.map]

theorem not_located_of_failure {source : String} {e : Failure}
    (h : tokenize source = .error (.failure e)) :
    ¬((∃ tokens, tokenize source = .ok tokens) ∨ ∃ f, tokenize source = .error f ∧
      f.LocatedIn source.toList) := by
  rintro (⟨tokens, hok⟩ | ⟨f, hfault, cause, i, -, -, rfl⟩)
  · rw [h] at hok
    cases hok
  · rw [h] at hfault
    cases hfault

theorem row_of_points : Row "1.2.3".toList [] :=
  ⟨⟨'1', rfl, by decide⟩, List.all_eq_true.mp (by decide), by simp⟩

end Lexer

open Lexer Number in
/-- Reading a text gives tokens, or an error of the lexer with a place in the text, exactly if every
row of digits and points that it comes to is a number. At a row that is none it ends with the
failure to convert that row. -/
theorem tokenize_located_iff (source : String) :
    (((∃ tokens, tokenize source = .ok tokens) ∨
        ∃ f, tokenize source = .error f ∧ f.LocatedIn source.toList) ↔
      ∀ digits, Meets source.toList digits → Convertible digits) ∧
    ∀ digits, Meets source.toList digits → ¬Convertible digits →
      ∃ e, tokenize source = .error (.failure e) ∧ e.category = .value ∧
        readNumber digits = .error e := by
  refine ⟨⟨fun hgood digits hmeets => ?_, fun hall => ?_⟩, fun digits => tokenize_of_meets⟩
  · by_contra hnot
    obtain ⟨e, hfails, -⟩ := tokenize_of_meets hmeets hnot
    exact not_located_of_failure hfails hgood
  · rcases scan_outcome true [] source.toList with hok | hfault | ⟨digits, hmeets, hnot⟩
    · exact .inl hok
    · exact .inr hfault
    · exact absurd (hall digits hmeets) hnot

open Lexer Number in
/-- The row `1.2.3` behind the name, the sign and the blanks of `t = 1.2.3` is no number. -/
theorem tokenize_located_iff_of_points :
    Meets "t = 1.2.3".toList "1.2.3".toList ∧ ¬Convertible "1.2.3".toList ∧
      ∃ e, tokenize "t = 1.2.3" = .error (.failure e) ∧ e.category = .value ∧
        readNumber "1.2.3".toList = .error e := by
  have hname : Stretch ['t'] " = 1.2.3".toList := by
    refine .word (by decide +kernel) (by simp) fun d hd => ?_
    cases hd
    decide +kernel
  have hsign : Stretch ['='] " 1.2.3".toList := by
    have hdouble : ∀ entry ∈ symbols, entry.1 ≠ ['=', ' '] := by decide
    refine .single (by decide : (['='], TokenKind.equal) ∈ symbols) (fun d hd kind hmem => ?_)
      fun hslash => absurd hslash (by decide)
    cases hd
    exact hdouble _ hmem rfl
  have hpassed : Passed ['t', ' ', '=', ' '] ("1.2.3".toList ++ []) :=
    .cons hname (.cons (.blank (by decide)) (.cons hsign (.cons (.blank (by decide)) .nil)))
  have hmeets : Meets "t = 1.2.3".toList "1.2.3".toList := ⟨_, [], rfl, hpassed, row_of_points⟩
  have hnot : ¬Convertible "1.2.3".toList := by decide
  exact ⟨hmeets, hnot, (tokenize_located_iff "t = 1.2.3").2 _ hmeets hnot⟩

open Lexer Number in
/-- A number with two points gives neither tokens nor an error of the lexer. -/
theorem two_points_not_located :
    ¬((∃ tokens, tokenize "1.2.3" = .ok tokens) ∨
      ∃ f, tokenize "1.2.3" = .error f ∧ f.LocatedIn "1.2.3".toList) := by
  have hmeets : Meets "1.2.3".toList "1.2.3".toList := ⟨[], [], rfl, .nil, row_of_points⟩
  obtain ⟨e, hfails, -⟩ := tokenize_of_meets hmeets (by decide)
  exact not_located_of_failure hfails

end Luuqad

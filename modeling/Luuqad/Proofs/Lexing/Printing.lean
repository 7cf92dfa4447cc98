import Luuqad.Proofs.Lexing.Scan

/-!
# Lexing undoes printing

A list of tokens is printed with a separator behind each of them: a blank, then any layout. Scanning
the text gives the tokens back, whatever the layout, and an end token behind them, except that the
empty text has no token at all.
-/

namespace Luuqad

/-! ### Numbers in decimal -/

namespace Number

def Digits (ds : List Char) : Prop := ∀ d ∈ ds, d.isDigit = true

theorem isDigit_range {d : Char} (h : d.isDigit = true) : 48 ≤ d.toNat ∧ d.toNat ≤ 57 := by
  simp only [Char.isDigit, Bool.and_eq_true, decide_eq_true_eq] at h
  exact ⟨h.1, h.2⟩

theorem ne_of_isDigit {c d : Char} (hd : d.isDigit = true) (hc : c.isDigit = false) : d ≠ c := by
  rintro rfl
  simp [hd] at hc

theorem plainChar_of_isDigit {d : Char} (h : d.isDigit = true) : plainChar d = d := by
  have hrange := isDigit_range h
  rw [plainChar, if_pos (by omega)]

theorem isPlainSpace_of_isDigit {d : Char} (h : d.isDigit = true) : isPlainSpace d = false := by
  have hrange := isDigit_range h
  have hspace : d ≠ ' ' := ne_of_isDigit h (by decide)
  simp [isPlainSpace, hspace]
  omega

theorem underscoresFit_digits {d : Char} {ds : List Char} (h : Digits (d :: ds)) (before : Char) :
    underscoresFit before (d :: ds) = true := by
  have hd : d.isDigit = true := h d List.mem_cons_self
  have hunder : d ≠ '_' := ne_of_isDigit hd (by decide)
  induction ds generalizing d before with
  | nil => simp [underscoresFit, hd, hunder]
  | cons e ds ih =>
    have hrest : Digits (e :: ds) := fun x hx => h x (List.mem_cons_of_mem _ hx)
    have he : e.isDigit = true := hrest e List.mem_cons_self
    rw [underscoresFit, ih hrest d he (ne_of_isDigit he (by decide))]
    simp [hd, hunder]

theorem readInt_of_plain {text : String} {ds : List Char} (hplain : text.toList.map plainChar = ds)
    (h : Digits ds) (hne : ds ≠ []) :
    readInt text = if digitLimit < ds.length then .error (.tooManyDigitsInText ds.length)
      else .ok (valueOf ds : Int) := by
  cases ds with
  | nil => exact absurd rfl hne
  | cons d more =>
    have hd : d.isDigit = true := h d List.mem_cons_self
    have hsign : splitSign (d :: more) = (false, d :: more) := by
      unfold splitSign
      split
      next heq => exact absurd (List.cons.inj heq).1 (ne_of_isDigit hd (by decide))
      next heq => exact absurd (List.cons.inj heq).1 (ne_of_isDigit hd (by decide))
      next => rfl
    have hrun : ∀ c ∈ d :: more, (c.isDigit || c == '_') = true := by
      intro c hc
      rw [h c hc, Bool.true_or]
    have hfilter : (d :: more).filter (· != '_') = d :: more := by
      refine List.filter_eq_self.mpr fun c hc => ?_
      have hunder : c ≠ '_' := ne_of_isDigit (h c hc) (by decide)
      simpa using hunder
    have htake : (d :: more).takeWhile (fun c => c.isDigit || c == '_') = d :: more :=
      List.takeWhile_eq_self_iff.mpr hrun
    have hdrop : (d :: more).dropWhile (fun c => c.isDigit || c == '_') = [] :=
      List.dropWhile_eq_nil_iff.mpr hrun
    simp only [readInt, hplain]
    rw [List.dropWhile_cons_of_neg (by simp [isPlainSpace_of_isDigit hd]), hsign]
    simp only [htake, hdrop, hfilter, underscoresFit_digits h]
    rfl

theorem readInt_digits {ds : List Char} (h : Digits ds) (hne : ds ≠ [])
    (hlimit : ds.length ≤ digitLimit) : readInt (String.ofList ds) = .ok (valueOf ds : Int) := by
  have hplain : (String.ofList ds).toList.map plainChar = ds := by
    rw [String.toList_ofList]
    exact (List.map_congr_left fun c hc => plainChar_of_isDigit (h c hc)).trans (List.map_id _)
  rw [readInt_of_plain hplain h hne, if_neg (Nat.not_lt.mpr hlimit)]

theorem valueOf_digitsOf (n : Nat) : valueOf (digitsOf n) = n :=
  Nat.ofDigitChars_toDigits (by decide) (by decide)

theorem digits_digitsOf (n : Nat) : Digits (digitsOf n) :=
  fun _ hd => Nat.isDigit_of_mem_toDigits (by decide) (by decide) hd

end Number

namespace Lexer

theorem readNumber_digitsOf {n : Nat} (h : (Number.digitsOf n).length ≤ Number.digitLimit) :
    readNumber (Number.digitsOf n) = .ok (.int n) := by
  have hpoint : (Number.digitsOf n).contains '.' = false := by
    by_contra hdot
    simp only [Bool.not_eq_false, List.contains_iff_mem] at hdot
    have hdigit := Number.digits_digitsOf n _ hdot
    simp at hdigit
  rw [readNumber, hpoint, Number.readInt_digits (Number.digits_digitsOf n) Nat.toDigits_ne_nil h,
    Number.valueOf_digitsOf]
  rfl

theorem isDigit_text {d : Char} (h : d.isDigit = true) : Text.isDigit d = true := by
  have hrange := Number.isDigit_range h
  simp only [Text.isDigit, Text.digitRanges, Text.inRanges]
  rw [if_neg (by omega), if_pos (by omega)]

theorem spells_digitsOf {n : Nat} (h : (Number.digitsOf n).length ≤ Number.digitLimit) :
    Spells .number (.int n) (Number.digitsOf n) := by
  have hread := readNumber_digitsOf h
  have hdigits := Number.digits_digitsOf n
  have hne : Number.digitsOf n ≠ [] := Nat.toDigits_ne_nil
  cases hds : Number.digitsOf n with
  | nil => exact absurd hds hne
  | cons d more =>
    rw [hds] at hread hdigits
    refine .number (isDigit_text (hdigits d List.mem_cons_self)) (fun c hc => ?_) hread
    rw [isNumberChar, isDigit_text (hdigits c (List.mem_cons_of_mem _ hc)), Bool.true_or]

/-! ### Layout -/

/-- What may stand between tokens: blanks and comments. -/
inductive Layout : List Char → Prop
  | nil : Layout []
  | blank {c : Char} {rest : List Char} : Text.isBlank c = true → Layout rest → Layout (c :: rest)
  | line {body rest : List Char} : '\n' ∉ body → Layout rest →
      Layout ('/' :: '/' :: (body ++ '\n' :: rest))
  | block {body rest : List Char} : ¬ ['*', '/'] <:+: body → Layout rest →
      Layout ('/' :: '*' :: (body ++ '*' :: '/' :: rest))

theorem scan_layout {gap : List Char} (h : Layout gap) (p : Position) (rest : List Char) :
    ∃ q, scan false p (gap ++ rest) = scan false q rest := by
  induction h generalizing p with
  | nil => exact ⟨p, rfl⟩
  | blank hc _ ih =>
    rw [List.cons_append, scan_blank false p hc]
    exact ih _
  | @line body gap hbody _ ih =>
    -- the newline that ends the comment is read as a blank
    have htext : '/' :: '/' :: (body ++ '\n' :: gap) ++ rest
        = '/' :: '/' :: (body ++ '\n' :: (gap ++ rest)) := by simp
    rw [htext, scan_lineComment false p hbody (by simp), scan_blank false _ (by decide)]
    exact ih _
  | @block body gap hbody _ ih =>
    have htext : '/' :: '*' :: (body ++ '*' :: '/' :: gap) ++ rest
        = '/' :: '*' :: (body ++ '*' :: '/' :: (gap ++ rest)) := by simp
    rw [htext, scan_blockComment false p hbody]
    exact ih _

/-- What is printed behind a token: a blank, then any layout. -/
structure Separator where
  first : Char
  more : List Char
  blank : Text.isBlank first = true
  layout : Layout more

def Separator.text (s : Separator) : List Char := s.first :: s.more

theorem scan_separator (s : Separator) (fresh : Bool) (p : Position) (rest : List Char) :
    ∃ q, scan fresh p (s.text ++ rest) = scan false q rest := by
  rw [Separator.text, List.cons_append, scan_blank fresh p s.blank]
  exact scan_layout s.layout _ rest

/-! ### Printed tokens -/

/-- A token to be printed, with all that decides its text. -/
inductive Printed
  | identifier (first : Char) (more : List Char) (hfirst : Text.isLetter first = true)
      (hmore : ∀ c ∈ more, isNameChar c = true)
      (hname : String.ofList (first :: more) ∉ TokenKind.keywords.map Prod.fst)
  | keyword (word : String) (kind : TokenKind) (h : (word, kind) ∈ TokenKind.keywords)
  | number (n : Nat) (h : (Number.digitsOf n).length ≤ 4300)
  | string (quote : Char) (body : List Char) (hquote : isQuote quote = true) (hbody : quote ∉ body)
  | symbol (text : List Char) (kind : TokenKind) (h : (text, kind) ∈ symbols)

namespace Printed

def kind : Printed → TokenKind
  | identifier .. => .identifier
  | keyword _ kind _ => kind
  | number .. => .number
  | string .. => .string
  | symbol _ kind _ => kind

def value : Printed → Value
  | identifier first more .. => .str (String.ofList (first :: more))
  | keyword word .. => .str word
  | number n _ => .int n
  | string _ body .. => .str (String.ofList body)
  | symbol text .. => .str (String.ofList text)

def text : Printed → List Char
  | identifier first more .. => first :: more
  | keyword word .. => word.toList
  | number n _ => Number.digitsOf n
  | string quote body .. => quote :: (body ++ [quote])
  | symbol text .. => text

theorem spells (t : Printed) : Spells t.kind t.value t.text := by
  cases t with
  | identifier first more hfirst hmore hname => exact .identifier hfirst hmore hname
  | keyword word kind h =>
    have hspells : Spells kind (.str (String.ofList word.toList)) word.toList :=
      .keyword (by rwa [String.ofList_toList])
    rwa [String.ofList_toList] at hspells
  | number n h => exact spells_digitsOf h
  | string quote body hquote hbody => exact .string hquote hbody
  | symbol text kind h => exact .symbol h

end Printed

theorem Spells.ne_nil {kind : TokenKind} {value : Value} {text : List Char}
    (h : Spells kind value text) : text ≠ [] := by
  cases h with
  | identifier => exact List.cons_ne_nil _ _
  | keyword hmem =>
    obtain ⟨c, more, rfl, -⟩ := keyword_chars hmem
    exact List.cons_ne_nil _ _
  | number => exact List.cons_ne_nil _ _
  | string => exact List.cons_ne_nil _ _
  | symbol hmem =>
    have hall : ∀ entry ∈ symbols, entry.1 ≠ [] := by decide
    exact hall _ hmem

/-- A printed token in front of its separator is read back, and so is what comes behind. -/
theorem scan_printed (t : Printed) (s : Separator) (fresh : Bool) (p : Position)
    (rest : List Char) :
    ∃ q, scan fresh p (t.text ++ (s.text ++ rest))
      = (scan false q rest).map (.at t.kind t.value p :: ·) := by
  have hspells := t.spells
  cases htext : t.text with
  | nil => exact absurd htext hspells.ne_nil
  | cons c tail =>
    rw [htext] at hspells
    obtain ⟨hblank, hslash⟩ := hspells.head
    have hread : lexeme c (tail ++ (s.text ++ rest)) p = .ok (.at t.kind t.value p, tail.length) :=
      lexeme_of_spells p hspells s.blank
    obtain ⟨q, hq⟩ := scan_separator s true (p.past (c :: tail)) rest
    refine ⟨q, ?_⟩
    rw [List.cons_append, scan_token fresh p hblank ?_ hread, hq]
    · rintro rfl d hd
      rw [hslash rfl, List.nil_append, Separator.text, List.cons_append, List.head?_cons] at hd
      obtain rfl := Option.some.inj hd
      exact ⟨Text.ne_of_isBlank s.blank (by decide), Text.ne_of_isBlank s.blank (by decide)⟩

/-- The text of printed tokens, each with the separator behind it. -/
def printAll (items : List (Printed × Separator)) : List Char :=
  items.flatMap fun item => item.1.text ++ item.2.text

theorem scan_printAll (items : List (Printed × Separator)) (fresh : Bool) (p : Position) :
    ∃ tokens, scan fresh p (printAll items) = .ok tokens ∧
      tokens.map (fun t => (t.kind, t.value)) =
        items.map (fun item => (item.1.kind, item.1.value)) ++
        (if fresh && items.isEmpty then [] else [(.eof, .null)]) := by
  induction items generalizing fresh p with
  | nil =>
    refine ⟨_, scan_nil fresh p, ?_⟩
    cases fresh <;> simp [Token.at]
  | cons item items ih =>
    obtain ⟨t, s⟩ := item
    obtain ⟨q, hq⟩ := scan_printed t s fresh p (printAll items)
    obtain ⟨tokens, htokens, hback⟩ := ih false q
    refine ⟨.at t.kind t.value p :: tokens, ?_, ?_⟩
    · have htext : printAll ((t, s) :: items) = t.text ++ (s.text ++ printAll items) := by
        simp [printAll]
      rw [htext, hq, htokens]
      rfl
    · simp [hback, Token.at]

/-- The source text of printed tokens, with a separator in front if there is one. -/
def print (front : Option Separator) (items : List (Printed × Separator)) : String :=
  String.ofList ((front.elim [] Separator.text) ++ printAll items)

/-- Lexing undoes printing: the tokens come back with their kinds and values, whatever the layout.
One end token follows, unless nothing at all was printed. -/
theorem tokenize_print (front : Option Separator) (items : List (Printed × Separator)) :
    ∃ tokens, tokenize (print front items) = .ok tokens ∧
      tokens.map (fun t => (t.kind, t.value)) =
        items.map (fun item => (item.1.kind, item.1.value)) ++
        (if front.isNone && items.isEmpty then [] else [(.eof, .null)]) := by
  rw [tokenize, print, String.toList_ofList]
  cases front with
  | none => exact scan_printAll items true .start
  | some s =>
    obtain ⟨q, hq⟩ := scan_separator s true .start (printAll items)
    obtain ⟨tokens, htokens, hback⟩ := scan_printAll items false q
    exact ⟨tokens, hq.trans htokens, hback⟩

/-- Nothing, printed without a separator, has no end token. -/
theorem tokenize_print_nothing :
    ¬ ∃ tokens, tokenize (print none []) = .ok tokens ∧
      tokens.map (fun t => (t.kind, t.value)) = [(.eof, .null)] := by
  have hempty : tokenize (print none []) = .ok [] := by decide +kernel
  rintro ⟨tokens, htokens, hback⟩
  rw [hempty] at htokens
  cases htokens
  simp at hback

end Lexer

end Luuqad

import Luuqad.Token.Lexer
import Mathlib.Data.List.TakeWhile

/-!
# Lexemes

`Spells kind value text` says what text a token of each kind stands for: a word, the digits and
points of a number, a quoted string, or an operator of the table `symbols`. What the lexer cuts off
the front of a text is such a lexeme (`lexeme_ok`), and a lexeme in front of a blank is cut off
whole (`lexeme_of_spells`).
-/

namespace Luuqad

namespace Text

/-- No code point lies in a range of both lists. Ranges of the second list that lie below the first
range of the first list are dropped on the way, so both lists are walked once. -/
def apart : List (Nat × Nat) → List (Nat × Nat) → Bool
  | [], _ => true
  | r :: left, right =>
    match right.dropWhile fun s => s.1.blt r.1 && s.2.blt r.1 with
    | [] => true
    | s :: later => r.2.blt s.1 && apart left (s :: later)

theorem inRanges_dropWhile (ranges : List (Nat × Nat)) {low n : Nat} (h : low ≤ n) :
    inRanges (ranges.dropWhile fun s => s.1.blt low && s.2.blt low) n = inRanges ranges n := by
  induction ranges with
  | nil => rfl
  | cons s rest ih =>
    rw [List.dropWhile_cons]
    split
    next hbelow =>
      simp only [Bool.and_eq_true, Nat.blt_eq] at hbelow
      rw [ih, inRanges, if_neg (by omega), if_neg (by omega)]
    next => rfl

theorem inRanges_of_apart {left right : List (Nat × Nat)} {n : Nat}
    (hapart : apart left right = true) (h : inRanges left n = true) : inRanges right n = false := by
  induction left generalizing right with
  | nil => simp [inRanges] at h
  | cons r left ih =>
    have hlow : r.1 ≤ n := by
      by_contra hbelow
      simp [inRanges, Nat.lt_of_not_le hbelow] at h
    rw [← inRanges_dropWhile right hlow]
    simp only [apart] at hapart
    split at hapart
    next hdrop => rw [hdrop, inRanges]
    next s later hdrop =>
      simp only [Bool.and_eq_true, Nat.blt_eq] at hapart
      rw [hdrop]
      by_cases hin : n ≤ r.2
      · rw [inRanges, if_pos (by omega)]
      · rw [inRanges, if_neg (by omega), if_neg hin] at h
        exact ih hapart.2 h

theorem apart_tables :
    apart blankRanges letterRanges = true ∧ apart blankRanges digitRanges = true ∧
      apart blankRanges numericRanges = true ∧ apart digitRanges letterRanges = true := by
  decide +kernel

theorem isLetter_of_isBlank {c : Char} (h : isBlank c = true) : isLetter c = false :=
  inRanges_of_apart apart_tables.1 h

theorem isDigit_of_isBlank {c : Char} (h : isBlank c = true) : isDigit c = false :=
  inRanges_of_apart apart_tables.2.1 h

theorem isWordChar_of_isBlank {c : Char} (h : isBlank c = true) : isWordChar c = false := by
  have hnumeric : inRanges numericRanges c.toNat = false :=
    inRanges_of_apart apart_tables.2.2.1 h
  rw [isWordChar, isLetter_of_isBlank h, hnumeric]
  rfl

theorem isLetter_of_isDigit {c : Char} (h : isDigit c = true) : isLetter c = false :=
  inRanges_of_apart apart_tables.2.2.2 h

theorem ne_of_isBlank {b c : Char} (h : isBlank b = true) (hc : isBlank c = false) : b ≠ c := by
  rintro rfl
  simp [h] at hc

end Text

namespace Lexer

/-- The operators and punctuation of the language, as they are written. -/
def symbols : List (List Char × TokenKind) := [
  (['>', '='], .greaterEqual), (['<', '='], .lessEqual), (['!', '='], .notEqual),
  (['&', '&'], .and), (['|', '|'], .or),
  (['+'], .plus), (['-'], .minus), (['*'], .star), (['/'], .slash), (['%'], .modulo),
  (['='], .equal), (['>'], .greater), (['<'], .less), (['!'], .not),
  (['('], .leftParen), ([')'], .rightParen), (['\x7b'], .leftBrace), (['\x7d'], .rightBrace),
  (['['], .leftBracket), ([']'], .rightBracket),
  ([','], .comma), ([':'], .colon), ([';'], .semicolon), (['.'], .dot)]

/-- The text `text` is a lexeme of a token of kind `kind` with value `value`. -/
inductive Spells : TokenKind → Value → List Char → Prop
  | identifier {c : Char} {more : List Char} : Text.isLetter c = true →
      (∀ d ∈ more, isNameChar d = true) →
      String.ofList (c :: more) ∉ TokenKind.keywords.map Prod.fst →
      Spells .identifier (.str (String.ofList (c :: more))) (c :: more)
  | keyword {kind : TokenKind} {text : List Char} :
      (String.ofList text, kind) ∈ TokenKind.keywords →
      Spells kind (.str (String.ofList text)) text
  | number {c : Char} {more : List Char} {v : Value} : Text.isDigit c = true →
      (∀ d ∈ more, isNumberChar d = true) → readNumber (c :: more) = .ok v →
      Spells .number v (c :: more)
  | string {quote : Char} {body : List Char} : isQuote quote = true → quote ∉ body →
      Spells .string (.str (String.ofList body)) (quote :: (body ++ [quote]))
  | symbol {kind : TokenKind} {text : List Char} : (text, kind) ∈ symbols →
      Spells kind (.str (String.ofList text)) text

/-! ### What is cut off is a lexeme -/

theorem ofWord_cases (name : String) :
    (name, TokenKind.ofWord name) ∈ TokenKind.keywords ∨
      (name ∉ TokenKind.keywords.map Prod.fst ∧ TokenKind.ofWord name = .identifier) := by
  rw [TokenKind.ofWord]
  cases hfind : TokenKind.keywords.lookup name with
  | some kind =>
    obtain ⟨before, after, htable, -⟩ := List.lookup_eq_some_iff.mp hfind
    left
    rw [htable]
    simp
  | none =>
    have hnone := List.lookup_eq_none_iff.mp hfind
    right
    refine ⟨fun hmem => ?_, rfl⟩
    obtain ⟨entry, hentry, hname⟩ := List.mem_map.mp hmem
    have hne := hnone entry hentry
    simp [hname] at hne

theorem spells_word {c : Char} (hc : Text.isLetter c = true) (rest : List Char) :
    Spells (.ofWord (String.ofList (c :: rest.takeWhile isNameChar)))
      (.str (String.ofList (c :: rest.takeWhile isNameChar))) (c :: rest.takeWhile isNameChar) := by
  rcases ofWord_cases (String.ofList (c :: rest.takeWhile isNameChar)) with hkey | ⟨hnot, hkind⟩
  · exact .keyword hkey
  · rw [hkind]
    exact .identifier hc (fun d hd => List.mem_takeWhile_imp hd) hnot

theorem mem_symbols_of_twoCharOperator {c d : Char} {kind : TokenKind}
    (h : twoCharOperator? c d = some kind) : ([c, d], kind) ∈ symbols := by
  unfold twoCharOperator? at h
  split at h <;> first | (cases h; decide) | simp at h

theorem mem_symbols_of_operator {c : Char} {kind : TokenKind} (h : operator? c = some kind) :
    ([c], kind) ∈ symbols := by
  unfold operator? at h
  split at h <;> first | (cases h; decide) | simp at h

theorem string_ok {c : Char} {rest : List Char} {p : Position} {t : Token} {n : Nat}
    (h : string c rest p = .ok (t, n)) :
    ∃ body after, rest = body ++ c :: after ∧ c ∉ body ∧ n = body.length + 1 ∧
      t = .at .string (.str (String.ofList body)) p := by
  simp only [string] at h
  split at h
  next hlt =>
    have hrest := List.takeWhile_append_dropWhile (p := (· != c)) (l := rest)
    have hne : rest.dropWhile (· != c) ≠ [] := by
      intro hnil
      rw [hnil, List.append_nil] at hrest
      rw [hrest] at hlt
      exact Nat.lt_irrefl _ hlt
    have hhead := List.head_dropWhile_not (· != c) hne
    cases hdrop : rest.dropWhile (· != c) with
    | nil => exact absurd hdrop hne
    | cons d after =>
      simp only [hdrop, List.head_cons] at hhead
      obtain rfl : d = c := by simpa using hhead
      rw [hdrop] at hrest
      cases h
      refine ⟨_, after, hrest.symm, fun hmem => ?_, rfl, rfl⟩
      have hquote := List.mem_takeWhile_imp hmem
      simp at hquote
  next => simp at h

theorem operator_ok {c : Char} {rest : List Char} {p : Position} {t : Token} {n : Nat}
    (h : operator c rest p = .ok (t, n)) :
    ∃ tail after kind, rest = tail ++ after ∧ tail.length = n ∧ (c :: tail, kind) ∈ symbols ∧
      t = .at kind (.str (String.ofList (c :: tail))) p := by
  simp only [operator] at h
  split at h
  next _ _ kind htwo =>
    cases rest with
    | nil => simp at htwo
    | cons d after =>
      cases h
      exact ⟨[d], after, kind, rfl, rfl, mem_symbols_of_twoCharOperator (by simpa using htwo), rfl⟩
  next _ _ kind _ hone =>
    cases h
    exact ⟨[], rest, kind, rfl, rfl, mem_symbols_of_operator hone, rfl⟩
  next => simp at h

theorem lexeme_ok {c : Char} {rest : List Char} {p : Position} {t : Token} {n : Nat}
    (h : lexeme c rest p = .ok (t, n)) :
    ∃ tail after kind value, rest = tail ++ after ∧ tail.length = n ∧ t = .at kind value p ∧
      Spells kind value (c :: tail) := by
  unfold lexeme at h
  split at h
  next hletter =>
    cases h
    exact ⟨_, _, _, _, List.takeWhile_append_dropWhile.symm, rfl, rfl, spells_word hletter rest⟩
  next =>
    split at h
    next hdigit =>
      simp only [number] at h
      split at h
      next v hread =>
        cases h
        exact ⟨_, _, _, _, List.takeWhile_append_dropWhile.symm, rfl, rfl,
          .number hdigit (fun d hd => List.mem_takeWhile_imp hd) hread⟩
      next => simp at h
    next =>
      split at h
      next hquote =>
        obtain ⟨body, after, rfl, hbody, rfl, rfl⟩ := string_ok h
        exact ⟨body ++ [c], after, _, _, by simp, by simp, rfl, .string hquote hbody⟩
      next =>
        obtain ⟨tail, after, kind, hrest, hlength, hmem, rfl⟩ := operator_ok h
        exact ⟨tail, after, kind, _, hrest, hlength, rfl, .symbol hmem⟩

/-! ### A lexeme in front of a blank is cut off whole -/

/-- No keyword stands twice in its table, and each is written like a name. -/
theorem keywords_spelled : ∀ entry ∈ TokenKind.keywords, TokenKind.ofWord entry.1 = entry.2 ∧
    entry.1.toList.head?.all Text.isLetter = true ∧ entry.1.toList ≠ [] ∧
      entry.1.toList.tail.all isNameChar = true := by
  decide +kernel

theorem ofWord_of_mem {name : String} {kind : TokenKind} (h : (name, kind) ∈ TokenKind.keywords) :
    TokenKind.ofWord name = kind :=
  (keywords_spelled _ h).1

theorem ofWord_of_notMem {name : String} (h : name ∉ TokenKind.keywords.map Prod.fst) :
    TokenKind.ofWord name = .identifier := by
  rcases ofWord_cases name with hmem | ⟨-, hkind⟩
  · exact absurd (List.mem_map.mpr ⟨_, hmem, rfl⟩) h
  · exact hkind

theorem keyword_chars {text : List Char} {kind : TokenKind}
    (h : (String.ofList text, kind) ∈ TokenKind.keywords) :
    ∃ c more, text = c :: more ∧ Text.isLetter c = true ∧ ∀ d ∈ more, isNameChar d = true := by
  obtain ⟨-, hhead, hne, htail⟩ := keywords_spelled _ h
  cases text with
  | nil => simp at hne
  | cons c more => exact ⟨c, more, rfl, by simpa using hhead, by simpa using htail⟩

theorem takeWhile_before {p : Char → Bool} {text rest : List Char} {b : Char}
    (htext : ∀ d ∈ text, p d = true) (hb : p b = false) :
    (text ++ b :: rest).takeWhile p = text := by
  rw [List.takeWhile_append_of_pos htext, List.takeWhile_cons_of_neg (by simp [hb]),
    List.append_nil]

theorem isNameChar_of_isBlank {b : Char} (hb : Text.isBlank b = true) : isNameChar b = false := by
  have hne := Text.ne_of_isBlank (c := '_') hb (by decide)
  simp [isNameChar, Text.isWordChar_of_isBlank hb, hne]

theorem isNumberChar_of_isBlank {b : Char} (hb : Text.isBlank b = true) :
    isNumberChar b = false := by
  have hne := Text.ne_of_isBlank (c := '.') hb (by decide)
  simp [isNumberChar, Text.isDigit_of_isBlank hb, hne]

theorem lexeme_word {c b : Char} {more after : List Char} (p : Position)
    (hc : Text.isLetter c = true) (hmore : ∀ d ∈ more, isNameChar d = true)
    (hb : Text.isBlank b = true) :
    lexeme c (more ++ b :: after) p
      = .ok (.at (.ofWord (String.ofList (c :: more))) (.str (String.ofList (c :: more))) p,
          more.length) := by
  rw [lexeme, if_pos hc, word, takeWhile_before hmore (isNameChar_of_isBlank hb)]

theorem lexeme_number {c b : Char} {more after : List Char} {v : Value} (p : Position)
    (hc : Text.isDigit c = true) (hmore : ∀ d ∈ more, isNumberChar d = true)
    (hread : readNumber (c :: more) = .ok v) (hb : Text.isBlank b = true) :
    lexeme c (more ++ b :: after) p = .ok (.at .number v p, more.length) := by
  have hletter : ¬ Text.isLetter c = true := by simp [Text.isLetter_of_isDigit hc]
  rw [lexeme, if_neg hletter, if_pos hc, number,
    takeWhile_before hmore (isNumberChar_of_isBlank hb)]
  simp only [hread]

theorem lexeme_string {quote : Char} {body after : List Char} (p : Position)
    (hquote : isQuote quote = true) (hbody : quote ∉ body) :
    lexeme quote (body ++ quote :: after) p
      = .ok (.at .string (.str (String.ofList body)) p, body.length + 1) := by
  have hclass : Text.isLetter quote = false ∧ Text.isDigit quote = false := by
    have hcases : quote = '\x22' ∨ quote = '\x27' := by simpa [isQuote] using hquote
    rcases hcases with rfl | rfl <;> decide +kernel
  have htake : (body ++ quote :: after).takeWhile (· != quote) = body := by
    refine takeWhile_before (fun d hd => ?_) (by simp)
    have hne : d ≠ quote := fun heq => hbody (heq ▸ hd)
    simpa using hne
  rw [lexeme, if_neg (by simp [hclass.1]), if_neg (by simp [hclass.2]), if_pos hquote,
    string, htake]
  simp

/-- A symbol starts like no other lexeme and holds no blank. -/
theorem symbols_spelled : (symbols.all fun entry => entry.1.all (!Text.isBlank ·) &&
    entry.1.head?.all fun d => !Text.isLetter d && !Text.isDigit d && !isQuote d &&
      (d != '/' || entry.1.tail.isEmpty)) = true := by
  decide +kernel

theorem symbols_class {c : Char} {tail : List Char} {kind : TokenKind}
    (h : (c :: tail, kind) ∈ symbols) :
    Text.isLetter c = false ∧ Text.isDigit c = false ∧ isQuote c = false ∧
      Text.isBlank c = false ∧ (c = '/' → tail = []) := by
  have hspelled := List.all_eq_true.mp symbols_spelled _ h
  simp only [List.all_cons, List.head?_cons, Option.all_some, List.tail_cons, Bool.and_eq_true,
    Bool.or_eq_true, Bool.not_eq_true', bne_iff_ne, List.isEmpty_iff] at hspelled
  obtain ⟨⟨hblank, -⟩, ⟨⟨hletter, hdigit⟩, hquote⟩, hslash⟩ := hspelled
  exact ⟨hletter, hdigit, hquote, hblank, fun hc => hslash.resolve_left (not_not.mpr hc)⟩

/-- No operator of two characters ends in a blank, so a blank ends an operator. -/
theorem twoCharOperator_blank (c : Char) {b : Char} (hb : Text.isBlank b = true) :
    twoCharOperator? c b = none := by
  cases hfind : twoCharOperator? c b with
  | none => rfl
  | some kind =>
    have hspelled := List.all_eq_true.mp symbols_spelled _ (mem_symbols_of_twoCharOperator hfind)
    simp [hb] at hspelled

/-- The operator that a text of one or two characters is. -/
def symbolOf? : List Char → Option TokenKind
  | [c] => operator? c
  | [c, d] => twoCharOperator? c d
  | _ => none

theorem symbolOf_of_mem_symbols {text : List Char} {kind : TokenKind} (h : (text, kind) ∈ symbols) :
    symbolOf? text = some kind := by
  have hall : ∀ entry ∈ symbols, symbolOf? entry.1 = some entry.2 := by decide
  exact hall _ h

theorem lexeme_symbol {c b : Char} {tail after : List Char} {kind : TokenKind} (p : Position)
    (h : (c :: tail, kind) ∈ symbols) (hb : Text.isBlank b = true) :
    lexeme c (tail ++ b :: after) p
      = .ok (.at kind (.str (String.ofList (c :: tail))) p, tail.length) := by
  obtain ⟨hletter, hdigit, hquote, -⟩ := symbols_class h
  rw [lexeme, if_neg (by simp [hletter]), if_neg (by simp [hdigit]), if_neg (by simp [hquote])]
  have hsymbol := symbolOf_of_mem_symbols h
  cases tail with
  | nil =>
    have hone : operator? c = some kind := hsymbol
    simp [operator, hone, twoCharOperator_blank c hb]
  | cons d more =>
    cases more with
    | nil =>
      have htwo : twoCharOperator? c d = some kind := hsymbol
      simp [operator, htwo]
    | cons e more => simp [symbolOf?] at hsymbol

/-- A lexeme in front of a blank is read as its token. -/
theorem lexeme_of_spells {kind : TokenKind} {value : Value} {c b : Char} {tail after : List Char}
    (p : Position) (h : Spells kind value (c :: tail)) (hb : Text.isBlank b = true) :
    lexeme c (tail ++ b :: after) p = .ok (.at kind value p, tail.length) := by
  generalize htext : c :: tail = text at h
  cases h with
  | identifier hc hmore hnot =>
    cases htext
    rw [lexeme_word p hc hmore hb, ofWord_of_notMem hnot]
  | keyword hmem =>
    subst htext
    obtain ⟨c', more, heq, hc, hmore⟩ := keyword_chars hmem
    cases heq
    rw [lexeme_word p hc hmore hb, ofWord_of_mem hmem]
  | number hc hmore hread =>
    cases htext
    exact lexeme_number p hc hmore hread hb
  | string hquote hbody =>
    cases htext
    rw [List.append_assoc, List.singleton_append, lexeme_string p hquote hbody, List.length_append,
      List.length_singleton]
  | symbol hmem =>
    subst htext
    exact lexeme_symbol p hmem hb

theorem Spells.head {kind : TokenKind} {value : Value} {c : Char} {tail : List Char}
    (h : Spells kind value (c :: tail)) : Text.isBlank c = false ∧ (c = '/' → tail = []) := by
  generalize htext : c :: tail = text at h
  obtain ⟨hnoLetter, hnoDigit, -⟩ := symbols_class (show (['/'], .slash) ∈ symbols by decide)
  have hletter : Text.isLetter c = true → Text.isBlank c = false ∧ (c = '/' → tail = []) := by
    intro hc
    refine ⟨?_, ?_⟩
    · by_contra hblank
      simp [Text.isLetter_of_isBlank (by simpa using hblank)] at hc
    · rintro rfl
      simp [hnoLetter] at hc
  cases h with
  | identifier hc hmore hnot =>
    cases htext
    exact hletter hc
  | keyword hmem =>
    subst htext
    obtain ⟨c', more, heq, hc, -⟩ := keyword_chars hmem
    cases heq
    exact hletter hc
  | number hc hmore hread =>
    cases htext
    refine ⟨?_, ?_⟩
    · by_contra hblank
      simp [Text.isDigit_of_isBlank (by simpa using hblank)] at hc
    · rintro rfl
      simp [hnoDigit] at hc
  | string hquote hbody =>
    cases htext
    have hcases : c = '\x22' ∨ c = '\x27' := by simpa [isQuote] using hquote
    rcases hcases with rfl | rfl <;> exact ⟨by decide, by simp⟩
  | symbol hmem =>
    subst htext
    exact ⟨(symbols_class hmem).2.2.2.1, (symbols_class hmem).2.2.2.2⟩

end Lexer

end Luuqad

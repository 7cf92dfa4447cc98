import Luuqad.Proofs.Lexing.Printing

/-!
# Rows of digits that are numbers

A number of a text is a row of digits and points. The row may hold digits that have no value, such
as raised ones, more than one point, and more digits than a whole number may have; then it cannot be
converted. `Lexer.readNumber_ok_iff` says exactly which rows can be: those of `Number.Convertible`.
-/

namespace Luuqad

namespace Text

/-- Whether a character is a decimal digit of some script. -/
def isDecimal (c : Char) : Bool := (decimalValue? c).isSome

/-- One of the ranges holds everything from `low` to `high`. -/
def covers (ranges : List (Nat × Nat)) (low high : Nat) : Bool :=
  (ranges.dropWhile fun s => s.1.blt low && s.2.blt low).head?.any
    fun s => s.1.ble low && high.ble s.2

theorem inRanges_of_covers {ranges : List (Nat × Nat)} {low high n : Nat}
    (h : covers ranges low high = true) (hlow : low ≤ n) (hhigh : n ≤ high) :
    inRanges ranges n = true := by
  rw [← inRanges_dropWhile ranges hlow]
  unfold covers at h
  cases hdrop : ranges.dropWhile fun s => s.1.blt low && s.2.blt low with
  | nil =>
    rw [hdrop] at h
    cases h
  | cons s later =>
    rw [hdrop] at h
    simp only [List.head?_cons, Option.any_some, Bool.and_eq_true, Nat.ble_eq] at h
    rw [inRanges, if_neg (by omega), if_pos (by omega)]

theorem isDigit_of_decimalValue? {c : Char} {n : Nat} (h : decimalValue? c = some n) :
    isDigit c = true := by
  obtain ⟨start, hfind, -⟩ := Option.map_eq_some_iff.mp h
  have hmem := List.mem_of_find?_eq_some hfind
  have hrange := List.find?_some hfind
  simp only [Bool.and_eq_true, decide_eq_true_eq] at hrange
  have hrows : (decimalZeros.all fun start => covers digitRanges start (start + 9)) = true := by
    decide +kernel
  exact inRanges_of_covers (List.all_eq_true.mp hrows start hmem) hrange.1 (by omega)

theorem decimalValue?_lt {c : Char} {n : Nat} (h : decimalValue? c = some n) : n < 10 := by
  obtain ⟨start, hfind, rfl⟩ := Option.map_eq_some_iff.mp h
  have hrange := List.find?_some hfind
  simp only [Bool.and_eq_true, decide_eq_true_eq] at hrange
  omega

theorem isDigit_plain {c : Char} (hc : c.toNat < 128) (h : isDigit c = true) :
    c.isDigit = true := by
  have hrange : 48 ≤ c.toNat ∧ c.toNat ≤ 57 := by
    unfold isDigit digitRanges inRanges at h
    split at h
    · cases h
    · split at h
      · omega
      · rw [inRanges, if_pos (by omega)] at h
        cases h
  simp only [Char.isDigit, Bool.and_eq_true, decide_eq_true_eq]
  exact hrange

theorem isDecimal_of_isDigit {c : Char} (h : c.isDigit = true) : isDecimal c = true := by
  obtain ⟨hlow, hhigh⟩ := Number.isDigit_range h
  have hfirst : (48 ≤ c.toNat && c.toNat < 48 + 10) = true := by simp; omega
  simp only [isDecimal, decimalValue?, decimalZeros, List.find?_cons, hfirst]
  rfl

end Text

namespace Number

/-! ### Characters of a number -/

theorem isBlank_of_isPlainSpace {c : Char} (h : isPlainSpace c = true) : Text.isBlank c = true := by
  simp only [isPlainSpace, Bool.or_eq_true, beq_iff_eq, Bool.and_eq_true, decide_eq_true_eq] at h
  rcases h with rfl | ⟨hlow, hhigh⟩
  · decide
  · simp only [Text.isBlank, Text.blankRanges, Text.inRanges]
    rw [if_neg (by omega), if_pos hhigh]

/-- What a digit or a point of a number becomes: a plain digit, a point, or a character of another
script. -/
def Numeral (d : Char) : Prop := d.isDigit = true ∨ d = '.' ∨ 128 ≤ d.toNat ∧ Text.isBlank d = false

theorem Numeral.ne {d e : Char} (h : Numeral d) (hplain : e.toNat < 128)
    (hdigit : e.isDigit = false) (hpoint : e ≠ '.') : d ≠ e := by
  rintro rfl
  rcases h with h | h | h
  · simp [h] at hdigit
  · exact hpoint h
  · omega

theorem Numeral.isPlainSpace {d : Char} (h : Numeral d) : isPlainSpace d = false := by
  rcases h with h | rfl | ⟨-, h⟩
  · exact isPlainSpace_of_isDigit h
  · decide
  · cases hspace : Number.isPlainSpace d with
    | false => rfl
    | true =>
      rw [isBlank_of_isPlainSpace hspace] at h
      cases h

theorem plainChar_of_isDecimal {c : Char} (h : Text.isDecimal c = true) :
    (plainChar c).isDigit = true := by
  obtain ⟨n, hn⟩ := Option.isSome_iff_exists.mp h
  have hrow : ∀ n < 10, (Char.ofNat (48 + n)).isDigit = true := by decide
  unfold plainChar
  split
  · exact Text.isDigit_plain ‹_› (Text.isDigit_of_decimalValue? hn)
  · rw [hn]
    exact hrow n (Text.decimalValue?_lt hn)

theorem plainChar_of_not_isDecimal {c : Char} (hc : Text.isDigit c = true)
    (h : Text.isDecimal c = false) :
    plainChar c = c ∧ 128 ≤ c.toNat ∧ Text.isBlank c = false := by
  have hlarge : 128 ≤ c.toNat := by
    by_contra hsmall
    rw [Text.isDecimal_of_isDigit (Text.isDigit_plain (by omega) hc)] at h
    cases h
  have hblank : Text.isBlank c = false := by
    cases hblank : Text.isBlank c with
    | false => rfl
    | true =>
      rw [Text.isDigit_of_isBlank hblank] at hc
      cases hc
  have hvalue : Text.decimalValue? c = none :=
    Option.isSome_eq_false_iff.mp h |> Option.isNone_iff_eq_none.mp
  refine ⟨?_, hlarge, hblank⟩
  rw [plainChar, if_neg (by omega), hvalue, hblank]
  rfl

/-! ### Rows of digits and points -/

/-- A row of digits and points that writes a number: every digit has a value, and there is one
point, or none and not too many digits. -/
def Convertible (cs : List Char) : Prop :=
  (∀ c ∈ cs, c = '.' ∨ Text.isDecimal c = true) ∧
    (cs.count '.' = 1 ∨ '.' ∉ cs ∧ cs.length ≤ digitLimit)

instance (cs : List Char) : Decidable (Convertible cs) :=
  decidable_of_iff ((cs.all fun c => c == '.' || Text.isDecimal c) = true ∧
      (cs.count '.' = 1 ∨ cs.contains '.' = false ∧ cs.length ≤ digitLimit)) (by simp [Convertible])

section

variable {ds : List Char}

theorem splitSign_numerals (h : ∀ d ∈ ds, Numeral d) : splitSign ds = (false, ds) := by
  unfold splitSign
  split
  next rest => exact absurd rfl ((h '-' List.mem_cons_self).ne (by decide) (by decide) (by decide))
  next rest => exact absurd rfl ((h '+' List.mem_cons_self).ne (by decide) (by decide) (by decide))
  next => rfl

theorem dropWhile_numerals (h : ∀ d ∈ ds, Numeral d) : ds.dropWhile isPlainSpace = ds := by
  cases ds with
  | nil => rfl
  | cons d more => rw [List.dropWhile_cons_of_neg (by simp [(h d List.mem_cons_self).isPlainSpace])]

theorem trimSpaces_numerals (h : ∀ d ∈ ds, Numeral d) : trimSpaces ds = ds := by
  have hreverse : ∀ d ∈ ds.reverse, Numeral d := fun d hd => h d (List.mem_reverse.mp hd)
  rw [trimSpaces, dropWhile_numerals h, dropWhile_numerals hreverse, List.reverse_reverse]

theorem underscoresFit_numerals (h : ∀ d ∈ ds, Numeral d) (before : Char) (hbefore : before ≠ '_') :
    underscoresFit before ds = true := by
  induction ds generalizing before with
  | nil => simpa [underscoresFit] using hbefore
  | cons d more ih =>
    have hd : d ≠ '_' := (h d List.mem_cons_self).ne (by decide) (by decide) (by decide)
    rw [underscoresFit, ih (fun e he => h e (List.mem_cons_of_mem _ he)) d hd]
    simp [hd, hbefore]

theorem filter_numerals (h : ∀ d ∈ ds, Numeral d) : ds.filter (· != '_') = ds := by
  refine List.filter_eq_self.mpr fun d hd => ?_
  simpa using (h d hd).ne (e := '_') (by decide) (by decide) (by decide)

theorem word_ne_of_point (h : '.' ∈ ds) (word : String) (hword : '.' ∉ word.toList) :
    (String.ofList (ds.map Char.toLower) == word) = false := by
  refine beq_eq_false_iff_ne.mpr ?_
  rintro rfl
  rw [String.toList_ofList] at hword
  exact hword (List.mem_map.mpr ⟨'.', h, by decide⟩)

theorem readExponent?_numerals (h : ∀ d ∈ ds, Numeral d) :
    (readExponent? ds).isSome = true ↔ ds = [] := by
  cases ds with
  | nil => simp [readExponent?]
  | cons d more =>
    have hlower : d ≠ 'e' := (h d List.mem_cons_self).ne (by decide) (by decide) (by decide)
    have hupper : d ≠ 'E' := (h d List.mem_cons_self).ne (by decide) (by decide) (by decide)
    simp [readExponent?, hlower, hupper]

end

/-! ### Whole numbers -/

/-- What the digits of a number consist of. -/
def isDigitChar (c : Char) : Bool := c.isDigit || c == '_'

theorem readInt_ok {text : String} {i : Int} (h : readInt text = .ok i) {negative : Bool}
    {body : List Char}
    (hbody : splitSign ((text.toList.map plainChar).dropWhile isPlainSpace) = (negative, body)) :
    (∃ c ∈ body.head?, isDigitChar c = true) ∧ ∀ c ∈ body, isDigitChar c = true ∨
    isPlainSpace c = true := by
  unfold readInt at h
  rw [hbody] at h
  dsimp only at h
  change (if (body.takeWhile isDigitChar).isEmpty || _ then _ else _) = _ at h
  split at h
  · cases h
  · rename_i hrun
    simp only [Bool.or_eq_true, not_or, Bool.not_eq_true] at hrun
    split at h
    · cases h
    · split at h
      · rename_i hrest
        constructor
        · cases body with
          | nil => simp at hrun
          | cons c body =>
            refine ⟨c, rfl, ?_⟩
            by_contra hc
            simp [hc] at hrun
        · intro c hc
          rw [← List.takeWhile_append_dropWhile (p := isDigitChar) (l := body)] at hc
          rcases List.mem_append.mp hc with hc | hc
          · exact .inl (List.mem_takeWhile_imp hc)
          · exact .inr (List.all_eq_true.mp hrest c hc)
      · cases h

section

variable {text : String} {ds : List Char}

theorem readInt_numerals (hplain : text.toList.map plainChar = ds) (h : ∀ d ∈ ds, Numeral d)
    (hne : ds ≠ []) :
    (∃ i, readInt text = .ok i) ↔ Digits ds ∧ ds.length ≤ digitLimit := by
  constructor
  · rintro ⟨i, hi⟩
    have hbody : splitSign ((text.toList.map plainChar).dropWhile isPlainSpace) = (false, ds) := by
      rw [hplain, dropWhile_numerals h, splitSign_numerals h]
    have hdigits : Digits ds := by
      intro d hd
      have hunder : d ≠ '_' := (h d hd).ne (by decide) (by decide) (by decide)
      rcases (readInt_ok hi hbody).2 d hd with hchar | hspace
      · simpa [isDigitChar, hunder] using hchar
      · rw [(h d hd).isPlainSpace] at hspace
        cases hspace
    refine ⟨hdigits, ?_⟩
    rw [readInt_of_plain hplain hdigits hne] at hi
    split at hi
    · cases hi
    · omega
  · rintro ⟨hdigits, hlimit⟩
    exact ⟨valueOf ds, by rw [readInt_of_plain hplain hdigits hne, if_neg (by omega)]⟩

/-! ### Numbers with a point -/

theorem dropWhile_digits {whole more : List Char} (h : Digits whole) :
    (whole ++ '.' :: more).dropWhile Char.isDigit = '.' :: more := by
  rw [List.dropWhile_append_of_pos h, List.dropWhile_cons_of_neg (by decide)]

theorem readUnsigned?_point {whole more : List Char} (hwhole : Digits whole) (hne : whole ≠ [])
    (hmore : ∀ d ∈ more, Numeral d) (negative : Bool) :
    (readUnsigned? negative (whole ++ '.' :: more)).isSome = true ↔ Digits more := by
  have hpoint : '.' ∈ whole ++ '.' :: more := by simp
  have htake : (whole ++ '.' :: more).takeWhile Char.isDigit = whole := by
    rw [List.takeWhile_append_of_pos hwhole, List.takeWhile_cons_of_neg (by decide),
      List.append_nil]
  have hrest : ∀ d ∈ more.dropWhile Char.isDigit, Numeral d :=
    fun d hd => hmore d ((List.dropWhile_suffix _).subset hd)
  simp only [readUnsigned?, word_ne_of_point hpoint "inf" (by decide),
    word_ne_of_point hpoint "infinity" (by decide), word_ne_of_point hpoint "nan" (by decide),
    htake, dropWhile_digits hwhole]
  simp [hne, readExponent?_numerals hrest, List.dropWhile_eq_nil_iff, Digits]

/-- What stands in front of the first point must be digits. -/
theorem readUnsigned?_eq_none {whole more : List Char} {d : Char} (hwhole : Digits whole)
    (hdigit : d.isDigit = false) (hne : d ≠ '.') (hpoint : '.' ∈ more)
    (hrest : ∀ e ∈ d :: more, Numeral e) (negative : Bool) :
    readUnsigned? negative (whole ++ d :: more) = none := by
  have hmem : '.' ∈ whole ++ d :: more := by simp [hpoint]
  have hdrop : (whole ++ d :: more).dropWhile Char.isDigit = d :: more := by
    rw [List.dropWhile_append_of_pos hwhole, List.dropWhile_cons_of_neg (by simp [hdigit])]
  have hexponent : readExponent? (d :: more) = none := by
    have hnone := mt (readExponent?_numerals hrest).mp (List.cons_ne_nil d more)
    simpa using hnone
  simp only [readUnsigned?, word_ne_of_point hmem "inf" (by decide),
    word_ne_of_point hmem "infinity" (by decide), word_ne_of_point hmem "nan" (by decide),
    Bool.or_self, Bool.false_eq_true, if_false, hdrop]
  split
  next heq => exact absurd (List.cons.inj heq).1 hne
  next => simp only [hexponent, Option.map_none, ite_self]

theorem readFloat_numerals (hplain : text.toList.map plainChar = ds) (h : ∀ d ∈ ds, Numeral d) :
    (∃ x, readFloat text = .ok x) ↔ (readUnsigned? false ds).isSome = true := by
  simp only [readFloat, hplain, trimSpaces_numerals h, splitSign_numerals h, filter_numerals h,
    underscoresFit_numerals h 'x' (by decide)]
  cases readUnsigned? false ds <;> simp

end

/-! ### Texts that are no numbers -/

theorem readInt_error {text : String} {f : Failure} (h : readInt text = .error f) :
    f.category = .value := by
  unfold readInt at h
  dsimp only at h
  split at h
  · cases h
    rfl
  · split at h
    · cases h
      rfl
    · split at h
      · cases h
      · cases h
        rfl

theorem readFloat_error {text : String} {f : Failure} (h : readFloat text = .error f) :
    f.category = .value := by
  unfold readFloat at h
  dsimp only at h
  split at h
  · cases h
    rfl
  · split at h
    · cases h
    · cases h
      rfl

end Number

namespace Lexer

open Number (plainChar Numeral Digits Convertible)

section

variable {c : Char}

theorem isDigit_plainChar (h : isNumberChar c = true) :
    (plainChar c).isDigit = Text.isDecimal c := by
  cases hdecimal : Text.isDecimal c with
  | true => exact Number.plainChar_of_isDecimal hdecimal
  | false =>
    simp only [isNumberChar, Bool.or_eq_true, beq_iff_eq] at h
    rcases h with hdigit | rfl
    · obtain ⟨hplain, hlarge, -⟩ := Number.plainChar_of_not_isDecimal hdigit hdecimal
      rw [hplain]
      by_contra h
      have hrange := Number.isDigit_range (by simpa using h)
      omega
    · decide

theorem numeral_plainChar (h : isNumberChar c = true) : Numeral (plainChar c) := by
  cases hdecimal : Text.isDecimal c with
  | true => exact .inl (Number.plainChar_of_isDecimal hdecimal)
  | false =>
    simp only [isNumberChar, Bool.or_eq_true, beq_iff_eq] at h
    rcases h with hdigit | rfl
    · obtain ⟨hplain, hrest⟩ := Number.plainChar_of_not_isDecimal hdigit hdecimal
      rw [hplain]
      exact .inr (.inr hrest)
    · exact .inr (.inl (by decide))

theorem plainChar_ne_point (h : Text.isDigit c = true) : plainChar c ≠ '.' := by
  intro hpoint
  cases hdecimal : Text.isDecimal c with
  | true =>
    have hdigit := Number.plainChar_of_isDecimal hdecimal
    rw [hpoint] at hdigit
    cases hdigit
  | false =>
    rw [(Number.plainChar_of_not_isDecimal h hdecimal).1] at hpoint
    subst hpoint
    revert h
    decide

end

section

variable {cs whole more : List Char}

theorem digits_map_plainChar (h : ∀ c ∈ cs, isNumberChar c = true) :
    Digits (cs.map plainChar) ↔ ∀ c ∈ cs, Text.isDecimal c = true := by
  simp only [Digits, List.forall_mem_map]
  exact forall₂_congr fun c hc => by rw [isDigit_plainChar (h c hc)]

theorem convertible_point (hwhole : '.' ∉ whole) :
    Convertible (whole ++ '.' :: more) ↔
      (∀ c ∈ whole, Text.isDecimal c = true) ∧ ∀ c ∈ more, Text.isDecimal c = true := by
  have hpoint : Text.isDecimal '.' = false := by decide
  have hcount : (whole ++ '.' :: more).count '.' = more.count '.' + 1 := by
    rw [List.count_append, List.count_eq_zero_of_not_mem hwhole, List.count_cons_self, Nat.zero_add]
  constructor
  · rintro ⟨hchars, hone | ⟨hnone, -⟩⟩
    · have hmore : '.' ∉ more := List.count_eq_zero.mp (by omega)
      refine ⟨fun c hc => ?_, fun c hc => ?_⟩
      · exact (hchars c (by simp [hc])).resolve_left fun heq => hwhole (heq ▸ hc)
      · exact (hchars c (by simp [hc])).resolve_left fun heq => hmore (heq ▸ hc)
    · exact absurd (by simp) hnone
  · rintro ⟨hbefore, hbehind⟩
    have hmore : '.' ∉ more := by
      intro hmem
      rw [hbehind '.' hmem] at hpoint
      cases hpoint
    refine ⟨fun c hc => ?_, .inl (by rw [hcount, List.count_eq_zero_of_not_mem hmore])⟩
    rcases List.mem_append.mp hc with hc | hc
    · exact .inr (hbefore c hc)
    · rcases List.mem_cons.mp hc with rfl | hc
      · exact .inl rfl
      · exact .inr (hbehind c hc)

theorem convertible_of_not_mem (h : '.' ∉ cs) :
    Convertible cs ↔ (∀ c ∈ cs, Text.isDecimal c = true) ∧ cs.length ≤ Number.digitLimit := by
  have hcount : cs.count '.' = 0 := List.count_eq_zero_of_not_mem h
  constructor
  · rintro ⟨hchars, hone | ⟨-, hlimit⟩⟩
    · omega
    · exact ⟨fun c hc => (hchars c hc).resolve_left fun heq => h (heq ▸ hc), hlimit⟩
  · rintro ⟨hchars, hlimit⟩
    exact ⟨fun c hc => .inr (hchars c hc), .inr ⟨h, hlimit⟩⟩

theorem readFloat_point_iff (hchars : ∀ c ∈ whole ++ '.' :: more, isNumberChar c = true)
    (hwhole : '.' ∉ whole) (hne : whole ≠ []) :
    (∃ x, Number.readFloat (String.ofList (whole ++ '.' :: more)) = .ok x) ↔
    Convertible (whole ++ '.' :: more) := by
  have hplain : (String.ofList (whole ++ '.' :: more)).toList.map plainChar =
      whole.map plainChar ++ '.' :: more.map plainChar := by
    rw [String.toList_ofList, List.map_append, List.map_cons]
    rfl
  have hbefore : ∀ c ∈ whole, isNumberChar c = true := fun c hc => hchars c (by simp [hc])
  have hbehind : ∀ c ∈ more, isNumberChar c = true := fun c hc => hchars c (by simp [hc])
  have hnumerals : ∀ d ∈ whole.map plainChar ++ '.' :: more.map plainChar, Numeral d := by
    rw [← hplain, String.toList_ofList]
    exact List.forall_mem_map.mpr fun c hc => numeral_plainChar (hchars c hc)
  rw [Number.readFloat_numerals hplain hnumerals, convertible_point hwhole]
  by_cases hdecimal : ∀ c ∈ whole, Text.isDecimal c = true
  · rw [Number.readUnsigned?_point ((digits_map_plainChar hbefore).mpr hdecimal)
      (by simpa using hne) (fun d hd => hnumerals d (by simp [hd])), digits_map_plainChar hbehind]
    exact (and_iff_right hdecimal).symm
  · -- the first digit without a value stands in front of the point, where only digits may
    have hsome : (whole.find? (!Text.isDecimal ·)).isSome = true := by
      simpa [List.find?_isSome] using hdecimal
    obtain ⟨d, hfind⟩ := Option.isSome_iff_exists.mp hsome
    obtain ⟨hd, lead, rest, rfl, hlead⟩ := List.find?_eq_some_iff_append.mp hfind
    have hdchar : isNumberChar d = true := hbefore d (by simp)
    have hddigit : Text.isDigit d = true := by
      have hdpoint : d ≠ '.' := fun heq => hwhole (heq ▸ List.mem_append_cons_self)
      simpa [isNumberChar, hdpoint] using hdchar
    have hdigits : Digits (lead.map plainChar) := by
      refine (digits_map_plainChar fun c hc => hbefore c (by simp [hc])).mpr fun c hc => ?_
      simpa using hlead c hc
    have hnone :
        Number.readUnsigned? false ((lead ++ d :: rest).map plainChar ++ '.' ::
          more.map plainChar) = none := by
      rw [List.map_append, List.map_cons, List.append_assoc, List.cons_append]
      refine Number.readUnsigned?_eq_none hdigits (by simpa [isDigit_plainChar hdchar] using hd)
        (plainChar_ne_point hddigit) (by simp) (fun e he => hnumerals e ?_) false
      rw [List.map_append, List.map_cons, List.append_assoc]
      exact List.mem_append_right _ he
    rw [hnone]
    exact iff_of_false Bool.false_ne_true fun h => hdecimal h.1

/-- A row of digits and points is read as a number exactly if it is convertible. -/
theorem readNumber_ok_iff {c : Char} (hc : Text.isDigit c = true)
    (hmore : ∀ d ∈ more, isNumberChar d = true) :
    (∃ v, readNumber (c :: more) = .ok v) ↔ Convertible (c :: more) := by
  have hchars : ∀ d ∈ c :: more, isNumberChar d = true :=
    List.forall_mem_cons.mpr ⟨by rw [isNumberChar, hc, Bool.true_or], hmore⟩
  by_cases hpoint : '.' ∈ c :: more
  · have hread : (∃ v, readNumber (c :: more) = .ok v) ↔
        ∃ x, Number.readFloat (String.ofList (c :: more)) = .ok x := by
      rw [readNumber, if_pos (List.contains_iff_mem.mpr hpoint)]
      cases Number.readFloat (String.ofList (c :: more)) <;>
        simp [bind, Except.bind, pure, Except.pure]
    obtain ⟨whole, rest, heq, hwhole⟩ := List.eq_append_cons_of_mem hpoint
    have hne : whole ≠ [] := by
      rintro rfl
      rw [(List.cons.inj heq).1] at hc
      revert hc
      decide
    rw [hread]
    rw [heq] at hchars ⊢
    exact readFloat_point_iff hchars hwhole hne
  · have hread : (∃ v, readNumber (c :: more) = .ok v) ↔
        ∃ i, Number.readInt (String.ofList (c :: more)) = .ok i := by
      rw [readNumber, if_neg (by simpa using hpoint)]
      cases Number.readInt (String.ofList (c :: more)) <;>
        simp [bind, Except.bind, pure, Except.pure]
    have hnumerals : ∀ d ∈ (c :: more).map plainChar, Numeral d :=
      List.forall_mem_map.mpr fun d hd => numeral_plainChar (hchars d hd)
    rw [hread, Number.readInt_numerals (by rw [String.toList_ofList]) hnumerals (by simp),
      digits_map_plainChar hchars, List.length_map, convertible_of_not_mem hpoint]

end

theorem readNumber_error {cs : List Char} {f : Failure} (h : readNumber cs = .error f) :
    f.category = .value := by
  unfold readNumber at h
  split at h
  · cases hread : Number.readFloat (String.ofList cs) with
    | ok x =>
      rw [hread] at h
      cases h
    | error e =>
      rw [hread] at h
      cases h
      exact Number.readFloat_error hread
  · cases hread : Number.readInt (String.ofList cs) with
    | ok i =>
      rw [hread] at h
      cases h
    | error e =>
      rw [hread] at h
      cases h
      exact Number.readInt_error hread

end Lexer

end Luuqad

import Luuqad.Proofs.Lexing.Numbers
import Luuqad.Proofs.Shell.Calculation

/-!
# Formulas that are read as numbers

The shell tries to read the value of a declaration as a number before it looks for a variable or a
formula. Of all formulas, only a number and the negative of one are read in this way, and as what
they are (`number?_text`).
-/

namespace Luuqad.Shell

open Number (plainChar isPlainSpace splitSign readInt isDigitChar readInt_ok)

/-! ## Characters -/

theorem plainChar_of_isLetter {c : Char} (h : Text.isLetter c = true) : plainChar c = c := by
  unfold plainChar
  split
  · rfl
  · cases hvalue : Text.decimalValue? c with
    | some n =>
      rw [Text.isLetter_of_isDigit (Text.isDigit_of_decimalValue? hvalue)] at h
      cases h
    | none => simp [Text.isBlank_eq_false Text.isLetter_of_isBlank h]

theorem isDigitChar_of_isBlank {c : Char} (h : Text.isBlank c = true) :
    isDigitChar (plainChar c) = false := by
  unfold plainChar
  split
  · have hunder : c ≠ '_' := Text.ne_of_isBlank h (by decide)
    simp [isDigitChar, isPlainDigit_of_isBlank h, hunder]
  · cases hvalue : Text.decimalValue? c with
    | some n =>
      have hclass := Text.isDigit_of_decimalValue? hvalue
      rw [Text.isDigit_of_isBlank h] at hclass
      cases hclass
    | none => rfl

/-- A character that can start a number behind blanks, with a sign or without, is read as it is. -/
structure IsPlainStart (c : Char) : Prop where
  plain : plainChar c = c
  notSpace : isPlainSpace c = false

theorem IsPlainStart.of_isDigit {c : Char} (h : c.isDigit = true) : IsPlainStart c :=
  ⟨Number.plainChar_of_isDigit h, Number.isPlainSpace_of_isDigit h⟩

theorem IsPlainStart.of_isLetter {c : Char} (h : Text.isLetter c = true) : IsPlainStart c := by
  refine ⟨plainChar_of_isLetter h, ?_⟩
  by_contra hspace
  rw [Text.isLetter_of_isBlank (Number.isBlank_of_isPlainSpace (by simpa using hspace))] at h
  cases h

/-! ## Numbers -/

variable {c : Char} {more : List Char} {i : Int}

theorem dropWhile_start (hc : IsPlainStart c) :
    ((String.ofList (c :: more)).toList.map plainChar).dropWhile isPlainSpace =
      c :: more.map plainChar := by
  rw [String.toList_ofList, List.map_cons, hc.plain,
    List.dropWhile_cons_of_neg (by simp [hc.notSpace])]

theorem readInt_minus_ok (h : readInt (String.ofList ('-' :: more)) = .ok i) :
    ∃ c ∈ more.head?, isDigitChar (plainChar c) = true := by
  have hbody :
      splitSign (((String.ofList ('-' :: more)).toList.map plainChar).dropWhile isPlainSpace) =
      (true, more.map plainChar) := by
    rw [dropWhile_start ⟨by decide, by decide⟩]
    rfl
  obtain ⟨d, hd, hdigit⟩ := (readInt_ok h hbody).1
  rw [List.head?_map] at hd
  obtain ⟨c, hc, rfl⟩ := Option.map_eq_some_iff.mp hd
  exact ⟨c, hc, hdigit⟩

theorem readInt_start_ok (hc : IsPlainStart c) (hminus : c ≠ '-') (hplus : c ≠ '+')
    (h : readInt (String.ofList (c :: more)) = .ok i) : isDigitChar c = true := by
  have hbody :
      splitSign (((String.ofList (c :: more)).toList.map plainChar).dropWhile isPlainSpace) =
      (false, c :: more.map plainChar) := by
    rw [dropWhile_start hc, splitSign]
    · exact fun _ heq => hminus (List.cons.inj heq).1
    · exact fun _ heq => hplus (List.cons.inj heq).1
  obtain ⟨d, hd, hdigit⟩ := (readInt_ok h hbody).1
  cases hd
  exact hdigit

theorem readInt_more_ok (hc : IsPlainStart c) (h : readInt (String.ofList (c :: more)) = .ok i)
    {d : Char} (hd : d ∈ more) :
    isDigitChar (plainChar d) = true ∨ isPlainSpace (plainChar d) = true := by
  have hmem : plainChar d ∈ (splitSign (c :: more.map plainChar)).2 := by
    unfold splitSign
    split
    · rename_i heq
      exact (List.cons.inj heq).2 ▸ List.mem_map_of_mem hd
    · rename_i heq
      exact (List.cons.inj heq).2 ▸ List.mem_map_of_mem hd
    · exact List.mem_cons_of_mem _ (List.mem_map_of_mem hd)
  have hbody :
      splitSign (((String.ofList (c :: more)).toList.map plainChar).dropWhile isPlainSpace) =
      ((splitSign (c :: more.map plainChar)).1, (splitSign (c :: more.map plainChar)).2) := by
        rw [dropWhile_start hc]
  exact (readInt_ok h hbody).2 _ hmem

theorem readInt_minus {ds : List Char} (h : Number.Digits ds) (hne : ds ≠ [])
    (hlimit : ds.length ≤ Number.digitLimit) :
    readInt (String.ofList ('-' :: ds)) = .ok (-(Number.valueOf ds : Int)) := by
  have hdigits := Number.readInt_digits h hne hlimit
  obtain ⟨d, more, rfl⟩ := List.exists_cons_of_ne_nil hne
  have hd : d.isDigit = true := h d List.mem_cons_self
  have hsign : splitSign (d :: more.map plainChar) = (false, d :: more.map plainChar) := by
    rw [splitSign]
    · exact fun _ heq => Number.ne_of_isDigit hd (by decide) (List.cons.inj heq).1
    · exact fun _ heq => Number.ne_of_isDigit hd (by decide) (List.cons.inj heq).1
  have hplain : (d :: more).map plainChar = d :: more.map plainChar := by
    rw [List.map_cons, Number.plainChar_of_isDigit hd]
  have hminus : splitSign ('-' :: d :: more.map plainChar) = (true, d :: more.map plainChar) := rfl
  unfold readInt at hdigits ⊢
  rw [dropWhile_start (.of_isDigit hd), hsign] at hdigits
  rw [dropWhile_start ⟨by decide, by decide⟩, hplain, hminus]
  dsimp only at hdigits ⊢
  split at hdigits
  · cases hdigits
  · rename_i hrun
    split at hdigits
    · cases hdigits
    · rename_i hlong
      split at hdigits
      · rename_i hrest
        rw [if_neg hrun, if_neg hlong, if_pos hrest, ← Except.ok.inj hdigits]
        rfl
      · cases hdigits

/-! ## Formulas -/

theorem isDigitChar_of_isLetter {c : Char} (h : Text.isLetter c = true) :
    isDigitChar c = false := by
  by_contra hdigit
  simp only [isDigitChar, Bool.not_eq_false, Bool.or_eq_true, beq_iff_eq] at hdigit
  rcases hdigit with hdigit | rfl
  · rw [Text.isLetter_of_isDigit (Lexer.isDigit_text hdigit)] at h
    cases h
  · exact absurd h (by decide)

variable {a : Formula}

theorem head_text {P : Char → Prop} (hgap : a.lead ≠ .none → ∀ c, IsGap c → P c) (hminus : P '-')
    (hopening : P '(')
    (hdigit : ∀ c : Char, c.isDigit = true → P c)
    (hletter : ∀ c : Char, Text.isLetter c = true → P c) {c : Char} (h : c ∈ a.text.head?) :
    P c := by
  rw [← List.append_nil a.text] at h
  refine Arithmetic.head_textWith hgap hminus hopening hdigit (fun x _ => x.isName.ne_nil)
    (fun x _ d hd => ?_) h
  obtain ⟨e, more, hchars, he, -⟩ := x.isName
  rw [hchars] at hd
  cases hd
  exact hletter _ he

theorem notMem_text {d : Char} (hname : Lexer.isNameChar d = false)
    (hletter : Text.isLetter d = false) (hgap : ¬ IsGap d)
    (hsymbols : d ∉ ['-', '*', '/', '+', '(', ')']) (hdigit : d.isDigit = false) :
    d ∉ a.text := by
  simp only [List.mem_cons, List.not_mem_nil, or_false, not_or] at hsymbols
  obtain ⟨hminus, hstar, hslash, hplus, hopening, hclosing⟩ := hsymbols
  intro hd
  refine Arithmetic.forall_textWith (P := fun c => d ≠ c)
    (fun c hc heq => hgap (heq ▸ hc)) hminus hstar hslash
    (.inr ⟨hplus, hopening, hclosing⟩) (fun c hc => (Number.ne_of_isDigit hc hdigit).symm)
    (fun x _ c hc => ?_) d hd rfl
  rintro rfl
  exact x.isName.notMem hname hletter hc

theorem Identifier.readInt_chars (x : Identifier) {i : Int} :
    readInt (String.ofList x.chars) ≠ .ok i := by
  obtain ⟨c, more, hchars, hc, -⟩ := x.isName
  have hne {d : Char} (hd : Text.isLetter d = false) : c ≠ d := by
    rintro rfl
    rw [hc] at hd
    cases hd
  rw [hchars]
  intro h
  have hdigit := readInt_start_ok (.of_isLetter hc) (hne (by decide)) (hne (by decide)) h
  rw [isDigitChar_of_isLetter hc] at hdigit
  cases hdigit

theorem readInt_negative_text {i : Int} (hformed : 2 ≤ a.tightness)
    (h : readInt (String.ofList ('-' :: a.text)) = .ok i) :
    ∃ k, a = .number .none k := by
  obtain ⟨c, hc, hdigit⟩ := readInt_minus_ok h
  have hgap {g : Gap} {rest : List Char} (hhead : c ∈ (g.chars ++ rest).head?) :
      g = .none ∧ c ∈ rest.head? := by
    cases hg : g.chars with
    | nil =>
      rw [hg] at hhead
      exact ⟨Gap.eq_none hg, hhead⟩
    | cons d more =>
      rw [hg] at hhead
      cases hhead
      rw [isDigitChar_of_isBlank (g.blank c (by simp [hg]))] at hdigit
      cases hdigit
  cases a with
  | number gap k =>
    obtain ⟨rfl, -⟩ := hgap hc
    exact ⟨k, rfl⟩
  | leaf gap x =>
    obtain ⟨-, hc⟩ := hgap hc
    obtain ⟨d, more, hchars, hd, -⟩ := x.isName
    rw [hchars] at hc
    cases hc
    rw [plainChar_of_isLetter hd, isDigitChar_of_isLetter hd] at hdigit
    cases hdigit
  | negative gap a | enclosed gap a gap' =>
    obtain ⟨-, hc⟩ := hgap hc
    cases hc
    cases hdigit
  | joined left gap j right =>
    have hloose : j.tightness ≤ 1 := by cases j <;> decide
    have htight : 2 ≤ j.tightness := hformed
    omega

/-- Only a number and its negative are read as a number. -/
theorem readInt_text {env : Identifier → Int} {n : Num} {i : Int} (hlead : a.lead = .none)
    (hformed : a.WellFormed) (hn : a.amount env = some n)
    (h : readInt (String.ofList a.text) = .ok i) : n = .int i := by
  cases a with
  | number gap k =>
    obtain rfl : gap = .none := hlead
    cases hn
    have hread := Number.readInt_digits k.plain k.nonempty k.short
    have htext : Formula.text (.number .none k) = k.digits := rfl
    rw [htext, hread] at h
    rw [← Except.ok.inj h]
    rfl
  | leaf gap x =>
    obtain rfl : gap = .none := hlead
    exact absurd h x.readInt_chars
  | enclosed gap a gap' =>
    obtain rfl : gap = .none := hlead
    have hdigit := readInt_start_ok ⟨by decide, by decide⟩ (by decide) (by decide) h
    cases hdigit
  | negative gap a =>
    obtain rfl : gap = .none := hlead
    obtain ⟨k, rfl⟩ := readInt_negative_text hformed.2 h
    cases hn
    have hread := readInt_minus k.plain k.nonempty k.short
    have htext : Formula.text (.negative .none (.number .none k)) = '-' :: k.digits := rfl
    rw [htext, hread] at h
    rw [← Except.ok.inj h]
    rfl
  | joined left gap j right =>
    obtain ⟨c, more, htext⟩ := List.exists_cons_of_ne_nil
      (Arithmetic.textWith_ne_nil (a := left) fun x _ => x.isName.ne_nil)
    have hc : IsPlainStart c := by
      refine head_text (a := left) (fun hne => absurd hlead hne) ⟨by decide, by decide⟩
        ⟨by decide, by decide⟩ (fun _ => .of_isDigit) (fun _ => .of_isLetter) ?_
      rw [Formula.text, htext]
      rfl
    have hjoined : Formula.text (.joined left gap j right) =
        c :: (more ++ (gap.chars ++ j.char :: Formula.text right)) := by
      rw [Formula.text, Arithmetic.textWith, htext]
      rfl
    rw [hjoined] at h
    have hchar := readInt_more_ok hc h (d := j.char) (by simp)
    exact absurd hchar (by cases j <;> decide)

theorem number?_text {env : Identifier → Int} {n : Num} {v : Value} (hlead : a.lead = .none)
    (hformed : a.WellFormed) (hn : a.amount env = some n) (h : number? a.text = some v) :
    v = n.literal := by
  have hpoint : '.' ∉ a.text :=
    notMem_text (by decide) (by decide) (by decide) (by decide) (by decide)
  rw [number?, if_neg (by simpa using hpoint)] at h
  obtain ⟨i, hi, rfl⟩ := Option.map_eq_some_iff.mp h
  rw [readInt_text hlead hformed hn (eq_ok_of_toOption hi)]
  rfl

end Luuqad.Shell

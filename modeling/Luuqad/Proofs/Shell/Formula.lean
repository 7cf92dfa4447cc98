import Luuqad.Proofs.Lexing.Printing
import Luuqad.Proofs.Text.Replace
import Luuqad.Shell.Line
import Mathlib.Data.List.Basic

/-!
# Formulas in the shell

Arithmetic with whole numbers as it is written on a line: sums, differences, products, signs and
parentheses, with any blanks between except line breaks. The shell puts numbers in place of names
and gives what it gets to the calculator. If no name of a number is part of another name, the
numbers get where they belong (`substitute_eq`).
-/

namespace Luuqad.Shell

open Text (replaceAll replaceAll_append replaceAll_of_not_part replaceAll_self)
open Lexer (isNameChar)

/-! ## Names -/

/-- A text that starts with a letter and goes on as names do. -/
def IsName (cs : List Char) : Prop :=
  ∃ c more, cs = c :: more ∧ Text.isLetter c = true ∧ ∀ d ∈ more, isNameChar d = true

/-- A name that a program may choose. -/
structure Identifier where
  chars : List Char
  isName : IsName chars
  free : String.ofList chars ∉ TokenKind.keywords.map Prod.fst

def Identifier.text (x : Identifier) : String := String.ofList x.chars

theorem IsName.ne_nil {cs : List Char} (h : IsName cs) : cs ≠ [] := by
  obtain ⟨c, more, rfl, -⟩ := h
  exact List.cons_ne_nil _ _

theorem IsName.notMem {cs : List Char} (h : IsName cs) {d : Char} (hd : isNameChar d = false)
    (hletter : Text.isLetter d = false) : d ∉ cs := by
  obtain ⟨c, more, rfl, hc, hmore⟩ := h
  intro hmem
  rcases List.mem_cons.mp hmem with rfl | hmem
  · rw [hc] at hletter
    cases hletter
  · rw [hmore d hmem] at hd
    cases hd

theorem IsName.not_part {cs xs : List Char} (h : IsName cs)
    (hxs : ∀ d ∈ xs, Text.isLetter d = false) :
    ¬ cs <:+: xs := by
  obtain ⟨c, more, rfl, hc, -⟩ := h
  intro hpart
  rw [hxs c (hpart.subset List.mem_cons_self)] at hc
  cases hc

/-! ## Gaps -/

/-- A blank that does not end the line. -/
def IsGap (c : Char) : Prop := Text.isBlank c = true ∧ c ≠ '\n'

instance (c : Char) : Decidable (IsGap c) := inferInstanceAs (Decidable (_ ∧ _))

/-- What may stand between two symbols of a line: blanks, or nothing. -/
structure Gap where
  chars : List Char
  isGap : ∀ c ∈ chars, IsGap c

namespace Gap

protected def none : Gap := ⟨[], by simp⟩

def space : Gap := ⟨[' '], List.forall_mem_singleton.mpr (by decide)⟩

theorem space_ne_none : space ≠ .none := by simp [space, Gap.none]

theorem eq_none {g : Gap} (h : g.chars = []) : g = .none := by
  obtain ⟨cs, hcs⟩ := g
  obtain rfl : cs = [] := h
  rfl

def append (g g' : Gap) : Gap where
  chars := g.chars ++ g'.chars
  isGap c hc := (List.mem_append.mp hc).elim (g.isGap c) (g'.isGap c)

theorem notMem (g : Gap) {c : Char} (hc : ¬ IsGap c) : c ∉ g.chars := fun h => hc (g.isGap c h)

theorem blank (g : Gap) : Text.Blank g.chars := fun c hc => (g.isGap c hc).1

theorem forall_append {P : Char → Prop} (hP : ∀ c, IsGap c → P c) (g : Gap) {cs : List Char}
    (hcs : ∀ c ∈ cs, P c) : ∀ c ∈ g.chars ++ cs, P c := by
  intro c hc
  rcases List.mem_append.mp hc with hc | hc
  · exact hP c (g.isGap c hc)
  · exact hcs c hc

theorem head_append {P : Char → Prop} {g : Gap} {c : Char} {rest : List Char}
    (hP : g ≠ .none → ∀ c, IsGap c → P c) (hrest : ∀ c ∈ rest.head?, P c)
    (h : c ∈ (g.chars ++ rest).head?) : P c := by
  cases hg : g.chars with
  | nil =>
    rw [hg] at h
    exact hrest c h
  | cons d more =>
    have hne : g ≠ .none := by
      rintro rfl
      cases hg
    rw [hg] at h
    cases h
    exact hP hne c (g.isGap c (by simp [hg]))

end Gap

theorem IsGap.ne {c d : Char} (h : IsGap c) (hd : Text.isBlank d = false) : c ≠ d :=
  Text.ne_of_isBlank h.1 hd

theorem IsGap.notMem {c : Char} (h : IsGap c) {cs : List Char}
    (hcs : (cs.all fun d => !Text.isBlank d || d == '\n') = true) : c ∉ cs := by
  intro hc
  have hd := List.all_eq_true.mp hcs c hc
  simp [h.1, h.2] at hd

theorem isPlainDigit_of_isBlank {c : Char} (h : Text.isBlank c = true) : c.isDigit = false := by
  by_contra hdigit
  have hclass := Lexer.isDigit_text (by simpa using hdigit)
  rw [Text.isDigit_of_isBlank h] at hclass
  cases hclass

/-! ## Arithmetic -/

/-- A whole number as it is written, short enough to be read. -/
structure Numeral where
  digits : List Char
  plain : Number.Digits digits
  nonempty : digits ≠ []
  short : digits.length ≤ Number.digitLimit

def Numeral.value (n : Numeral) : Nat := Number.valueOf n.digits

inductive Joint
  | add | subtract | multiply | divide
deriving DecidableEq, Repr

namespace Joint

def char : Joint → Char
  | add => '+'
  | subtract => '-'
  | multiply => '*'
  | divide => '/'

/-- How tightly an operation binds. -/
def tightness : Joint → Nat
  | add | subtract => 0
  | multiply | divide => 1

end Joint

/-- A formula as it is written, with the gap in front of each symbol. Besides numbers, it is made of
leaves. -/
inductive Arithmetic (α : Type)
  | number (gap : Gap) (n : Numeral)
  | leaf (gap : Gap) (x : α)
  | negative (gap : Gap) (a : Arithmetic α)
  | joined (left : Arithmetic α) (gap : Gap) (j : Joint) (right : Arithmetic α)
  | enclosed (gap : Gap) (a : Arithmetic α) (gap' : Gap)

namespace Arithmetic

variable {α β : Type}

/-- How tightly a formula holds together. -/
def tightness : Arithmetic α → Nat
  | number .. | leaf .. | enclosed .. => 3
  | negative .. => 2
  | joined _ _ j _ => j.tightness

/-- The parts of a formula stand without parentheses only where they hold together. -/
def WellFormed : Arithmetic α → Prop
  | number .. | leaf .. => True
  | negative _ a => a.WellFormed ∧ 2 ≤ a.tightness
  | joined left _ j right =>
    left.WellFormed ∧ right.WellFormed ∧ j.tightness ≤ left.tightness ∧
      j.tightness < right.tightness
  | enclosed _ a _ => a.WellFormed

/-- The text of a formula, where leaves are written in a certain way. -/
def textWith (f : α → List Char) : Arithmetic α → List Char
  | number gap n => gap.chars ++ n.digits
  | leaf gap x => gap.chars ++ f x
  | negative gap a => gap.chars ++ '-' :: a.textWith f
  | joined left gap j right => left.textWith f ++ (gap.chars ++ j.char :: right.textWith f)
  | enclosed gap a gap' => gap.chars ++ '(' :: (a.textWith f ++ (gap'.chars ++ [')']))

/-- A formula with other leaves. -/
def map (f : α → β) : Arithmetic α → Arithmetic β
  | number gap n => number gap n
  | leaf gap x => leaf gap (f x)
  | negative gap a => negative gap (a.map f)
  | joined left gap j right => joined (left.map f) gap j (right.map f)
  | enclosed gap a gap' => enclosed gap (a.map f) gap'

def leaves : Arithmetic α → List α
  | number .. => []
  | leaf _ x => [x]
  | negative _ a | enclosed _ a _ => a.leaves
  | joined left _ _ right => left.leaves ++ right.leaves

variable {a : Arithmetic α} {f g : α → List Char} {x : α}

theorem textWith_congr (h : ∀ x ∈ a.leaves, f x = g x) : a.textWith f = a.textWith g := by
  induction a with
  | number => rfl
  | leaf gap x => simp [textWith, h x (by simp [leaves])]
  | negative gap a ih | enclosed gap a gap' ih => simp [textWith, ih h]
  | joined left gap j right ihleft ihright =>
    have hleft := ihleft fun x hx => h x (by simp [leaves, hx])
    have hright := ihright fun x hx => h x (by simp [leaves, hx])
    simp [textWith, hleft, hright]

section Map

variable (f : α → β)

theorem textWith_map (g : β → List Char) (a : Arithmetic α) :
    (a.map f).textWith g = a.textWith (g ∘ f) := by
  induction a with
  | number | leaf => rfl
  | negative gap a ih | enclosed gap a gap' ih => simp [map, textWith, ih]
  | joined left gap j right ihleft ihright => simp [map, textWith, ihleft, ihright]

theorem leaves_map (a : Arithmetic α) : (a.map f).leaves = a.leaves.map f := by
  induction a with
  | number | leaf => rfl
  | negative gap a ih | enclosed gap a gap' ih => exact ih
  | joined left gap j right ihleft ihright => simp [map, leaves, ihleft, ihright]

theorem tightness_map (a : Arithmetic α) : (a.map f).tightness = a.tightness := by cases a <;> rfl

theorem wellFormed_map {a : Arithmetic α} (h : a.WellFormed) : (a.map f).WellFormed := by
  induction a with
  | number | leaf => trivial
  | negative gap a ih => exact ⟨ih h.1, (tightness_map f a).symm ▸ h.2⟩
  | enclosed gap a gap' ih => exact ih h
  | joined left gap j right ihleft ihright =>
    refine ⟨ihleft h.1, ihright h.2.1, ?_, ?_⟩
    · rw [tightness_map]
      exact h.2.2.1
    · rw [tightness_map]
      exact h.2.2.2

end Map

theorem infix_textWith (h : x ∈ a.leaves) : f x <:+: a.textWith f := by
  induction a with
  | number => simp [leaves] at h
  | leaf gap y =>
    obtain rfl : x = y := by simpa [leaves] using h
    exact ⟨gap.chars, [], by simp [textWith]⟩
  | negative gap a ih =>
    exact (ih h).trans ⟨gap.chars ++ ['-'], [], by simp [textWith]⟩
  | enclosed gap a gap' ih =>
    exact (ih h).trans ⟨gap.chars ++ ['('], gap'.chars ++ [')'], by simp [textWith]⟩
  | joined left gap j right ihleft ihright =>
    rcases List.mem_append.mp h with h | h
    · exact (ihleft h).trans ⟨[], gap.chars ++ j.char :: right.textWith f, by simp [textWith]⟩
    · exact (ihright h).trans ⟨left.textWith f ++ (gap.chars ++ [j.char]), [], by simp [textWith]⟩

def lead : Arithmetic α → Gap
  | number gap _ | leaf gap _ | negative gap _ | enclosed gap _ _ => gap
  | joined left _ _ _ => left.lead

/-- Neither plus signs nor parentheses. -/
def Bare : Arithmetic α → Prop
  | number .. | leaf .. => True
  | negative _ a => a.Bare
  | joined left _ j right => j ≠ .add ∧ left.Bare ∧ right.Bare
  | enclosed .. => False

theorem textWith_ne_nil (hne : ∀ x ∈ a.leaves, f x ≠ []) : a.textWith f ≠ [] := by
  cases a with
  | number gap n => simp [textWith, n.nonempty]
  | leaf gap x => simp [textWith, hne x (by simp [leaves])]
  | negative | joined | enclosed => simp [textWith]

theorem head_textWith {P : Char → Prop} (hgap : a.lead ≠ .none → ∀ c, IsGap c → P c)
    (hminus : P '-') (hopening : P '(')
    (hdigit : ∀ c : Char, c.isDigit = true → P c) (hne : ∀ x ∈ a.leaves, f x ≠ [])
    (hleaf : ∀ x ∈ a.leaves, ∀ c ∈ (f x).head?, P c) {rest : List Char} {c : Char}
    (h : c ∈ (a.textWith f ++ rest).head?) : P c := by
  have hsolid {xs rest : List Char} (hxs : xs ≠ []) (hhead : ∀ c ∈ xs.head?, P c) :
      ∀ c ∈ (xs ++ rest).head?, P c := by
    intro d hd
    obtain ⟨e, more, rfl⟩ := List.exists_cons_of_ne_nil hxs
    exact hhead d hd
  induction a generalizing rest with
  | number gap n =>
    rw [textWith, List.append_assoc] at h
    refine Gap.head_append hgap (hsolid n.nonempty fun d hd => hdigit d ?_) h
    exact n.plain d (List.mem_of_mem_head? hd)
  | leaf gap x =>
    have hx : x ∈ (leaf gap x).leaves := List.mem_singleton_self x
    rw [textWith, List.append_assoc] at h
    exact Gap.head_append hgap (hsolid (hne x hx) (hleaf x hx)) h
  | negative gap a ih =>
    rw [textWith, List.append_assoc] at h
    refine Gap.head_append hgap (fun d hd => ?_) h
    cases hd
    exact hminus
  | enclosed gap a gap' ih =>
    rw [textWith, List.append_assoc] at h
    refine Gap.head_append hgap (fun d hd => ?_) h
    cases hd
    exact hopening
  | joined left gap j right ihleft ihright =>
    rw [textWith, List.append_assoc] at h
    refine ihleft hgap (fun x hx => hne x ?_) (fun x hx => hleaf x ?_) h
    · exact List.mem_append_left _ hx
    · exact List.mem_append_left _ hx

theorem last_textWith {P : Char → Prop} (hclosing : P ')')
    (hdigit : ∀ c : Char, c.isDigit = true → P c) (hne : ∀ x ∈ a.leaves, f x ≠ [])
    (hleaf : ∀ x ∈ a.leaves, ∀ c ∈ (f x).getLast?, P c) {c : Char}
    (h : c ∈ (a.textWith f).getLast?) : P c := by
  have hsolid {xs ys : List Char} (hys : ys ≠ []) (hlast : ∀ c ∈ ys.getLast?, P c) {c : Char}
      (hc : c ∈ (xs ++ ys).getLast?) : P c := by
    rw [List.getLast?_append_of_ne_nil _ hys] at hc
    exact hlast c hc
  induction a generalizing c with
  | number gap n =>
    exact hsolid n.nonempty (fun d hd => hdigit d (n.plain d (List.mem_of_mem_getLast? hd))) h
  | leaf gap x =>
    have hx : x ∈ (leaf gap x).leaves := List.mem_singleton_self x
    exact hsolid (hne x hx) (hleaf x hx) h
  | negative gap a ih =>
    rw [textWith, List.append_cons] at h
    have hsome : a.textWith f ≠ [] := textWith_ne_nil hne
    exact hsolid hsome (fun d hd => ih hne hleaf hd) h
  | enclosed gap a gap' ih =>
    rw [textWith, ← List.cons_append, ← List.append_assoc, ← List.append_assoc] at h
    refine hsolid (List.cons_ne_nil _ _) (fun d hd => ?_) h
    cases hd
    exact hclosing
  | joined left gap j right ihleft ihright =>
    have hright (x : α) (hx : x ∈ right.leaves) : x ∈ (joined left gap j right).leaves :=
      List.mem_append_right _ hx
    rw [textWith, List.append_cons, ← List.append_assoc] at h
    exact hsolid (textWith_ne_nil fun x hx => hne x (hright x hx))
      (fun d hd => ihright (fun x hx => hne x (hright x hx)) (fun x hx => hleaf x (hright x hx)) hd)
      h

theorem forall_textWith {P : Char → Prop} (hgap : ∀ c, IsGap c → P c) (hminus : P '-')
    (hstar : P '*') (hslash : P '/')
    (hothers : a.Bare ∨ P '+' ∧ P '(' ∧ P ')') (hdigit : ∀ c : Char, c.isDigit = true → P c)
    (hleaf : ∀ x ∈ a.leaves, ∀ c ∈ f x, P c) : ∀ c ∈ a.textWith f, P c := by
  have hgaps {g : Gap} {c : Char} (hc : c ∈ g.chars) : P c := hgap c (g.isGap c hc)
  induction a with
  | number gap n =>
    intro c hc
    rcases List.mem_append.mp hc with hc | hc
    · exact hgaps hc
    · exact hdigit c (n.plain c hc)
  | leaf gap x =>
    intro c hc
    rcases List.mem_append.mp hc with hc | hc
    · exact hgaps hc
    · exact hleaf x (List.mem_singleton_self x) c hc
  | negative gap a ih =>
    intro c hc
    simp only [textWith, List.mem_append, List.mem_cons] at hc
    rcases hc with hc | rfl | hc
    · exact hgaps hc
    · exact hminus
    · exact ih hothers hleaf c hc
  | enclosed gap a gap' ih =>
    obtain ⟨hadd, hopening, hclosing⟩ := hothers.resolve_left id
    intro c hc
    simp only [textWith, List.mem_append, List.mem_cons, List.not_mem_nil, or_false] at hc
    rcases hc with hc | rfl | hc | hc | rfl
    · exact hgaps hc
    · exact hopening
    · exact ih (.inr ⟨hadd, hopening, hclosing⟩) hleaf c hc
    · exact hgaps hc
    · exact hclosing
  | joined left gap j right ihleft ihright =>
    have hchar : P j.char := by
      cases j with
      | add => exact (hothers.resolve_left fun h => h.1 rfl).1
      | subtract => exact hminus
      | multiply => exact hstar
      | divide => exact hslash
    intro c hc
    simp only [textWith, List.mem_append, List.mem_cons] at hc
    rcases hc with hc | hc | rfl | hc
    · exact ihleft (hothers.imp_left fun h => h.2.1)
        (fun x hx => hleaf x (List.mem_append_left _ hx)) c hc
    · exact hgaps hc
    · exact hchar
    · exact ihright (hothers.imp_left fun h => h.2.2)
        (fun x hx => hleaf x (List.mem_append_right _ hx)) c hc

end Arithmetic

abbrev Formula := Arithmetic Identifier

def Formula.text (a : Formula) : List Char := a.textWith Identifier.chars

namespace Arithmetic

variable {α : Type} {f : α → List Char}

/-! ## Numbers in place of names -/

section Replacing

variable {needle : List Char} (hneedle : IsName needle) (replacement : List Char)

include hneedle

theorem replaceAll_symbol {c : Char} (hc : isNameChar c = false) (hletter : Text.isLetter c = false)
    (rest : List Char) :
    replaceAll needle replacement (c :: rest) = c :: replaceAll needle replacement rest := by
  have hnot : ¬ needle <+: c :: rest := by
    obtain ⟨d, more, rfl, hd, -⟩ := hneedle
    intro hstart
    obtain ⟨rfl, -⟩ := List.cons_prefix_cons.mp hstart
    rw [hd] at hletter
    cases hletter
  exact Text.replaceAll_of_not_start replacement hnot

theorem replaceAll_gap (g : Gap) (rest : List Char) :
    replaceAll needle replacement (g.chars ++ rest) =
      g.chars ++ replaceAll needle replacement rest := by
  obtain ⟨cs, hcs⟩ := g
  induction cs with
  | nil => rfl
  | cons c cs ih =>
    have hblank := (hcs c List.mem_cons_self).1
    rw [List.cons_append, replaceAll_symbol hneedle replacement (Lexer.isNameChar_of_isBlank hblank)
      (Text.isLetter_of_isBlank hblank), ih fun d hd => hcs d (List.mem_cons_of_mem _ hd),
      List.cons_append]

theorem replaceAll_textWith (a : Arithmetic α) :
    replaceAll needle replacement (a.textWith f) =
      a.textWith fun x => replaceAll needle replacement (f x) := by
  have hne := hneedle.ne_nil
  have hgap (c : Char) (hc : IsGap c) : c ∉ needle :=
    hneedle.notMem (Lexer.isNameChar_of_isBlank hc.1) (Text.isLetter_of_isBlank hc.1)
  induction a with
  | number gap n =>
    have hdigits : ∀ d ∈ n.digits, Text.isLetter d = false := fun d hd =>
      Text.isLetter_of_isDigit (Lexer.isDigit_text (n.plain d hd))
    rw [textWith, replaceAll_gap hneedle,
      replaceAll_of_not_part replacement (hneedle.not_part hdigits), textWith]
  | leaf gap x => rw [textWith, replaceAll_gap hneedle, textWith]
  | negative gap a ih =>
    rw [textWith, replaceAll_gap hneedle, replaceAll_symbol hneedle replacement (by decide)
      (by decide),
      ih, textWith]
  | enclosed gap a gap' ih =>
    have hclosing : ')' ∉ needle := hneedle.notMem (by decide) (by decide)
    have hbounded : Text.Bounded needle (a.textWith f) (gap'.chars ++ [')']) := by
      refine .inr fun c => Gap.head_append (fun _ => hgap) fun d hd => ?_
      cases hd
      exact hclosing
    rw [textWith, replaceAll_gap hneedle, replaceAll_symbol hneedle replacement (by decide)
      (by decide),
      replaceAll_append replacement hne hbounded, ih, replaceAll_gap hneedle,
      replaceAll_of_not_part replacement
      (hneedle.not_part (List.forall_mem_singleton.mpr (by decide))), textWith]
  | joined left gap j right ihleft ihright =>
    have hchar : isNameChar j.char = false ∧ Text.isLetter j.char = false := by cases j <;> decide
    have hbounded :
        Text.Bounded needle (left.textWith f) (gap.chars ++ j.char :: right.textWith f) := by
      refine .inr fun c => Gap.head_append (fun _ => hgap) fun d hd => ?_
      cases hd
      exact hneedle.notMem hchar.1 hchar.2
    rw [textWith, replaceAll_append replacement hne hbounded, ihleft, replaceAll_gap hneedle,
      replaceAll_symbol hneedle replacement hchar.1 hchar.2, ihright, textWith]

end Replacing

end Arithmetic

/-! ## Substitution -/

def decimal (i : Int) : List Char := (Number.decimal i).toList

theorem isLetter_decimal {i : Int} {d : Char} (hd : d ∈ decimal i) : Text.isLetter d = false := by
  have hdigit {n : Nat} (hd : d ∈ Number.digitsOf n) : Text.isLetter d = false :=
    Text.isLetter_of_isDigit (Lexer.isDigit_text (Number.digits_digitsOf n d hd))
  unfold decimal Number.decimal at hd
  rw [String.toList_ofList] at hd
  split at hd
  · rcases List.mem_cons.mp hd with rfl | hd
    · decide
    · exact hdigit hd
  · exact hdigit hd

/-- Names stand for numbers, all variables have names, and no name of a number is part of one of the
names. -/
structure Clear (vars : NameTable Value) (names : List Identifier) (env : Identifier → Int) :
    Prop where
  holds {x : Identifier} : x ∈ names → vars.get? x.text = some (.int (env x))
  isName {name : String} {v : Value} : (name, v) ∈ vars → IsName name.toList
  apart {x : Identifier} {name : String} {v : Value} : x ∈ names → (name, v) ∈ vars →
    v.isNumber = true →
    name.toList <:+: x.chars → name = x.text

theorem text_int (h : Heap) (i : Int) : Value.text h (.int i) = Number.writeInt i := by
  rw [Value.text, Value.textIn.eq_def]
  change Value.shownIn h (h.size + 1) [] (.int i) = _
  rw [Value.shownIn.eq_def]

theorem writeInt_ok {i : Int} {t : String} (h : Number.writeInt i = .ok t) :
    t.toList = decimal i := by
  rw [Number.writeInt] at h
  by_cases hlong : Number.beyondLimit i.natAbs = true
  · rw [if_pos hlong] at h
    cases h
  · rw [if_neg hlong] at h
    rw [decimal, Except.ok.inj h]

theorem text_int_of_short (h : Heap) {i : Int} (hi : Number.beyondLimit i.natAbs = false) :
    Value.text h (.int i) = .ok (Number.decimal i) := by
  rw [text_int, Number.writeInt, if_neg (by simp [hi])]

/-- How a name is written while numbers are put in place of names: as the number, or still as the
name. In the second case its variable is still to come. -/
def Underway (vars : NameTable Value) (env : Identifier → Int) (x : Identifier) (cs : List Char) :
    Prop :=
  cs = decimal (env x) ∨ cs = x.chars ∧ vars.get? x.text = some (.int (env x))

namespace Underway

variable {vars : NameTable Value} {env : Identifier → Int} {x : Identifier} {cs : List Char}
    {name : String} {v : Value}

theorem step (h : Underway ((name, v) :: vars) env x cs) (hname : name ≠ x.text) :
    Underway vars env x cs := by
  rcases h with hdone | ⟨hcs, hget⟩
  · exact .inl hdone
  · rw [NameTable.get?_cons, if_neg (Ne.symm hname)] at hget
    exact .inr ⟨hcs, hget⟩

theorem replace {heap : Heap} {t : String} (h : Underway ((name, v) :: vars) env x cs)
    (hname : IsName name.toList) (hapart : name.toList <:+: x.chars → name = x.text)
    (ht : v.text heap = .ok t) :
    Underway vars env x (replaceAll name.toList t.toList cs) := by
  rcases h with hdone | ⟨hcs, hget⟩
  · refine .inl ?_
    rw [hdone, replaceAll_of_not_part _ (hname.not_part fun d hd => isLetter_decimal hd)]
  · by_cases heq : name = x.text
    · rw [NameTable.get?_cons, if_pos heq.symm] at hget
      rw [Option.some.inj hget, text_int] at ht
      have hchars : name.toList = x.chars := by rw [heq, Identifier.text, String.toList_ofList]
      refine .inl ?_
      rw [hcs, hchars, replaceAll_self _ x.isName.ne_nil, writeInt_ok ht]
    · rw [NameTable.get?_cons, if_neg (Ne.symm heq)] at hget
      refine .inr ⟨?_, hget⟩
      rw [hcs, replaceAll_of_not_part _ fun hpart => heq (hapart hpart)]

end Underway

theorem foldlM_substitute {h : Heap} {vars : NameTable Value} {a : Formula} {env : Identifier → Int}
    {f : Identifier → List Char} {result : List Char}
    (hnames : ∀ {name : String} {v : Value}, (name, v) ∈ vars → IsName name.toList)
    (hapart : ∀ {x : Identifier} {name : String} {v : Value}, x ∈ a.leaves → (name, v) ∈ vars →
      v.isNumber = true →
      name.toList <:+: x.chars → name = x.text)
    (hunderway : ∀ x ∈ a.leaves, Underway vars env x (f x))
    (hfold : vars.foldlM (fun text (name, v) =>
      if v.isNumber && Text.contains name.toList text then do
        return replaceAll name.toList (← v.text h).toList text
      else return text) (a.textWith f) = .ok result) : result =
        a.textWith fun x => decimal (env x) := by
  induction vars generalizing f with
  | nil =>
    cases hfold
    refine Arithmetic.textWith_congr fun x hx => ?_
    rcases hunderway x hx with hdone | ⟨-, hget⟩
    · exact hdone
    · cases hget
  | cons entry vars ih =>
    obtain ⟨name, v⟩ := entry
    rw [List.foldlM_cons] at hfold
    have hrest {g : Identifier → List Char} (hunderway : ∀ x ∈ a.leaves,
        Underway vars env x (g x)) := ih
      (fun hmem => hnames (List.mem_cons_of_mem _ hmem))
      (fun hx hmem => hapart hx (List.mem_cons_of_mem _ hmem)) hunderway
    have hname : IsName name.toList := hnames List.mem_cons_self
    by_cases hnumber : v.isNumber = true
    · by_cases hcontains : Text.contains name.toList (a.textWith f) = true
      · simp only [hnumber, hcontains, Bool.and_self, if_true] at hfold
        cases htext : v.text h with
        | error e =>
          rw [htext] at hfold
          cases hfold
        | ok t =>
          rw [htext] at hfold
          change List.foldlM _ (replaceAll name.toList t.toList (a.textWith f)) vars = _ at hfold
          rw [Arithmetic.replaceAll_textWith hname] at hfold
          exact hrest (fun x hx => (hunderway x hx).replace hname
            (hapart hx List.mem_cons_self hnumber) htext) hfold
      · simp only [hcontains, Bool.and_false, Bool.false_eq_true, if_false] at hfold
        -- a name that is still written would occur
        refine hrest (fun x hx => ?_) hfold
        rcases hunderway x hx with hdone | ⟨hf, hget⟩
        · exact .inl hdone
        · refine (hunderway x hx).step fun heq => hcontains ?_
          have hpart := Arithmetic.infix_textWith (f := f) hx
          rw [hf] at hpart
          rw [Text.contains_iff, heq, Identifier.text, String.toList_ofList]
          exact hpart
    · simp only [hnumber, Bool.false_and, Bool.false_eq_true, if_false] at hfold
      refine hrest (fun x hx => ?_) hfold
      rcases hunderway x hx with hdone | ⟨hf, hget⟩
      · exact .inl hdone
      · refine (hunderway x hx).step fun heq => hnumber ?_
        rw [NameTable.get?_cons, if_pos heq.symm] at hget
        rw [Option.some.inj hget]
        rfl

/-- Numbers get where their names are, and nowhere else. -/
theorem substitute_eq {s : State} {a : Formula} {env : Identifier → Int} {result : List Char}
    (hclear : Clear s.vars a.leaves env) (h : substitute s a.text = .ok result) :
    result = a.textWith fun x => decimal (env x) :=
  foldlM_substitute hclear.isName hclear.apart (fun _ hx => .inr ⟨rfl, hclear.holds hx⟩) h

end Luuqad.Shell

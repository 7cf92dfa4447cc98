import Luuqad.Proofs.Grammar.Phrase
import Luuqad.Proofs.Shell.Formula

/-!
# The calculator on formulas

The calculator reads a formula as it is meant (`readAll_symbols`): the symbols of a part that holds
together tightly enough are read as that part, and what follows is left. It reads with a bound on
the length and the depth of what it reads, so these are statements about what it gives if it gives
anything (`Yields`). What the shell computes for a formula is then what the arithmetic of the
language makes of it (`calculated?_text`).
-/

/-! ## Amounts -/

namespace Luuqad

/-- Whether a number is one at all: a double may be none. -/
def Num.isNumber : Num → Bool
  | int _ => true
  | float x => Number.decode x ≠ .nan

end Luuqad

namespace Luuqad.Shell

theorem eq_ok_of_toOption {α : Type} {r : Except Failure α} {a : α} (h : r.toOption = some a) :
    r = .ok a := by
  cases r with
  | error e => cases h
  | ok b => exact congrArg Except.ok (Option.some.inj h)

namespace Joint

def operation : Joint → Calculator.Operation
  | add => .add
  | subtract => .sub
  | multiply => .mul
  | divide => .div

def onNumbers : Joint → Num → Num → Except Failure Num
  | add => Num.add
  | subtract => Num.sub
  | multiply => Num.mul
  | divide => Num.div

/-- The result of the operation, if it is a number. -/
def combine? (j : Joint) (m n : Num) : Option Num := (j.onNumbers m n).toOption.filter Num.isNumber

end Joint

namespace Arithmetic

/-- What a formula amounts to. A sign stands only before whole numbers: of a double, the negative
and the product with minus one are two computations. -/
def amount {α : Type} (env : α → Int) : Arithmetic α → Option Num
  | number _ n => some (.int n.value)
  | leaf _ x => some (.int (env x))
  | negative _ a => do
    let .int i ← a.amount env | none
    return .int (-i)
  | joined left _ j right => do j.combine? (← left.amount env) (← right.amount env)
  | enclosed _ a _ => a.amount env

end Arithmetic

/-! ## The symbols of a formula -/

namespace Arithmetic

open Calculator (Symbol scan literal?)

/-- The symbols of a number: one that is negative has a sign. -/
def symbolsOf (i : Int) : List Symbol :=
  if i < 0 then [.operation .sub, .number i.natAbs] else [.number i.natAbs]

/-- The symbols of a formula with numbers in place of names. -/
def symbols (env : Identifier → Int) : Formula → List Symbol
  | number _ n => [.number n.value]
  | leaf _ x => symbolsOf (env x)
  | negative _ a => .operation .sub :: a.symbols env
  | joined left _ j right => left.symbols env ++ .operation j.operation :: right.symbols env
  | enclosed _ a _ => .opening :: (a.symbols env ++ [.closing])

theorem valueOf_zeros {ds : List Char} (h : ds.all (· == '0') = true) : Number.valueOf ds = 0 := by
  unfold Number.valueOf
  induction ds with
  | nil => rfl
  | cons d ds ih =>
    simp only [List.all_cons, Bool.and_eq_true, beq_iff_eq] at h
    rw [List.foldl_cons, h.1]
    exact ih h.2

theorem literal?_eq_some {ds : List Char} {m : Nat} (h : literal? ds = some m) :
    m = Number.valueOf ds := by
  unfold literal? at h
  split at h
  · rename_i hzeros
    rw [valueOf_zeros hzeros]
    exact (Option.some.inj h).symm
  · split at h
    · cases h
    · exact (Option.some.inj h).symm

/-- The calculator passes over spaces, and takes no other blanks. -/
theorem scan_gap (g : Gap) {rest : List Char} {ss : List Symbol}
    (h : scan (g.chars ++ rest) = some ss) : scan rest = some ss := by
  obtain ⟨cs, hcs⟩ := g
  induction cs with
  | nil => exact h
  | cons c cs ih =>
    have hc := hcs c List.mem_cons_self
    refine ih (fun d hd => hcs d (List.mem_cons_of_mem _ hd)) ?_
    change scan (c :: (cs ++ rest)) = some ss at h
    by_cases hspace : c = ' '
    · rwa [hspace, scan] at h
    · rw [scan, if_neg (by simp [isPlainDigit_of_isBlank hc.1])] at h
      · cases h
      · exact hspace
      all_goals intros
      all_goals exact absurd ‹c = _› (hc.ne (by decide))

theorem scan_digit {c : Char} (rest : List Char) (hc : c.isDigit = true) : scan (c :: rest) = (do
    let n ← literal? (c :: rest.takeWhile Char.isDigit)
    return .number n :: (← scan (rest.dropWhile Char.isDigit))) := by
  have hne {d : Char} (hd : d.isDigit = false) : c ≠ d := Number.ne_of_isDigit hc hd
  rw [scan, if_pos hc]
  all_goals intros
  all_goals exact absurd ‹c = _› (hne (by decide))

/-- A number is followed by something else than a digit. -/
def Ends (rest : List Char) : Prop := ∀ c ∈ rest.head?, c.isDigit = false

theorem scan_digits {ds rest : List Char} (hdigits : Number.Digits ds) (hne : ds ≠ [])
    (hrest : Ends rest) {ss : List Symbol} (h : scan (ds ++ rest) = some ss) :
    ∃ ss', scan rest = some ss' ∧ ss = .number (Number.valueOf ds) :: ss' := by
  obtain ⟨c, more, rfl⟩ := List.exists_cons_of_ne_nil hne
  have hc : c.isDigit = true := hdigits c List.mem_cons_self
  have hothers : ∀ d ∈ more, d.isDigit = true := fun d hd => hdigits d (List.mem_cons_of_mem _ hd)
  have hspan : (more ++ rest).takeWhile Char.isDigit = more ∧
      (more ++ rest).dropWhile Char.isDigit = rest := by
    rw [List.takeWhile_append_of_pos hothers, List.dropWhile_append_of_pos hothers]
    cases rest with
    | nil => simp
    | cons d rest => simp [hrest d rfl]
  rw [List.cons_append, scan_digit _ hc, hspan.1, hspan.2] at h
  cases hread : literal? (c :: more) with
  | none => simp [hread] at h
  | some m =>
    rw [hread] at h
    cases hscan : scan rest with
    | none => simp [hscan] at h
    | some ss' =>
      rw [hscan] at h
      obtain rfl := literal?_eq_some hread
      exact ⟨ss', rfl, (Option.some.inj h).symm⟩

theorem scan_digitsOf {n : Nat} {rest : List Char} (hrest : Ends rest) {ss : List Symbol}
    (h : scan (Number.digitsOf n ++ rest) = some ss) :
    ∃ ss', scan rest = some ss' ∧ ss = .number n :: ss' := by
  have hscan := scan_digits (Number.digits_digitsOf n) Nat.toDigits_ne_nil hrest h
  rwa [Number.valueOf_digitsOf] at hscan

theorem scan_decimal {i : Int} {rest : List Char} (hrest : Ends rest) {ss : List Symbol}
    (h : scan (decimal i ++ rest) = some ss) :
    ∃ ss', scan rest = some ss' ∧ ss = symbolsOf i ++ ss' := by
  unfold decimal Number.decimal at h
  rw [String.toList_ofList] at h
  unfold symbolsOf
  by_cases hi : i < 0
  · rw [if_pos hi, List.cons_append, scan] at h
    obtain ⟨tail, htail, rfl⟩ := Option.map_eq_some_iff.mp h
    obtain ⟨ss', hss', rfl⟩ := scan_digitsOf hrest htail
    exact ⟨ss', hss', by rw [if_pos hi]; rfl⟩
  · rw [if_neg hi] at h
    obtain ⟨ss', hss', rfl⟩ := scan_digitsOf hrest h
    exact ⟨ss', hss', by rw [if_neg hi]; rfl⟩

variable {a : Formula} {env : Identifier → Int}

/-- What a formula of numbers can start with. -/
def Opens (c : Char) : Prop := IsGap c ∨ c = '-' ∨ c = '(' ∨ c.isDigit = true

theorem decimal_ne_nil (i : Int) : decimal i ≠ [] := by
  unfold decimal Number.decimal
  rw [String.toList_ofList]
  split
  · exact List.cons_ne_nil _ _
  · exact Nat.toDigits_ne_nil

theorem head_decimal {i : Int} {c : Char} (h : c ∈ (decimal i).head?) : Opens c := by
  unfold decimal Number.decimal at h
  rw [String.toList_ofList] at h
  split at h
  · cases h
    exact .inr (.inl rfl)
  · exact .inr (.inr (.inr (Number.digits_digitsOf _ c (List.mem_of_mem_head? h))))

theorem opens_textWith {rest : List Char} {c : Char}
    (h : c ∈ (a.textWith (fun x => decimal (env x)) ++ rest).head?) : Opens c :=
  head_textWith (fun _ _ => .inl) (.inr (.inl rfl)) (.inr (.inr (.inl rfl)))
    (fun _ hc => .inr (.inr (.inr hc))) (fun _ _ => decimal_ne_nil _) (fun _ _ _ => head_decimal) h

theorem ends_gap (g : Gap) {c : Char} {rest : List Char} (hc : c.isDigit = false) :
    Ends (g.chars ++ c :: rest) := by
  refine fun d => Gap.head_append (P := fun c => c.isDigit = false)
    (fun _ _ hgap => isPlainDigit_of_isBlank hgap.1)
    fun d hd => ?_
  cases hd
  exact hc

theorem scan_joint {j : Joint} {rest : List Char} (hrest : ∀ c ∈ rest.head?, Opens c) :
    scan (j.char :: rest) = (scan rest).map (.operation j.operation :: ·) := by
  have hnot {c : Char} (hc : ¬ Opens c) (tail : List Char) : rest ≠ c :: tail := by
    rintro rfl
    exact hc (hrest c rfl)
  have hblank : Text.isBlank '*' = false ∧ Text.isBlank '/' = false := by decide
  cases j with
  | add | subtract => simp only [Joint.char, Joint.operation, scan]
  | multiply =>
    rw [Joint.char, scan]
    · rfl
    · exact hnot (by simp [Opens, IsGap, hblank])
  | divide =>
    rw [Joint.char, scan]
    · rfl
    · exact hnot (by simp [Opens, IsGap, hblank])

theorem scan_textWith {rest : List Char} (hrest : Ends rest) {ss : List Symbol}
    (h : scan (a.textWith (fun x => decimal (env x)) ++ rest) = some ss) :
    ∃ ss', scan rest = some ss' ∧ ss = a.symbols env ++ ss' := by
  induction a generalizing rest ss with
  | number gap n =>
    rw [textWith, List.append_assoc] at h
    exact scan_digits n.plain n.nonempty hrest (scan_gap gap h)
  | leaf gap x =>
    rw [textWith, List.append_assoc] at h
    exact scan_decimal hrest (scan_gap gap h)
  | negative gap a ih =>
    rw [textWith, List.append_assoc] at h
    have hminus := scan_gap gap h
    rw [List.cons_append, scan] at hminus
    obtain ⟨tail, htail, rfl⟩ := Option.map_eq_some_iff.mp hminus
    obtain ⟨ss', hss', rfl⟩ := ih hrest htail
    exact ⟨ss', hss', rfl⟩
  | enclosed gap a gap' ih =>
    rw [textWith, List.append_assoc] at h
    have hopening := scan_gap gap h
    rw [List.cons_append, scan, List.append_assoc] at hopening
    obtain ⟨tail, htail, rfl⟩ := Option.map_eq_some_iff.mp hopening
    rw [List.append_assoc] at htail
    obtain ⟨ss', hss', rfl⟩ := ih (ends_gap gap' (by decide)) htail
    have hclosing : scan (')' :: rest) = some ss' := scan_gap gap' hss'
    rw [scan] at hclosing
    obtain ⟨ss'', hss'', rfl⟩ := Option.map_eq_some_iff.mp hclosing
    exact ⟨ss'', hss'', by simp [symbols]⟩
  | joined left gap j right ihleft ihright =>
    rw [textWith, List.append_assoc, List.append_assoc, List.cons_append] at h
    have hchar : j.char.isDigit = false := by cases j <;> decide
    obtain ⟨ss', hss', rfl⟩ := ihleft (ends_gap gap hchar) h
    have hjoint := scan_gap gap hss'
    rw [scan_joint fun c hc => opens_textWith hc] at hjoint
    obtain ⟨tail, htail, rfl⟩ := Option.map_eq_some_iff.mp hjoint
    obtain ⟨ss'', hss'', rfl⟩ := ihright hrest htail
    exact ⟨ss'', hss'', by simp [symbols]⟩

/-! ## Reading -/

/-- The formula that the calculator should read; a name that stands for a negative number becomes
one with a sign. -/
def reading (env : Identifier → Int) : Formula → Calculator.Formula
  | number _ n => .number n.value
  | leaf _ x => if env x < 0 then .negated (.number (env x).natAbs) else .number (env x).natAbs
  | negative _ a => .negated (a.reading env)
  | joined left _ j right => .joined j.operation (left.reading env) (right.reading env)
  | enclosed _ a _ => a.reading env

end Arithmetic

/-- A computation that gives one result, or none. -/
def Yields {α : Type} (o : Option α) (x : α) : Prop := ∀ y, o = some y → y = x

namespace Yields

variable {α β : Type} {o : Option α} {x : α}

theorem none (x : α) : Yields .none x := by
  intro y h
  cases h

theorem some (x : α) : Yields (.some x) x := fun _ h => (Option.some.inj h).symm

theorem bind {f : α → Option β} {y : β} (h : Yields o x) (hf : Yields (f x) y) :
    Yields (o >>= f) y := by
  intro z hz
  obtain ⟨w, hw, hz⟩ := Option.bind_eq_some_iff.mp hz
  rw [h w hw] at hz
  exact hf z hz

end Yields

namespace Arithmetic

open Calculator (Symbol Operation Reader chain signed product sum atom)

def multiplies (o : Operation) : Bool := o = .mul ∨ o = .div ∨ o = .floorDiv

def adds (o : Operation) : Bool := o = .add ∨ o = .sub

/-- What follows is not a certain operation. -/
def Leaves (joins : Operation → Bool) (rest : List Symbol) : Prop :=
  ∀ o tail, rest = .operation o :: tail → joins o = false

theorem chain_leaves {joins : Operation → Bool} {operand : Reader} {n : Nat}
    {left : Calculator.Formula} {rest : List Symbol} (hrest : Leaves joins rest) :
    Yields (chain joins operand n left rest) (left, rest) := by
  cases n with
  | zero => exact .none _
  | succ n =>
    by_cases hoperation : ∃ o tail, rest = .operation o :: tail
    · obtain ⟨o, tail, rfl⟩ := hoperation
      rw [chain, hrest o tail rfl]
      exact .some _
    · rw [chain]
      · exact .some _
      · exact fun o tail heq => hoperation ⟨o, tail, heq⟩

theorem chain_joins {joins : Operation → Bool} {operand : Reader} {n : Nat}
    {left right : Calculator.Formula} {o : Operation} {following rest : List Symbol}
    {y : Calculator.Formula × List Symbol} (ho : joins o = true)
    (hright : Yields (operand following) (right, rest))
    (hrest : ∀ m, Yields (chain joins operand m (.joined o left right) rest) y) :
    Yields (chain joins operand n left (.operation o :: following)) y := by
  cases n with
  | zero => exact .none _
  | succ n =>
    rw [chain, if_pos ho]
    exact hright.bind (hrest n)

/-- No power follows. -/
def Plain (rest : List Symbol) : Prop := Leaves (· = .pow) rest

/-- The calculator reads a formula as it is meant, on each level on which it stands without
parentheses: as an operand with signs, as the start of a product, and as the start of a sum. -/
structure IsRead (env : Identifier → Int) (a : Formula) : Prop where
  asOperand {bound depth n : Nat} {rest : List Symbol} : 2 ≤ a.tightness → Plain rest →
    Yields (signed (atom bound depth) n (a.symbols env ++ rest)) (a.reading env, rest)
  asProduct {bound depth n m : Nat} {rest : List Symbol} {y : Calculator.Formula × List Symbol} :
    1 ≤ a.tightness → Plain rest →
    (∀ m, Yields (chain multiplies (signed (atom bound depth) bound) m (a.reading env) rest) y) →
    Yields (signed (atom bound depth) n (a.symbols env ++ rest) >>= fun (first, rest) =>
      chain multiplies (signed (atom bound depth) bound) m first rest) y
  asSum {bound depth m : Nat} {rest : List Symbol} {y : Calculator.Formula × List Symbol} : Plain
    rest → Leaves multiplies rest →
    (∀ m, Yields (chain adds (product bound (atom bound depth)) m (a.reading env) rest) y) →
    Yields (product bound (atom bound depth) (a.symbols env ++ rest) >>= fun (first, rest) =>
      chain adds (product bound (atom bound depth)) m first rest) y

namespace IsRead

variable {a : Formula} {env : Identifier → Int}

theorem product {bound depth : Nat} {rest : List Symbol} (h : a.IsRead env) (ha : 1 ≤ a.tightness)
    (hplain : Plain rest) (hrest : Leaves multiplies rest) :
    Yields (Calculator.product bound (atom bound depth) (a.symbols env ++ rest))
    (a.reading env, rest) :=
  h.asProduct ha hplain fun _ => chain_leaves hrest

theorem sum {bound depth : Nat} {rest : List Symbol} (h : a.IsRead env)
    (hrest : ∀ o tail, rest ≠ .operation o :: tail) :
    Yields (Calculator.sum bound (atom bound depth) (a.symbols env ++ rest))
    (a.reading env, rest) := by
  have hleaves (joins : Operation → Bool) : Leaves joins rest :=
    fun o tail heq => absurd heq (hrest o tail)
  exact h.asSum (hleaves _) (hleaves _) fun _ => chain_leaves (hleaves _)

/-- An operand by itself is a product of one part, and a product a sum of one part. -/
theorem of_operand (h : ∀ {bound depth n : Nat} {rest : List Symbol}, Plain rest →
    Yields (signed (atom bound depth) n (a.symbols env ++ rest))
    (a.reading env, rest)) : a.IsRead env where
  asOperand _ hplain := h hplain
  asProduct _ hplain hrest := (h hplain).bind (hrest _)
  asSum hplain hleaves hrest := ((h hplain).bind (chain_leaves hleaves)).bind (hrest _)

theorem of_product (ha : a.tightness = 1)
    (h : ∀ {bound depth n m : Nat} {rest : List Symbol} {y : Calculator.Formula × List Symbol},
      Plain rest →
      (∀ m, Yields (chain multiplies (signed (atom bound depth) bound) m (a.reading env) rest) y) →
      Yields (signed (atom bound depth) n (a.symbols env ++ rest) >>= fun (first, rest) =>
        chain multiplies (signed (atom bound depth) bound) m first rest) y) : a.IsRead env where
  asOperand htwo := by omega
  asProduct _ hplain hrest := h hplain hrest
  asSum hplain hleaves hrest := (h hplain fun _ => chain_leaves hleaves).bind (hrest _)

end IsRead

variable {a : Formula} {env : Identifier → Int}

theorem signed_negated {reader : Reader} {ss rest : List Symbol} {f : Calculator.Formula} {n : Nat}
    (h : ∀ n, Yields (signed reader n ss) (f, rest)) :
    Yields (signed reader n (.operation .sub :: ss)) (.negated f, rest) := by
  cases n with
  | zero => exact .none _
  | succ n =>
    rw [signed]
    exact (h n).bind (.some _)

theorem signed_atom {reader : Reader} {ss rest : List Symbol} {f : Calculator.Formula} {n : Nat}
    (hss : ∀ o tail, ss ≠ .operation o :: tail) (hplain : Plain rest)
    (h : Yields (reader ss) (f, rest)) :
    Yields (signed reader n ss) (f, rest) := by
  cases n with
  | zero => exact .none _
  | succ n =>
    rw [signed]
    · refine h.bind ?_
      rcases rest with _ | ⟨_ | o | _ | _, tail⟩
      case cons.operation =>
        cases o with
        | pow => exact absurd (hplain .pow tail rfl) (by decide)
        | _ => exact .some _
      all_goals exact .some _
    · exact fun tail heq => hss _ tail heq
    · exact fun tail heq => hss _ tail heq

theorem signed_number {bound depth n k : Nat} {rest : List Symbol} (hplain : Plain rest) :
    Yields (signed (atom bound depth) n (.number k :: rest)) (.number k, rest) := by
  refine signed_atom (fun _ _ heq => by cases heq) hplain ?_
  cases depth with
  | zero => exact .none _
  | succ depth =>
    rw [atom]
    exact .some _

theorem symbols_ne_closing {rest tail : List Symbol} :
    a.symbols env ++ rest ≠ .closing :: tail := by
  induction a generalizing rest tail with
  | number | negative | enclosed => simp [symbols]
  | leaf gap x =>
    rw [symbols, symbolsOf]
    split <;> simp
  | joined left gap j right ihleft ihright =>
    rw [symbols, List.append_assoc]
    exact ihleft

theorem signed_enclosed {bound depth n : Nat} {rest : List Symbol} (hplain : Plain rest)
    (h : a.IsRead env) :
    Yields (signed (atom bound depth) n (.opening :: (a.symbols env ++ [.closing]) ++ rest))
    (a.reading env, rest) := by
  refine signed_atom (fun _ _ heq => by cases heq) hplain ?_
  rw [List.cons_append, List.append_assoc]
  cases depth with
  | zero => exact .none _
  | succ depth =>
    rw [atom]
    · have hclosing (o : Operation) (tail : List Symbol) :
          .closing :: rest ≠ .operation o :: tail := by
        simp
      exact (h.sum hclosing).bind (.some _)
    · exact fun _ => symbols_ne_closing

/-- A formula is read as it is meant. -/
theorem isRead (h : a.WellFormed) : a.IsRead env := by
  induction a with
  | number gap n => exact .of_operand signed_number
  | leaf gap x =>
    refine .of_operand fun hplain => ?_
    rw [symbols, reading, symbolsOf]
    split
    · exact signed_negated fun _ => signed_number hplain
    · exact signed_number hplain
  | negative gap a ih =>
    exact .of_operand fun hplain => signed_negated fun _ => (ih h.1).asOperand h.2 hplain
  | enclosed gap a gap' ih => exact .of_operand fun hplain => signed_enclosed hplain (ih h)
  | joined left gap j right ihleft ihright =>
    obtain ⟨hleft, hright, htight, htighter⟩ := h
    have hassoc (rest : List Symbol) : (joined left gap j right).symbols env ++ rest =
        left.symbols env ++ (.operation j.operation :: (right.symbols env ++ rest)) := by
      rw [symbols, List.append_assoc, List.cons_append]
    have hplain (rest : List Symbol) : Plain (.operation j.operation :: rest) := by
      rintro o tail heq
      cases heq
      cases j <;> rfl
    by_cases hj : j.tightness = 1
    · have hjoins : multiplies j.operation = true := by
        cases j <;> simp_all [Joint.tightness] <;> rfl
      refine .of_product hj fun hrest hchain => ?_
      rw [hassoc]
      exact (ihleft hleft).asProduct (by omega) (hplain _) fun _ =>
        chain_joins hjoins ((ihright hright).asOperand (by omega) hrest) hchain
    · have hjoins : adds j.operation = true := by cases j <;> simp_all [Joint.tightness] <;> rfl
      have hleaves (rest : List Symbol) : Leaves multiplies (.operation j.operation :: rest) := by
        rintro o tail heq
        cases heq
        cases j <;> simp_all [Joint.tightness] <;> rfl
      have hzero : j.tightness = 0 := by cases j <;> simp_all [Joint.tightness]
      constructor
      · intro _ _ _ _ htwo
        rw [tightness] at htwo
        omega
      · intro _ _ _ _ _ _ hone
        rw [tightness] at hone
        omega
      · intro _ _ _ _ _ hrest hmultiplies hchain
        rw [hassoc]
        exact (ihleft hleft).asSum (hplain _) (hleaves _) fun _ =>
          chain_joins hjoins ((ihright hright).product (by omega) hrest hmultiplies) hchain

theorem readAll_symbols (h : a.WellFormed) :
    Yields (Calculator.readAll (a.symbols env)) (a.reading env) := by
  intro f hf
  have hsum {bound depth : Nat} :
      Yields (sum bound (atom bound depth) (a.symbols env)) (a.reading env, []) := by
    have hend (o : Operation) (tail : List Symbol) : [] ≠ .operation o :: tail :=
      (List.cons_ne_nil _ _).symm
    simpa using (isRead h).sum hend
  unfold Calculator.readAll at hf
  dsimp only at hf
  split at hf
  · rename_i g heq
    split at hf
    · rw [← Option.some.inj hf]
      exact congrArg Prod.fst (hsum _ heq)
    · cases hf
  · cases hf

/-! ## Results -/

theorem value_reading {n : Num} (h : a.amount env = some n) :
    Yields (a.reading env).value (.real n) := by
  induction a generalizing n with
  | number gap k =>
    cases h
    exact .some _
  | leaf gap x =>
    cases h
    rw [reading]
    split
    · rename_i hneg
      have habs : -((env x).natAbs : Int) = env x := by omega
      have hvalue : (Calculator.Formula.negated (.number (env x).natAbs)).value =
          some (.real (.int (env x))) := by
        change some (Calculator.Result.real (.int (-((env x).natAbs : Int)))) = _
        rw [habs]
      rw [hvalue]
      exact .some _
    · rename_i hneg
      have habs : ((env x).natAbs : Int) = env x := by omega
      rw [Calculator.Formula.value, habs]
      exact .some _
  | negative gap a ih =>
    obtain ⟨m, hm, h⟩ := Option.bind_eq_some_iff.mp h
    cases m with
    | int i =>
      cases h
      exact (ih hm).bind (.some _)
    | float x => cases h
  | enclosed gap a gap' ih => exact ih h
  | joined left gap j right ihleft ihright =>
    obtain ⟨l, hl, h⟩ := Option.bind_eq_some_iff.mp h
    obtain ⟨r, hr, h⟩ := Option.bind_eq_some_iff.mp h
    obtain ⟨hn, -⟩ := Option.filter_eq_some_iff.mp h
    refine (ihleft hl).bind ((ihright hr).bind ?_)
    have happly : Yields (((j.onNumbers l r).toOption).map Calculator.Result.real) (.real n) := by
      rw [hn]
      exact .some _
    cases j with
    | add | subtract => exact happly
    | multiply => cases l <;> cases r <;> exact happly
    | divide =>
      change Yields (if Calculator.isZero r then none else _) _
      split
      · exact .none _
      · exact happly

end Arithmetic

/-- What the shell computes for a formula is what it amounts to. -/
theorem calculated?_text {s : State} {a : Formula} {env : Identifier → Int} {n : Num} {v : Value}
    (hclear : Clear s.vars a.leaves env) (hformed : a.WellFormed) (hn : a.amount env = some n)
    (h : calculated? s a.text = some v) : v = n.literal := by
  obtain ⟨text, htext, h⟩ := Option.bind_eq_some_iff.mp h
  rw [substitute_eq hclear (eq_ok_of_toOption htext)] at h
  split at h
  · obtain ⟨result, hresult, hv⟩ := Option.bind_eq_some_iff.mp h
    obtain ⟨f, hread, hvalue⟩ := Option.bind_eq_some_iff.mp hresult
    obtain ⟨symbols, hscan, hread⟩ := Option.bind_eq_some_iff.mp hread
    have hends : Arithmetic.Ends [] := by simp [Arithmetic.Ends]
    rw [← List.append_nil (a.textWith _)] at hscan
    obtain ⟨ss, hss, rfl⟩ := Arithmetic.scan_textWith hends hscan
    rw [Calculator.scan] at hss
    cases hss
    rw [List.append_nil] at hread
    rw [Arithmetic.readAll_symbols hformed f hread] at hvalue
    rw [Arithmetic.value_reading hn result hvalue] at hv
    cases n <;> exact (Option.some.inj hv).symm
  · cases h

end Luuqad.Shell

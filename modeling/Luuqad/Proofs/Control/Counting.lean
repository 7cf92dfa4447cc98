import Luuqad.Proofs.Control.Bounded
import Luuqad.Proofs.Control.Guarded
import Luuqad.Proofs.Variables.Frame

/-!
# Counting

A counting loop with whole numbers as its bounds and its step counts them in a number of its own.
What its body does to the variable, or to those that the bounds were computed from, does not matter.
So as long as every round goes on, the loop runs its body once for each number from the first bound
in steps up to the second, both included, and it comes to an end unless the step is zero and the
first bound is not below the second.

What a round is, is said without the loop: the variable is bound to the number, and the statements
of the body are passed through, up to the last or to one that goes on with the next round
(`Counting.Round`). Each statement has limits of its own, since one that comes to an end does so
with all larger limits. The rounds of a loop are a chain of these (`Counting.Rounds`), and the
numbers are those of the library's function for ranges, whose end is not included (`loop_counts`).
-/

namespace Luuqad

open Run

namespace Counting

variable {name : Value} {body : List Node} {s e t i : Int}

/-! ## The numbers of a loop -/

/-- A loop that goes to `e` in steps of `t` has not passed its end at the number `i`. -/
def Due (e t i : Int) : Prop := if 0 < t then i ≤ e else e ≤ i

/-- The end of the range that goes to `e` in steps of `t`. It is not included in the range. -/
def rangeEnd (e t : Int) : Int := if 0 < t then e + 1 else e - 1

/-- The numbers from `s` to `e` in steps of `t`. -/
def numbers (s e t : Int) : List Int :=
  if t = 0 then []
    else (List.range (Library.rangeSize s (rangeEnd e t) t)).map fun (k : Nat) => s + k * t

theorem due_iff : Due e t i ↔ 0 < Lockstep.ahead t i e := by
  unfold Due Lockstep.ahead
  split <;> omega

theorem toNat_fdiv_add {a d : Int} (hd : 0 < d) (ha : 0 ≤ a) :
    ((a + d).fdiv d).toNat = (a.fdiv d).toNat + 1 := by
  have hquotient : (a + 1 * d) / d = a / d + 1 := Int.add_mul_ediv_right a 1 (by omega)
  have hnonneg : 0 ≤ a / d := Int.ediv_nonneg ha (Int.le_of_lt hd)
  rw [Int.fdiv_eq_ediv_of_nonneg _ (Int.le_of_lt hd),
    Int.fdiv_eq_ediv_of_nonneg _ (Int.le_of_lt hd)]
  rw [Int.one_mul] at hquotient
  omega

theorem toNat_fdiv_add_of_neg {a d : Int} (hd : 0 < d) (ha : a < 0) :
    ((a + d).fdiv d).toNat = 0 := by
  have hquotient : (a + d) / d < 1 := Int.ediv_lt_of_lt_mul hd (by omega)
  rw [Int.fdiv_eq_ediv_of_nonneg _ (Int.le_of_lt hd)]
  omega

theorem rangeSize_of_due (ht : t ≠ 0) (h : Due e t s) :
    Library.rangeSize s (rangeEnd e t) t = Library.rangeSize (s + t) (rangeEnd e t) t + 1 := by
  unfold Due at h
  unfold Library.rangeSize rangeEnd
  by_cases hpos : 0 < t
  · simp only [if_pos hpos] at h ⊢
    have hthis : e + 1 - s + t - 1 = e - s + t := by omega
    have hnext : e + 1 - (s + t) + t - 1 = e - s := by omega
    rw [hthis, hnext, toNat_fdiv_add hpos (by omega)]
  · simp only [if_neg hpos] at h ⊢
    have hthis : s - (e - 1) - t - 1 = s - e + -t := by omega
    have hnext : s + t - (e - 1) - t - 1 = s - e := by omega
    rw [hthis, hnext, toNat_fdiv_add (by omega) (by omega)]

theorem rangeSize_of_not_due (ht : t ≠ 0) (h : ¬Due e t s) :
    Library.rangeSize s (rangeEnd e t) t = 0 := by
  unfold Due at h
  unfold Library.rangeSize rangeEnd
  by_cases hpos : 0 < t
  · simp only [if_pos hpos] at h ⊢
    have hthis : e + 1 - s + t - 1 = e - s + t := by omega
    rw [hthis, toNat_fdiv_add_of_neg hpos (by omega)]
  · simp only [if_neg hpos] at h ⊢
    have hthis : s - (e - 1) - t - 1 = s - e + -t := by omega
    rw [hthis, toNat_fdiv_add_of_neg (by omega) (by omega)]

theorem numbers_of_due (ht : t ≠ 0) (h : Due e t s) : numbers s e t = s :: numbers (s + t) e t := by
  unfold numbers
  rw [if_neg ht, if_neg ht, rangeSize_of_due ht h, List.range_succ_eq_map]
  simp [Function.comp_def, Int.add_mul, Int.add_assoc, Int.add_comm t]

theorem numbers_of_not_due (h : ¬Due e t s) : numbers s e t = [] := by
  unfold numbers
  split
  · rfl
  · rename_i ht
    rw [rangeSize_of_not_due ht h]
    rfl

theorem eq_of_numbers {j : Int} {values : List Int} (h : numbers s e t = j :: values) :
    t ≠ 0 ∧ Due e t s ∧ j = s ∧ values = numbers (s + t) e t := by
  have ht : t ≠ 0 := by
    rintro rfl
    cases h
  have hdue : Due e t s := by
    by_cases hdue : Due e t s
    · exact hdue
    · rw [numbers_of_not_due hdue] at h
      cases h
  rw [numbers_of_due ht hdue] at h
  cases h
  exact ⟨ht, hdue, rfl, rfl⟩

/-! ## Rounds -/

/-- In the state `u` the value stands for a name: it is the name itself, or else it can be a key and
is written like the name. -/
inductive StandsFor (u : State) : Value → String → Prop
  | text (x : String) : StandsFor u (.str x) x
  | key {v : Value} {x : String} : (∀ y, v ≠ .str y) → v.unhashable? = none →
    v.text u.heap = .ok x → StandsFor u v x

/-- The statements run in order from one state to another, each with limits of its own: all of them
come to their end, or those before one that goes on with the next round do. -/
inductive Passes : List Node → State → State → Prop
  | done (u : State) : Passes [] u u
  | step {n : Node} {rest : List Node} {x : Value} {u v w : State} (l : Limits) :
    l.evaluator.execute n u = .ok x v → Passes rest v w → Passes (n :: rest) u w
  | skip {n : Node} {rest : List Node} {u v : State} (l : Limits) :
    l.evaluator.execute n u = .error .continuing v → Passes (n :: rest) u v

/-- A round with the number `i` that goes on: it starts with the variable bound to the number and
all else as it was, and it passes through the body. -/
def Round (name : Value) (body : List Node) (i : Int) (u w : State) : Prop :=
  ∃ x, StandsFor u name x ∧ (u.withVariable x (.int i)).vars.get? x = some (.int i) ∧
    Passes body (u.withVariable x (.int i)) w

/-- Rounds with these numbers, one after the other, lead from one state to another. -/
inductive Rounds (name : Value) (body : List Node) : List Int → State → State → Prop
  | nil (u : State) : Rounds name body [] u u
  | cons {i : Int} {values : List Int} {u v w : State} :
    Round name body i u v → Rounds name body values v w → Rounds name body (i :: values) u w

/-- Every round that a loop from `s` to `e` in steps of `t` comes to from the state `u` goes on. -/
def GoesOn (name : Value) (body : List Node) (s e t : Int) (u : State) : Prop :=
  ∀ (k : Nat) (v : State), Rounds name body ((List.range k).map fun (j : Nat) => s + j * t) u v →
    Due e t (s + k * t) → ∃ w, Round name body (s + k * t) v w

theorem GoesOn.first {u : State} (h : GoesOn name body s e t u) (hdue : Due e t s) :
    ∃ v, Round name body s u v ∧ GoesOn name body (s + t) e t v := by
  obtain ⟨v, hround⟩ := h 0 u (.nil u) (by simpa using hdue)
  have hfirst : Round name body s u v := by simpa using hround
  refine ⟨v, hfirst, fun k w hrounds hdue => ?_⟩
  have hshift (j : Nat) : s + t + j * t = s + (j + 1 : Nat) * t := by
    simp [Int.add_mul, Int.add_assoc, Int.add_comm t]
  have hvalues : ((List.range (k + 1)).map fun (j : Nat) => s + j * t) =
      s :: (List.range k).map fun (j : Nat) => s + t + j * t := by
    simp [List.range_succ_eq_map, Function.comp_def, hshift]
  rw [hshift] at hdue ⊢
  exact h (k + 1) w (hvalues ▸ .cons hfirst hrounds) hdue

theorem GoesOn.rounds {u : State} (h : GoesOn name body s e t u) :
    ∃ v, Rounds name body (numbers s e t) u v := by
  induction hvalues : numbers s e t generalizing s u with
  | nil => exact ⟨u, .nil u⟩
  | cons j values ih =>
    obtain ⟨-, hdue, rfl, rfl⟩ := eq_of_numbers hvalues
    obtain ⟨v, hround, hrest⟩ := h.first hdue
    obtain ⟨w, hw⟩ := ih hrest rfl
    exact ⟨w, .cons hround hw⟩

/-! ## Rounds as they are run -/

theorem nameOf_of_not_text (h : ∀ y, name ≠ .str y) :
    nameOf name = name.unhashable?.elim (text name) fun t => fail (.unhashable t) := by
  unfold nameOf
  split
  · exact absurd rfl (h _)
  · rename_i hkey
    rw [hkey]
    rfl
  · rename_i hkey
    rw [hkey]
    rfl

theorem nameOf_eq_ok_iff {u v : State} {x : String} :
    nameOf name u = .ok x v ↔ StandsFor u name x ∧ v = u := by
  constructor
  · intro h
    by_cases hname : ∃ y, name = .str y
    · obtain ⟨y, rfl⟩ := hname
      cases h
      exact ⟨.text x, rfl⟩
    · have hne : ∀ y, name ≠ .str y := fun y hy => hname ⟨y, hy⟩
      rw [nameOf_of_not_text hne] at h
      cases hkey : name.unhashable? with
      | some t =>
        rw [hkey] at h
        cases h
      | none =>
        rw [hkey] at h
        rcases text_cases name u with ⟨y, htext, hrun⟩ | ⟨f, -, hrun⟩
        · cases hrun.symm.trans h
          exact ⟨.key hne hkey htext, rfl⟩
        · cases hrun.symm.trans h
  · rintro ⟨hstands, rfl⟩
    cases hstands with
    | text => rfl
    | key hne hkey htext =>
      rw [nameOf_of_not_text hne, hkey]
      exact act_ofExcept_ok v htext

theorem Passes.round {u w : State} (h : Passes body u w) :
    Limits.Finally fun l => l.evaluator.round body u = .ok true w := by
  have hexecute {n : Node} {l m : Limits} (hlm : l ≤ m) := (Limits.outlastedBy hlm).execute n
  induction h with
  | done u => exact .of_forall fun l => rfl
  | step l hfirst hrest ih =>
    refine ((Limits.finally_of_ok hexecute hfirst).and ih).mono fun m hm => ?_
    rw [Evaluator.round_cons_ok hm.1]
    exact hm.2
  | skip l hfirst =>
    refine (Limits.finally_of_eq hexecute hfirst ?_).mono fun m hm => ?_
    · rintro ⟨u, hu⟩
      cases hu
    · rw [Evaluator.round_cons_error hm]
      rfl

/-- The statements of a round that goes on are passed through, whatever the limits. -/
theorem passes_of_round {l : Limits} {u w : State} (h : l.evaluator.round body u = .ok true w) :
    Passes body u w := by
  induction body generalizing u with
  | nil =>
    cases h
    exact .done _
  | cons n rest ih =>
    cases hfirst : l.evaluator.execute n u with
    | ok x v =>
      rw [Evaluator.round_cons_ok hfirst] at h
      exact .step l hfirst (ih h)
    | error e v =>
      rw [Evaluator.round_cons_error hfirst] at h
      cases e with
      | continuing =>
        cases h
        exact .skip l hfirst
      | breaking | fault f | returning x | stopped | exhausted => cases h

theorem Round.countRound {u w : State} (h : Round name body i u w) :
    Limits.Finally fun l => l.evaluator.countRound name body (.int i) u = .ok true w := by
  obtain ⟨x, hname, -, hpasses⟩ := h
  refine hpasses.round.mono fun l hl => ?_
  exact (bind_ok (nameOf_eq_ok_iff.mpr ⟨hname, rfl⟩)).trans hl

/-- A round that goes on with some limits is one that starts with the variable bound to the number
and passes through the body, and the other way round. -/
theorem round_iff {u w : State} : Round name body i u w ↔
    ∃ l : Limits, l.evaluator.countRound name body (.int i) u = .ok true w := by
  constructor
  · intro h
    obtain ⟨l, hl⟩ := h.countRound
    exact ⟨l, hl l ⟨Nat.le_refl _, Nat.le_refl _⟩⟩
  · rintro ⟨l, hl⟩
    obtain ⟨x, v, hname, hrest⟩ := of_bind_ok hl
    obtain ⟨hstands, rfl⟩ := nameOf_eq_ok_iff.mp hname
    have hbound : (v.withVariable x (.int i)).vars.get? x = some (.int i) :=
      (NameTable.get?_put _ _ _ _).trans (if_pos rfl)
    exact ⟨x, hstands, hbound, passes_of_round hrest⟩

theorem Rounds.countRounds {u v : State} (h : Rounds name body (numbers s e t) u v)
    (hmoves : t ≠ 0 ∨ s < e) :
    Limits.Finally fun l => ∀ fuel, (numbers s e t).length < fuel →
      l.evaluator.countRounds name body (Num.int t).toward (.int e) (.int t) (.int s)
        (.int s) fuel u = .ok () v := by
  generalize hvalues : numbers s e t = values at h ⊢
  induction h generalizing s with
  | nil u =>
    have hdue : ¬0 < Lockstep.ahead t s e := by
      rw [← due_iff]
      intro hdue
      by_cases ht : t = 0
      · unfold Due at hdue
        rw [if_neg (by omega)] at hdue
        omega
      · rw [numbers_of_due ht hdue] at hvalues
        cases hvalues
    refine .of_forall fun l fuel hfuel => ?_
    obtain ⟨fuel, rfl⟩ := Nat.exists_eq_add_of_lt hfuel
    rw [Lockstep.countRounds_succ _ _ _ rfl rfl, if_neg hdue]
    rfl
  | @cons j values u v w hround hrest ih =>
    obtain ⟨ht, hdue, rfl, rfl⟩ := eq_of_numbers hvalues
    refine (hround.countRound.and (ih (.inl ht) rfl)).mono fun l hl fuel hfuel => ?_
    obtain ⟨fuel, rfl⟩ := Nat.exists_eq_add_of_lt hfuel
    rw [Lockstep.countRounds_succ _ _ _ rfl rfl, if_pos (due_iff.mp hdue), bind_ok hl.1]
    exact hl.2 _ (by simp; omega)

theorem GoesOn.exhausted {u : State} (h : GoesOn name body s e 0 u) (hstill : e ≤ s) (l : Limits)
    (fuel : Nat) :
    Exhausted
      (l.evaluator.countRounds name body (Num.int 0).toward (.int e) (.int 0) (.int s)
        (.int s) fuel u) := by
  induction fuel generalizing s u with
  | zero => exact ⟨u, rfl⟩
  | succ fuel ih =>
    have hdue : Due e 0 s := hstill
    obtain ⟨v, hround, hrest⟩ := h.first hdue
    obtain ⟨k, hround⟩ := round_iff.mp hround
    rw [Lockstep.countRounds_succ _ _ _ rfl rfl, if_pos (due_iff.mp hdue)]
    rcases Limits.exhausted_or_of_ok
      (fun hlm => (Limits.outlastedBy hlm).countRound name body (.int s)) hround l
      with ⟨w, hw⟩ | hok
    · exact ⟨w, bind_error hw⟩
    · rw [bind_ok hok]
      exact ih hrest (by omega)

/-! ## Whole loops -/

section Whole

variable {n : Node} {u v w : State}

theorem execute_loop (hkind : n.kind = .loop) (l : Limits) :
    (Evaluator.upTo l.rounds (l.depth + 1)).execute n = (do l.evaluator.loop n; return .null) := by
  show l.evaluator.statement n = _
  unfold Evaluator.statement
  rw [hkind]

theorem loop_of_heading {l : Limits}
    (h : l.evaluator.heading n u = .ok (.int s, .int e, .int t, body) v) :
    l.evaluator.loop n u =
      l.evaluator.countRounds n.value body (Num.int t).toward (.int e) (.int t) (.int s)
        (.int s) l.rounds v := by
  have hrounds : l.evaluator.rounds = l.rounds := Evaluator.rounds_upTo l.rounds l.depth
  rw [Evaluator.loop_eq, bind_ok h, ← hrounds]
  rfl

/-- A loop that is not at a standstill comes to the end of its rounds. -/
theorem Rounds.execute (hkind : n.kind = .loop) {l : Limits}
    (hheading : l.evaluator.heading n u = .ok (.int s, .int e, .int t, body) v)
    (h : Rounds n.value body (numbers s e t) v w) (hmoves : t ≠ 0 ∨ s < e) :
    ∃ m : Limits, m.evaluator.execute n u = .ok .null w := by
  have hheading := Limits.finally_of_ok (fun hlm => (Limits.outlastedBy hlm).heading n) hheading
  have hrounds := Limits.Finally.rounds_ge ((numbers s e t).length + 1)
  obtain ⟨m, hm⟩ := (hheading.and (h.countRounds hmoves)).and hrounds
  obtain ⟨⟨hheading, hcount⟩, hrounds⟩ := hm m ⟨Nat.le_refl _, Nat.le_refl _⟩
  have hloop : m.evaluator.loop n u = .ok () w :=
    (loop_of_heading hheading).trans (hcount _ hrounds)
  refine ⟨⟨m.depth + 1, m.rounds⟩, ?_⟩
  show (Evaluator.upTo m.rounds (m.depth + 1)).execute n u = _
  rw [execute_loop hkind, bind_ok hloop]
  rfl

/-- A loop at a standstill is exhausted, whatever the limits. -/
theorem GoesOn.execute (hkind : n.kind = .loop) {l : Limits}
    (hheading : l.evaluator.heading n u = .ok (.int s, .int e, .int 0, body) v)
    (h : GoesOn n.value body s e 0 v) (hstill : e ≤ s) (m : Limits) :
    Exhausted (m.evaluator.execute n u) := by
  obtain ⟨depth, rounds⟩ := m
  cases depth with
  | zero => exact ⟨u, rfl⟩
  | succ depth =>
    let m : Limits := ⟨depth, rounds⟩
    have hloop : Exhausted (m.evaluator.loop n u) := by
      rcases Limits.exhausted_or_of_ok (fun hlm => (Limits.outlastedBy hlm).heading n) hheading m
        with ⟨w, hw⟩ | hok
      · rw [Evaluator.loop_eq]
        exact ⟨w, bind_error hw⟩
      · rw [loop_of_heading hok]
        exact h.exhausted hstill m m.rounds
    obtain ⟨w, hw⟩ := hloop
    refine ⟨w, ?_⟩
    show (Evaluator.upTo m.rounds (m.depth + 1)).execute n u = _
    rw [execute_loop hkind, bind_error hw]

theorem heading_vars {l : Limits} {parts : Value × Value × Value × List Node}
    (h : l.evaluator.heading n u = .ok parts v) : v.vars = u.vars := by
  have hevaluate (m : Node) : Keeps (.varsAre u.vars) (l.evaluator.evaluate m) :=
    Evaluator.keeps_evaluate_varsAre u.vars l.rounds l.depth m
  have hchild : l.evaluator.child = Node.child := Evaluator.child_upTo l.rounds l.depth
  have hheading : Keeps (.varsAre u.vars) (l.evaluator.heading n) := by
    unfold Evaluator.heading
    rw [hchild]
    refine .child_bind fun first _ => .bind (hevaluate first) fun start => ?_
    refine .child_bind fun last _ => .bind (hevaluate last) fun stop => ?_
    cases n.children.drop 2 with
    | nil => exact .pure _
    | cons third rest => exact .ite (.bind (hevaluate third) fun _ => .pure _) (.pure _)
  have hmet := (hheading u rfl).2
  rw [h] at hmet
  exact hmet

end Whole

/-! ## Ranges of the library -/

theorem range_numbers (ht : t ≠ 0) (h : Heap) :
    if Operator.sizeLimit < (numbers s e t).length then
      ∃ f h', Library.range [.int s, .int (rangeEnd e t), .int t] h = .error f h'
    else ∃ r h', Library.range [.int s, .int (rangeEnd e t), .int t] h = .ok (.list r) h' ∧
      (h'.items r).toList = (numbers s e t).map .int := by
  have hrange : Library.range [.int s, .int (rangeEnd e t), .int t] =
      (do Action.newList (← Action.ofExcept (Library.rangeOf s (rangeEnd e t) t)).toArray) := rfl
  have hlength : (numbers s e t).length = Library.rangeSize s (rangeEnd e t) t := by
    simp [numbers, if_neg ht]
  rw [hrange, hlength]
  split
  · rename_i hlong
    have hfails : ∃ f, Library.rangeOf s (rangeEnd e t) t = .error f := by
      unfold Library.rangeOf
      simp only [if_neg ht, if_pos hlong]
      split
      · exact ⟨_, rfl⟩
      · exact ⟨_, rfl⟩
    obtain ⟨f, hf⟩ := hfails
    rw [hf]
    exact ⟨_, h, rfl⟩
  · rename_i hshort
    have hvalues : Library.rangeOf s (rangeEnd e t) t = .ok ((numbers s e t).map .int) := by
      have hsize : ¬Number.pow2 63 ≤ Library.rangeSize s (rangeEnd e t) t := by
        have hpow : Operator.sizeLimit < Number.pow2 63 := by decide
        omega
      simp [Library.rangeOf, numbers, ht, hsize, hshort]
    rw [hvalues]
    refine ⟨_, _, rfl, ?_⟩
    simp [Heap.items, Heap.read]

end Counting

/-- For every counting loop whose bounds and step are whole numbers `s`, `e` and `t`, every state,
and every body that goes on in each round that the loop comes to: the loop comes to an end if and
only if `t` is not zero or `s` is below `e`, and then it runs its body once for each of the numbers
from `s` to `e` in steps of `t`, in order, each time with the variable bound to the number. If there
are none, all variables are bound as they were. If `t` is not zero, these numbers are the list that
the library makes of the range from `s` to the end after `e`, unless that list would be too long. -/
theorem loop_counts (n : Node) (hkind : n.kind = .loop) (u v : State) (s e t : Int)
    (body : List Node)
    (hheading : ∃ l : Limits, l.evaluator.heading n u = .ok (.int s, .int e, .int t, body) v)
    (hgoes : Counting.GoesOn n.value body s e t v) :
    ((∃ l : Limits, ¬Exhausted (l.evaluator.execute n u)) ↔ t ≠ 0 ∨ s < e) ∧
    (∀ l : Limits, ¬Exhausted (l.evaluator.execute n u) →
      ∃ w, l.evaluator.execute n u = .ok .null w ∧
        Counting.Rounds n.value body (Counting.numbers s e t) v w ∧
        (Counting.numbers s e t = [] → w.vars = u.vars)) ∧
    (t = 0 → Counting.numbers s e t = []) ∧
    (t ≠ 0 → ∀ h : Heap, if Operator.sizeLimit < (Counting.numbers s e t).length then
        ∃ f h', Library.range [.int s, .int (if 0 < t then e + 1 else e - 1), .int t] h =
          .error f h'
      else ∃ r h', Library.range [.int s, .int (if 0 < t then e + 1 else e - 1), .int t] h =
        .ok (.list r) h' ∧
        (h'.items r).toList = (Counting.numbers s e t).map .int) := by
  obtain ⟨l₀, hheading⟩ := hheading
  have hends (l : Limits) (hl : ¬Exhausted (l.evaluator.execute n u)) : t ≠ 0 ∨ s < e := by
    by_cases hmoves : t ≠ 0 ∨ s < e
    · exact hmoves
    · obtain ⟨rfl, hstill⟩ : t = 0 ∧ e ≤ s := by omega
      exact absurd (hgoes.execute hkind hheading hstill l) hl
  obtain ⟨w, hrounds⟩ := hgoes.rounds
  refine ⟨⟨fun ⟨l, hl⟩ => hends l hl, fun hmoves => ?_⟩, fun l hl => ?_, fun ht => if_pos ht,
    Counting.range_numbers⟩
  · obtain ⟨l, hl⟩ := hrounds.execute hkind hheading hmoves
    exact ⟨l, hl ▸ not_exhausted_ok⟩
  · obtain ⟨m, hm⟩ := hrounds.execute hkind hheading (hends l hl)
    have hexecute {l m : Limits} (hlm : l ≤ m) := (Limits.outlastedBy hlm).execute n
    refine ⟨w, (Limits.exhausted_or_of_ok hexecute hm l).resolve_left hl, hrounds, fun hnone => ?_⟩
    rw [hnone] at hrounds
    cases hrounds
    exact Counting.heading_vars hheading

/-- A loop from one to four in steps of two, whose body binds the variable to another value in each
round. -/
theorem loop_counts_of_rebinding :
    let literal (i : Int) : Node := { kind := .literal, value := .int i }
    let block (nodes : List Node) : Node := { kind := .block, children := nodes }
    let body : List Node :=
      [{ kind := .tryCatch, value := .str "i",
         children := [block [{ kind := .continueLoop }], block []] },
        { kind := .continueLoop }]
    let n : Node :=
      { kind := .loop, value := .str "i", children := [literal 1, literal 4, literal 2] ++ body }
    Counting.GoesOn (.str "i") body 1 4 2 {} ∧ ∃ (l : Limits) (w : State),
      l.evaluator.execute n {} = .ok .null w ∧
      Counting.Rounds (.str "i") body [1, 3] {} w := by
  intro literal block body n
  have hgoes : Counting.GoesOn (.str "i") body 1 4 2 {} :=
    fun k v _ _ => ⟨_, Counting.round_iff.mpr ⟨⟨9, 9⟩, rfl⟩⟩
  have hheading : ∃ l : Limits, l.evaluator.heading n {} = .ok (.int 1, .int 4, .int 2, body) {} :=
    ⟨⟨9, 9⟩, rfl⟩
  obtain ⟨hends, hcounts, -⟩ := loop_counts n rfl {} {} 1 4 2 body hheading hgoes
  obtain ⟨l, hl⟩ := hends.mpr (.inl (by decide))
  obtain ⟨w, hexecute, hrounds, -⟩ := hcounts l hl
  exact ⟨hgoes, l, w, hexecute, hrounds⟩

end Luuqad

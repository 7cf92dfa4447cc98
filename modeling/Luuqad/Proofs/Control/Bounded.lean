import Luuqad.Proofs.Lockstep.Statements
import Luuqad.Proofs.Run.Narrow

/-!
# Bounded programs come to an end

A program without loops with a condition, without functions of its own and without imports can only
go on for ever in a counting loop. If each counting loop that it reaches has whole numbers for its
bounds and its step, and does not stand still, the program comes to an end (`program_terminates`):
once the limits are large enough, the run no longer depends on them, and it is not exhausted.

Which loops a run reaches is said by a watcher (`Evaluator.loopsWatched`) that is told of each
counting loop before its first round. The run reaches only loops of some sort if it makes no
difference what the watcher does at the others (`ReachesOnly`). The proof takes a watcher that stops
the run there; with it every run comes to an end, whatever loops it reaches, by induction on the
size of the tree and on what is left to count.
-/

namespace Luuqad

open Run

/-! ## The statement -/

/-- No node of the tree has one of the kinds. -/
inductive Node.Without (kinds : List NodeKind) : Node → Prop
  | intro {n : Node} : n.kind ∉ kinds → (∀ m ∈ n.children, m.Without kinds) → n.Without kinds

@[simp]
theorem Node.without_mk {kinds : List NodeKind} {kind : NodeKind} {value : Value}
    {children : List Node} {declared : Option TokenKind} {constant : Bool}
    {line column : Option Nat} :
    Without kinds ⟨kind, value, children, declared, constant, line, column⟩ ↔
      kind ∉ kinds ∧ ∀ m ∈ children, m.Without kinds := by
  constructor
  · rintro ⟨hkind, hchildren⟩
    exact ⟨hkind, hchildren⟩
  · exact fun h => .intro h.1 h.2

/-- What is done when a counting loop with given bounds and step is reached. -/
abbrev LoopWatch := (start stop step : Value) → Run Unit

namespace Evaluator

/-- A statement, where a watcher is told of counting loops. -/
def statementWatched (self : Evaluator) (watch : LoopWatch) (n : Node) : Run Value := do
  if n.kind = .loop then
    let (start, stop, step, body) ← self.heading n
    watch start stop step
    self.counting n start stop step body
    return .null
  else self.statement n

/-- The evaluator of `Evaluator.upTo`, with a watcher. -/
def loopsWatched (watch : LoopWatch) (rounds : Nat) : Nat → Evaluator
  | 0 => ⟨fun _ => throw .exhausted, fun _ => throw .exhausted, rounds, Node.child⟩
  | depth + 1 =>
    let inner := loopsWatched watch rounds depth
    ⟨inner.expression, inner.statementWatched watch, rounds, Node.child⟩

end Evaluator

/-- The run of a program reaches only counting loops with such bounds and such a step: what a
watcher does at others makes no difference. -/
def Node.ReachesOnly (n : Node) (s : State) (p : (start stop step : Value) → Prop) : Prop :=
  ∀ watch : LoopWatch, (∀ start stop step, p start stop step → watch start stop step = pure ()) →
    ∀ l : Limits, (Evaluator.loopsWatched watch l.rounds l.depth).program n s =
      l.evaluator.program n s

/-- The bounds and the step are whole numbers, and a loop with them does not stand still. -/
def Counts (start stop step : Value) : Prop :=
  match start.num?, stop.num?, step.num? with
  | some (.int i), some (.int j), some (.int d) => d ≠ 0 ∨ i < j
  | _, _, _ => False

instance (start stop step : Value) : Decidable (Counts start stop step) := by
  unfold Counts
  split <;> infer_instance

theorem Counts.numbers {start stop step : Value} (h : Counts start stop step) :
    ∃ i j d : Int, start.num? = some (.int i) ∧ stop.num? = some (.int j) ∧
    step.num? = some (.int d) ∧
      (d ≠ 0 ∨ i < j) := by
  unfold Counts at h
  split at h
  · rename_i i j d hi hj hd
    exact ⟨i, j, d, hi, hj, hd, h⟩
  · exact h.elim

/-! ## One run -/

/-- A run beside itself, of a program that has no functions of its own. -/
def Lockstep.alone : Lockstep where
  rel s t := t = s ∧ s.functions = []
  tires := False
  seen _ := True
  callable _ := False
  abreast h := by
    obtain ⟨rfl, -⟩ := h
    exact ⟨rfl, rfl, rfl, rfl, rfl, rfl⟩
  files _ h := by rw [h.1]
  quiet {s s' t t'} h hs ht habreast := by
    obtain ⟨rfl, hfunctions⟩ := h
    refine ⟨habreast.eq ?_ ?_ ?_ ?_, hs.functions.trans hfunctions⟩
    · exact ht.vars.trans hs.vars.symm
    · exact ht.types.trans hs.types.symm
    · exact ht.constants.trans hs.constants.symm
    · exact ht.folder.trans hs.folder.symm
  function h hget := by
    rw [h.2] at hget
    cases hget
  define _ _ hf := hf.elim
  lookup h _ := by rw [h.1]
  noted h _ := by rw [h.1]
  constant h _ := by rw [h.1]
  setVariable v h _ := ⟨by rw [h.1], h.2⟩
  setType type h _ := ⟨by rw [h.1], h.2⟩
  setConstant h _ := ⟨by rw [h.1], h.2⟩
  restore h h' := ⟨by rw [h.1, h'.1], h'.2⟩

namespace Lockstep

theorem Follows.deeper {L : Lockstep} {α : Type} {x : Limits → Run α} (hx : L.Follows x) :
    L.Follows fun l => x ⟨l.depth - 1, l.rounds⟩ := by
  intro s t hst
  obtain ⟨p, q, hpq, l, hl⟩ := hx s t hst
  refine ⟨p, q, hpq, ⟨l.depth + 1, l.rounds⟩, fun m hm => hl _ ?_⟩
  rw [Limits.le_def] at hm ⊢
  dsimp only at hm ⊢
  omega

/-! ## Items -/

section Items

variable {r : Ref} {step : Value → Run (List Value)} {i fuel : Nat} {s : State}

theorem get_bind_apply {β : Type} (f : State → Run β) : (get >>= f : Run β) s = f s s := rfl

theorem eachItem_of_none (h : (s.heap.items r)[i]? = none) :
    Library.eachItem r step i (fuel + 1) s = .ok [] s := by
  simp only [Library.eachItem, get_bind_apply, h]
  rfl

theorem eachItem_of_some {v : Value} (h : (s.heap.items r)[i]? = some v) :
    Library.eachItem r step i (fuel + 1) s =
      (step v >>= fun here => Library.eachItem r step (i + 1) fuel >>=
        fun rest => pure (here ++ rest)) s := by
  simp only [Library.eachItem, get_bind_apply, h]

/-- The items of a list are all gone through, since none are added. -/
theorem eachItem_ends {keep : Value → Value → Run (List Value)} (hkeep : Judges keep) (f : Builtin)
    {left : Nat} (hs : s.functions = []) (hleft : (s.heap.items r).size ≤ i + left) :
    ∃ p, alone.Matched p p ∧
      ∀ fuel, left < fuel →
        Library.eachItem r (fun v => do keep v (← f.callOne v)) i fuel s = p := by
  induction left generalizing i s with
  | zero =>
    have hnone : (s.heap.items r)[i]? = none := Array.getElem?_eq_none hleft
    refine ⟨.ok [] s, .ok ⟨rfl, hs⟩, fun fuel hfuel => ?_⟩
    obtain ⟨fuel, rfl⟩ := Nat.exists_eq_add_of_lt hfuel
    exact eachItem_of_none hnone
  | succ left ih =>
    cases hv : (s.heap.items r)[i]? with
    | none =>
      refine ⟨.ok [] s, .ok ⟨rfl, hs⟩, fun fuel hfuel => ?_⟩
      obtain ⟨fuel, rfl⟩ := Nat.exists_eq_add_of_lt hfuel
      exact eachItem_of_none hv
    | some v =>
      have hcall := follows_const.mp (keeps_callOne (L := alone) f v) s s ⟨rfl, hs⟩
      have hnarrows := f.narrows_callOne v s
      cases hrun : f.callOne v s with
      | error e t =>
        rw [hrun] at hcall
        refine ⟨.error e t, ?_, fun fuel hfuel => ?_⟩
        · cases hcall with
          | error hst he => exact .error hst he
        · obtain ⟨fuel, rfl⟩ := Nat.exists_eq_add_of_lt hfuel
          exact (eachItem_of_some hv).trans (bind_error (bind_error hrun))
      | ok w t =>
        rw [hrun] at hcall
        obtain ⟨judge, hjudge⟩ := hkeep v w
        have hstep : (do keep v (← f.callOne v)) s = .ok (judge t.heap) t := by
          rw [bind_ok hrun, hjudge]
        have ht : t.functions = [] := by
          cases hcall with
          | ok hst => exact hst.2
        have hsize := (hnarrows w t hrun).items (Heap.lt_size_of_item hv)
        obtain ⟨p, hp, hrest⟩ := ih (i := i + 1) ht (by omega)
        cases hp with
        | @ok rest u _ hu =>
          refine ⟨.ok (judge t.heap ++ rest) u, .ok hu, fun fuel hfuel => ?_⟩
          obtain ⟨fuel, rfl⟩ := Nat.exists_eq_add_of_lt hfuel
          have hrest' := hrest (left + 1 + fuel) (by omega)
          exact (eachItem_of_some hv).trans ((bind_ok hstep).trans (bind_ok hrest'))
        | @error e u _ hu he =>
          refine ⟨.error e u, .error hu he, fun fuel hfuel => ?_⟩
          obtain ⟨fuel, rfl⟩ := Nat.exists_eq_add_of_lt hfuel
          have hrest' := hrest (left + 1 + fuel) (by omega)
          exact (eachItem_of_some hv).trans ((bind_ok hstep).trans (bind_error hrest'))

end Items

/-! ## Counting -/

/-- How many numbers there are still to come, at most. -/
def ahead (d i j : Int) : Nat := if 0 < d then (j + 1 - i).toNat else (i + 1 - j).toNat

theorem act_relate {d i j : Int} {v stop : Value} (hv : v.num? = some (.int i))
    (hstop : stop.num? = some (.int j)) :
    Run.act (Action.reading fun h => (Num.int d).toward.relate h v stop) =
      pure (decide (0 < ahead d i j)) := by
  have hrelate (rel : Relation) (h : Heap) : rel.relate h v stop =
      .ok (rel.holds (compare i j)) := by
    unfold Relation.relate Relation.relateUpTo
    simp only [hv, hstop]
    rfl
  have htoward : (Num.int d).toward.holds (compare i j) = decide (0 < ahead d i j) := by
    unfold Num.toward ahead
    simp only [Num.compare?, Option.some.injEq, Int.compare_eq_lt]
    split
    · rw [Bool.eq_iff_iff]
      simp only [Relation.holds, bne_iff_ne, ne_eq, Int.compare_eq_gt, decide_eq_true_iff]
      omega
    · rw [Bool.eq_iff_iff]
      simp only [Relation.holds, bne_iff_ne, ne_eq, Int.compare_eq_lt, decide_eq_true_iff]
      omega
  simp only [hrelate, htoward]
  rfl

theorem act_add (i d : Int) :
    Run.act (Action.ofExcept ((Num.int i).add (.int d))) = pure (.int (i + d)) := rfl

theorem act_number (i : Int) : Run.act (Action.number (.int i)) = pure (.int i) := rfl

theorem countRounds_succ (self : Evaluator) (name : Value) (body : List Node) {d i j : Int}
    {v stop : Value} (hv : v.num? = some (.int i)) (hstop : stop.num? = some (.int j))
    (fuel : Nat) :
    self.countRounds name body (Num.int d).toward stop (.int d) v (.int i) (fuel + 1) =
      if 0 < ahead d i j then do
        if ← self.countRound name body v then
          self.countRounds name body (Num.int d).toward stop (.int d) (.int (i + d))
            (.int (i + d)) fuel
      else pure () := by
  simp only [Evaluator.countRounds, act_relate hv hstop, act_add, act_number, pure_bind,
    decide_eq_true_eq]

namespace Runs

variable {covers : Node → Prop} {ev : Limits → Evaluator} {n : Node}

/-- A loop that does not stand still counts to its end. -/
theorem countRounds (h : alone.Runs covers ev) {name : Value} {body : List Node}
    (hbody : ∀ m ∈ body, covers m) {d j : Int} {stop : Value} (hstop : stop.num? = some (.int j))
    {left : Nat} (used : Nat) {v : Value} {i : Int} (hv : v.num? = some (.int i))
    (hleft : ahead d i j ≤ left) (hmoves : d ≠ 0 ∨ i < j) :
    alone.Follows fun l =>
      (ev l).countRounds name body (Num.int d).toward stop (.int d) v (.int i)
        (l.rounds - used) := by
  have hround (used : Nat) : Limits.Finally fun l => l.rounds - used = l.rounds - (used + 1) + 1 :=
    (Limits.Finally.rounds_ge (used + 1)).mono fun l hl => by omega
  induction left generalizing used v i with
  | zero =>
    refine Follows.congr (.pure ()) ((hround used).mono fun l hl => ?_)
    rw [hl, countRounds_succ _ _ _ hv hstop, if_neg (by omega)]
  | succ left ih =>
    by_cases hahead : 0 < ahead d i j
    · have hnext : ahead d (i + d) j ≤ left ∧ d ≠ 0 := by
        unfold ahead at hahead hleft ⊢
        split at hahead <;> rename_i hd <;> simp only [hd, if_true, if_false] at hleft ⊢ <;> omega
      have hrest := ih (used + 1) (v := .int (i + d)) rfl hnext.1 (.inl hnext.2)
      have hfirst := h.countRound hbody (v := name) (fun _ => trivial) v
      have hthis := Follows.bind hfirst fun goesOn => .ite (p := goesOn = true) hrest (.pure ())
      refine Follows.congr hthis ((hround used).mono fun l hl => ?_)
      rw [hl, countRounds_succ _ _ _ hv hstop, if_pos hahead]
    · refine Follows.congr (.pure ()) ((hround used).mono fun l hl => ?_)
      rw [hl, countRounds_succ _ _ _ hv hstop, if_neg hahead]

end Runs

end Lockstep

/-! ## Whole programs -/

/-- Stop the run at a loop that might not come to an end. -/
def stopUncounted : LoopWatch :=
  fun start stop step => if Counts start stop step then pure () else throw .stopped

/-- The kinds of nodes that can make a run go on for ever, counting loops apart. -/
def NodeKind.endless : List NodeKind := [.whileLoop, .function, .importFile]

namespace Lockstep

/-- The evaluator that stops at loops that might not come to an end. -/
abbrev stopping (l : Limits) : Evaluator := Evaluator.loopsWatched stopUncounted l.rounds l.depth

theorem rounds_stopping (l : Limits) : (stopping l).rounds = l.rounds := by
  unfold stopping Evaluator.loopsWatched
  split <;> rfl

theorem child_stopping (l : Limits) : (stopping l).child = Node.child := by
  unfold stopping Evaluator.loopsWatched
  split <;> rfl

/-- A tree that is smaller than `k`, without what can go on for ever. -/
def Small (k : Nat) (n : Node) : Prop := n.Without NodeKind.endless ∧ sizeOf n < k

theorem Small.admits {k : Nat} {n : Node} (hn : Small (k + 1) n) : alone.Admits (Small k) n := by
  obtain ⟨⟨hkind, hchildren⟩, hsize⟩ := hn
  refine ⟨fun {m} hm => ⟨hchildren m hm, ?_⟩, fun _ => trivial, fun h => ?_, fun h => ?_,
    fun _ h => ?_⟩
  · have hmem := List.sizeOf_lt_of_mem hm
    have hparts : sizeOf n.children < sizeOf n := by
      cases n
      simp
      omega
    omega
  · simp [NodeKind.endless, h] at hkind
  · simp [NodeKind.endless, h] at hkind
  · simp [NodeKind.endless, h] at hkind

theorem items_stopping : alone.Items stopping where
  library r keep hkeep f := by
    rintro s t ⟨rfl, hs⟩
    obtain ⟨p, hp, hends⟩ := eachItem_ends (r := r) (i := 0) hkeep f hs (Nat.le_add_left _ _)
    refine ⟨p, p, hp, (Limits.Finally.rounds_ge ((t.heap.items r).size + 1)).mono fun l hl => ?_⟩
    simp only [rounds_stopping]
    exact ⟨hends _ hl, hends _ hl⟩
  user _ _ _ _ hf := hf.elim

variable {k : Nat} {n : Node}

theorem follows_loop (h : alone.Runs (Small k) stopping) (hn : alone.Admits (Small k) n) :
    alone.Follows fun l => (do
      let (start, stop, step, body) ← (stopping l).heading n
      stopUncounted start stop step
      (stopping l).counting n start stop step body) := by
  refine h.heading (fun _ => hn.child) fun start stop step body hbody => ?_
  unfold stopUncounted
  by_cases hcounts : Counts start stop step
  · obtain ⟨i, j, d, hi, hj, hd, hmoves⟩ := hcounts.numbers
    simp only [if_pos hcounts, pure_bind]
    refine Runs.counting_of_rounds fun i' j' d' hi' hj' hd' => ?_
    obtain rfl : i' = .int i := by simpa [hi] using hi'.symm
    obtain rfl : d' = .int d := by simpa [hd] using hd'.symm
    simp only [rounds_stopping]
    exact h.countRounds hbody hj 0 hi (Nat.le_refl _) hmoves
  · simp only [if_neg hcounts]
    exact .throw_bind (by simp)

theorem follows_statement (h : alone.Runs (Small k) stopping) (hn : Small (k + 1) n)
    (hvalue : alone.Follows fun l => (stopping l).evaluate n) :
    alone.Follows fun l => (stopping l).statementWatched stopUncounted n := by
  unfold Evaluator.statementWatched
  by_cases hkind : n.kind = .loop
  · have hloop := Follows.bind (follows_loop h hn.admits) fun _ => .pure Value.null
    simpa only [if_pos hkind, bind_assoc] using hloop
  · simp only [if_neg hkind]
    refine h.statement items_stopping hn.admits hvalue (fun hloop => absurd hloop hkind)
      fun hwhile => ?_
    obtain ⟨hkinds, -⟩ := hn.1
    simp [NodeKind.endless, hwhile] at hkinds

theorem runs_stopping (k : Nat) : alone.Runs (Small k) stopping := by
  have hadmits {k : Nat} {n : Node} (hn : Small k n) : alone.Admits (Small k) n :=
    Small.admits ⟨hn.1, Nat.lt_succ_of_lt hn.2⟩
  have hdepth : Limits.Finally fun l => ∃ d, l.depth = d + 1 :=
    ⟨⟨1, 0⟩, fun l hl => ⟨l.depth - 1, (Nat.sub_add_cancel hl.1).symm⟩⟩
  induction k with
  | zero =>
    refine ⟨child_stopping, hadmits, fun hf => hf.elim, fun hf => hf.elim, fun hn => ?_,
      fun hn => ?_⟩ <;>
      exact absurd hn.2 (Nat.not_lt_zero _)
  | succ k ih =>
    have hevaluate {n : Node} (hn : Small (k + 1) n) :
        alone.Follows fun l => (stopping l).evaluate n := by
      refine (ih.expression items_stopping hn.admits).deeper.congr (hdepth.mono fun l hl => ?_)
      obtain ⟨d, hd⟩ := hl
      simp only [stopping, hd]
      rfl
    refine ⟨child_stopping, hadmits, fun hf => hf.elim, fun hf => hf.elim, hevaluate,
      fun {n} hn => ?_⟩
    refine (follows_statement ih hn (hevaluate hn)).deeper.congr (hdepth.mono fun l hl => ?_)
    obtain ⟨d, hd⟩ := hl
    simp only [stopping, hd]
    rfl

end Lockstep

/-! ## A program that counts down -/

namespace Evaluator

variable {self other : Evaluator} {n m : Node}

theorem round_congr (h : self.execute m = other.execute m) : self.round [m] = other.round [m] := by
  simp only [round, block, sequence, h]

theorem countRounds_congr {body : List Node} (h : self.round body = other.round body) (name : Value)
    (toward : Relation) (stop : Value) (step : Num) (v : Value) (i : Num) (fuel : Nat) :
    self.countRounds name body toward stop step v i fuel =
      other.countRounds name body toward stop step v i fuel := by
  induction fuel generalizing v i with
  | zero => rfl
  | succ fuel ih => simp only [countRounds, countRound, h, ih]

theorem counting_congr {body : List Node} (hrounds : self.rounds = other.rounds)
    (h : self.round body = other.round body) (start stop step : Value) :
    self.counting n start stop step body = other.counting n start stop step body := by
  unfold counting
  simp only [countRounds_congr h, hrounds]

theorem program_congr (h : n.children = [m]) (hm : self.execute m = other.execute m) :
    self.program n = other.program n := by
  simp only [program, h, outermostAll, outermost, hm]

end Evaluator

namespace Node

/-- Keep the number that is counted. -/
def kept : Node :=
  { kind := .declaration, value := .str "x",
    children := [{ kind := .identifier, value := .str "i" }] }

/-- Count from three down to one. -/
def descent : Node :=
  let literal (i : Int) : Node := { kind := .literal, value := .int i }
  { kind := .loop, value := .str "i", children := [literal 3, literal 1, literal (-1), kept] }

def countdown : Node := { kind := .program, children := [descent] }

theorem reachesOnly_countdown (s : State) : countdown.ReachesOnly s Counts := by
  intro watch hwatch l
  obtain ⟨depth, rounds⟩ := l
  let watched := Evaluator.loopsWatched watch rounds
  let plain := Evaluator.upTo rounds
  have hkept (d : Nat) : (watched d).execute kept = (plain d).execute kept := by
    match d with
    | 0 => rfl
    | 1 => rfl
    | d + 2 => rfl
  have hdescent : (watched depth).execute descent = (plain depth).execute descent := by
    match depth with
    | 0 => rfl
    -- the bounds are one level deeper than the loop
    | 1 => rfl
    | d + 2 =>
      have hheading : (watched (d + 1)).heading descent =
          pure (.int 3, .int 1, .int (-1), [kept]) := rfl
      have hheading' : (plain (d + 1)).heading descent = pure (.int 3, .int 1, .int (-1), [kept]) :=
        rfl
      have hcounting := Evaluator.counting_congr (n := descent) (Eq.refl rounds)
        (Evaluator.round_congr (hkept (d + 1))) (.int 3) (.int 1) (.int (-1))
      have hkind : descent.kind = .loop := rfl
      change (watched (d + 1)).statementWatched watch descent = (plain (d + 1)).statement descent
      unfold Evaluator.statementWatched Evaluator.statement
      simp only [hkind, if_true, hheading, hheading', pure_bind, Evaluator.loop_eq,
        hwatch (.int 3) (.int 1) (.int (-1)) (by decide), hcounting]
  exact congrFun (Evaluator.program_congr rfl hdescent) s

end Node

/-! ## Termination -/

/-- A program without loops with a condition, without functions and without imports comes to an end,
with a result or with an interrupt other than exhaustion, if it is run where no functions are
defined, and if each counting loop that it reaches has whole numbers for its bounds and its step and
does not stand still. -/
theorem program_terminates {n : Node} {s : State}
    (hn : n.Without [.whileLoop, .function, .importFile]) (hs : s.functions = [])
    (hloops : n.ReachesOnly s Counts) :
    ∃ (l : Limits) (p : EStateM.Result Interrupt State Unit),
      (∀ m, l ≤ m → m.evaluator.program n s = p) ∧ ∀ t, p ≠ .error .exhausted t := by
  have hchildren : ∀ m ∈ n.children, Lockstep.Small (sizeOf n) m := fun m hm =>
    (Lockstep.Small.admits ⟨hn, Nat.lt_succ_self _⟩).child hm
  obtain ⟨p, q, hpq, l, hl⟩ := (Lockstep.runs_stopping (sizeOf n)).program hchildren s s ⟨rfl, hs⟩
  have hwatch : ∀ start stop step, Counts start stop step →
      stopUncounted start stop step = pure () :=
    fun start stop step hcounts => if_pos hcounts
  refine ⟨l, p, fun m hm => ?_, fun t => ?_⟩
  · rw [← hloops stopUncounted hwatch m]
    exact (hl m hm).1
  · rintro rfl
    cases hpq with
    | error _ he => exact he rfl

theorem program_terminates_of_countdown :
    Node.countdown.Without [.whileLoop, .function, .importFile] ∧ ({} : State).functions = [] ∧
      Node.countdown.ReachesOnly {} Counts ∧
      ∃ (l : Limits) (p : EStateM.Result Interrupt State Unit),
        (∀ m, l ≤ m → m.evaluator.program Node.countdown {} = p) ∧
          ∀ t, p ≠ .error .exhausted t := by
  have hwithout : Node.countdown.Without [.whileLoop, .function, .importFile] := by
    simp [Node.countdown, Node.descent, Node.kept]
  have hreaches := Node.reachesOnly_countdown {}
  exact ⟨hwithout, rfl, hreaches, program_terminates hwithout rfl hreaches⟩

end Luuqad

import Luuqad.Interpreter.Program
import Luuqad.Proofs.Run.Contract
import Luuqad.Proofs.Shell.Calculation
import Luuqad.Proofs.Shell.Reading
import Mathlib.Data.List.Forall2

/-!
# What the language makes of a line

The value of the expression on a line, and what running the line does with it: a formula has the
value that it amounts to, and a sum with a text among its first two parts joins the texts of all of
them. A program may end in an error or run out of depth, so these are statements about runs that end
(`Ensures`).
-/

namespace Luuqad.Shell

/-- What holds of the result and the state if a run ends. -/
def Ensures {ε σ α : Type} (r : EStateM ε σ α) (s : σ) (Q : α → σ → Prop) : Prop :=
  ∀ a t, r s = .ok a t → Q a t

namespace Ensures

variable {ε σ α β : Type} {s : σ}

theorem pure {Q : α → σ → Prop} {a : α} (h : Q a s) :
    Ensures (Pure.pure a : EStateM ε σ α) s Q := by
  intro b t hrun
  cases hrun
  exact h

theorem throw {Q : α → σ → Prop} (e : ε) : Ensures (MonadExcept.throw e : EStateM ε σ α) s Q := by
  intro a t hrun
  cases hrun

theorem bind {x : EStateM ε σ α} {f : α → EStateM ε σ β} {Q : α → σ → Prop} {R : β → σ → Prop}
    (hx : Ensures x s Q) (hf : ∀ a t, Q a t → Ensures (f a) t R) : Ensures (x >>= f) s R := by
  intro b u hrun
  cases hstep : x s with
  | ok a t =>
    have hrest : f a t = .ok b u := by
      change EStateM.bind x f s = _ at hrun
      rwa [EStateM.bind, hstep] at hrun
    exact hf a t (hx a t hstep) b u hrest
  | error e t =>
    change EStateM.bind x f s = _ at hrun
    rw [EStateM.bind, hstep] at hrun
    cases hrun

theorem mono {x : EStateM ε σ α} {Q R : α → σ → Prop} (hx : Ensures x s Q)
    (h : ∀ {a t}, Q a t → R a t) :
    Ensures x s R := fun a t hrun => h (hx a t hrun)

theorem get : Ensures (MonadState.get : EStateM ε σ σ) s fun a t => a = s ∧ t = s := by
  intro a t hrun
  cases hrun
  exact ⟨rfl, rfl⟩

theorem ofExcept {h : Heap} {x : Except Failure α} :
    Ensures (Action.ofExcept x) h fun a h' => x = .ok a ∧ h' = h := by
  cases x with
  | ok a => exact pure ⟨rfl, rfl⟩
  | error e => exact throw _

theorem reading {h : Heap} {f : Heap → Except Failure α} :
    Ensures (Action.reading f) h fun a h' => f h = .ok a ∧ h' = h := by
  refine get.bind ?_
  rintro _ _ ⟨rfl, rfl⟩
  exact ofExcept

theorem act {a : Action α} {s : State} {P : α → Prop}
    (h : Ensures a s.heap fun v h => P v ∧ h = s.heap) :
    Ensures (Run.act a) s fun v t => P v ∧ t = s := by
  intro v t hrun
  unfold Run.act at hrun
  dsimp only at hrun
  split at hrun
  · rename_i w h' heq
    obtain ⟨hw, hheap⟩ := h w h' heq
    cases hrun
    refine ⟨hw, ?_⟩
    rw [hheap]
  · cases hrun

end Ensures

/-! ## Operators -/

theorem num?_literal (n : Num) : n.literal.num? = some n := by cases n <;> rfl

theorem double_of_isNumber {x : Float} (h : (Num.float x).isNumber = true) (heap : Heap) :
    heap.double x = (.float x, heap) := by
  have hnan : Number.decode x ≠ .nan := by simpa [Num.isNumber] using h
  unfold Heap.double
  split
  · contradiction
  · rfl

theorem ensures_number {n : Num} (hn : n.isNumber = true) {heap : Heap} :
    Ensures (Action.number n) heap fun v h => v = n.literal ∧ h = heap := by
  intro v t hrun
  unfold Action.number at hrun
  cases n with
  | int i =>
    cases hrun
    exact ⟨rfl, rfl⟩
  | float x =>
    change EStateM.Result.ok (heap.double x).1 (heap.double x).2 = _ at hrun
    rw [double_of_isNumber hn] at hrun
    cases hrun
    exact ⟨rfl, rfl⟩

theorem ensures_arithmetic (symbol : String) {f : Num → Num → Except Failure Num} {m n k : Num}
    {heap : Heap} (hf : (f m n).toOption = some k) (hk : k.isNumber = true) :
    Ensures (Operator.arithmetic symbol f m.literal n.literal) heap
      fun v h => v = k.literal ∧ h = heap := by
  unfold Operator.arithmetic
  simp only [num?_literal]
  refine Ensures.ofExcept.bind ?_
  rintro a _ ⟨ha, rfl⟩
  rw [ha] at hf
  cases hf
  exact ensures_number hk

theorem Joint.ensures_apply {j : Joint} {m n k : Num} {heap : Heap} (h : j.combine? m n = some k) :
    Ensures (j.operator.apply m.literal n.literal) heap fun v h => v = k.literal ∧ h = heap := by
  obtain ⟨hf, hk⟩ := Option.filter_eq_some_iff.mp h
  cases j with
  | add => cases m <;> cases n <;> exact ensures_arithmetic "+" hf hk
  | subtract => exact ensures_arithmetic "-" hf hk
  | multiply => cases m <;> cases n <;> exact ensures_arithmetic "*" hf hk
  | divide =>
    change Ensures (Operator.quotient m.literal n.literal) heap _
    unfold Operator.quotient
    split
    · exact (Ensures.throw (Q := fun _ _ => False) _).bind (by simp)
    · exact ensures_arithmetic "/" hf hk

/-! ## Expressions -/

/-- What holds of the value of an expression, if it has one. Finding it changes nothing. -/
def Gives (s : State) (n : Node) (P : Value → Prop) : Prop :=
  ∀ rounds depth, Ensures ((Evaluator.upTo rounds depth).evaluate n) s fun v t => P v ∧ t = s

namespace Gives

variable {s : State} {n : Node} {P Q R : Value → Prop}

theorem of_expression (h : ∀ rounds depth, Ensures ((Evaluator.upTo rounds depth).expression n) s
    fun v t => P v ∧ t = s) :
    Gives s n P := by
  intro rounds depth
  cases depth with
  | zero => exact .throw _
  | succ depth => exact h rounds depth

theorem literal {v : Value} (h : P v) : Gives s (Parser.literal v) P :=
  of_expression fun _ _ => .pure ⟨h, rfl⟩

theorem name {x : Name} {v : Value} (hx : s.vars.get? x.text = some v) (h : P v) :
    Gives s (Expression.name (.name x)).toNode P := by
  refine of_expression fun rounds depth => ?_
  change Ensures (Evaluator.identifier _) s _
  unfold Evaluator.identifier
  have hname : Ensures (Run.nameOf (.str x.text)) s fun a t => a = x.text ∧ t = s :=
    .pure ⟨rfl, rfl⟩
  refine hname.bind ?_
  rintro _ _ ⟨rfl, rfl⟩
  refine Ensures.get.bind ?_
  rintro _ _ ⟨rfl, rfl⟩
  simp only [hx]
  exact .pure ⟨h, rfl⟩

theorem child (n : Node) (i : Nat) (rounds depth : Nat) {m : Node} (h : n.children[i]? = some m)
    {s : State} :
    Ensures ((Evaluator.upTo rounds depth).child n i) s fun c t => c = m ∧ t = s := by
  have hchild : (Evaluator.upTo rounds depth).child = Node.child := by cases depth <;> rfl
  rw [hchild, Node.child, h]
  exact .pure ⟨rfl, rfl⟩

theorem binary {symbol : String} {left right : Node} (hleft : Gives s left P)
    (hright : Gives s right Q) (h : ∀ v w, P v → Q w →
      Ensures (applySymbol (.str symbol) v w) s.heap fun u h => R u ∧ h = s.heap) :
    Gives s (Parser.binary (.str symbol) left right) R := by
  refine of_expression fun rounds depth => ?_
  refine (child _ 0 rounds depth rfl).bind ?_
  rintro _ _ ⟨rfl, rfl⟩
  refine (hleft rounds depth).bind ?_
  rintro v _ ⟨hv, rfl⟩
  refine (child _ 1 rounds depth rfl).bind ?_
  rintro _ _ ⟨rfl, rfl⟩
  refine (hright rounds depth).bind ?_
  rintro w _ ⟨hw, rfl⟩
  exact .act (h v w hv hw)

theorem value (h : Gives s n P) (hn : n.kind = .literal) : P n.value := by
  have hrun : (Evaluator.upTo 0 1).evaluate n s = .ok n.value s := by
    change (Evaluator.upTo 0 0).expression n s = _
    rw [Evaluator.expression, hn]
    rfl
  exact (h 0 1 _ _ hrun).1

end Gives

theorem applySymbol_joint (j : Joint) (v w : Value) :
    applySymbol (.str j.operator.symbol) v w = j.operator.apply v w := by
  cases j <;> rfl

theorem Gives.negated {s : State} {n : Node} {i : Int} (h : Gives s n (· = .int i)) :
    Gives s (Parser.negated n) (· = .int (-i)) := by
  unfold Parser.negated
  by_cases hn : n.kind = .literal
  · simp only [hn, if_true, h.value hn]
    exact .literal rfl
  · simp only [hn, if_false]
    refine Gives.binary (.literal rfl) h ?_
    rintro _ _ rfl rfl
    change Ensures (applySymbol (.str Joint.multiply.operator.symbol) _ _) _ _
    rw [applySymbol_joint]
    have hproduct : Joint.multiply.combine? (.int (-1)) (.int i) = some (.int (-i)) := by
      change some (Num.int (-1 * i)) = _
      rw [Int.neg_one_mul]
    exact Joint.ensures_apply hproduct

/-- An expression has the value that it amounts to. -/
theorem Arithmetic.gives {s : State} {e : Arithmetic Term} {env : Term → Int} {n : Num}
    (hleaf : ∀ x ∈ e.leaves, Gives s x.toExpression.toNode (· = .int (env x)))
    (h : e.amount env = some n) :
    Gives s e.toExpression.toNode (· = n.literal) := by
  induction e generalizing n with
  | number gap k =>
    cases h
    exact .literal rfl
  | leaf gap x =>
    cases h
    exact hleaf x (List.mem_singleton_self x)
  | negative gap a ih =>
    obtain ⟨m, hm, h⟩ := Option.bind_eq_some_iff.mp h
    cases m with
    | int i =>
      cases h
      exact Expression.toNode_negative _ ▸ (ih hleaf hm).negated
    | float x => cases h
  | enclosed gap a gap' ih => exact ih hleaf h
  | joined left gap j right ihleft ihright =>
    obtain ⟨l, hl, h⟩ := Option.bind_eq_some_iff.mp h
    obtain ⟨r, hr, h⟩ := Option.bind_eq_some_iff.mp h
    refine Gives.binary (ihleft (fun x hx => hleaf x (List.mem_append_left _ hx)) hl)
      (ihright (fun x hx => hleaf x (List.mem_append_right _ hx)) hr) ?_
    rintro _ _ rfl rfl
    rw [applySymbol_joint]
    exact Joint.ensures_apply h

/-! ## Joined texts -/

/-- Numbers and texts, which are printed as they are. -/
def IsPlain : Value → Prop
  | .int _ | .float _ | .str _ => True
  | _ => False

def IsText : Value → Prop
  | .str _ => True
  | _ => False

theorem text_str (h : Heap) (t : String) : Value.text h (.str t) = .ok t := by
  rw [Value.text, Value.textIn.eq_def]

theorem text_float (h : Heap) (x : Float) :
    Value.text h (.float x) = .ok (Number.writeFloat x) := by
  rw [Value.text, Value.textIn.eq_def]
  change Value.shownIn h (h.size + 1) [] (.float x) = _
  rw [Value.shownIn.eq_def]

theorem display_of_isPlain {v : Value} (hv : IsPlain v) (h : Heap) : v.display h = v.text h := by
  cases v with
  | int | float | str => simp [Value.display, Value.displayIn]
  | _ => exact hv.elim

/-- The texts of some values, one after the other. -/
def texts (h : Heap) (vs : List Value) : Except Failure String := do
  return String.join (← vs.mapM (Value.text h))

theorem texts_snoc {h : Heap} {vs : List Value} {v : Value} {t u : String}
    (hvs : texts h vs = .ok t) (hv : v.text h = .ok u) : texts h (vs ++ [v]) = .ok (t ++ u) := by
  unfold texts at hvs ⊢
  rw [List.mapM_append, List.mapM_cons, List.mapM_nil, hv]
  cases hmap : vs.mapM (Value.text h) with
  | error e =>
    rw [hmap] at hvs
    cases hvs
  | ok ts =>
    rw [hmap] at hvs
    cases hvs
    simp [bind, Except.bind, pure, Except.pure, String.join]

theorem ensures_join {v w : Value} {h : Heap} (hv : IsPlain v) (hw : IsPlain w)
    (htext : IsText v ∨ IsText w) :
    Ensures (Operator.sum v w) h fun u h' => (∃ t t', v.text h = .ok t ∧ w.text h = .ok t' ∧
      u = .str (t ++ t')) ∧ h' = h := by
  have hjoin :
      Ensures (do return .str ((← Action.reading v.display) ++ (← Action.reading w.display)) :
        Action Value) h
      fun u h' => (∃ t t', v.text h = .ok t ∧ w.text h = .ok t' ∧ u = .str (t ++ t')) ∧ h' = h := by
    refine Ensures.reading.bind ?_
    rintro t _ ⟨ht, rfl⟩
    refine Ensures.reading.bind ?_
    rintro t' _ ⟨ht', rfl⟩
    rw [display_of_isPlain hv] at ht
    rw [display_of_isPlain hw] at ht'
    exact .pure ⟨⟨t, t', ht, ht', rfl⟩, rfl⟩
  cases v with
  | str t => exact hjoin
  | int | float =>
    cases w with
    | str t => exact hjoin
    | int | float => rcases htext with h | h <;> exact h.elim
    | _ => exact hw.elim
  | _ => exact hv.elim

/-- What a part of a sum stands for: a number, the value of a variable, or a text. -/
inductive Stands (vars : NameTable Value) : Arithmetic Term → Value → Prop
  | number (gap : Gap) (n : Numeral) : Stands vars (.number gap n) (.int n.value)
  | name (gap : Gap) {x : Identifier} {v : Value} : vars.get? x.text = some v →
      Stands vars (.leaf gap (.name x)) v
  | text (gap : Gap) (q : Quoted) : Stands vars (.leaf gap (.text q)) (.str (String.ofList q.body))

theorem Stands.gives {s : State} {e : Arithmetic Term} {v : Value} (h : Stands s.vars e v) :
    Gives s e.toExpression.toNode (· = v) := by
  cases h with
  | number | text => exact .literal rfl
  | name gap hx => exact .name hx rfl

def Arithmetic.plus {α : Type} (first : Arithmetic α) (rest : List (Gap × Arithmetic α)) :
    Arithmetic α :=
  rest.foldl (fun a p => .joined a p.1 .add p.2) first

theorem gives_join {s : State} {left right : Arithmetic Term} {gap : Gap} {P Q R : Value → Prop}
    (hleft : Gives s left.toExpression.toNode P) (hright : Gives s right.toExpression.toNode Q)
    (h : ∀ {v w}, P v → Q w → IsPlain v ∧ IsPlain w ∧ (IsText v ∨ IsText w))
    (hR : ∀ {v w t u}, P v → Q w → v.text s.heap = .ok t → w.text s.heap = .ok u →
      R (.str (t ++ u))) :
    Gives s (Arithmetic.joined left gap .add right).toExpression.toNode R := by
  refine Gives.binary hleft hright fun v w hv hw => ?_
  rw [applySymbol_joint]
  obtain ⟨hplain, hplain', htext⟩ := h hv hw
  refine (ensures_join hplain hplain' htext).mono ?_
  rintro _ _ ⟨⟨t, u, ht, hu, rfl⟩, hheap⟩
  exact ⟨hR hv hw ht hu, hheap⟩

theorem gives_plus {s : State} {first : Arithmetic Term} {rest : List (Gap × Arithmetic Term)}
    {before vs : List Value} (hfirst : Gives s first.toExpression.toNode fun v => ∃ t, v = .str t ∧
      texts s.heap before = .ok t)
    (hrest : List.Forall₂ (fun p v => Stands s.vars p.2 v ∧ IsPlain v) rest vs) :
    Gives s (first.plus rest).toExpression.toNode fun v => ∃ t, v = .str t ∧
    texts s.heap (before ++ vs) = .ok t := by
  induction hrest generalizing first before with
  | nil =>
    rw [List.append_nil]
    exact hfirst
  | @cons p v rest vs hp hrest ih =>
    have hstep : Gives s (Arithmetic.joined first p.1 .add p.2).toExpression.toNode fun u =>
        ∃ t, u = .str t ∧ texts s.heap (before ++ [v]) = .ok t := by
      refine gives_join hfirst hp.1.gives ?_ ?_
      · rintro _ _ ⟨t, rfl, -⟩ rfl
        exact ⟨trivial, hp.2, .inl trivial⟩
      · rintro _ w t u ⟨t', rfl, ht'⟩ hw ht hu
        rw [text_str] at ht
        cases ht
        rw [hw] at hu
        exact ⟨_, rfl, texts_snoc ht' hu⟩
    rw [List.append_cons]
    exact ih hstep

/-- A sum with a text among its first two parts joins the texts of all parts. -/
theorem gives_joined {s : State} {first second : Arithmetic Term} {gap : Gap}
    {rest : List (Gap × Arithmetic Term)} {v w : Value} {vs : List Value}
    (hfirst : Stands s.vars first v ∧ IsPlain v) (hsecond : Stands s.vars second w ∧ IsPlain w)
    (htext : IsText v ∨ IsText w)
    (hrest : List.Forall₂ (fun p v => Stands s.vars p.2 v ∧ IsPlain v) rest vs) :
    Gives s (first.plus ((gap, second) :: rest)).toExpression.toNode fun u =>
      ∃ t, u = .str t ∧ texts s.heap (v :: w :: vs) = .ok t := by
  have hstart : Gives s (Arithmetic.joined first gap .add second).toExpression.toNode fun u =>
      ∃ t, u = .str t ∧ texts s.heap [v, w] = .ok t := by
    refine gives_join hfirst.1.gives hsecond.1.gives ?_ ?_
    · rintro _ _ rfl rfl
      exact ⟨hfirst.2, hsecond.2, htext⟩
    · rintro v' w' t u hv hw ht hu
      rw [hv] at ht
      rw [hw] at hu
      have hone : texts s.heap [v] = .ok t := by
        simp [texts, ht, bind, Except.bind, pure, Except.pure, String.join]
      exact ⟨_, rfl, texts_snoc hone hu⟩
  exact gives_plus hstart hrest

/-! ## Lines -/

theorem Ensures.tryCatch {x : Run Unit} {f : Interrupt → Run Unit} {s : State}
    {Q : Unit → State → Prop} (hx : Ensures x s Q) (hf : ∀ e t, Ensures (f e) t Q) :
    Ensures (MonadExcept.tryCatch x f) s Q := by
  intro a t hrun
  cases hstep : x s with
  | ok b u =>
    rw [Run.tryCatch_ok hstep] at hrun
    cases hrun
    exact hx _ _ hstep
  | error e u =>
    rw [Run.tryCatch_error hstep] at hrun
    exact hf e u a t hrun

/-- A line is run as the one statement that it is. -/
theorem ensures_runText {l : Limits} {line : Line} {s : State} {Q : State → Prop}
    (hformed : line.command.expression.WellFormed)
    (h : ∀ spot rounds depth,
      Ensures ((Evaluator.upTo rounds depth).statement (line.command.toStatement spot).toNode) s
        fun _ t => Q t) :
    Ensures (l.runText line.text) s fun _ t => Q t := by
  obtain ⟨spot, hread⟩ := readProgram_line line hformed
  have hexecute : Ensures (l.evaluator.execute (line.command.toStatement spot).toNode) s
      fun _ t => Q t := by
    unfold Limits.evaluator
    cases l.depth with
    | zero => exact .throw _
    | succ depth => exact h spot l.rounds depth
  have houtermost : Ensures (l.evaluator.outermost (line.command.toStatement spot).toNode) s
      fun _ t => Q t := by
    refine Ensures.tryCatch (hexecute.bind fun _ _ ht => .pure ht) fun e t => ?_
    cases e <;> exact .throw _
  unfold Limits.runText
  rw [hread]
  exact houtermost.bind fun _ _ ht => .pure ht

theorem runText_of_statement {l : Limits} {line : Line} {s t : State} {v : Value}
    (hformed : line.command.expression.WellFormed)
    (h : ∀ spot, l.evaluator.execute (line.command.toStatement spot).toNode s = .ok v t) :
    l.runText line.text s = .ok () t := by
  obtain ⟨spot, hread⟩ := readProgram_line line hformed
  have houtermost : l.evaluator.outermost (line.command.toStatement spot).toNode s = .ok () t := by
    refine Run.tryCatch_ok ?_
    change EStateM.bind _ _ _ = _
    rw [EStateM.bind, h spot]
    rfl
  unfold Limits.runText
  rw [hread]
  change EStateM.bind (l.evaluator.outermost (line.command.toStatement spot).toNode) _ _ = _
  rw [EStateM.bind, houtermost]
  rfl

theorem Ensures.mapM_singleton {α β : Type} {f : α → Run β} {a : α} {s : State}
    {Q : β → State → Prop} (h : Ensures (f a) s Q) :
    Ensures ([a].mapM f) s fun bs t => ∃ b, bs = [b] ∧ Q b t := by
  rw [List.mapM_cons, List.mapM_nil]
  exact h.bind fun b _ hb => .pure ⟨b, rfl, hb⟩

theorem callLibrary_print (self : Evaluator) (v : Value) :
    self.callLibrary .print [.value v] = Builtin.print.run ⟨[("message", v)], [], []⟩ := rfl

theorem run_print {s : State} {v : Value} {t : String} (h : v.display s.heap = .ok t) :
    Builtin.print.run ⟨[("message", v)], [], []⟩ s = .ok (.str t)
    { s with out := s.out ++ (t ++ "\n") } := by
  have hread : Run.act (Action.reading v.display) s = .ok t s := by
    have hdisplay : Action.reading v.display s.heap = .ok t s.heap := by
      change (Action.ofExcept (v.display s.heap)) s.heap = _
      rw [h]
      rfl
    unfold Run.act
    simp only [hdisplay]
  change EStateM.bind (Run.act (Action.reading v.display)) _ _ = _
  rw [EStateM.bind, hread]
  rfl

theorem ensures_print {l : Limits} {line : Line} {gap gap' gap'' : Gap} {e : Arithmetic Term}
    {s : State} {P : Value → Prop} (hline : line.command = .print gap gap' e gap'')
    (hformed : e.WellFormed) (hqor : s.functions.get? "qor" = none)
    (he : Gives s e.toExpression.toNode P) :
    Ensures (l.runText line.text) s fun _ t => t.vars = s.vars ∧
      ∃ v text, P v ∧ v.display s.heap = .ok text ∧ t.out = s.out ++ (text ++ "\n") := by
  refine ensures_runText (by rw [hline]; exact hformed) fun spot rounds depth => ?_
  rw [hline]
  change Ensures (Evaluator.call _ _) s _
  unfold Evaluator.call
  refine (Ensures.mapM_singleton (he rounds depth)).bind ?_
  rintro _ t ⟨v, rfl, hv, rfl⟩
  change Ensures (Evaluator.callNamed _ "qor" [v]) t _
  unfold Evaluator.callNamed
  refine Ensures.get.bind ?_
  rintro _ t ⟨rfl, rfl⟩
  have hfunction : t.function? "qor" = some (.library .print) := by
    rw [State.function?, hqor]
    rfl
  simp only [hfunction, List.map_cons, List.map_nil, callLibrary_print]
  have hdisplay : Ensures (Run.act (Action.reading v.display)) t fun text t' => v.display t.heap =
      .ok text ∧ t' = t :=
    .act .reading
  refine hdisplay.bind ?_
  rintro text _ ⟨htext, rfl⟩
  intro r u hrun
  cases hrun
  exact ⟨rfl, v, text, hv, htext, rfl⟩

theorem ensures_declare {l : Limits} {line : Line} {gap gap' gap'' : Gap} {apart : gap ≠ .none}
    {x : Identifier} {e : Arithmetic Term} {s : State} {P : Value → Prop}
    (hline : line.command = .declare gap apart x gap' gap'' e) (hformed : e.WellFormed)
    (he : Gives s e.toExpression.toNode P) :
    Ensures (l.runText line.text) s fun _ t => ∃ v, P v ∧ t.vars = s.vars.put x.text v := by
  refine ensures_runText (by rw [hline]; exact hformed) fun spot rounds depth => ?_
  rw [hline]
  have hdeclare : Ensures ((Evaluator.upTo rounds depth).declare
      (Statement.declaration spot false none x.toName e.toExpression).toNode) s
      fun _ t => ∃ v, P v ∧ t.vars = s.vars.put x.text v := by
    unfold Evaluator.declare
    refine (Gives.child _ 0 rounds depth rfl).bind ?_
    rintro _ _ ⟨rfl, rfl⟩
    refine (he rounds depth).bind ?_
    rintro v t ⟨hv, rfl⟩
    intro r u hrun
    cases hrun
    exact ⟨v, hv, rfl⟩
  refine (hdeclare.bind fun _ _ ht => ?_).bind fun _ _ ht => .pure ht
  exact .pure ht

end Luuqad.Shell

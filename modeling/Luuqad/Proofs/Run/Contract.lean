import Luuqad.Interpreter.Program
import Luuqad.Proofs.Run.Plain

/-!
# Contracts of runs

A contract has an invariant of states and says in which states a run may be left by which interrupt.
`Run.Safe c r r'` compares two runs under a contract: from every state in the invariant, `r'` does
exactly what `r` does, a result leaves the invariant true, and an interrupt is one that the contract
allows. With `r' = r`, written `Run.Keeps c r`, this is an ordinary pair of a postcondition and an
exceptional one; two different runs are needed where calls are watched.

The invariant of a contract may look at the variables and what is noted about them, the functions
and the folder only. So whatever touches nothing but classes, the heap, the input, the output or
chance keeps every contract. A contract may also be about some nodes only; with a node it covers all
nodes of its tree.

At the end stand two facts about running and reading that are used wherever runs are compared: a
counting loop is what it evaluates first, followed by its rounds (`Evaluator.loop_eq`), and a text
whose tokens are known is read as they are parsed (`readProgram_of_tokens`).
-/

namespace Luuqad

/-- Two states with the same variables, types, constants, functions and folder. -/
structure State.Alike (s t : State) : Prop where
  vars : t.vars = s.vars
  types : t.types = s.types
  constants : t.constants = s.constants
  functions : t.functions = s.functions
  folder : t.folder = s.folder

/-- What holds between the steps of a run, and how the run may be left. -/
structure Contract where
  inv : State → Prop
  leaves : Interrupt → State → Prop
  quiet {s t : State} : s.Alike t → inv s → inv t
  fault {f : Fault} {s : State} : f.isMisplaced = false → inv s → leaves (.fault f) s
  stopped {s : State} : inv s → leaves .stopped s
  exhausted {s : State} : inv s → leaves .exhausted s
  /-- The nodes that are run under the contract. -/
  covers : Node → Prop := fun _ => True
  covers_child {n m : Node} : covers n → m ∈ n.children → covers m := by exact fun _ _ => trivial

/-- How a run ended keeps the contract. -/
def Contract.Met {α : Type} (c : Contract) : EStateM.Result Interrupt State α → Prop
  | .ok _ t => c.inv t
  | .error e t => c.leaves e t

/-- The second run does what the first one does, and both keep the contract. -/
def Run.Safe {α : Type} (c : Contract) (r r' : Run α) : Prop :=
  ∀ s, c.inv s → r' s = r s ∧ c.Met (r s)

abbrev Run.Keeps {α : Type} (c : Contract) (r : Run α) : Prop := Safe c r r

namespace Run

variable {α β : Type} {c : Contract}

theorem bind_ok {x : Run α} {f : α → Run β} {s t : State} {a : α} (h : x s = .ok a t) :
    (x >>= f) s = f a t := by
  change EStateM.bind x f s = _
  unfold EStateM.bind
  rw [h]

theorem bind_error {x : Run α} {f : α → Run β} {s t : State} {e : Interrupt}
    (h : x s = .error e t) : (x >>= f) s = .error e t := by
  change EStateM.bind x f s = _
  unfold EStateM.bind
  rw [h]

theorem get_bind (f : State → Run β) (s : State) : (get >>= f) s = f s s := rfl

theorem of_bind_ok {x : Run α} {f : α → Run β} {s t : State} {b : β} (h : (x >>= f) s = .ok b t) :
    ∃ a u, x s = .ok a u ∧ f a u = .ok b t := by
  cases hx : x s with
  | ok a u => exact ⟨a, u, rfl, (bind_ok hx).symm.trans h⟩
  | error e u =>
    rw [bind_error hx] at h
    cases h

theorem tryCatch_ok {x : Run α} {f : Interrupt → Run α} {s t : State} {a : α}
    (h : x s = .ok a t) : (tryCatch x f) s = .ok a t := by
  change EStateM.tryCatch x f s = _
  unfold EStateM.tryCatch
  simp only [h]

theorem tryCatch_error {x : Run α} {f : Interrupt → Run α} {s t : State} {e : Interrupt}
    (h : x s = .error e t) : (tryCatch x f) s = f e t := by
  change EStateM.tryCatch x f s = _
  unfold EStateM.tryCatch
  simp only [h]
  rfl

namespace Safe

theorem of_met {r : Run α} (h : ∀ s, c.inv s → c.Met (r s)) : Keeps c r :=
  fun s hs => ⟨rfl, h s hs⟩

theorem pure (a : α) : Keeps c (Pure.pure a) := of_met fun _ hs => hs

theorem bind {x x' : Run α} {f f' : α → Run β} (hx : Safe c x x')
    (hf : ∀ a, Safe c (f a) (f' a)) : Safe c (x >>= f) (x' >>= f') := by
  intro s hs
  obtain ⟨heq, hmet⟩ := hx s hs
  cases hxs : x s with
  | ok a t =>
    rw [hxs] at heq hmet
    rw [bind_ok hxs, bind_ok heq]
    exact hf a t hmet
  | error e t =>
    rw [hxs] at heq hmet
    rw [bind_error hxs, bind_error heq]
    exact ⟨rfl, hmet⟩

theorem bind_get {f f' : State → Run β} (hf : ∀ s, c.inv s → Safe c (f s) (f' s)) :
    Safe c (get >>= f) (get >>= f') := by
  intro s hs
  exact hf s hs s hs

theorem throw {e : Interrupt} (he : ∀ s, c.inv s → c.leaves e s) :
    Keeps c (MonadExcept.throw e : Run α) :=
  of_met fun s hs => he s hs

theorem fault {f : Fault} (hf : f.isMisplaced = false) :
    Keeps c (MonadExcept.throw (.fault f) : Run α) :=
  throw fun _ => c.fault hf

theorem fail (f : Failure) : Keeps c (Run.fail f : Run α) := fault rfl

theorem raise {e : Cause} (he : e.isMisplaced = false) :
    Keeps c (Run.raise e : Run α) := fault he

/-- What would follow a fault is never run. -/
theorem raise_bind {e : Cause} {f f' : α → Run β} (he : e.isMisplaced = false) :
    Safe c (Run.raise e >>= f) (Run.raise e >>= f') := fun _ hs => ⟨rfl, c.fault he hs⟩

theorem raiseAt (n : Node) {e : Cause} (he : e.isMisplaced = false) :
    Keeps c (Run.raiseAt n e : Run α) := fault he

theorem exhausted : Keeps c (MonadExcept.throw .exhausted : Run α) :=
  throw fun _ => c.exhausted

theorem ite {p : Prop} [Decidable p] {x x' y y' : Run α} (hx : Safe c x x') (hy : Safe c y y') :
    Safe c (if p then x else y) (if p then x' else y') := by
  split
  · exact hx
  · exact hy

/-- A step that touches nothing that an invariant looks at. -/
theorem step {g : State → State} (hg : ∀ s, State.Alike s (g s)) : Keeps c (modify g : Run PUnit) :=
  of_met fun s hs => c.quiet (hg s) hs

theorem act {a : Action α} (ha : a.Plain) : Keeps c (Run.act a) := by
  refine of_met fun s hs => ?_
  cases hr : a s.heap with
  | ok v h =>
    simp only [Run.act, hr]
    exact c.quiet (s := s) ⟨rfl, rfl, rfl, rfl, rfl⟩ hs
  | error f h =>
    simp only [Run.act, hr]
    exact c.fault (ha s.heap f h hr) (c.quiet (s := s) ⟨rfl, rfl, rfl, rfl, rfl⟩ hs)

theorem text (v : Value) : Keeps c (Run.text v) := act (.reading _)

theorem isTrue (v : Value) : Keeps c (Run.isTrue v) :=
  bind_get fun _ _ => pure _

theorem nameOf (v : Value) : Keeps c (Run.nameOf v) := by
  unfold Run.nameOf
  split
  · exact pure _
  · exact fail _
  · exact text _

theorem print (s : String) : Keeps c (Run.print s) :=
  step fun _ => ⟨rfl, rfl, rfl, rfl, rfl⟩

theorem readLine (prompt : String) : Keeps c (Run.readLine prompt) := by
  refine bind (print prompt) fun _ => bind_get fun s _ => ?_
  split
  · exact fail _
  · refine bind (step fun _ => ⟨rfl, rfl, rfl, rfl, rfl⟩) fun _ => ?_
    split
    · exact pure _
    · exact throw fun _ => c.stopped

theorem draw (n : Nat) : Keeps c (Run.draw n) :=
  bind_get fun _ _ => bind (step fun _ => ⟨rfl, rfl, rfl, rfl, rfl⟩) fun _ => pure _

theorem drawUnit : Keeps c Run.drawUnit :=
  bind_get fun _ _ => bind (step fun _ => ⟨rfl, rfl, rfl, rfl, rfl⟩) fun _ => pure _

theorem child_bind {n : Node} {i : Nat} {f f' : Node → Run β}
    (hf : ∀ m ∈ n.children, Safe c (f m) (f' m)) : Safe c (n.child i >>= f) (n.child i >>= f') := by
  unfold Node.child
  split
  · rename_i m hm
    intro s hs
    exact hf m (List.mem_of_getElem? hm) s hs
  · exact fun _ hs => ⟨rfl, c.fault rfl hs⟩

/-- A handler goes on where the run was left. It may turn one contract into another that has the
same invariant. -/
theorem tryCatch {d : Contract} {x x' : Run α} {f f' : Interrupt → Run α}
    (hinv : ∀ s, c.inv s ↔ d.inv s) (hx : Safe c x x')
    (hf : ∀ e s, c.leaves e s → f' e s = f e s ∧ d.Met (f e s)) :
    Safe d (MonadExcept.tryCatch x f) (MonadExcept.tryCatch x' f') := by
  intro s hs
  obtain ⟨heq, hmet⟩ := hx s ((hinv s).mpr hs)
  cases hxs : x s with
  | ok a t =>
    rw [hxs] at heq hmet
    rw [tryCatch_ok hxs, tryCatch_ok heq]
    exact ⟨rfl, (hinv t).mp hmet⟩
  | error e t =>
    rw [hxs] at heq hmet
    rw [tryCatch_error hxs, tryCatch_error heq]
    exact hf e t hmet

theorem mono {d : Contract} {x x' : Run α} (hinv : ∀ s, c.inv s ↔ d.inv s)
    (hleaves : ∀ e s, c.leaves e s → d.leaves e s) (hx : Safe c x x') : Safe d x x' := by
  intro s hs
  obtain ⟨heq, hmet⟩ := hx s ((hinv s).mpr hs)
  refine ⟨heq, ?_⟩
  cases hxs : x s with
  | ok a t =>
    rw [hxs] at hmet
    exact (hinv t).mp hmet
  | error e t =>
    rw [hxs] at hmet
    exact hleaves e t hmet

theorem mapM {f f' : α → Run β} (l : List α) (hf : ∀ a ∈ l, Safe c (f a) (f' a)) :
    Safe c (l.mapM f) (l.mapM f') := by
  induction l with
  | nil => exact pure []
  | cons a l ih =>
    rw [List.mapM_cons, List.mapM_cons]
    refine bind (hf a List.mem_cons_self) fun b => ?_
    exact bind (ih fun a ha => hf a (List.mem_cons_of_mem _ ha)) fun bs => pure (b :: bs)

end Safe

end Run

/-! ## Counting loops in two parts -/

/-- The relation that a counting loop with this step asks for between the number and the last
bound. -/
def Num.toward (step : Num) : Relation :=
  if (Num.int 0).compare? step = some .lt then .lessEqual else .greaterEqual

namespace Evaluator

variable (self : Evaluator) (n : Node)

/-- The bounds, the step and the body of a counting loop. -/
def heading : Run (Value × Value × Value × List Node) := do
  let start ← self.evaluate (← self.child n 0)
  let stop ← self.evaluate (← self.child n 1)
  match n.children.drop 2 with
  | third :: rest =>
    if isStep third then return (start, stop, ← self.evaluate third, rest)
    else return (start, stop, .int 1, third :: rest)
  | [] => return (start, stop, .int 1, [])

/-- The rounds of a counting loop with given bounds and step. -/
def counting (start stop step : Value) (body : List Node) : Run Unit :=
  match start.num?, stop.num?, step.num? with
  | some i, some _, some d => self.countRounds n.value body d.toward stop d start i self.rounds
  | _, _, _ => Run.raise .badLoopBounds

theorem loop_eq : self.loop n =
    self.heading n >>= fun (start, stop, step, body) => self.counting n start stop step body := by
  unfold loop heading
  simp only [bind_assoc]
  refine congrArg _ (funext fun _ => congrArg _ (funext fun start => ?_))
  refine congrArg _ (funext fun _ => congrArg _ (funext fun stop => ?_))
  cases n.children.drop 2 with
  | nil => rfl
  | cons third rest =>
    dsimp only
    split
    · simp only [bind_assoc, pure_bind]
      rfl
    · rfl

end Evaluator

/-! ## Reading programs -/

theorem readProgram_of_tokens {source : String} {tokens : List Token}
    (h : (tokenize source).toOption = some tokens) : readProgram source = parse tokens := by
  unfold readProgram
  cases hrun : tokenize source with
  | ok read =>
    rw [hrun] at h
    cases h
    rfl
  | error f =>
    rw [hrun] at h
    cases h

end Luuqad

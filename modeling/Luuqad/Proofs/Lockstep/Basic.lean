import Luuqad.Proofs.Run.Binding

/-!
# Runs in lockstep

Two states are run side by side, and the run may depend on limits that grow. `Lockstep` says what
has to hold between the two states, and `Lockstep.Follows` that a family of runs keeps it: from
related states, as soon as the limits are large enough, both runs end in the same way, with equal
results or for the same reason, and in related states. The relation may let the two states differ in
variables and in what is noted about them, at names that the code does not look at, and in the texts
of files that hold the same programs; everything else is the same on both sides.

If the limits do not matter, this compares two runs (`Lockstep.follows_const`). If the two states
are equal, it says that a run comes to an end.
-/

namespace Luuqad

open Run

/-! ## Limits that are large enough -/

namespace Limits

instance : LE Limits := ⟨fun l m => l.depth ≤ m.depth ∧ l.rounds ≤ m.rounds⟩

theorem le_def {l m : Limits} : l ≤ m ↔ l.depth ≤ m.depth ∧ l.rounds ≤ m.rounds := .rfl

/-- Something holds for all limits that are large enough. -/
def Finally (p : Limits → Prop) : Prop := ∃ l, ∀ m, l ≤ m → p m

namespace Finally

variable {p q : Limits → Prop}

theorem of_forall (h : ∀ l, p l) : Finally p := ⟨⟨0, 0⟩, fun m _ => h m⟩

theorem mono (h : Finally p) (hpq : ∀ l, p l → q l) : Finally q := by
  obtain ⟨l, hl⟩ := h
  exact ⟨l, fun m hm => hpq m (hl m hm)⟩

theorem and (hp : Finally p) (hq : Finally q) : Finally fun l => p l ∧ q l := by
  obtain ⟨l, hl⟩ := hp
  obtain ⟨m, hm⟩ := hq
  refine ⟨⟨max l.depth m.depth, max l.rounds m.rounds⟩, fun k hk => ?_⟩
  rw [le_def] at hk
  dsimp only at hk
  exact ⟨hl k (le_def.mpr (by omega)), hm k (le_def.mpr (by omega))⟩

theorem of_le (l : Limits) : Finally fun m => l ≤ m := ⟨l, fun _ hm => hm⟩

theorem rounds_ge (k : Nat) : Finally fun l => k ≤ l.rounds := ⟨⟨0, k⟩, fun _ hm => hm.2⟩

end Finally

end Limits

/-! ## Related states -/

def Folder.programAt (f : Folder) (path : String) : Except ReadStop Node :=
  match f.read path with
  | .error e => .error (.fault (.failure e))
  | .ok source => readProgram source

theorem Folder.programAt_ok {f : Folder} {path : String} {n : Node} (h : f.programAt path = .ok n) :
    ∃ source, f.read path = .ok source ∧ readProgram source = .ok n := by
  unfold programAt at h
  split at h
  · cases h
  · exact ⟨_, ‹_›, h⟩

/-- Two states that differ at most in variables and in what is noted about them. -/
structure State.Shares (s t : State) : Prop where
  functions : t.functions = s.functions
  classes : t.classes = s.classes
  heap : t.heap = s.heap
  out : t.out = s.out
  input : t.input = s.input
  folder : t.folder = s.folder
  chance : t.chance = s.chance

/-- Two states that differ at most in variables, in what is noted about them and in the folder. -/
structure State.Abreast (s t : State) : Prop where
  functions : t.functions = s.functions
  classes : t.classes = s.classes
  heap : t.heap = s.heap
  out : t.out = s.out
  input : t.input = s.input
  chance : t.chance = s.chance

theorem State.Shares.abreast {s t : State} (h : s.Shares t) : s.Abreast t := { h with }

theorem State.Abreast.eq {s t : State} (h : s.Abreast t) (hvars : t.vars = s.vars)
    (htypes : t.types = s.types) (hconstants : t.constants = s.constants)
    (hfolder : t.folder = s.folder) : t = s := by
  obtain ⟨vars, types, constants, functions, classes, heap, out, input, folder, chance⟩ := s
  obtain ⟨rfl, rfl, rfl, rfl, rfl, rfl⟩ := h
  subst hvars htypes hconstants hfolder
  rfl

/-- What holds between two states that are run side by side. -/
structure Lockstep where
  rel : State → State → Prop
  /-- Whether the runs may be exhausted. -/
  tires : Prop
  /-- The names that the runs may look at and set. -/
  seen : String → Prop
  callable : UserFunction → Prop
  abreast {s t : State} : rel s t → s.Abreast t
  /-- The files hold the same programs. -/
  files {s t : State} (path : String) : rel s t → t.folder.programAt path = s.folder.programAt path
  quiet {s s' t t' : State} : rel s t → s.Alike s' → t.Alike t' → s'.Abreast t' → rel s' t'
  function {s t : State} {name : String} {f : UserFunction} :
    rel s t → s.functions.get? name = some f → callable f
  define {s t : State} {f : UserFunction} (name : String) : rel s t → callable f →
    rel { s with functions := s.functions.put name f }
      { t with functions := t.functions.put name f }
  lookup {s t : State} {name : String} :
    rel s t → seen name → t.vars.get? name = s.vars.get? name
  noted {s t : State} {name : String} :
    rel s t → seen name → t.types.get? name = s.types.get? name
  constant {s t : State} {name : String} :
    rel s t → seen name → t.constants.contains name = s.constants.contains name
  setVariable {s t : State} {name : String} (v : Value) :
    rel s t → seen name → rel (s.withVariable name v) (t.withVariable name v)
  setType {s t : State} {name : String} (type : TokenKind) :
    rel s t → seen name → rel (s.withType name type) (t.withType name type)
  setConstant {s t : State} {name : String} :
    rel s t → seen name → rel (s.withConstant name) (t.withConstant name)
  /-- The end of a call puts the variables back. -/
  restore {s s' t t' : State} :
    rel s t → rel s' t' → rel { s' with vars := s.vars } { t' with vars := t.vars }

namespace Lockstep

variable {L : Lockstep} {α β : Type}

/-- Two runs ended in the same way and in related states. -/
inductive Matched (L : Lockstep) :
    EStateM.Result Interrupt State α → EStateM.Result Interrupt State α → Prop
  | ok {a : α} {s t : State} : L.rel s t → Matched L (.ok a s) (.ok a t)
  | error {e : Interrupt} {s t : State} :
    L.rel s t → (e = .exhausted → L.tires) → Matched L (.error e s) (.error e t)

theorem Matched.interrupted {e : Interrupt} {s t : State} (hst : L.rel s t) (he : e ≠ .exhausted) :
    L.Matched (.error e s : EStateM.Result Interrupt State α) (.error e t) :=
  .error hst fun h => absurd h he

/-- From related states, the runs end in the same way and in related states once the limits are
large enough. -/
def Follows (L : Lockstep) (x : Limits → Run α) : Prop :=
  ∀ s t, L.rel s t → ∃ p q, L.Matched p q ∧ Limits.Finally fun l => x l s = p ∧ x l t = q

/-- A run that does not depend on limits. -/
abbrev Keeps (L : Lockstep) (r : Run α) : Prop := L.Follows fun _ => r

theorem follows_const {r : Run α} : L.Keeps r ↔ ∀ s t, L.rel s t → L.Matched (r s) (r t) := by
  constructor
  · intro h s t hst
    obtain ⟨p, q, hpq, l, hl⟩ := h s t hst
    obtain ⟨rfl, rfl⟩ := hl l ⟨Nat.le_refl _, Nat.le_refl _⟩
    exact hpq
  · intro h s t hst
    exact ⟨_, _, h s t hst, .of_forall fun _ => ⟨rfl, rfl⟩⟩

namespace Follows

theorem congr {x y : Limits → Run α} (hx : L.Follows x) (h : Limits.Finally fun l => y l = x l) :
    L.Follows y := by
  intro s t hst
  obtain ⟨p, q, hpq, hfinally⟩ := hx s t hst
  refine ⟨p, q, hpq, (hfinally.and h).mono fun l hl => ?_⟩
  rw [hl.2]
  exact hl.1

theorem of_matched {r : Run α} (h : ∀ s t, L.rel s t → L.Matched (r s) (r t)) : L.Keeps r :=
  follows_const.mpr h

theorem pure (a : α) : L.Keeps (Pure.pure a) := of_matched fun _ _ hst => .ok hst

theorem bind {x : Limits → Run α} {f : Limits → α → Run β} (hx : L.Follows x)
    (hf : ∀ a, L.Follows fun l => f l a) : L.Follows fun l => x l >>= f l := by
  intro s t hst
  obtain ⟨p, q, hpq, hfinally⟩ := hx s t hst
  cases hpq with
  | @ok a s' t' hst' =>
    obtain ⟨p', q', hpq', hfinally'⟩ := hf a s' t' hst'
    refine ⟨p', q', hpq', (hfinally.and hfinally').mono fun l hl => ?_⟩
    exact ⟨(bind_ok hl.1.1).trans hl.2.1, (bind_ok hl.1.2).trans hl.2.2⟩
  | error hst' he =>
    exact ⟨_, _, .error hst' he, hfinally.mono fun l hl => ⟨bind_error hl.1, bind_error hl.2⟩⟩

/-- What is read from the states has to mean the same on both sides. -/
theorem get_bind {f : Limits → State → Run β}
    (hf : ∀ s t, L.rel s t → (∀ l, f l t = f l s) ∧ L.Follows fun l => f l s) :
    L.Follows fun l => get >>= f l := by
  intro s t hst
  obtain ⟨heq, hfollows⟩ := hf s t hst
  obtain ⟨p, q, hpq, hfinally⟩ := hfollows s t hst
  refine ⟨p, q, hpq, hfinally.mono fun l hl => ⟨hl.1, ?_⟩⟩
  change f l t t = q
  rw [heq l]
  exact hl.2

theorem throw {e : Interrupt} (he : e ≠ .exhausted) : L.Keeps (MonadExcept.throw e : Run α) :=
  of_matched fun _ _ hst => .interrupted hst he

theorem exhausted (h : L.tires) : L.Keeps (MonadExcept.throw .exhausted : Run α) :=
  of_matched fun _ _ hst => .error hst fun _ => h

theorem fault (f : Fault) : L.Keeps (MonadExcept.throw (.fault f) : Run α) := throw (by simp)

theorem fail (f : Failure) : L.Keeps (Run.fail f : Run α) := fault _

theorem raise (c : Cause) : L.Keeps (Run.raise c : Run α) := fault _

theorem raiseAt (n : Node) (c : Cause) : L.Keeps (Run.raiseAt n c : Run α) := fault _

theorem throw_bind {e : Interrupt} (he : e ≠ .exhausted) {g : Limits → α → Run β} :
    L.Follows fun l => (MonadExcept.throw e : Run α) >>= g l := by
  intro s t hst
  have hmatched := Matched.interrupted (α := β) hst he
  exact ⟨_, _, hmatched, .of_forall fun _ => ⟨rfl, rfl⟩⟩

theorem fault_bind {f : Fault} {g : Limits → α → Run β} :
    L.Follows fun l => (MonadExcept.throw (.fault f) : Run α) >>= g l :=
  throw_bind (by simp)

theorem ite {p : Prop} [Decidable p] {x y : Limits → Run α} (hx : L.Follows x) (hy : L.Follows y) :
    L.Follows fun l => if p then x l else y l := by
  split
  · exact hx
  · exact hy

/-- A handler lets exhausted runs go on being exhausted. -/
theorem tryCatch {x : Limits → Run α} {f : Limits → Interrupt → Run α} (hx : L.Follows x)
    (hf : ∀ e, e ≠ .exhausted → L.Follows fun l => f l e)
    (hexhausted : ∀ l, f l .exhausted = MonadExcept.throw .exhausted) :
    L.Follows fun l => MonadExcept.tryCatch (x l) (f l) := by
  intro s t hst
  obtain ⟨p, q, hpq, hfinally⟩ := hx s t hst
  cases hpq with
  | ok hst' =>
    exact ⟨_, _, .ok hst', hfinally.mono fun l hl => ⟨tryCatch_ok hl.1, tryCatch_ok hl.2⟩⟩
  | @error e s' t' hst' he =>
    by_cases hcase : e = .exhausted
    · subst hcase
      have hthrow (l : Limits) (u : State) : f l .exhausted u = .error .exhausted u := by
        rw [hexhausted l]
        rfl
      refine ⟨_, _, .error hst' he, hfinally.mono fun l hl => ?_⟩
      exact ⟨(tryCatch_error hl.1).trans (hthrow l s'), (tryCatch_error hl.2).trans (hthrow l t')⟩
    · obtain ⟨p', q', hpq', hfinally'⟩ := hf e hcase s' t' hst'
      refine ⟨p', q', hpq', (hfinally.and hfinally').mono fun l hl => ?_⟩
      exact ⟨(tryCatch_error hl.1.1).trans hl.2.1, (tryCatch_error hl.1.2).trans hl.2.2⟩

theorem mapM {γ : Type} {f : Limits → γ → Run β} (items : List γ)
    (hf : ∀ a ∈ items, L.Follows fun l => f l a) : L.Follows fun l => items.mapM (f l) := by
  induction items with
  | nil => exact pure []
  | cons a items ih =>
    simp only [List.mapM_cons]
    refine bind (hf a List.mem_cons_self) fun b => ?_
    exact bind (ih fun a ha => hf a (List.mem_cons_of_mem _ ha)) fun bs => pure (b :: bs)

/-! ## What does not touch names -/

theorem step {g : State → State} (halike : ∀ s, State.Alike s (g s))
    (habreast : ∀ s t : State, s.Abreast t → (g s).Abreast (g t)) :
    L.Keeps (modify g : Run PUnit) :=
  of_matched fun s t hst => .ok (L.quiet hst (halike s) (halike t) (habreast s t (L.abreast hst)))

theorem act (a : Action α) : L.Keeps (Run.act a) := by
  refine of_matched fun s t hst => ?_
  have habreast := L.abreast hst
  have halike (u : State) (h : Heap) : u.Alike { u with heap := h } := ⟨rfl, rfl, rfl, rfl, rfl⟩
  have hrel (h : Heap) : L.rel { s with heap := h } { t with heap := h } :=
    L.quiet hst (halike s h) (halike t h) { habreast with heap := rfl }
  unfold Run.act
  simp only [habreast.heap]
  cases a s.heap with
  | ok v h => exact .ok (hrel h)
  | error f h => exact .interrupted (hrel h) (by simp)

theorem text (v : Value) : L.Keeps (Run.text v) := act _

theorem isTrue (v : Value) : L.Keeps (Run.isTrue v) :=
  get_bind fun _ _ hst => ⟨fun _ => by rw [(L.abreast hst).heap], pure _⟩

theorem nameOf (v : Value) : L.Keeps (Run.nameOf v) := by
  unfold Run.nameOf
  split
  · exact pure _
  · exact fail _
  · exact text _

theorem nameOf_bind {v : Value} {f : Limits → String → Run β}
    (hf : ∀ name, v.Names name → L.Follows fun l => f l name) :
    L.Follows fun l => Run.nameOf v >>= f l := by
  intro s t hst
  have hmatched := follows_const.mp (nameOf (L := L) v) s t hst
  generalize hs : Run.nameOf v s = p, ht : Run.nameOf v t = q at hmatched
  cases hmatched with
  | @ok name s' t' hst' =>
    simp only [bind_ok hs, bind_ok ht]
    exact hf name ⟨s, s', hs⟩ s' t' hst'
  | error hst' he =>
    simp only [bind_error hs, bind_error ht]
    exact ⟨_, _, .error hst' he, .of_forall fun _ => ⟨rfl, rfl⟩⟩

theorem names_bind {nodes : List Node} {f : Limits → List String → Run β}
    (hf : ∀ names, (∀ name ∈ names, ∃ p ∈ nodes, p.value.Names name) →
      L.Follows fun l => f l names) :
    L.Follows fun l => nodes.mapM (fun p => Run.nameOf p.value) >>= f l := by
  induction nodes generalizing f with
  | nil => exact hf [] (by simp)
  | cons p nodes ih =>
    simp only [List.mapM_cons, bind_assoc, pure_bind]
    refine nameOf_bind fun name hname => ih fun names hnames => hf (name :: names)
      fun other hother => ?_
    rcases List.mem_cons.mp hother with rfl | hrest
    · exact ⟨p, List.mem_cons_self, hname⟩
    · obtain ⟨q, hq, hnamed⟩ := hnames other hrest
      exact ⟨q, List.mem_cons_of_mem _ hq, hnamed⟩

theorem print (text : String) : L.Keeps (Run.print text) :=
  step (fun _ => ⟨rfl, rfl, rfl, rfl, rfl⟩) fun _ _ h => { h with out := by rw [h.out] }

theorem readLine (prompt : String) : L.Keeps (Run.readLine prompt) := by
  have hinput (rest : List Entry) : L.Keeps (modify ({ · with input := rest })) :=
    step (fun _ => ⟨rfl, rfl, rfl, rfl, rfl⟩) fun _ _ h => { h with input := rfl }
  refine bind (print prompt) fun _ => get_bind fun s t hst =>
    ⟨fun _ => by rw [(L.abreast hst).input], ?_⟩
  split
  · exact fail _
  · refine bind (hinput _) fun _ => ?_
    split
    · exact pure _
    · exact throw (by simp)

theorem setChance (chance : Chance) : L.Keeps (modify ({ · with chance }) : Run PUnit) :=
  step (fun _ => ⟨rfl, rfl, rfl, rfl, rfl⟩) fun _ _ h => { h with chance := rfl }

theorem draw (n : Nat) : L.Keeps (Run.draw n) :=
  get_bind fun _ _ hst =>
    ⟨fun _ => by rw [(L.abreast hst).chance], bind (setChance _) fun _ => pure _⟩

theorem drawUnit : L.Keeps Run.drawUnit :=
  get_bind fun _ _ hst =>
    ⟨fun _ => by rw [(L.abreast hst).chance], bind (setChance _) fun _ => pure _⟩

theorem child_bind {n : Node} {i : Nat} {f : Limits → Node → Run β}
    (hf : ∀ m ∈ n.children, L.Follows fun l => f l m) : L.Follows fun l => n.child i >>= f l := by
  unfold Node.child
  split
  · rename_i m hm
    exact hf m (List.mem_of_getElem? hm)
  · exact fault_bind

/-! ## Names -/

theorem setVariable {name : String} (hname : L.seen name) (v : Value) :
    L.Keeps (Run.setVariable name v) :=
  of_matched fun _ _ hst => .ok (L.setVariable v hst hname)

theorem noteType {name : String} (hname : L.seen name) (type : TokenKind) :
    L.Keeps (Run.noteType name (.checked type)) :=
  of_matched fun _ _ hst => .ok (L.setType type hst hname)

theorem noteConstant {name : String} (hname : L.seen name) : L.Keeps (Run.noteConstant name) :=
  of_matched fun _ _ hst => .ok (L.setConstant hst hname)

theorem checkType (name : String) (v : Value) (type : TokenKind) (line column : Option Nat) :
    L.Keeps (Run.checkType name v type line column) :=
  ite (pure _) (bind (text v) fun _ => fault _)

theorem assign {name : String} (hname : L.seen name) (v : Value) (line column : Option Nat) :
    L.Keeps (Run.assign name v line column) := by
  have hset : L.Keeps (do Run.setVariable name v; return v) :=
    bind (setVariable hname v) fun _ => pure v
  refine get_bind fun s t hst => ⟨fun _ => ?_, ?_⟩
  · have hhas : t.vars.has name = s.vars.has name := by
      unfold NameTable.has
      rw [L.lookup hst hname]
    rw [hhas, L.constant hst hname, L.noted hst hname]
  · refine ite fault_bind (ite fault_bind ?_)
    split
    · exact bind (checkType _ _ _ _ _) fun _ => hset
    · exact hset

end Follows

end Lockstep

end Luuqad

import Luuqad.Proofs.Run.Contract

/-!
# What changes the names of a state

A name is bound by a declaration, by a counting loop, by a handler that catches an interrupt, or as
a parameter; `Node.Binds` says which node binds which name, and in which manner. An assignment
changes the value of a name that is bound already. `State.Change` lists everything that these steps
do to the variables and to what is noted about them. An invariant about names is kept if each of
these changes keeps it and if the end of a call does, which puts variables back but forgets nothing
that was noted.
-/

namespace Luuqad

open Run

/-! ## Binding names -/

/-- The value stands for the name. -/
def Value.Names (v : Value) (name : String) : Prop := ∃ s t, Run.nameOf v s = .ok name t

/-- How a name is bound. -/
inductive Manner
  /-- By a declaration, with a type or without, as a constant or not. -/
  | declared (type : Option TokenKind) (constant : Bool)
  /-- As the variable of a counting loop. -/
  | counted
  /-- As the text of an interrupt. -/
  | caught
  /-- As a parameter. -/
  | passed
deriving DecidableEq, Repr

/-- The node binds the name when it is run; for the definition of a function, when the function is
called. -/
inductive Node.Binds (n : Node) : String → Manner → Prop
  | declaration {name : String} : n.kind = .declaration → n.value.Names name →
      Binds n name (.declared n.declared n.constant)
  | loop {name : String} : n.kind = .loop → n.value.Names name → Binds n name .counted
  | handler {name : String} : n.kind = .tryCatch → n.value.Names name → Binds n name .caught
  | parameter {name : String} {p : Node} : n.kind = .function → p ∈ n.children →
      p.kind = .identifier → p.value.Names name → Binds n name .passed

namespace State

def withVariable (s : State) (name : String) (v : Value) : State :=
  { s with vars := s.vars.put name v }

def withType (s : State) (name : String) (type : TokenKind) : State :=
  { s with types := s.types.put name (.checked type) }

def withConstant (s : State) (name : String) : State :=
  { s with constants := if s.constants.contains name then s.constants else s.constants ++ [name] }

theorem mem_withConstant (s : State) (name other : String) :
    other ∈ (s.withConstant name).constants ↔ other = name ∨ other ∈ s.constants := by
  unfold withConstant
  by_cases hname : s.constants.contains name = true
  · have hmem : name ∈ s.constants := by simpa using hname
    simp only [if_pos hname]
    exact ⟨.inr, fun h => h.elim (fun heq => heq ▸ hmem) id⟩
  · simp only [if_neg hname, List.mem_append, List.mem_singleton]
    exact Or.comm

/-- One change of the variables or of what is noted about them, where names are bound as `may`
says. -/
inductive Change (may : String → Manner → Prop) (s : State) : State → Prop
  | noteType {name : String} {type : TokenKind} {constant : Bool} :
      may name (.declared (some type) constant) → Change may s (s.withType name type)
  | noteConstant {name : String} {type : Option TokenKind} :
      may name (.declared type true) → Change may s (s.withConstant name)
  /-- The type of a declaration is noted and checked before, and so is that it is constant. -/
  | declare {name : String} {type : Option TokenKind} {constant : Bool} {v : Value} :
      may name (.declared type constant) →
      (∀ k, type = some k → s.types.get? name = some (.checked k) ∧ k.admits v = true) →
      (constant = true → name ∈ s.constants) → Change may s (s.withVariable name v)
  /-- No other way of binding a name looks at what is noted. -/
  | bind {name : String} {manner : Manner} {v : Value} :
      may name manner → (∀ type constant, manner ≠ .declared type constant) →
      Change may s (s.withVariable name v)
  | assign {name : String} {v : Value} : s.vars.has name = true → name ∉ s.constants →
      (∀ k, s.types.get? name = some (.checked k) → k.admits v = true) →
      Change may s (s.withVariable name v)

theorem Change.functions {may : String → Manner → Prop} {s t : State} (h : s.Change may t) :
    t.functions = s.functions := by
  cases h <;> rfl

theorem Change.folder {may : String → Manner → Prop} {s t : State} (h : s.Change may t) :
    t.folder = s.folder := by
  cases h <;> rfl

/-- No change removes a variable. -/
theorem Change.has {may : String → Manner → Prop} {s t : State} {name : String} (h : s.Change may t)
    (hname : s.vars.has name = true) : t.vars.has name = true := by
  cases h with
  | noteType _ | noteConstant _ => exact hname
  | declare _ _ _ | bind _ _ | assign _ _ _ => exact (NameTable.has_put _ _ _ _).mpr (.inr hname)

/-- Nothing that is noted about names is forgotten. -/
structure Grows (s t : State) : Prop where
  types {name : String} : s.types.has name = true → t.types.has name = true
  constants {name : String} : name ∈ s.constants → name ∈ t.constants

namespace Grows

theorem refl (s : State) : s.Grows s := ⟨id, id⟩

theorem trans {s t u : State} (h : s.Grows t) (h' : t.Grows u) : s.Grows u :=
  ⟨fun hname => h'.types (h.types hname), fun hname => h'.constants (h.constants hname)⟩

theorem of_alike {s t : State} (h : s.Alike t) : s.Grows t :=
  ⟨fun hname => h.types ▸ hname, fun hname => h.constants ▸ hname⟩

theorem of_change {may : String → Manner → Prop} {s t : State} (h : s.Change may t) :
    s.Grows t := by
  cases h with
  | noteType _ => exact ⟨fun hname => (NameTable.has_put _ _ _ _).mpr (.inr hname), id⟩
  | noteConstant _ => exact ⟨id, fun hname => (mem_withConstant _ _ _).mpr (.inr hname)⟩
  | declare _ _ _ | bind _ _ | assign _ _ _ => exact ⟨id, id⟩

end Grows

end State

/-- A run forgets nothing that is noted in `s`. -/
def Contract.grown (s : State) : Contract where
  inv := s.Grows
  leaves _ := s.Grows
  quiet halike ht := ht.trans (.of_alike halike)
  fault _ ht := ht
  stopped ht := ht
  exhausted ht := ht

/-! ## Runs that bind names -/

namespace Run

variable {α β γ : Type} {c : Contract}

theorem Safe.nameOf_bind {v : Value} {f f' : String → Run β}
    (hf : ∀ name, v.Names name → Safe c (f name) (f' name)) :
    Safe c (Run.nameOf v >>= f) (Run.nameOf v >>= f') := by
  intro s hs
  obtain ⟨-, hmet⟩ := Safe.nameOf (c := c) v s hs
  cases hname : Run.nameOf v s with
  | ok name t =>
    rw [hname] at hmet
    rw [bind_ok hname, bind_ok hname]
    exact hf name ⟨s, t, hname⟩ t hmet
  | error e t =>
    rw [hname] at hmet
    rw [bind_error hname, bind_error hname]
    exact ⟨rfl, hmet⟩

theorem Safe.names_bind {nodes : List Node} {f f' : List String → Run β}
    (hf : ∀ names, (∀ name ∈ names, ∃ p ∈ nodes, p.value.Names name) →
      Safe c (f names) (f' names)) :
    Safe c (nodes.mapM (fun p => Run.nameOf p.value) >>= f)
      (nodes.mapM (fun p => Run.nameOf p.value) >>= f') := by
  induction nodes generalizing f f' with
  | nil => exact hf [] (by simp)
  | cons p nodes ih =>
    rw [List.mapM_cons, bind_assoc, bind_assoc]
    refine .nameOf_bind fun name hname => ?_
    rw [bind_assoc, bind_assoc]
    refine ih fun names hnames => hf (name :: names) fun other hother => ?_
    rcases List.mem_cons.mp hother with rfl | hrest
    · exact ⟨p, List.mem_cons_self, hname⟩
    · obtain ⟨q, hq, hnamed⟩ := hnames other hrest
      exact ⟨q, List.mem_cons_of_mem _ hq, hnamed⟩

theorem keeps_setVariable_grown (s : State) (name : String) (v : Value) :
    Keeps (.grown s) (setVariable name v) :=
  .of_met fun _ ht => ht.trans ⟨id, id⟩

theorem keeps_setParameters_grown (s : State) (params : List String) (args : List Value) :
    Keeps (.grown s) (Evaluator.setParameters params args) := by
  induction params generalizing args with
  | nil => exact .pure _
  | cons p params ih =>
    cases args with
    | nil => exact .bind (keeps_setVariable_grown s p _) fun _ => ih []
    | cons v args => exact .bind (keeps_setVariable_grown s p v) fun _ => ih args

theorem checkType_of_admits {name : String} {v : Value} {type : TokenKind}
    {line column : Option Nat} (h : type.admits v = true) :
    checkType name v type line column = pure () := by
  rw [checkType, if_pos h]

theorem Safe.checkType_bind {name : String} {v : Value} {type : TokenKind}
    {line column : Option Nat} {f : Unit → Run β} (h : ¬type.admits v = true) :
    Keeps c (checkType name v type line column >>= f) := by
  rw [checkType, if_neg h, bind_assoc]
  exact .bind (.text v) fun _ _ hs => ⟨rfl, c.fault rfl hs⟩

theorem text_cases (v : Value) (s : State) :
    (∃ x, v.text s.heap = .ok x ∧ text v s = .ok x s) ∨
      ∃ f, v.text s.heap = .error f ∧ text v s = .error (.fault (.failure f)) s := by
  have hread : Action.text v s.heap = (Action.ofExcept (v.text s.heap) : Action String) s.heap :=
    rfl
  unfold text act
  cases htext : v.text s.heap with
  | ok x =>
    rw [htext] at hread
    simp only [hread]
    exact .inl ⟨x, rfl, rfl⟩
  | error f =>
    rw [htext] at hread
    simp only [hread]
    exact .inr ⟨f, rfl, rfl⟩

theorem text_str (x : String) (s : State) : text (.str x) s = .ok x s := by
  have hx : (Value.str x).text s.heap = .ok x := by rw [Value.text, Value.textIn]
  rcases text_cases (.str x) s with ⟨y, hy, htext⟩ | ⟨f, hf, -⟩
  · cases hx.symm.trans hy
    exact htext
  · cases hx.symm.trans hf

theorem text_error {v : Value} {s t : State} {e : Interrupt} (h : text v s = .error e t) :
    ∃ f, e = .fault (.failure f) := by
  rcases text_cases v s with ⟨x, -, htext⟩ | ⟨f, -, htext⟩
  · cases htext.symm.trans h
  · cases htext.symm.trans h
    exact ⟨f, rfl⟩

/-- A check of a type fails because of the type, or below the language. -/
theorem checkType_error {name : String} {v : Value} {type : TokenKind} {line column : Option Nat}
    {s t : State} {d : Diagnostic}
    (h : checkType name v type line column s = .error (.fault (.error d)) t) :
    ∃ text, d.cause = .typeMismatch name text type.spelling := by
  by_cases hadmits : type.admits v = true
  · rw [checkType_of_admits hadmits] at h
    cases h
  · rw [checkType, if_neg hadmits] at h
    cases htext : Run.text v s with
    | ok x u =>
      rw [bind_ok htext] at h
      cases h
      exact ⟨x, rfl⟩
    | error e u =>
      obtain ⟨f, rfl⟩ := text_error htext
      rw [bind_error htext] at h
      cases h

/-- A value that the type does not admit fails the check, and nothing changes. The fault names the
variable, the value and the type, if the value can be shown. -/
theorem checkType_fails {v : Value} {type : TokenKind} (h : ¬type.admits v = true) (name : String)
    (line column : Option Nat) (s : State) :
    ∃ f, checkType name v type line column s = .error (.fault f) s ∧
      ∀ x, v.text s.heap = .ok x →
        f = (Cause.typeMismatch name x type.spelling).faultAt line column := by
  rw [checkType, if_neg h]
  rcases text_cases v s with ⟨x, hx, htext⟩ | ⟨f, hf, htext⟩
  · refine ⟨_, bind_ok htext, fun y hy => ?_⟩
    rw [hx] at hy
    cases hy
    rfl
  · refine ⟨_, bind_error htext, fun y hy => ?_⟩
    rw [hf] at hy
    cases hy

theorem checkType_of_not_admits {name : String} {v : Value} {type : TokenKind}
    {line column : Option Nat} {s : State} (h : ¬type.admits v = true) :
    ∃ f t, checkType name v type line column s = .error (.fault f) t ∧ s.Alike t := by
  obtain ⟨f, hcheck, -⟩ := checkType_fails h name line column s
  exact ⟨f, s, hcheck, ⟨rfl, rfl, rfl, rfl, rfl⟩⟩

theorem assign_of_unbound {s : State} {name : String} {v : Value} {line column : Option Nat}
    (h : ¬s.vars.has name = true) : assign name v line column s =
      .error (.fault ((Cause.undefinedVariable name).faultAt line column)) s := by
  have hunbound : (!s.vars.has name) = true := by simpa using h
  exact congrFun (if_pos hunbound) s

theorem assign_of_bound {s : State} {name : String} {v : Value} {line column : Option Nat}
    (h : s.vars.has name = true) : assign name v line column s =
      if name ∈ s.constants then
        .error (.fault ((Cause.constantReassigned name).faultAt line column)) s
      else
        (do
          if let some (.checked type) := s.types.get? name then checkType name v type line column
          setVariable name v
          return v : Run Value) s := by
  have hbound : ¬(!s.vars.has name) = true := by simpa using h
  change (if (!s.vars.has name) = true then _ else _ : Run Value) s = _
  rw [if_neg hbound]
  by_cases hname : name ∈ s.constants
  · rw [if_pos hname]
    have hcontains : s.constants.contains name = true := by simpa using hname
    exact congrFun (if_pos hcontains) s
  · rw [if_neg hname]
    have hcontains : ¬s.constants.contains name = true := by simpa using hname
    exact congrFun (if_neg hcontains) s

end Run

end Luuqad

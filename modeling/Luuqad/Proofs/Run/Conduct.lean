import Luuqad.Proofs.Run.Binding
import Luuqad.Proofs.Run.Expressions

/-!
# Statements under a conduct

A conduct extends a contract to the statements of a scope. It says which statements are good in
which scope, how they may bind names, and in which states an interrupt may leave a statement there.
Its fields are the steps that a proof has to make about a particular conduct: what changes of names,
defining a function and reading a file do to the invariant, how goodness passes from a node to its
parts, and where the invariant holds again after an interrupt. The expressions in good statements
are only asked to be covered.

From these, `Conduct.Runs.statement` shows that statements keep the conduct if their parts do, one
form after the other. What is called is not looked at: it is run as an expression.
-/

namespace Luuqad

/-- What stands around a statement: a loop, a function. -/
structure Scope where
  loop : Bool
  function : Bool
deriving DecidableEq, Repr

namespace Scope

/-- Neither a loop nor a function. -/
def top : Scope := ⟨false, false⟩

def body : Scope := ⟨false, true⟩

def inLoop (c : Scope) : Scope := { c with loop := true }

end Scope

/-- The scope of the statements inside a node. -/
def Node.inside (n : Node) (c : Scope) : Scope :=
  match n.kind with
  | .loop | .whileLoop => c.inLoop
  | .function => .body
  | _ => c

/-- How many children of a node come before its body: loops start with expressions. -/
def Node.heading (n : Node) : Nat :=
  match n.kind with
  | .loop => 2
  | .whileLoop => 1
  | _ => 0

/-- The children of a node that may be run as statements. -/
def Node.body (n : Node) : List Node := n.children.drop n.heading

/-- Whether a node holds statements in its grandchildren: in clauses, or in a body and a handler. -/
def Node.hasParts (n : Node) : Bool := n.kind = .switch || n.kind = .tryCatch

/-- What the statements of a scope keep to. -/
structure Conduct where
  inv : State → Prop
  leaves : Scope → Interrupt → State → Prop
  good : Scope → Node → Prop
  may : String → Manner → Prop
  quiet {s t : State} : s.Alike t → inv s → inv t
  change {s t : State} : inv s → s.Change may t → inv t
  define {s : State} {c : Scope} {n : Node} (name : String) (params : List String) :
    inv s → good c n → n.kind = .function → (∀ p ∈ params, n.Binds p .passed) →
    inv { s with
      functions := s.functions.put name ⟨params, n.children.filter (·.kind ≠ .identifier)⟩ }
  binds {c : Scope} {n : Node} {name : String} {manner : Manner} :
    good c n → n.kind ≠ .function → n.Binds name manner → may name manner
  file {s : State} {c : Scope} {n : Node} {path source : String} {program : Node} :
    inv s → good c n → n.kind = .importFile → n.value = .str path →
    s.folder.read path = .ok source → readProgram source = .ok program →
    ∀ m ∈ program.children, good .top m
  body {c : Scope} {n m : Node} :
    good c n → n.kind ≠ .function → n.hasParts = false → m ∈ n.body → good (n.inside c) m
  parts {c : Scope} {n p m : Node} :
    good c n → n.hasParts = true → p ∈ n.children → m ∈ p.children → good c m
  fault {c : Scope} {f : Fault} {s : State} : f.isMisplaced = false → inv s → leaves c (.fault f) s
  stopped {c : Scope} {s : State} : inv s → leaves c .stopped s
  exhausted {c : Scope} {s : State} : inv s → leaves c .exhausted s
  breaking {c : Scope} {n : Node} {s : State} :
    good c n → n.kind = .breakLoop → inv s → leaves c .breaking s
  continuing {c : Scope} {n : Node} {s : State} :
    good c n → n.kind = .continueLoop → inv s → leaves c .continuing s
  returning {c : Scope} {n : Node} {v : Value} {s : State} :
    good c n → n.kind = .returnValue → inv s → leaves c (.returning v) s
  broken {c : Scope} {s : State} : leaves c.inLoop .breaking s → inv s
  continued {c : Scope} {s : State} : leaves c.inLoop .continuing s → inv s
  ofRound {c : Scope} {e : Interrupt} {s : State} :
    leaves c.inLoop e s → e ≠ .breaking → e ≠ .continuing → leaves c e s
  caught {c : Scope} {n : Node} {e : Interrupt} {s : State} :
    good c n → n.kind = .tryCatch → leaves c e s → inv s
  ofTop {c : Scope} {e : Interrupt} {s : State} : leaves .top e s → leaves c e s
  /-- Where an interrupt leaves a file, the import fails. -/
  failing {c : Scope} {e : Interrupt} {f : Fault} {s : State} :
    leaves .top e s → f.isMisplaced = false → leaves c (.fault f) s
  covers : Node → Prop := fun _ => True
  covers_child {n m : Node} : covers n → m ∈ n.children → covers m := by exact fun _ _ => trivial
  covers_good {c : Scope} {n : Node} : good c n → covers n := by exact fun _ => trivial

namespace Conduct

open Run

variable {C : Conduct} {α β : Type} {c d : Scope}

/-- What a statement keeps to in a scope. -/
def contract (C : Conduct) (c : Scope) : Contract where
  inv := C.inv
  leaves := C.leaves c
  quiet := C.quiet
  fault := C.fault
  stopped := C.stopped
  exhausted := C.exhausted
  covers := C.covers
  covers_child := C.covers_child

/-- What the run of a file keeps to: it may also fail because the file cannot be read. -/
def loose (C : Conduct) : Contract where
  inv := C.inv
  leaves e s := C.inv s ∨ C.leaves .top e s
  quiet := C.quiet
  fault _ hs := .inl hs
  stopped hs := .inl hs
  exhausted hs := .inl hs
  covers := C.covers
  covers_child := C.covers_child

theorem safe_ofTop {r r' : Run α} (hr : Safe (C.contract .top) r r') :
    Safe (C.contract c) r r' :=
  .mono (c := C.contract .top) (fun _ => .rfl) (fun _ _ h => C.ofTop h) hr

theorem keeps_setVariable {name : String} {manner : Manner} (v : Value) (hmay : C.may name manner)
    (hmanner : ∀ type constant, manner ≠ .declared type constant) :
    Keeps (C.contract c) (Run.setVariable name v) :=
  .of_met fun _ hs => C.change hs (.bind hmay hmanner)

/-- Two evaluators run the parts of statements alike, and as the conduct asks. -/
structure Runs (C : Conduct) (ev₁ ev₂ : Evaluator) : Prop where
  rounds : ev₂.rounds = ev₁.rounds
  finds : ev₁.Finds C.covers
  finds' : ev₂.Finds C.covers
  evaluate {n : Node} (hn : C.covers n) : Safe (C.contract .top) (ev₁.evaluate n) (ev₂.evaluate n)
  execute {c : Scope} {n : Node} (hn : C.good c n) :
    Safe (C.contract c) (ev₁.execute n) (ev₂.execute n)

namespace Runs

variable {ev₁ ev₂ : Evaluator}

theorem expression (h : Runs C ev₁ ev₂) {n : Node} (hn : C.covers n) :
    Safe (C.contract c) (ev₁.evaluate n) (ev₂.evaluate n) := safe_ofTop (h.evaluate hn)

theorem child_bind (h : Runs C ev₁ ev₂) {n : Node} {i : Nat} {f f' : Node → Run α} (hn : C.covers n)
    (hi : i < n.kind.places)
    (hf : ∀ m ∈ n.children, C.covers m → Safe (C.contract c) (f m) (f' m)) :
    Safe (C.contract c) (ev₁.child n i >>= f) (ev₂.child n i >>= f') :=
  .found_bind (c := C.contract c) h.finds h.finds' hn (.own hi) hf

theorem operand_bind (h : Runs C ev₁ ev₂) {n : Node} {i : Nat} {f f' : Value → Run α}
    (hn : C.covers n) (hi : i < n.kind.places) (hf : ∀ v, Safe (C.contract c) (f v) (f' v)) :
    Safe (C.contract c) (ev₁.child n i >>= fun m => ev₁.evaluate m >>= f)
      (ev₂.child n i >>= fun m => ev₂.evaluate m >>= f') :=
  h.child_bind hn hi fun _ _ hm => .bind (h.expression hm) hf

theorem sequence (h : Runs C ev₁ ev₂) {nodes : List Node} (hgood : ∀ m ∈ nodes, C.good c m) :
    Safe (C.contract c) (ev₁.sequence nodes) (ev₂.sequence nodes) := by
  induction nodes with
  | nil => exact .pure _
  | cons n rest ih =>
    have hn := h.execute (hgood n List.mem_cons_self)
    cases rest with
    | nil => exact hn
    | cons m rest =>
      exact .bind hn fun _ => ih fun m hm => hgood m (List.mem_cons_of_mem _ hm)

theorem block (h : Runs C ev₁ ev₂) {nodes : List Node} (hgood : ∀ m ∈ nodes, C.good c m) :
    Safe (C.contract c) (ev₁.block nodes) (ev₂.block nodes) :=
  .bind (h.sequence hgood) fun _ => .pure _

/-! ### Variables -/

theorem keeps_declared {n : Node} {name : String} (v : Value)
    (hmay : C.may name (.declared n.declared n.constant)) :
    Keeps (C.contract c)
      (do
        if let some type := n.declared then
          Run.noteType name (.checked type)
          Run.checkType name v type n.line n.column
        if n.constant then Run.noteConstant name
        Run.setVariable name v
        return v) := by
  -- the type has been noted and admits the value
  have hset (s : State) (hs : C.inv s) (htype : ∀ k, n.declared = some k →
      s.types.get? name = some (.checked k) ∧ k.admits v = true) :
      (C.contract c).Met ((do
        if n.constant then Run.noteConstant name
        Run.setVariable name v
        return v : Run Value) s) := by
    cases hconstant : n.constant with
    | false => exact C.change hs (.declare (hconstant ▸ hmay) htype (by simp))
    | true =>
      rw [hconstant] at hmay
      have hnoted : C.inv (s.withConstant name) := C.change hs (.noteConstant hmay)
      refine C.change hnoted (.declare hmay htype fun _ => ?_)
      exact (s.mem_withConstant name name).mpr (.inl rfl)
  refine .of_met fun s hs => ?_
  cases hdeclared : n.declared with
  | none => exact hset s hs (by simp [hdeclared])
  | some type =>
    have hnoted : C.inv (s.withType name type) := C.change hs (.noteType (hdeclared ▸ hmay))
    by_cases hadmits : type.admits v = true
    · dsimp only
      rw [checkType_of_admits hadmits]
      refine hset (s.withType name type) hnoted fun k hk => ?_
      obtain rfl : type = k := by simpa [hdeclared] using hk
      refine ⟨?_, hadmits⟩
      exact (NameTable.get?_put _ _ _ _).trans (if_pos rfl)
    · exact (Safe.checkType_bind (c := C.contract c) hadmits _ hnoted).2

theorem declare (h : Runs C ev₁ ev₂) {n : Node} (hn : C.good c n) (hkind : n.kind = .declaration) :
    Safe (C.contract c) (ev₁.declare n) (ev₂.declare n) := by
  refine h.operand_bind (C.covers_good hn) (by simp [hkind, NodeKind.places]) fun v => ?_
  refine .nameOf_bind fun name hname => ?_
  exact keeps_declared v (C.binds hn (by simp [hkind]) (.declaration hkind hname))

/-- An assignment sets a variable that is bound, that is not constant, and whose type admits the
value. -/
theorem keeps_assign (name : String) (v : Value) (line column : Option Nat) :
    Keeps (C.contract c) (Run.assign name v line column) := by
  refine .of_met fun s hs => ?_
  by_cases hbound : s.vars.has name = true
  · rw [assign_of_bound hbound]
    split
    · exact C.fault rfl hs
    · rename_i hname
      have hset (htype : ∀ k, s.types.get? name = some (.checked k) → k.admits v = true) :
          C.inv (s.withVariable name v) := C.change hs (.assign hbound hname htype)
      split
      · rename_i type htype
        by_cases hadmits : type.admits v = true
        · rw [checkType_of_admits hadmits]
          refine hset fun k hk => ?_
          obtain rfl : type = k := by simpa [htype] using hk
          exact hadmits
        · exact (Safe.checkType_bind (c := C.contract c) hadmits s hs).2
      · rename_i htype
        exact hset fun k hk => absurd hk (htype k)
  · rw [assign_of_unbound hbound]
    exact C.fault rfl hs

theorem assignment (h : Runs C ev₁ ev₂) {n : Node} (hn : C.covers n)
    (hkind : n.kind = .assignment) :
    Safe (C.contract c) (ev₁.assignment n) (ev₂.assignment n) := by
  refine h.child_bind hn (by simp [hkind, NodeKind.places]) fun target _ htarget => ?_
  refine h.operand_bind hn (by simp [hkind, NodeKind.places]) fun v => ?_
  split
  · exact .bind (.nameOf _) fun name => keeps_assign _ _ _ _
  · rename_i hkind
    refine h.operand_bind htarget (by simp [hkind, NodeKind.places]) fun object => ?_
    split
    · refine .bind (.act (.ofExcept _)) fun key => .bind (.act ?_) fun _ => .pure _
      exact (Action.Plain.entries _).bind fun _ => .setEntries _ _
    · exact .bind (.text _) fun _ => .raiseAt n rfl
  · rename_i hkind
    refine h.operand_bind htarget (by simp [hkind, NodeKind.places]) fun list => ?_
    split
    · refine h.operand_bind htarget (by simp [hkind, NodeKind.places]) fun index => .bind_get
        fun s _ => ?_
      refine .bind (Evaluator.Agree.keeps_place n _ index) fun i => .bind (.act ?_) fun _ => .pure _
      exact (Action.Plain.items _).bind fun _ => .setItems _ _
    · exact .raiseAt n rfl
  · exact .raiseAt n rfl

theorem keeps_define {n : Node} (hn : C.good c n) (hkind : n.kind = .function) :
    Keeps (C.contract c) (Evaluator.define n) := by
  have hparams (params : List String)
      (h : ∀ name ∈ params, ∃ p ∈ n.children.filter (·.kind = .identifier), p.value.Names name) :
      ∀ name ∈ params, n.Binds name .passed := by
    intro name hname
    obtain ⟨p, hp, hnamed⟩ := h name hname
    rw [List.mem_filter, decide_eq_true_eq] at hp
    exact .parameter hkind hp.1 hp.2 hnamed
  have hrest : Keeps (C.contract c)
      (do
        let params ← (n.children.filter (·.kind = .identifier)).mapM fun p => Run.nameOf p.value
        let body := n.children.filter (·.kind ≠ .identifier)
        let name ← Run.nameOf n.value
        modify fun s => { s with functions := s.functions.put name ⟨params, body⟩ }) :=
    .names_bind fun params hnames => .bind (.nameOf _) fun name =>
      .of_met fun s hs => C.define name params hs hn hkind (hparams params hnames)
  exact .ite (.bind (.raise rfl) fun _ => hrest) hrest

/-! ### Conditionals and switches -/

theorem good_ownBody {nodes : List Node} (hgood : ∀ m ∈ nodes, C.good c m) :
    ∀ m ∈ Evaluator.ownBody nodes, C.good c m :=
  fun m hm => hgood m (List.takeWhile_subset _ hm)

theorem good_children {n : Node} {k : NodeKind} (hn : C.good c n) (hkind : n.kind = k)
    (hk : k ∈ [NodeKind.program, .block, .conditional, .classDefinition]) :
    ∀ m ∈ n.children, C.good c m := by
  intro m hm
  have hnode : n.kind ≠ .function ∧ n.hasParts = false ∧ n.heading = 0 ∧ n.inside c = c := by
    unfold Node.hasParts Node.heading Node.inside
    simp only [List.mem_cons, List.not_mem_nil, or_false] at hk
    rcases hk with rfl | rfl | rfl | rfl <;> simp [hkind]
  obtain ⟨hne, hparts, hheading, hinside⟩ := hnode
  have hbody : m ∈ n.body := by
    unfold Node.body
    rwa [hheading, List.drop_zero]
  have hgood := C.body hn hne hparts hbody
  rwa [hinside] at hgood

theorem good_rounds {n : Node} (hn : C.good c n) (hkind : n.kind = .loop ∨ n.kind = .whileLoop) :
    ∀ m ∈ n.body, C.good c.inLoop m := by
  intro m hm
  have hnode : n.kind ≠ .function ∧ n.hasParts = false ∧ n.inside c = c.inLoop := by
    unfold Node.hasParts Node.inside
    rcases hkind with hkind | hkind <;> simp [hkind]
  obtain ⟨hne, hparts, hinside⟩ := hnode
  have hgood := C.body hn hne hparts hm
  rwa [hinside] at hgood

theorem branches (h : Runs C ev₁ ev₂) {nodes : List Node} (hgood : ∀ m ∈ nodes, C.good c m) :
    Safe (C.contract c) (ev₁.branches nodes) (ev₂.branches nodes) := by
  induction nodes with
  | nil => exact .pure _
  | cons n rest ih =>
    have hn := hgood n List.mem_cons_self
    have hrest := ih fun m hm => hgood m (List.mem_cons_of_mem _ hm)
    unfold Evaluator.branches
    split
    · rename_i hkind
      have hread : 0 < n.kind.places := by simp [hkind, NodeKind.places]
      refine h.operand_bind (C.covers_good hn) hread fun v => .bind (.isTrue v) fun b => ?_
      refine .ite (h.block (good_ownBody fun m hm => ?_)) hrest
      exact good_children hn hkind (by simp) m (List.mem_of_mem_drop hm)
    · split
      · rename_i hkind
        exact h.block (good_children hn hkind (by simp))
      · exact hrest

theorem conditional (h : Runs C ev₁ ev₂) {n : Node} (hn : C.good c n)
    (hkind : n.kind = .conditional) :
    Safe (C.contract c) (ev₁.conditional n) (ev₂.conditional n) := by
  have hrest : ∀ m ∈ n.children.drop 1, C.good c m :=
    fun m hm => good_children hn hkind (by simp) m (List.mem_of_mem_drop hm)
  have hread : 0 < n.kind.places := by simp [hkind, NodeKind.places]
  refine h.operand_bind (C.covers_good hn) hread fun v => .bind (.isTrue v) fun b => ?_
  exact .ite (h.block (good_ownBody hrest)) (h.branches hrest)

theorem clauses (h : Runs C ev₁ ev₂) {nodes : List Node} (v : Value) (last : Option Node)
    (hcovers : ∀ p ∈ nodes, C.covers p) (hgood : ∀ p ∈ nodes, ∀ m ∈ p.children, C.good c m)
    (hlast : ∀ p, last = some p → ∀ m ∈ p.children, C.good c m) :
    Safe (C.contract c) (ev₁.clauses v last nodes) (ev₂.clauses v last nodes) := by
  induction nodes generalizing last with
  | nil =>
    refine h.block fun m hm => ?_
    cases last with
    | none => simp at hm
    | some p => exact hlast p rfl m hm
  | cons n rest ih =>
    have hn := hgood n List.mem_cons_self
    have hrest {last : Option Node} (hlast : ∀ p, last = some p → ∀ m ∈ p.children, C.good c m) :=
      ih last (fun p hp => hcovers p (List.mem_cons_of_mem _ hp))
        (fun p hp => hgood p (List.mem_cons_of_mem _ hp)) hlast
    unfold Evaluator.clauses
    cases hchildren : n.children with
    | nil => exact hrest hlast
    | cons first body =>
      have hfirst : C.covers first :=
        C.covers_child (hcovers n List.mem_cons_self) (hchildren ▸ List.mem_cons_self)
      refine .ite (hrest fun p hp => ?_) ?_
      · cases hp
        exact hn
      · refine .bind (h.expression hfirst) fun w => .bind (.act (.reading _)) fun b => ?_
        refine .ite (h.block fun m hm => hn m ?_) (hrest hlast)
        rw [hchildren]
        exact List.mem_cons_of_mem _ hm

theorem switch (h : Runs C ev₁ ev₂) {n : Node} (hn : C.good c n) (hkind : n.kind = .switch) :
    Safe (C.contract c) (ev₁.switch n) (ev₂.switch n) := by
  have hcovers := C.covers_good hn
  refine h.operand_bind hcovers (by simp [hkind, NodeKind.places]) fun v => ?_
  refine h.clauses v none (fun p hp => C.covers_child hcovers (List.mem_of_mem_drop hp))
    (fun p hp m hm => ?_) fun p hp => by cases hp
  exact C.parts hn (by simp [Node.hasParts, hkind]) (List.mem_of_mem_drop hp) hm

/-! ### Loops -/

/-- A round ends the signals of a loop. -/
theorem round (h : Runs C ev₁ ev₂) {body : List Node} (hgood : ∀ m ∈ body, C.good c.inLoop m) :
    Safe (C.contract c) (ev₁.round body) (ev₂.round body) := by
  refine .tryCatch (c := C.contract c.inLoop)
    (fun _ => .rfl) (.bind (h.block hgood) fun _ => .pure _)
    fun e s he => ⟨rfl, ?_⟩
  cases e with
  | breaking => exact C.broken he
  | continuing => exact C.continued he
  | fault f => exact C.ofRound he (by simp) (by simp)
  | returning v => exact C.ofRound he (by simp) (by simp)
  | stopped => exact C.ofRound he (by simp) (by simp)
  | exhausted => exact C.ofRound he (by simp) (by simp)

theorem countRounds (h : Runs C ev₁ ev₂) {body : List Node} {v : Value} (toward : Relation)
    (stop : Value) (step : Num) (w : Value) (i : Num) (fuel : Nat)
    (hmay : ∀ {name}, v.Names name → C.may name .counted) (hgood : ∀ m ∈ body, C.good c.inLoop m) :
    Safe (C.contract c) (ev₁.countRounds v body toward stop step w i fuel)
      (ev₂.countRounds v body toward stop step w i fuel) := by
  have hround (w : Value) :
      Safe (C.contract c) (ev₁.countRound v body w) (ev₂.countRound v body w) :=
    .nameOf_bind fun _ hname => .bind (keeps_setVariable w (hmay hname) (by simp)) fun _ =>
      h.round hgood
  induction fuel generalizing w i with
  | zero => exact .exhausted
  | succ fuel ih =>
    refine .bind (.act (.reading _)) fun b => .ite (.bind (hround w) fun goesOn => ?_) (.pure _)
    refine .ite (.bind (.act (.ofExcept _)) fun next => ?_) (.pure _)
    exact .bind (.act (.number next)) fun w => ih w next

theorem counting (h : Runs C ev₁ ev₂) {n : Node} {body : List Node} (hn : C.good c n)
    (hkind : n.kind = .loop) (start stop step : Value) (hgood : ∀ m ∈ body, C.good c.inLoop m) :
    Safe (C.contract c) (ev₁.counting n start stop step body)
      (ev₂.counting n start stop step body) := by
  unfold Evaluator.counting
  rw [h.rounds]
  split
  · exact h.countRounds _ _ _ _ _ _
      (fun hname => C.binds hn (by simp [hkind]) (.loop hkind hname)) hgood
  · exact .raise rfl

theorem loop (h : Runs C ev₁ ev₂) {n : Node} (hn : C.good c n) (hkind : n.kind = .loop) :
    Safe (C.contract c) (ev₁.loop n) (ev₂.loop n) := by
  have hbody : ∀ m ∈ n.children.drop 2, C.good c.inLoop m := by
    have hheading : n.heading = 2 := by simp [Node.heading, hkind]
    rw [← hheading]
    exact good_rounds hn (.inl hkind)
  have hcovers := C.covers_good hn
  simp only [Evaluator.loop_eq, Evaluator.heading, bind_assoc]
  refine h.operand_bind hcovers (by simp [hkind, NodeKind.places]) fun start => ?_
  refine h.operand_bind hcovers (by simp [hkind, NodeKind.places]) fun stop => ?_
  cases hrest : n.children.drop 2 with
  | nil => exact h.counting hn hkind _ _ _ (by simp)
  | cons third rest =>
    rw [hrest] at hbody
    have hthird : C.covers third :=
      C.covers_child hcovers (List.mem_of_mem_drop (hrest ▸ List.mem_cons_self))
    dsimp only
    split
    · simp only [bind_assoc, pure_bind]
      refine .bind (h.expression hthird) fun step => ?_
      exact h.counting hn hkind _ _ step fun m hm => hbody m (List.mem_cons_of_mem _ hm)
    · exact h.counting hn hkind _ _ _ hbody

theorem whileRounds (h : Runs C ev₁ ev₂) {n : Node} {body : List Node} (hn : C.covers n)
    (hkind : n.kind = .whileLoop) (fuel : Nat) (hgood : ∀ m ∈ body, C.good c.inLoop m) :
    Safe (C.contract c) (ev₁.whileRounds n body fuel) (ev₂.whileRounds n body fuel) := by
  induction fuel with
  | zero => exact .exhausted
  | succ fuel ih =>
    have hread : 0 < n.kind.places := by simp [hkind, NodeKind.places]
    refine h.operand_bind hn hread fun v => .bind (.isTrue v) fun b => ?_
    refine .ite (.bind (h.round hgood) fun goesOn => ?_) (.pure _)
    exact .ite ih (.pure _)

theorem whileLoop (h : Runs C ev₁ ev₂) {n : Node} (hn : C.good c n)
    (hkind : n.kind = .whileLoop) :
    Safe (C.contract c) (ev₁.whileLoop n) (ev₂.whileLoop n) := by
  unfold Evaluator.whileLoop
  rw [h.rounds]
  have hheading : n.heading = 1 := by simp [Node.heading, hkind]
  have hbody : ∀ m ∈ n.children.drop 1, C.good c.inLoop m := by
    rw [← hheading]
    exact good_rounds hn (.inr hkind)
  exact h.whileRounds (C.covers_good hn) hkind _ hbody

/-! ### Handlers and files -/

theorem tryCatch (h : Runs C ev₁ ev₂) {n : Node} (hn : C.good c n) (hkind : n.kind = .tryCatch) :
    Safe (C.contract c) (ev₁.tryCatch n) (ev₂.tryCatch n) := by
  have hpart : ∀ p ∈ n.children,
      Safe (C.contract c) (ev₁.block p.children) (ev₂.block p.children) :=
    fun p hp => h.block fun m hm => C.parts hn (by simp [Node.hasParts, hkind]) hp hm
  have hblock {i : Nat} (hi : i < 2) : Safe (C.contract c)
      (do ev₁.block (← ev₁.child n i).children) (do ev₂.block (← ev₂.child n i).children) :=
    h.child_bind (C.covers_good hn) (by simpa [hkind, NodeKind.places] using hi)
      fun m hm _ => hpart m hm
  refine .tryCatch (c := C.contract c) (fun _ => .rfl) (hblock (by omega)) fun e s he => ?_
  cases hcaught : e.caught? with
  | none => exact ⟨rfl, he⟩
  | some text =>
    have hhandler : Safe (C.contract c)
        (do
          Run.setVariable (← Run.nameOf n.value) (.str text)
          ev₁.block (← ev₁.child n 1).children)
        (do
          Run.setVariable (← Run.nameOf n.value) (.str text)
          ev₂.block (← ev₂.child n 1).children) :=
      .nameOf_bind fun name hname =>
        have hmay := C.binds hn (by simp [hkind]) (.handler hkind hname)
        .bind (keeps_setVariable _ hmay (by simp)) fun _ => hblock (by omega)
    exact hhandler s (C.caught hn hkind he)

theorem runFile (h : Runs C ev₁ ev₂) {n : Node} {path : String} (hn : C.good c n)
    (hkind : n.kind = .importFile) (hpath : n.value = .str path) :
    Safe C.loose (ev₁.runFile path) (ev₂.runFile path) := by
  refine .bind_get fun s hs => ?_
  cases hread : s.folder.read path with
  | error f => exact fun _ hs => ⟨rfl, .inl hs⟩
  | ok source =>
    intro t ht
    have hsource : Run.act (Action.ofExcept (.ok source)) t = .ok source t := rfl
    rw [bind_ok hsource, bind_ok hsource]
    cases hp : readProgram source with
    | error e => cases e <;> exact ⟨rfl, .inl ht⟩
    | ok program =>
      have hblock : Safe C.loose (ev₁.block program.children) (ev₂.block program.children) :=
        .mono (c := C.contract .top) (fun _ => .rfl) (fun _ _ h => .inr h)
          (h.block (C.file hs hn hkind hpath hread hp))
      exact hblock t ht

theorem importFile (h : Runs C ev₁ ev₂) {n : Node} (hn : C.good c n)
    (hkind : n.kind = .importFile) :
    Safe (C.contract c) (ev₁.importFile n) (ev₂.importFile n) := by
  refine .bind (.text _) fun path => ?_
  -- only the user and the limits get past an import
  have hraise {e : Interrupt} {s : State} (he : C.loose.leaves e s) {cause : Cause}
      (hcause : cause.isMisplaced = false) : C.leaves c (.fault cause.fault) s := by
    rcases he with hs | he
    · exact C.fault hcause hs
    · exact C.failing he hcause
  have hthrow {e : Interrupt} {s : State} (he : C.loose.leaves e s) (hcaught : e.caught? = none) :
      C.leaves c e s := by
    rcases he with hs | he
    · cases e with
      | stopped => exact C.stopped hs
      | exhausted => exact C.exhausted hs
      | _ => cases hcaught
    · exact C.ofTop he
  refine .tryCatch (c := C.loose) (fun _ => .rfl) ?_ fun e s he => ⟨rfl, ?_⟩
  · cases hv : n.value with
    | str path => exact h.runFile hn hkind hv
    | _ => exact .fail _
  · cases e with
    | fault f =>
      cases f with
      | error d => exact hraise he rfl
      | failure f => cases f <;> exact hraise he rfl
    | breaking | continuing | returning v => exact hraise he rfl
    | stopped | exhausted => exact hthrow he rfl

/-! ### Classes -/

theorem members (h : Runs C ev₁ ev₂) {nodes : List Node} (methods fields : Entries)
    (hgood : ∀ m ∈ nodes, C.good c m) :
    Safe (C.contract c) (ev₁.members nodes methods fields) (ev₂.members nodes methods fields) := by
  induction nodes generalizing methods fields with
  | nil => exact .pure _
  | cons n rest ih =>
    have hrest : ∀ m ∈ rest, C.good c m := fun m hm => hgood m (List.mem_cons_of_mem _ hm)
    unfold Evaluator.members
    split
    · refine .bind (.act (.ofExcept _)) fun key => .bind (.act (.alloc _)) fun code => ?_
      exact ih _ _ hrest
    · rename_i hkind
      have hn := C.covers_good (hgood n List.mem_cons_self)
      refine h.operand_bind hn (by simp [hkind, NodeKind.places]) fun v => ?_
      exact .bind (.act (.ofExcept _)) fun key => ih _ _ hrest
    · exact .bind (h.execute (hgood n List.mem_cons_self)) fun _ => ih _ _ hrest

theorem keeps_headingOf (v : Value) :
    Keeps (C.contract c) (Evaluator.headingOf v) := by
  unfold Evaluator.headingOf
  split
  · split
    · exact .pure _
    · exact .fail _
  · exact .pure _

theorem classDefinition (h : Runs C ev₁ ev₂) {n : Node} (hn : C.good c n)
    (hkind : n.kind = .classDefinition) :
    Safe (C.contract c) (ev₁.classDefinition n) (ev₂.classDefinition n) := by
  have hgood : ∀ m ∈ n.children, C.good c m := good_children hn hkind (by simp)
  have hparts (methods fields : Entries) (name parent : Value) : Action.Plain (do
      let methods ← Action.newObject methods
      let fields ← Action.newObject fields
      Action.alloc (.object [(.str "name", name), (.str "parent", parent),
        (.str "methods", methods), (.str "fields", fields)])) :=
    (Action.Plain.newObject _).bind fun _ => (Action.Plain.newObject _).bind fun _ => .alloc _
  refine .bind (keeps_headingOf _) fun (name, parent) => .bind (.isTrue parent) fun b => ?_
  refine .ite (.bind (.nameOf _) fun parentName => .bind_get fun s _ =>
    .ite (.raise_bind rfl) ?_) ?_
  all_goals
    refine .bind (h.members [] [] hgood) fun (methods, fields) => ?_
    refine .bind (.act (hparts _ _ _ _)) fun r => .bind (.nameOf _) fun className => ?_
    exact .bind (.step fun _ => ⟨rfl, rfl, rfl, rfl, rfl⟩) fun _ => .pure _

/-! ### All statements -/

theorem returnValue (h : Runs C ev₁ ev₂) {n : Node} (hn : C.good c n)
    (hkind : n.kind = .returnValue) :
    Safe (C.contract c) (ev₁.returnValue n) (ev₂.returnValue n) := by
  have hthrow (v : Value) : Keeps (C.contract c) (throw (.returning v) : Run Value) :=
    .throw fun _ hs => C.returning hn hkind hs
  unfold Evaluator.returnValue
  split
  · exact hthrow _
  · rename_i e rest hchildren
    have he : C.covers e := C.covers_child (C.covers_good hn) (hchildren ▸ List.mem_cons_self)
    exact .bind (h.expression he) fun v => hthrow v

/-- A good statement keeps the conduct if its parts do. -/
theorem statement (h : Runs C ev₁ ev₂) {n : Node} (hn : C.good c n)
    (hcall : n.kind = .call → Safe (C.contract .top) (ev₁.call n) (ev₂.call n)) :
    Safe (C.contract c) (ev₁.statement n) (ev₂.statement n) := by
  have hdone {r r' : Run Unit} (hr : Safe (C.contract c) r r') :
      Safe (C.contract c) (do r; return .null : Run Value) (do r'; return .null) :=
    .bind hr fun _ => .pure _
  have hvalue : Safe (C.contract c) (do let _ ← ev₁.evaluate n) (do let _ ← ev₂.evaluate n) :=
    .bind (h.expression (C.covers_good hn)) fun _ => .pure _
  unfold Evaluator.statement
  cases hkind : n.kind with
  | program | block => exact hdone (h.block (good_children hn hkind (by simp)))
  | declaration => exact hdone (.bind (h.declare hn hkind) fun _ => .pure _)
  | function => exact hdone (keeps_define hn hkind)
  | call => exact safe_ofTop (hcall hkind)
  | conditional => exact hdone (h.conditional hn hkind)
  | switch => exact hdone (h.switch hn hkind)
  | loop => exact hdone (h.loop hn hkind)
  | whileLoop => exact hdone (h.whileLoop hn hkind)
  | breakLoop => exact .throw fun _ hs => C.breaking hn hkind hs
  | continueLoop => exact .throw fun _ hs => C.continuing hn hkind hs
  | returnValue => exact h.returnValue hn hkind
  | importFile => exact hdone (h.importFile hn hkind)
  | tryCatch => exact hdone (h.tryCatch hn hkind)
  | classDefinition => exact h.classDefinition hn hkind
  | assignment => exact h.assignment (C.covers_good hn) hkind
  | binary | unary | property | methodCall | index | identifier | literal => exact hdone hvalue
  | list | object => exact .raise rfl

end Runs

end Conduct

end Luuqad

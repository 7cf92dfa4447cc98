import Luuqad.Proofs.Variables.Discipline
import Luuqad.Proofs.Variables.Scope

/-!
# Constants

The declaration of a constant notes the name, and an assignment to a variable whose name is noted
fails. Nothing else looks at what is noted, so declarations, counting loops, handlers and parameters
bind the name of a constant again; and nothing forgets it, so a constant of a function makes its
name one that cannot be assigned to in the caller either (`constants_rebound`).

A constant keeps its value in its scope if no statement of the scope binds its name or handles an
interrupt; the functions that are called may bind the name. Handlers do no harm if nothing that is
run binds the name. A name that is bound by declarations of constants only is noted whenever it is a
variable, and a name that is never declared constant is never noted. For such names an assignment is
refused, at every moment, exactly if the name is one of a constant (`constants_kept`).
-/

namespace Luuqad

open Run

/-! ## Assignments to constants -/

namespace State

/-- An assignment to the name fails because the name is one of a constant. -/
def Refuses (s : State) (name : String) (v : Value) (line column : Option Nat) : Prop :=
  ∃ d t, assign name v line column s = .error (.fault (.error d)) t ∧
    d.cause = .constantReassigned name

theorem refuses_iff {s : State} {name : String} (hname : s.vars.has name = true) (v : Value)
    (line column : Option Nat) : s.Refuses name v line column ↔ name ∈ s.constants := by
  constructor
  · rintro ⟨d, t, hrun, hcause⟩
    by_cases hnoted : name ∈ s.constants
    · exact hnoted
    · rw [assign_of_bound hname, if_neg hnoted] at hrun
      split at hrun
      · rename_i type _
        cases hcheck : checkType name v type line column s with
        | ok _ u =>
          rw [bind_ok hcheck] at hrun
          cases hrun
        | error e u =>
          rw [bind_error hcheck] at hrun
          cases hrun
          obtain ⟨text, hmismatch⟩ := checkType_error hcheck
          rw [hmismatch] at hcause
          cases hcause
      · cases hrun
  · intro hnoted
    rw [Refuses, assign_of_bound hname, if_pos hnoted]
    exact ⟨_, s, rfl, rfl⟩

end State

/-! ## Declarations of constants -/

theorem Evaluator.declare_constant {self : Evaluator} {n : Node} {s t : State} {name : String}
    {v : Value} (hconstant : n.constant = true) (hname : n.value = .str name)
    (h : self.declare n s = .ok v t) : name ∈ t.constants ∧ t.vars.get? name = some v := by
  obtain ⟨m, s₁, -, h⟩ := of_bind_ok h
  obtain ⟨w, s₂, -, h⟩ := of_bind_ok h
  rw [hname] at h
  obtain ⟨other, s₃, hother, h⟩ := of_bind_ok h
  cases hother
  have hset {u : State} (hu : (do noteConstant name; setVariable name w; return w : Run Value) u =
      .ok v t) :
      name ∈ t.constants ∧ t.vars.get? name = some v := by
    cases hu
    refine ⟨(State.mem_withConstant u name name).mpr (.inl rfl), ?_⟩
    exact (NameTable.get?_put _ _ _ _).trans (if_pos rfl)
  rw [hconstant] at h
  cases hdeclared : n.declared with
  | none =>
    rw [hdeclared] at h
    exact hset h
  | some type =>
    rw [hdeclared] at h
    obtain ⟨_, s₃, -, h⟩ := of_bind_ok h
    obtain ⟨_, s₄, -, h⟩ := of_bind_ok h
    exact hset h

/-! ## The disciplines -/

def Manner.isConstant : Manner → Bool
  | declared _ constant => constant
  | _ => false

theorem Manner.isConstant_of_ne {manner : Manner}
    (h : ∀ type constant, manner ≠ .declared type constant) : manner.isConstant = false := by
  cases manner with
  | declared type constant => exact absurd rfl (h type constant)
  | counted | caught | passed => rfl

/-- A name is noted and its value stays, if only other names are bound. -/
def Discipline.constant (name : String) (v : Value) : Discipline where
  may other _ := other ≠ name
  inv t := t.vars.get? name = some v ∧ name ∈ t.constants
  same hvars _ hconstants ht := ⟨hvars ▸ ht.1, hconstants ▸ ht.2⟩
  change {t u} ht hchange := by
    have hother {other : String} (w : Value) (hne : other ≠ name) :
        (t.withVariable other w).vars.get? name = some v ∧ name ∈ t.constants := by
      rw [State.withVariable, NameTable.get?_put, if_neg hne.symm]
      exact ht
    cases hchange with
    | noteType _ => exact ht
    | noteConstant _ => exact ⟨ht.1, (State.mem_withConstant _ _ _).mpr (.inr ht.2)⟩
    | declare hne _ _ => exact hother _ hne
    | bind hne _ => exact hother _ hne
    | assign _ hnoted _ => exact hother _ fun hname => hnoted (hname ▸ ht.2)
  restore ht hu _ := ⟨ht.1, hu.2⟩

/-- A name that is always bound as a constant, or never, is noted accordingly. -/
def Discipline.uniform (name : String) (constant : Bool) : Discipline where
  may other manner := other = name → manner.isConstant = constant
  inv t := (name ∈ t.constants → constant = true) ∧
    (constant = true → t.vars.has name = true → name ∈ t.constants)
  same hvars _ hconstants ht := by
    rw [hvars, hconstants]
    exact ht
  change {t u} ht hchange := by
    have hset {other : String} (w : Value)
        (hself : other = name → constant = true → name ∈ t.constants) :
        (name ∈ t.constants → constant = true) ∧
          (constant = true → (t.withVariable other w).vars.has name = true →
            name ∈ t.constants) := by
      refine ⟨ht.1, fun hconstant hname => ?_⟩
      rcases (NameTable.has_put _ _ _ _).mp hname with heq | hold
      · exact hself heq.symm hconstant
      · exact ht.2 hconstant hold
    cases hchange with
    | noteType _ => exact ht
    | noteConstant hmay =>
      refine ⟨fun hnoted => ?_, fun hconstant hname => ?_⟩
      · rcases (State.mem_withConstant _ _ _).mp hnoted with heq | hold
        · exact (hmay heq.symm).symm
        · exact ht.1 hold
      · exact (State.mem_withConstant _ _ _).mpr (.inr (ht.2 hconstant hname))
    | declare hmay _ hnoted =>
      refine hset _ fun heq hconstant => ?_
      exact heq ▸ hnoted ((hmay heq).trans hconstant)
    | bind hmay hmanner =>
      refine hset _ fun heq hconstant => ?_
      have hfalse := (Manner.isConstant_of_ne hmanner).symm.trans (hmay heq)
      rw [hconstant] at hfalse
      cases hfalse
    | assign hbound _ _ => exact hset _ fun heq hconstant => ht.2 hconstant (heq ▸ hbound)
  restore ht hu hgrows := ⟨hu.1, fun hconstant hname => hgrows.constants (ht.2 hconstant hname)⟩

/-! ## Main result -/

/-- What is run with the node in its scope neither binds the name nor handles an interrupt. -/
def Node.Spares (folder : Folder) (n : Node) (name : String) : Prop :=
  ∀ m, n.Own folder m → m.kind ≠ .tryCatch ∧ (m.kind ≠ .function → ∀ manner, ¬m.Binds name manner)

theorem Node.Spares.allows {folder : Folder} {n : Node} {name : String} (h : n.Spares folder name)
    (v : Value) : (Discipline.constant name v).Allows folder n := by
  intro m hm
  obtain ⟨hhandler, hbinds⟩ := h m hm
  refine ⟨hhandler, fun hkind other manner hother heq => ?_⟩
  subst heq
  exact hbinds hkind manner hother

/-- It is enough to check the node and what it holds, where no file is imported. -/
theorem Node.spares_of_everywhere {n : Node} {name : String} (folder : Folder)
    (h : n.everywhere
      (fun m _ => m.kind ≠ .tryCatch && m.bindsOnly fun other _ => other ≠ name) .top = true) :
    n.Spares folder name := by
  intro m hm
  have hall : ∃ c, m.everywhere
      (fun m _ => m.kind ≠ .tryCatch && m.bindsOnly fun other _ => other ≠ name) c = true := by
    induction hm with
    | self => exact ⟨.top, h⟩
    | body _ _ hparts hk ih =>
      obtain ⟨c, hc⟩ := ih
      exact ⟨_, everywhere_body hc hparts hk⟩
    | part _ hparts hp hk ih =>
      obtain ⟨c, hc⟩ := ih
      exact ⟨c, everywhere_part hc hparts hp hk⟩
    | file _ hkind _ _ _ _ ih =>
      obtain ⟨c, hc⟩ := ih
      have hbinds := check_of_everywhere hc
      simp [Node.bindsOnly, hkind] at hbinds
  obtain ⟨c, hc⟩ := hall
  have hcheck := check_of_everywhere hc
  rw [Bool.and_eq_true, decide_eq_true_eq] at hcheck
  refine ⟨hcheck.1, fun _ manner hbinds => ?_⟩
  simpa using allowed_of_binds hcheck.2 hbinds

/-- The declaration of a constant binds and notes its name. From then on the constant keeps its
value:

* at every moment of its scope, in a well scoped program, if no statement of the scope binds the
  name or handles an interrupt, whatever the functions that are called bind;
* at every moment at all, if nothing that may be run binds the name.

At every moment of a program, an assignment to a variable is refused exactly if its name is one of a
constant, for names that are bound as constants only or never. -/
theorem constants_kept (l : Limits) (s : State) (nodes : List Node) (name : String) (v : Value) :
    (∀ n t, n.constant = true → n.value = .str name → l.evaluator.declare n s = .ok v t →
      name ∈ t.constants ∧ t.vars.get? name = some v) ∧
    (name ∈ s.constants → s.vars.get? name = some v →
      (∀ program c, s.folder.WellScoped program → s.folder.Supplies program s →
        (∀ n ∈ nodes, s.folder.Within program c n ∧ n.Spares s.folder name) →
        l.AlwaysInScope (·.sequence nodes) s fun t => t.vars.get? name = some v) ∧
      ((∀ manner, ¬s.MayBind nodes name manner) →
        l.Always (·.sequence nodes) s fun t => t.vars.get? name = some v)) ∧
    ∀ n constant,
      (∀ manner, s.fresh.MayBind n.children name manner → manner.isConstant = constant) →
      l.Always (·.program n) s.fresh fun t => t.vars.has name = true →
        ∀ w line column, t.Refuses name w line column ↔ constant = true := by
  refine ⟨fun n t => Evaluator.declare_constant, fun hnoted hv => ⟨?_, ?_⟩, ?_⟩
  · intro program c hscoped hsupplies hnodes
    refine Discipline.always_inScope (D := .constant name v) l ?_ hscoped hsupplies
      (fun n hn => ⟨(hnodes n hn).1, (hnodes n hn).2.allows v⟩) ⟨hv, hnoted⟩ fun t ht => ht.1
    intro t u hvars hgrows ht
    exact ⟨hvars ▸ ht.1, hgrows.constants ht.2⟩
  · intro hmay
    refine Discipline.always_sequence (D := .constant name v) l (fun other manner hother heq => ?_)
      ⟨hv, hnoted⟩ fun t ht => ht.1
    exact hmay manner (heq ▸ hother)
  · intro n constant hmay
    refine Discipline.always_program (D := .uniform name constant) l
      (fun other manner hother heq => hmay manner (heq ▸ hother)) ⟨fun h => ?_, fun _ h => ?_⟩
      fun t ht hname w line column => ?_
    · cases h
    · cases h
    · rw [State.refuses_iff hname]
      exact ⟨ht.1, fun hconstant => ht.2 hconstant hname⟩

/-- A function that binds `k` twice: as a parameter and by a declaration. -/
def UserFunction.shadowing : UserFunction :=
  let two : Node := { kind := .literal, value := .int 2 }
  ⟨["k"], [{ kind := .declaration, value := .str "k", children := [two] }]⟩

/-- A program that defines the function and calls it in a loop. -/
def Node.shadowing : Node :=
  let literal (i : Int) : Node := { kind := .literal, value := .int i }
  let k : Node := { kind := .identifier, value := .str "k" }
  let call : Node := { kind := .call, value := .str "f", children := [literal 5] }
  { kind := .program
    children :=
      [{ kind := .function, value := .str "f", children := k :: UserFunction.shadowing.body },
       { kind := .loop, value := .str "i", children := [literal 1, literal 2, call] }] }

/-- A program that declares the constant `k` and catches that it is assigned to. -/
def Node.reassigning : Node :=
  let literal (i : Int) : Node := { kind := .literal, value := .int i }
  let k : Node := { kind := .identifier, value := .str "k" }
  let block (nodes : List Node) : Node := { kind := .block, children := nodes }
  let assign : Node := { kind := .assignment, children := [k, literal 2] }
  { kind := .program
    children :=
      [{ kind := .declaration, value := .str "k", children := [literal 1], constant := true },
       { kind := .tryCatch, value := .str "e", children := [block [assign], block []] }] }

/-- Calls that bind `k`, a handler, and assignments to `k` leave the constant `k` at one. -/
theorem constants_kept_of_shadowing :
    let l : Limits := ⟨9, 9⟩
    let s : State := { vars := [("k", .int 1)], constants := ["k"] }
    let s' : State := { s with functions := [("f", .shadowing)] }
    let kept (t : State) : Prop := t.vars.get? "k" = some (.int 1)
    (s'.folder.WellScoped Node.shadowing ∧ s'.folder.Supplies Node.shadowing s' ∧
      l.AlwaysInScope (·.sequence (Node.shadowing.children.drop 1)) s' kept) ∧
    ((∀ manner, ¬s.MayBind (Node.reassigning.children.drop 1) "k" manner) ∧
      l.Always (·.sequence (Node.reassigning.children.drop 1)) s kept) ∧
    (∀ manner, s.fresh.MayBind Node.reassigning.children "k" manner → manner.isConstant = true) ∧
      l.Always (·.program Node.reassigning) s.fresh fun t => t.vars.has "k" = true →
        ∀ w line column, t.Refuses "k" w line column ↔ true = true := by
  intro l s s' kept
  have hstands (m : Node) (hm : m ∈ Node.shadowing.children) :
      s'.folder.Within Node.shadowing .top m := ⟨_, .self, m, hm, .self⟩
  have hscoped : s'.folder.WellScoped Node.shadowing := by
    refine Folder.wellScoped_of_closed [Node.shadowing] (by simp) ?_ ?_
    · intro p hp
      rw [List.mem_singleton] at hp
      subst hp
      rfl
    · intro p hp m d path source q hm hkind
      rw [List.mem_singleton] at hp
      subst hp
      have hnone : Node.everywhereAfter (fun k _ => k.kind ≠ .importFile) .top 0
          Node.shadowing.children = true := rfl
      have himports := Node.check_of_holds hnone hm
      simp [hkind] at himports
  have hsupplies : s'.folder.Supplies Node.shadowing s' := by
    refine ⟨rfl, fun name f hf m hm => ?_⟩
    change NameTable.get? [("f", UserFunction.shadowing)] name = some f at hf
    rw [NameTable.get?_cons] at hf
    split at hf
    · cases hf
      exact (hstands _ List.mem_cons_self).function rfl (List.mem_cons_of_mem _ hm)
    · cases hf
  have hspares : ∀ n ∈ Node.shadowing.children.drop 1,
      s'.folder.Within Node.shadowing .top n ∧ n.Spares s'.folder "k" := by
    intro n hn
    refine ⟨hstands n (List.mem_of_mem_drop hn), ?_⟩
    obtain rfl := List.mem_singleton.mp hn
    exact Node.spares_of_everywhere _ rfl
  have hmay (manner : Manner) : ¬s.MayBind (Node.reassigning.children.drop 1) "k" manner := by
    intro h
    have hallowed := State.allowed_of_mayBind (fun name _ => name ≠ "k") rfl rfl h
    simp at hallowed
  have hconstant (manner : Manner) (h : s.fresh.MayBind Node.reassigning.children "k" manner) :
      manner.isConstant = true := by
    have hallowed :=
      State.allowed_of_mayBind (fun name manner => name ≠ "k" || manner.isConstant) rfl rfl h
    simpa using hallowed
  obtain ⟨-, hscope, -⟩ := constants_kept l s' (Node.shadowing.children.drop 1) "k" (.int 1)
  obtain ⟨-, halways, hrefuses⟩ :=
    constants_kept l s (Node.reassigning.children.drop 1) "k" (.int 1)
  refine ⟨⟨hscoped, hsupplies, ?_⟩, ⟨hmay, ?_⟩, hconstant, ?_⟩
  · exact (hscope (by decide) rfl).1 Node.shadowing .top hscoped hsupplies hspares
  · exact (halways (by decide) rfl).2 hmay
  · exact hrefuses Node.reassigning true hconstant

/-- Programs that bind the constant `k`, which is one, again. -/
def Node.rebindings : List Node :=
  let literal (i : Int) : Node := { kind := .literal, value := .int i }
  let k : Node := { kind := .identifier, value := .str "k" }
  let declare (i : Int) (constant : Bool) : Node :=
    { kind := .declaration, value := .str "k", children := [literal i], constant := constant }
  let block (nodes : List Node) : Node := { kind := .block, children := nodes }
  let attempt (name : String) (n : Node) : Node :=
    { kind := .tryCatch, value := .str name, children := [block [n], block []] }
  let missing : Node := { kind := .call, value := .str "g" }
  let programs :=
    -- a declaration
    [[declare 1 true, declare 2 false],
     -- a loop
     [declare 1 true, { kind := .loop, value := .str "k", children := [literal 2, literal 2] }],
     -- a handler
     [declare 1 true, attempt "k" missing],
     -- a parameter of a call that fails
     [declare 1 true, { kind := .function, value := .str "f", children := [k, missing] },
      attempt "e" { kind := .call, value := .str "f", children := [literal 2] }]]
  programs.map fun nodes => { kind := .program, children := nodes }

/-- Whether a program ends with another value than one in the constant `k`. -/
def Node.endsRebound (n : Node) : Bool :=
  match (Limits.mk 9 9).evaluator.program n {} with
  | .ok _ t => t.constants.contains "k" && t.vars.get? "k" ≠ some (.int 1)
  | .error _ _ => false

/-- A function that declares the constant `k`. After a call of it, `k` is declared as a variable and
assigned to. -/
def Node.constantElsewhere : Node :=
  let literal (i : Int) : Node := { kind := .literal, value := .int i }
  let k : Node := { kind := .identifier, value := .str "k" }
  let declare (i : Int) (constant : Bool) : Node :=
    { kind := .declaration, value := .str "k", children := [literal i], constant := constant }
  { kind := .program
    children :=
      [{ kind := .function, value := .str "f", children := [declare 1 true] },
       { kind := .call, value := .str "f" },
       declare 2 false,
       { kind := .assignment, children := [k, literal 3] }] }

/-- Each manner of binding a name replaces the value of a constant, and an assignment to a variable
is refused because a function had a constant of the same name. -/
theorem constants_rebound :
    Node.rebindings.all Node.endsRebound = true ∧
    ∃ d t, (Limits.mk 9 9).evaluator.program Node.constantElsewhere {} =
      .error (.fault (.error d)) t ∧
      d.cause = .constantReassigned "k" ∧ t.vars.get? "k" = some (.int 2) := by
  exact ⟨by decide +kernel, _, _, rfl, rfl, rfl⟩

end Luuqad

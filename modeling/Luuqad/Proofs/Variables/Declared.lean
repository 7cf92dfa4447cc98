import Luuqad.Proofs.Control.Guarded
import Luuqad.Proofs.Run.Binding

/-!
# Typed declarations that fail

A declaration with a type evaluates its value, notes the type, and then checks the value. So a
declaration whose value is not of its type fails with the type noted: the variable, if there is one,
keeps its value, its constancy and all else, but from now on it has the type of the declaration that
failed. A handler starts in this state, and later assignments are judged by this type. The names are
as they were only where the type was noted before (`failed_declaration_iff`).
-/

namespace Luuqad

open Run

/-! ## Typed declarations -/

/-- A declaration with a static type, of a variable or of a constant. -/
structure TypedDeclaration where
  name : String
  type : TokenKind
  value : Node
  constant : Bool
  line : Option Nat
  column : Option Nat

def TypedDeclaration.toNode (x : TypedDeclaration) : Node :=
  { kind := .declaration, value := .str x.name, children := [x.value], declared := some x.type
    constant := x.constant, line := x.line, column := x.column }

/-- The names of two states are alike: variables with their types and constants, functions and
classes. -/
def State.SameNames (s t : State) : Prop :=
  s.vars = t.vars ∧ s.types = t.types ∧ s.constants = t.constants ∧ s.functions = t.functions ∧
    s.classes = t.classes

theorem NameTable.put_eq_self_iff {α : Type} {t : NameTable α} {name : String} {value : α} :
    t.put name value = t ↔ t.get? name = some value := by
  constructor
  · intro h
    rw [← h, get?_put, if_pos rfl]
  · intro h
    induction t with
    | nil => cases h
    | cons entry rest ih =>
      obtain ⟨n, v⟩ := entry
      rw [get?_cons] at h
      by_cases hn : n = name
      · rw [if_pos hn.symm] at h
        cases h
        rw [put, if_pos hn]
      · rw [if_neg (Ne.symm hn)] at h
        rw [put, if_neg hn, ih h]

theorem State.sameNames_withType_iff {s : State} {name : String} {type : TokenKind} :
    (s.withType name type).SameNames s ↔ s.types.get? name = some (.checked type) := by
  rw [← NameTable.put_eq_self_iff]
  exact ⟨fun h => h.2.1, fun h => ⟨rfl, h, rfl, rfl, rfl⟩⟩

/-- An assignment to a name with a type succeeds if the name is bound and not constant, and the
value is of the type. -/
theorem Run.assign_ok_iff {s : State} {name : String} {type : TokenKind}
    (htype : s.types.get? name = some (.checked type)) (v : Value) (line column : Option Nat) :
    (∃ a u, assign name v line column s = .ok a u) ↔
      s.vars.has name = true ∧ name ∉ s.constants ∧ type.admits v = true := by
  by_cases hbound : s.vars.has name = true
  · rw [assign_of_bound hbound]
    by_cases hconstant : name ∈ s.constants
    · simp [hconstant]
    · rw [if_neg hconstant, htype]
      by_cases hadmits : type.admits v = true
      · refine iff_of_true ⟨v, s.withVariable name v, ?_⟩ ⟨hbound, hconstant, hadmits⟩
        simp only [checkType_of_admits hadmits]
        rfl
      · obtain ⟨f, hcheck, -⟩ := checkType_fails hadmits name line column s
        refine iff_of_false ?_ fun h => hadmits h.2.2
        rintro ⟨a, u, hrun⟩
        have hfails := (bind_error hcheck).symm.trans hrun
        cases hfails
  · rw [assign_of_unbound hbound]
    simp [hbound]

/-! ## The declaration -/

namespace TypedDeclaration

variable {self : Evaluator} {s t : State} {v : Value} (hchild : self.child = Node.child)
    (x : TypedDeclaration)
  (hvalue : self.evaluate x.value s = .ok v t)
include hchild hvalue

theorem declare_toNode : self.declare x.toNode s = (do
    checkType x.name v x.type x.line x.column
    if x.constant then noteConstant x.name
    setVariable x.name v
    return v : Run Value) (t.withType x.name x.type) := by
  have hfirst : self.child x.toNode 0 = pure x.value := by rw [hchild]; rfl
  unfold Evaluator.declare
  rw [hfirst, pure_bind, bind_ok hvalue]
  rfl

theorem statement_of_admits (hv : x.type.admits v = true) :
    ∃ u, self.statement x.toNode s = .ok .null u := by
  have hdeclare := declare_toNode hchild x hvalue
  rw [checkType_of_admits hv, pure_bind] at hdeclare
  cases hconstant : x.constant <;> rw [hconstant] at hdeclare
  all_goals exact ⟨_, bind_ok (bind_ok hdeclare)⟩

/-- A declaration whose value is not of its type fails, and its type stays noted. -/
theorem statement_of_not_admits (hv : ¬x.type.admits v = true) :
    ∃ f, self.statement x.toNode s = .error (.fault f) (t.withType x.name x.type) ∧
      ∀ y, v.text t.heap = .ok y →
        f = (Cause.typeMismatch x.name y x.type.spelling).faultAt x.line x.column := by
  obtain ⟨f, hcheck, hf⟩ := checkType_fails hv x.name x.line x.column (t.withType x.name x.type)
  have hdeclare := (declare_toNode hchild x hvalue).trans (bind_error hcheck)
  exact ⟨f, bind_error (bind_error hdeclare), hf⟩

end TypedDeclaration

/-- For every typed declaration, of a variable or of a constant, whose value has been evaluated: it
fails if and only if the value is not of its type. Then it fails with the type mismatch that names
the variable, the value and the type, unless the value cannot be shown; it leaves the state as it
was after the value was evaluated, but with the type noted. So variables, types, constants,
functions and classes are as they were if and only if this type was noted before. The handler of a
guarded statement around the declaration starts in this state, and an assignment to the name
succeeds there if and only if it has a variable, which is not constant, and the new value is of the
type of the declaration that failed. -/
theorem failed_declaration_iff (x : TypedDeclaration) (self : Evaluator)
    (hchild : self.child = Node.child) (s t : State) (v : Value)
    (hvalue : self.evaluate x.value s = .ok v t) :
    ((∃ e u, self.statement x.toNode s = .error e u) ↔ x.type.admits v = false) ∧
    ∀ e u, self.statement x.toNode s = .error e u → ∃ f, e = .fault f ∧
      (∀ y, v.text t.heap = .ok y →
        f = (Cause.typeMismatch x.name y x.type.spelling).faultAt x.line x.column) ∧
      u = t.withType x.name x.type ∧
      (u.SameNames t ↔ t.types.get? x.name = some (.checked x.type)) ∧
      (∀ (outer : Evaluator) (g : Guarded) (before after : List Node) (s₀ : State),
        outer.execute = self.statement →
        outer.child = Node.child → g.body = before ++ x.toNode :: after →
          outer.block before s₀ = .ok () s →
        outer.statement g.toNode s₀ = (do g.handle outer f.message; return .null : Run Value) u) ∧
      ∀ w line column, (∃ a u', Run.assign x.name w line column u = .ok a u') ↔
        t.vars.has x.name = true ∧ x.name ∉ t.constants ∧ x.type.admits w = true := by
  by_cases hv : x.type.admits v = true
  · obtain ⟨u, hok⟩ := x.statement_of_admits hchild hvalue hv
    have hnever (e : Interrupt) (u : State) : self.statement x.toNode s ≠ .error e u := by
      simp [hok]
    refine ⟨iff_of_false ?_ (by simp [hv]), fun e u herror => absurd herror (hnever e u)⟩
    rintro ⟨e, u, herror⟩
    exact hnever e u herror
  · obtain ⟨f, hfails, hf⟩ := x.statement_of_not_admits hchild hvalue hv
    refine ⟨iff_of_true ⟨_, _, hfails⟩ (by simpa using hv), fun e u herror => ?_⟩
    cases hfails.symm.trans herror
    have htype : (t.withType x.name x.type).types.get? x.name = some (.checked x.type) := by
      simp [State.withType, NameTable.get?_put]
    refine ⟨f, rfl, hf, rfl, State.sameNames_withType_iff, ?_, Run.assign_ok_iff htype⟩
    intro outer g before after s₀ hexecute houter hbody hbefore
    have hnode : outer.block [x.toNode] s = .error (.fault f) (t.withType x.name x.type) := by
      refine bind_error ?_
      rw [Evaluator.sequence, hexecute]
      exact hfails
    have hsequence := Evaluator.sequence_between hbefore hnode after
    rw [List.singleton_append, ← hbody] at hsequence
    exact Guarded.statement_of_caught houter rfl (bind_error hsequence)

/-- A text is declared as a number under a name that is declared as a text. -/
theorem failed_declaration_iff_of_text :
    let x : TypedDeclaration := ⟨"x", .abn, Parser.literal (.str "b"), false, some 2, some 12⟩
    let self := Evaluator.upTo 9 8
    let s : State := { vars := [("x", .str "a")], types := [("x", .checked .qoraal)] }
    let mismatch := (Cause.typeMismatch "x" "b" "abn").faultAt (some 2) (some 12)
    self.evaluate x.value s = .ok (.str "b") s ∧
      self.statement x.toNode s = .error (.fault mismatch) (s.withType "x" .abn) ∧
      ¬(s.withType "x" .abn).SameNames s ∧
      ¬∃ a u, Run.assign "x" (.str "c") (some 3) (some 1) (s.withType "x" .abn) = .ok a u := by
  intro x self s mismatch
  have hvalue : self.evaluate x.value s = .ok (.str "b") s := rfl
  obtain ⟨hfails, hafter⟩ :=
    failed_declaration_iff x self (Evaluator.child_upTo 9 8) s s (.str "b") hvalue
  obtain ⟨e, u, herror⟩ := hfails.mpr rfl
  obtain ⟨f, rfl, hf, rfl, hsame, -, hassign⟩ := hafter e u herror
  obtain rfl : f = mismatch := hf "b" (by rw [Value.text, Value.textIn])
  refine ⟨hvalue, herror, fun h => absurd (hsame.mp h) (by decide), fun h => ?_⟩
  have hadmits : TokenKind.abn.admits (.str "c") = true := ((hassign _ _ _).mp h).2.2
  exact absurd hadmits (by decide)

/-- After a failed declaration that is caught, a variable with a text and the type of texts has the
type of numbers, so it can no longer be assigned a text. -/
theorem failed_declaration_retypes :
    let x : TypedDeclaration := ⟨"x", .abn, Parser.literal (.str "b"), false, some 2, some 12⟩
    let guarded : Guarded := ⟨[x.toNode], .str "e", []⟩
    let s : State := { vars := [("x", .str "a")], types := [("x", .checked .qoraal)] }
    ∃ t, (Evaluator.upTo 9 9).execute guarded.toNode s = .ok .null t ∧
      t.vars.get? "x" = some (.str "a") ∧ t.types.get? "x" = some (.checked .abn) ∧
      (∃ a u, Run.assign "x" (.str "c") (some 3) (some 1) s = .ok a u) ∧
      ¬∃ a u, Run.assign "x" (.str "c") (some 3) (some 1) t = .ok a u := by
  intro x guarded s
  have hvalue : (Evaluator.upTo 9 7).evaluate x.value s = .ok (.str "b") s := rfl
  obtain ⟨f, hfails, -⟩ := x.statement_of_not_admits (Evaluator.child_upTo 9 7) hvalue (by decide)
  have hbody : (Evaluator.upTo 9 8).block guarded.body s =
      .error (.fault f) (s.withType "x" .abn) := bind_error hfails
  let t := (s.withType "x" .abn).withVariable "e" (.str f.message)
  have hguarded : (Evaluator.upTo 9 9).execute guarded.toNode s = .ok .null t :=
    Guarded.statement_of_caught (Evaluator.child_upTo 9 8) rfl hbody
  have hold : s.types.get? "x" = some (.checked .qoraal) := rfl
  have hnew : t.types.get? "x" = some (.checked .abn) := rfl
  refine ⟨t, hguarded, rfl, hnew, (Run.assign_ok_iff hold _ _ _).mpr (by decide), fun h => ?_⟩
  exact absurd ((Run.assign_ok_iff hnew _ _ _).mp h).2.2 (by decide)

end Luuqad

import Luuqad.Proofs.Variables.Discipline

/-!
# Types of variables

The type of a declaration is noted under the name, and what is assigned to the name later has to be
a value of that type. Declarations without a type, counting loops, handlers and parameters bind
names without a look at what is noted, a declaration notes its type before it checks the value, and
the end of a call puts variables back but not types. So the value of a name can be one that its type
does not admit (`untyped_bindings`).

What holds is about names that are bound in one manner only: if a name that is declared with a type
is bound by nothing but declarations with this type, then its value is one that its type admits, at
every moment of a run (`typed_always`). The invariant is that such a name is never a variable before
its type is noted.
-/

namespace Luuqad

open Run

/-- There are values that are not of the type. -/
def TokenKind.Restricts (k : TokenKind) : Prop := ∃ v, ¬k.admits v = Bool.true

namespace State

/-- Whether the value of a name is one that its type admits. -/
def typedAt (s : State) (name : String) : Bool :=
  match s.types.get? name, s.vars.get? name with
  | some (.checked k), some v => k.admits v
  | _, _ => true

theorem typedAt_iff (s : State) (name : String) : s.typedAt name = true ↔
    ∀ k v, s.types.get? name = some (.checked k) → s.vars.get? name = some v →
    k.admits v = true := by
  unfold typedAt
  constructor
  · intro h k v hk hv
    rwa [hk, hv] at h
  · intro h
    split
    · rename_i k v hk hv
      exact h k v hk hv
    · rfl

/-- If the name may be declared with a type that restricts values, it is bound by declarations with
this type only. -/
def KeepsType (s : State) (nodes : List Node) (name : String) : Prop :=
  ∀ k constant manner, k.Restricts → s.MayBind nodes name (.declared (some k) constant) →
    s.MayBind nodes name manner → ∃ constant', manner = .declared (some k) constant'

/-- Types are those of declarations, and no name has a value before its type is noted. -/
structure Checked (s : State) (nodes : List Node) (name : String) (t : State) : Prop where
  noted {d : DeclaredType} : t.types.get? name = some d →
    ∃ k constant, d = .checked k ∧ s.MayBind nodes name (.declared (some k) constant)
  admitted {k : TokenKind} {constant : Bool} {v : Value} : k.Restricts →
    s.MayBind nodes name (.declared (some k) constant) → t.vars.get? name = some v →
    k.admits v = true ∧ t.types.has name = true

namespace Checked

variable {s t u : State} {nodes : List Node} {name : String}

theorem typedAt (h : s.Checked nodes name t) : t.typedAt name = true := by
  rw [typedAt_iff]
  intro k v hk hv
  by_cases hadmits : k.admits v = true
  · exact hadmits
  · obtain ⟨k', constant, hdeclared, hmay⟩ := h.noted hk
    cases hdeclared
    exact (h.admitted ⟨v, hadmits⟩ hmay hv).1

theorem eq_of_noted (h : s.Checked nodes name t) (hkeeps : s.KeepsType nodes name) {k : TokenKind}
    {constant : Bool} (hk : k.Restricts) (hmay : s.MayBind nodes name (.declared (some k) constant))
    (hhas : t.types.has name = true) : t.types.get? name = some (.checked k) := by
  obtain ⟨d, hd⟩ := Option.isSome_iff_exists.mp hhas
  obtain ⟨k', constant', rfl, hmay'⟩ := h.noted hd
  obtain ⟨_, hmanner⟩ := hkeeps k constant _ hk hmay hmay'
  cases hmanner
  exact hd

theorem withVariable_of_ne (h : s.Checked nodes name t) {other : String} (v : Value)
    (hne : name ≠ other) :
    s.Checked nodes name (t.withVariable other v) := by
  refine ⟨h.noted, fun hk hmay hv => h.admitted hk hmay ?_⟩
  rwa [State.withVariable, NameTable.get?_put, if_neg hne] at hv

theorem withVariable_self (h : s.Checked nodes name t) {v : Value}
    (hv : ∀ k constant, k.Restricts → s.MayBind nodes name (.declared (some k) constant) →
      k.admits v = true ∧ t.types.has name = true) :
    s.Checked nodes name (t.withVariable name v) := by
  refine ⟨h.noted, fun {k constant w} hk hmay hw => ?_⟩
  rw [State.withVariable, NameTable.get?_put, if_pos rfl] at hw
  cases hw
  exact hv k constant hk hmay

theorem withType (h : s.Checked nodes name t) {other : String} {k : TokenKind} {constant : Bool}
    (hmay : s.MayBind nodes other (.declared (some k) constant)) :
    s.Checked nodes name (t.withType other k) := by
  constructor
  · intro d hd
    rw [State.withType, NameTable.get?_put] at hd
    by_cases hname : name = other
    · subst hname
      rw [if_pos rfl] at hd
      cases hd
      exact ⟨k, constant, rfl, hmay⟩
    · rw [if_neg hname] at hd
      exact h.noted hd
  · intro k' constant' v hk hmay' hv
    obtain ⟨hadmits, hhas⟩ := h.admitted hk hmay' hv
    exact ⟨hadmits, (NameTable.has_put _ _ _ _).mpr (.inr hhas)⟩

/-- Each change keeps what is noted about a name in step with its value. -/
theorem change (h : s.Checked nodes name t) (hkeeps : s.KeepsType nodes name)
    (hchange : t.Change (s.MayBind nodes) u) : s.Checked nodes name u := by
  cases hchange with
  | noteType hmay => exact h.withType hmay
  | noteConstant _ => exact ⟨h.noted, h.admitted⟩
  | @declare other type constant v hmay htype _ =>
    by_cases hname : name = other
    · subst hname
      refine h.withVariable_self fun k constant' hk hmay' => ?_
      obtain ⟨_, hmanner⟩ := hkeeps k constant' _ hk hmay' hmay
      cases hmanner
      obtain ⟨hnoted, hadmits⟩ := htype k rfl
      exact ⟨hadmits, by simp [NameTable.has, hnoted]⟩
    · exact h.withVariable_of_ne v hname
  | @bind other manner v hmay hmanner =>
    by_cases hname : name = other
    · subst hname
      refine h.withVariable_self fun k constant hk hmay' => ?_
      obtain ⟨constant', hdeclared⟩ := hkeeps k constant manner hk hmay' hmay
      exact absurd hdeclared (hmanner _ _)
    · exact h.withVariable_of_ne v hname
  | @assign other v hbound _ htype =>
    by_cases hname : name = other
    · subst hname
      refine h.withVariable_self fun k constant hk hmay => ?_
      obtain ⟨w, hw⟩ := Option.isSome_iff_exists.mp hbound
      obtain ⟨-, hhas⟩ := h.admitted hk hmay hw
      exact ⟨htype k (h.eq_of_noted hkeeps hk hmay hhas), hhas⟩
    · exact h.withVariable_of_ne v hname

/-- The variables of a caller are put back next to what its callee noted. -/
theorem restore (h : s.Checked nodes name t) (h' : s.Checked nodes name u) (hgrows : t.Grows u) :
    s.Checked nodes name { u with vars := t.vars } := by
  refine ⟨h'.noted, fun hk hmay hv => ?_⟩
  obtain ⟨hadmits, hhas⟩ := h.admitted hk hmay hv
  exact ⟨hadmits, hgrows.types hhas⟩

end Checked

end State

/-- Certain names keep to their types. -/
def Discipline.typed (s : State) (nodes : List Node) (names : String → Prop)
    (h : ∀ name, names name → s.KeepsType nodes name) : Discipline where
  may := s.MayBind nodes
  inv t := ∀ name, names name → s.Checked nodes name t
  same hvars htypes _ ht name hname :=
    ⟨fun hd => (ht name hname).noted (htypes ▸ hd),
      fun hk hmay hv => htypes ▸ (ht name hname).admitted hk hmay (hvars ▸ hv)⟩
  change ht hchange name hname := (ht name hname).change (h name hname) hchange
  restore ht hu hgrows name hname := (ht name hname).restore (hu name hname) hgrows

/-- At every moment of a run of a program, the value of a name is one that its type admits, if the
name is bound by declarations with this type only, or if its type admits all values. -/
theorem typed_always (l : Limits) (s : State) (n : Node) (names : String → Prop)
    (h : ∀ name, names name → s.fresh.KeepsType n.children name) :
    l.Always (·.program n) s.fresh fun t => ∀ name, names name → t.typedAt name = true := by
  have hfresh (name : String) : s.fresh.Checked n.children name s.fresh := by
    constructor
    · intro d hd
      cases hd
    · intro k constant v _ _ hv
      cases hv
  exact Discipline.always_program (D := .typed s.fresh n.children names h) l (fun _ _ hmay => hmay)
    (fun name _ => hfresh name) fun t ht name hname => (ht name hname).typedAt

/-- A program that declares `x` as a number, adds to it in a loop, catches that a text is assigned
to it, and calls a function that declares it as a number too. -/
def Node.counting : Node :=
  let x : Node := { kind := .identifier, value := .str "x" }
  let i : Node := { kind := .identifier, value := .str "i" }
  let p : Node := { kind := .identifier, value := .str "p" }
  let one : Node := { kind := .literal, value := .int 1 }
  let text : Node := { kind := .literal, value := .str "a" }
  let declare (v : Node) : Node :=
    { kind := .declaration, value := .str "x", children := [v], declared := some .abn }
  let assign (v : Node) : Node := { kind := .assignment, children := [x, v] }
  let sum : Node := { kind := .binary, value := .str "+", children := [x, i] }
  let block (nodes : List Node) : Node := { kind := .block, children := nodes }
  { kind := .program
    children :=
      [declare one,
       { kind := .loop, value := .str "i", children := [one, one, assign sum] },
       { kind := .tryCatch, value := .str "e", children := [block [assign text], block []] },
       { kind := .function, value := .str "f", children := [p, declare p] },
       { kind := .call, value := .str "f", children := [one] }] }

theorem typed_always_of_counting :
    let s : State := {}
    (∀ name, s.fresh.KeepsType Node.counting.children name) ∧
      (Limits.mk 9 9).Always (·.program Node.counting) s.fresh
        fun t => ∀ name, True → t.typedAt name = true := by
  intro s
  -- nothing but `x` is declared, and `x` is bound in no other manner
  let allowed (name : String) (manner : Manner) : Bool :=
    if name = "x" then manner = .declared (some .abn) false
    else manner ∈ [.counted, .caught, .passed]
  have hkeeps (name : String) : s.fresh.KeepsType Node.counting.children name := by
    intro k constant manner _ hdeclared hmay
    have hdeclared := State.allowed_of_mayBind allowed rfl rfl hdeclared
    have hmanner := State.allowed_of_mayBind allowed rfl rfl hmay
    by_cases hname : name = "x"
    · simp only [allowed, if_pos hname, decide_eq_true_eq,
        Manner.declared.injEq] at hdeclared hmanner
      exact ⟨false, by rw [hmanner, hdeclared.1]⟩
    · simp [allowed, if_neg hname] at hdeclared
  exact ⟨hkeeps, typed_always ⟨9, 9⟩ s Node.counting (fun _ => True) fun name _ => hkeeps name⟩

/-! ## Values that are not of their type -/

theorem Evaluator.declare_of_not_admits (self : Evaluator) (n : Node) (s : State) {m : Node}
    {t : State} {name : String} {k : TokenKind} {v : Value} (hchild : self.child n 0 = pure m)
    (hvalue : self.evaluate m s = .ok v t) (hname : n.value = .str name)
    (hdeclared : n.declared = some k) (hv : ¬k.admits v = true) :
    ∃ f u, self.declare n s = .error (.fault f) u ∧ u.vars = t.vars ∧
      u.types = t.types.put name (.checked k) := by
  obtain ⟨f, u, hcheck, halike⟩ := checkType_of_not_admits (s := t.withType name k) hv
  refine ⟨f, u, ?_, halike.vars, halike.types⟩
  unfold declare
  rw [hchild, pure_bind, bind_ok hvalue, hname, hdeclared]
  change (checkType name v k n.line n.column >>= _) (t.withType name k) = _
  exact bind_error hcheck

/-- A program that catches the failure of a declaration of `x`, which is a text, as a number. -/
def Node.failingDeclaration : Node :=
  let literal (v : Value) : Node := { kind := .literal, value := v }
  let declare (type : Option TokenKind) (v : Value) : Node :=
    { kind := .declaration, value := .str "x", children := [literal v], declared := type }
  let block (nodes : List Node) : Node := { kind := .block, children := nodes }
  let attempt (n : Node) : Node :=
    { kind := .tryCatch, value := .str "e", children := [block [n], block []] }
  { kind := .program
    children := [declare none (.str "a"), attempt (declare (some .abn) (.str "b"))] }

theorem Node.failingDeclaration_ends :
    ∃ t, (Limits.mk 9 9).evaluator.program Node.failingDeclaration {} = .ok () t ∧
      t.typedAt "x" = false := by
  let s : State := { vars := [("x", .str "a")] }
  let text : Node := { kind := .literal, value := .str "b" }
  let declare : Node :=
    { kind := .declaration, value := .str "x", children := [text], declared := some .abn }
  obtain ⟨f, u, hdeclare, hvars, htypes⟩ :=
    Evaluator.declare_of_not_admits (.upTo 9 7) declare s rfl rfl rfl rfl (by decide)
  have hblock : (Evaluator.upTo 9 8).block [declare] s = .error (.fault f) u :=
    bind_error (bind_error (bind_error hdeclare))
  let block (nodes : List Node) : Node := { kind := .block, children := nodes }
  let attempt : Node :=
    { kind := .tryCatch, value := .str "e", children := [block [declare], block []] }
  let t := u.withVariable "e" (.str f.message)
  have hattempt : (Evaluator.upTo 9 8).tryCatch attempt s = .ok () t := tryCatch_error hblock
  have hlast : (Limits.mk 9 9).evaluator.outermost attempt s = .ok () t :=
    tryCatch_ok (bind_ok (bind_ok hattempt))
  have htype : t.types.get? "x" = some (.checked .abn) := by
    change u.types.get? "x" = _
    rw [htypes]
    rfl
  have hvalue : t.vars.get? "x" = some (.str "a") := by
    change (u.vars.put "e" _).get? "x" = _
    rw [hvars]
    rfl
  refine ⟨t, bind_ok hlast, ?_⟩
  rw [State.typedAt, htype, hvalue]
  rfl

/-- Programs that bind `x` in more than one manner, so that it ends with a value that its type does
not admit. -/
def Node.untypedBindings : List Node :=
  let literal (v : Value) : Node := { kind := .literal, value := v }
  let declare (type : Option TokenKind) (v : Value) : Node :=
    { kind := .declaration, value := .str "x", children := [literal v], declared := type }
  let block (nodes : List Node) : Node := { kind := .block, children := nodes }
  let attempt (name : String) (n : Node) : Node :=
    { kind := .tryCatch, value := .str name, children := [block [n], block []] }
  let missing : Node := { kind := .call, value := .str "g" }
  let define (nodes : List Node) : Node :=
    { kind := .function, value := .str "f", children := nodes }
  let call (args : List Node) : Node := { kind := .call, value := .str "f", children := args }
  let programs :=
    -- a declaration without a type
    [[declare (some .abn) (.int 1), declare none (.str "a")],
     -- a loop
     [declare (some .qoraal) (.str "a"),
      { kind := .loop, value := .str "x", children := [literal (.int 1), literal (.int 1)] }],
     -- a handler
     [declare (some .abn) (.int 1), attempt "x" missing],
     -- a parameter of a call that fails
     [declare (some .abn) (.int 1), define [{ kind := .identifier, value := .str "x" }, missing],
      attempt "e" (call [literal (.str "a")])],
     -- a variable of its own in a function
     [declare none (.str "a"), define [declare (some .abn) (.int 1)], call []]]
  programs.map fun nodes => { kind := .program, children := nodes }

/-- Whether a program ends with a value in `x` that its type does not admit. -/
def Node.endsUntyped (n : Node) : Bool :=
  match (Limits.mk 9 9).evaluator.program n {} with
  | .ok _ t => !t.typedAt "x"
  | .error _ _ => false

/-- A declaration that fails can give a name a type that does not admit its value, and each manner
of binding a name can give it a value that its type does not admit. -/
theorem untyped_bindings :
    (∃ t, (Limits.mk 9 9).evaluator.program Node.failingDeclaration {} = .ok () t ∧
      t.typedAt "x" = false) ∧
    Node.untypedBindings.all Node.endsUntyped = true :=
  ⟨Node.failingDeclaration_ends, by decide +kernel⟩

end Luuqad

import Luuqad.Proofs.Control.LoopParts
import Luuqad.Proofs.Parsing.Names
import Mathlib.Data.Set.List

/-!
# Definitions of functions

A definition has a name, parameters and a body. The parser puts the parameters and the body into one
row of children, and a run tells them apart by their kinds: every name in the row is taken for a
parameter. So a statement of the body that is a bare name becomes a further parameter, and it is not
run.

`Definition` keeps the parts as they were written, and `Definition.stored` is the function that the
tree stands for. This is the function that was written, and calls run what was written, if and only
if no statement of the body is a bare name (`definition_kept_iff`).
-/

namespace Luuqad

/-! ## Definitions as they are written -/

/-- The definition of a function: its name, its parameters, and its body. -/
structure Definition where
  name : String
  params : List String
  body : List Node

/-- The name that a node is, if it is nothing but a name. -/
def Node.bareName? (n : Node) : Option String :=
  match n.kind, n.value with
  | .identifier, .str x => some x
  | _, _ => none

namespace Definition

def toNode (x : Definition) : Node :=
  { kind := .function, value := .str x.name
    children := x.params.map (fun p => { kind := .identifier, value := .str p }) ++ x.body }

def written (x : Definition) : UserFunction := ⟨x.params, x.body⟩

/-- The function that the tree stands for: bare names in the body are further parameters. -/
def stored (x : Definition) : UserFunction :=
  ⟨x.params ++ x.body.filterMap Node.bareName?, x.body.filter (·.kind ≠ .identifier)⟩

/-- The parameters can be told from the body: no statement is a bare name. -/
def Told (x : Definition) : Prop := ∀ m ∈ x.body, m.kind ≠ .identifier

/-- The bare names in the body are texts. -/
def Named (x : Definition) : Prop := ∀ m ∈ x.body, m.kind = .identifier → ∃ y, m.value = .str y

end Definition

/-! ## Definitions as they are read -/

namespace Parser

/-- A parameter. A comma after it is passed. -/
def parameter : Parser Value := do
  let p ← name
  skip .comma
  return p

/-- The parts of a definition: its name, its parameters, and its body. -/
def definitionParts (inner : Nested) : Parser (Value × List Value × List Node) := do
  let _ ← expect .hawl
  let f ← name
  let _ ← expect .leftParen
  let params ← many .rightParen parameter
  let _ ← expect .rightParen
  let body ← braced inner
  return (f, params, body)

theorem function_eq (inner : Nested) :
    function inner = (fun parts : Value × List Value × List Node =>
      { kind := .function, value := parts.1
        children :=
          parts.2.1.map (fun p => { kind := .identifier, value := p }) ++ parts.2.2 : Node }) <$>
        definitionParts inner := by
  have hparameter :
      (name >>= fun p => skip .comma >>=
        fun _ => pure ({ kind := .identifier, value := p } : Node)) =
      (fun p => { kind := .identifier, value := p }) <$> parameter := by
    simp only [parameter, map_bind, map_pure]
  simp only [function, definitionParts, hparameter, many_map, map_bind, bind_map_left, map_pure]

theorem located_parameter : Located parameter :=
  .bind .name fun _ => .bind (.skip _) fun _ => .pure _

theorem parameter_of_named {c c' : Cursor} {v : Value} (hc : c.Named) (h : parameter c = .ok v c') :
    ∃ x, v = .str x := by
  obtain ⟨p, c₁, hname, h⟩ := bind_eq_ok h
  obtain ⟨_, c₂, -, h⟩ := bind_eq_ok h
  cases h
  exact name_of_named hc hname

theorem statement_of_named {depth : Nat} {c c' : Cursor} {n : Node} (hc : c.Named)
    (h : (Nested.upTo depth).statement c = .ok n c') (hn : n.kind = .identifier) :
    ∃ x, n.value = .str x := by
  cases depth with
  | zero => cases h
  | succ depth =>
    obtain ⟨hkind, hvalue⟩ := statement_bare h hn
    rw [hvalue]
    exact hc _ (by simp) hkind

theorem definitionParts_of_named {depth : Nat} {c c' : Cursor}
    {parts : Value × List Value × List Node} (hc : c.Named)
    (h : definitionParts (.upTo depth) c = .ok parts c') :
    ∃ x : Definition, parts = (.str x.name, x.params.map .str, x.body) ∧ x.Named := by
  have hstatement := (nestedLocated depth).statement
  obtain ⟨_, c₁, hword, h⟩ := bind_eq_ok h
  obtain ⟨f, c₂, hname, h⟩ := bind_eq_ok h
  obtain ⟨_, c₃, hopen, h⟩ := bind_eq_ok h
  obtain ⟨params, c₄, hparams, h⟩ := bind_eq_ok h
  obtain ⟨_, c₅, hclose, h⟩ := bind_eq_ok h
  obtain ⟨body, c₆, hbraced, h⟩ := bind_eq_ok h
  cases h
  obtain ⟨_, c₇, hbrace, hbraced⟩ := bind_eq_ok hbraced
  obtain ⟨body, c₈, hbody, hbraced⟩ := bind_eq_ok hbraced
  obtain ⟨_, c₉, -, hbraced⟩ := bind_eq_ok hbraced
  cases hbraced
  -- each part is read at a cursor that the parts before it have moved
  have hc₁ := (Located.expect _).named hc hword
  have hc₃ := (Located.expect _).named (Located.name.named hc₁ hname) hopen
  have hc₄ := (located_parameter.many _).named hc₃ hparams
  have hc₇ := (Located.expect _).named ((Located.expect _).named hc₄ hclose) hbrace
  obtain ⟨name, rfl⟩ := name_of_named hc₁ hname
  have htexts := many_of_named located_parameter (fun _ _ _ => parameter_of_named) hc₃ hparams
  obtain ⟨names, rfl⟩ : params ∈ Set.range (List.map Value.str) := by
    rw [Set.range_list_map]
    exact fun v hv => (htexts v hv).imp fun _ => Eq.symm
  have hnamed := many_of_named hstatement (fun _ _ _ => statement_of_named) hc₇ hbody
  exact ⟨⟨name, names, body⟩, rfl, hnamed⟩

theorem function_of_named {depth : Nat} {c c' : Cursor} {n : Node} (hc : c.Named)
    (h : function (.upTo depth) c = .ok n c') :
    ∃ x : Definition, definitionParts (.upTo depth) c =
      .ok (.str x.name, x.params.map .str, x.body) c' ∧
      n = x.toNode ∧ x.Named := by
  rw [function_eq] at h
  obtain ⟨parts, hparts, rfl⟩ := map_eq_ok h
  obtain ⟨x, rfl, hx⟩ := definitionParts_of_named hc hparts
  exact ⟨x, hparts, by simp [Definition.toNode], hx⟩

end Parser

/-! ## Storing the row -/

namespace Definition

variable {x : Definition}

theorem mapM_nameOf {nodes : List Node}
    (h : ∀ m ∈ nodes, m.kind = .identifier ∧ ∃ y, m.value = .str y) (s : State) :
    nodes.mapM (fun p => Run.nameOf p.value) s = .ok (nodes.filterMap Node.bareName?) s := by
  induction nodes with
  | nil => rfl
  | cons m rest ih =>
    obtain ⟨⟨hkind, y, hvalue⟩, hrest⟩ := List.forall_mem_cons.mp h
    have hname : Run.nameOf m.value s = .ok y s := by rw [hvalue]; rfl
    have hbare : m.bareName? = some y := by simp [Node.bareName?, hkind, hvalue]
    rw [List.mapM_cons, Run.bind_ok hname, Run.bind_ok (ih hrest), List.filterMap_cons_some hbare]
    rfl

/-- The children that are names are the parameters and the bare names of the body. -/
theorem names_toNode (hx : x.Named) (s : State) :
    (x.toNode.children.filter (·.kind = .identifier)).mapM (fun p => Run.nameOf p.value) s =
      .ok x.stored.params s := by
  have hnames : ∀ m ∈ x.toNode.children.filter (·.kind = .identifier),
      m.kind = .identifier ∧ ∃ y, m.value = .str y := by
    intro m hm
    obtain ⟨hmem, hkind⟩ : m ∈ x.toNode.children ∧ m.kind = .identifier := by simpa using hm
    refine ⟨hkind, ?_⟩
    rcases List.mem_append.mp hmem with hparam | hbody
    · obtain ⟨p, -, rfl⟩ := List.mem_map.mp hparam
      exact ⟨p, rfl⟩
    · exact hx m hbody hkind
  have hparams : x.params.filterMap
      (fun p => Node.bareName? { kind := .identifier, value := .str p }) = x.params :=
    List.filterMap_some
  have hbare (m : Node) : (if m.kind = .identifier then m.bareName? else none) = m.bareName? := by
    split
    · rfl
    · simp [Node.bareName?, *]
  have hrow : (x.toNode.children.filter (·.kind = .identifier)).filterMap Node.bareName? =
      x.stored.params := by
    simp [List.filterMap_filter, hbare, toNode, stored, List.filterMap_map, hparams]
  rw [mapM_nameOf hnames, hrow]

theorem body_toNode (x : Definition) :
    x.toNode.children.filter (·.kind ≠ .identifier) = x.stored.body := by
  have hparams : (x.params.map fun p => ({ kind := .identifier, value := .str p } : Node)).filter
      (·.kind ≠ .identifier) = [] := by simp
  rw [toNode, List.filter_append, hparams, List.nil_append, stored]

/-- Running the tree of a definition stores the function that the tree stands for, and does nothing
else. -/
theorem statement_toNode (hx : x.Named) (self : Evaluator) (s : State) :
    self.statement x.toNode s =
      .ok .null { s with functions := s.functions.put x.name x.stored } := by
  have hstored (params : List String) : (do
      let name ← Run.nameOf x.toNode.value
      modify fun s => { s with functions := s.functions.put name ⟨params, x.stored.body⟩ } :
        Run Unit) s =
        .ok () { s with functions := s.functions.put x.name ⟨params, x.stored.body⟩ } := rfl
  have hdefine : Evaluator.define x.toNode s =
      .ok () { s with functions := s.functions.put x.name x.stored } := by
    have hkind : ¬x.toNode.kind ≠ .function := by simp [toNode]
    simp only [Evaluator.define, if_neg hkind, body_toNode]
    rw [Run.bind_ok (names_toNode hx s), hstored]
  exact Run.bind_ok hdefine

theorem stored_eq_written_iff : x.stored = x.written ↔ x.Told := by
  constructor
  · intro h m hm
    have hbody : x.body.filter (·.kind ≠ .identifier) = x.body := congrArg UserFunction.body h
    simpa using List.filter_eq_self.mp hbody m hm
  · intro h
    have hbody : x.body.filter (·.kind ≠ .identifier) = x.body :=
      List.filter_eq_self.mpr fun m hm => by simpa using h m hm
    have hnames : x.body.filterMap Node.bareName? = [] := by
      refine List.filterMap_eq_nil_iff.mpr fun m hm => ?_
      simp [Node.bareName?, h m hm]
    rw [stored, written, hbody, hnames, List.append_nil]

end Definition

/-! ## Calling the function -/

namespace Evaluator

theorem setParameters_ok (params : List String) (args : List Value) (s : State) :
    ∃ vars, setParameters params args s = .ok () { s with vars := vars } := by
  induction params generalizing args s with
  | nil => exact ⟨s.vars, rfl⟩
  | cons p rest ih =>
    cases args with
    | nil => exact ih [] { s with vars := s.vars.put p .null }
    | cons v more => exact ih more { s with vars := s.vars.put p v }

theorem tally_runFunction (f : UserFunction) (params : List String) (args : List Value)
    (s : State) :
    tally.runFunction f (setParameters params args) s =
      .ok .null { s with input := List.replicate f.body.length .interrupt ++ s.input } := by
  obtain ⟨vars, hset⟩ := setParameters_ok params args s
  have hbody : tally.functionBody f { s with vars := vars } = .ok .null _ :=
    Run.tryCatch_ok (tally_sequence f.body _)
  have hget : (get : Run State) s = .ok s s := rfl
  rw [runFunction, Run.bind_ok hget, Run.bind_ok hset, Run.bind_ok hbody]
  rfl

theorem callNamed_of_user {self : Evaluator} {name : String} {f : UserFunction} {s : State}
    (hs : s.functions.get? name = some f) (args : List Value) :
    self.callNamed name args s = self.runFunction f (setParameters f.params args) s := by
  have hget : (get : Run State) s = .ok s s := rfl
  have hfound : s.function? name = some (.user f) := by simp [State.function?, hs]
  rw [callNamed, Run.bind_ok hget, hfound]

end Evaluator

namespace Definition

variable {x : Definition}

/-- Calls of the function that was stored run what was written, whatever the statements do, if and
only if the parameters can be told from the body. -/
theorem callNamed_iff :
    (∀ (self : Evaluator) (args : List Value) (s : State), s.functions.get? x.name = some x.stored →
      self.callNamed x.name args s =
        self.runFunction x.written (Evaluator.setParameters x.params args) s) ↔
      x.Told := by
  constructor
  · intro h
    let s : State := { functions := [(x.name, x.stored)] }
    have hs : s.functions.get? x.name = some x.stored := by simp [s, NameTable.get?]
    have hcall := h Evaluator.tally [] s hs
    rw [Evaluator.callNamed_of_user hs, Evaluator.tally_runFunction,
      Evaluator.tally_runFunction] at hcall
    injection hcall with _ hstate
    have hlength : x.stored.body.length = x.body.length := by
      simpa [written] using congrArg (fun t => t.input.length) hstate
    intro m hm
    simpa using List.length_filter_eq_length_iff.mp hlength m hm
  · intro h self args s hs
    rw [Evaluator.callNamed_of_user hs, stored_eq_written_iff.mpr h]
    rfl

end Definition

/-- For every definition of a function that the parser reads, with any parameters and any body:
running its tree stores, under the name that is written, the function with the parameters and the
body that are written, if and only if no statement of the body is a bare name; and if and only if
this is so, every later call sets the parameters that are written and runs all statements that are
written. In every case it stores the function that has the bare names of the body as further
parameters and the other statements as its body, and does nothing else. -/
theorem definition_kept_iff (depth : Nat) (c c' : Cursor) (n : Node) (hc : c.Named)
    (h : Parser.function (.upTo depth) c = .ok n c') :
    ∃ x : Definition, Parser.definitionParts (.upTo depth) c =
      .ok (.str x.name, x.params.map .str, x.body) c' ∧
      n = x.toNode ∧
      ((∀ (self : Evaluator) (s : State),
        self.statement n s = .ok .null { s with functions := s.functions.put x.name x.written }) ↔
          x.Told) ∧
      ((∀ (self : Evaluator) (args : List Value) (s : State),
        s.functions.get? x.name = some x.stored →
        self.callNamed x.name args s =
          self.runFunction x.written (Evaluator.setParameters x.params args) s) ↔
        x.Told) ∧
      ∀ (self : Evaluator) (s : State),
        self.statement n s = .ok .null { s with functions := s.functions.put x.name x.stored } := by
  obtain ⟨x, hparts, rfl, hx⟩ := Parser.function_of_named hc h
  have hstored (self : Evaluator) (s : State) := x.statement_toNode hx self s
  refine ⟨x, hparts, rfl, ?_, Definition.callNamed_iff, hstored⟩
  rw [← Definition.stored_eq_written_iff]
  constructor
  · intro hkept
    have hsame := (hstored Evaluator.tally {}).symm.trans (hkept Evaluator.tally {})
    injection hsame with _ hstate
    simpa [NameTable.put] using congrArg State.functions hstate
  · intro heq self s
    rw [hstored, heq]

/-- A function whose body is made of names, none of them bare. -/
theorem definition_kept_iff_of_assignment :
    let source := "hawl f(a) \x7b a = b celi a \x7d\n"
    let mark (k : TokenKind) (text : String) (column : Nat) : Token := .at k (.str text) ⟨1, column⟩
    let c : Cursor :=
      ⟨0, mark .hawl "hawl" 1,
        [mark .identifier "f" 6, mark .leftParen "(" 7, mark .identifier "a" 8,
        mark .rightParen ")" 9, mark .leftBrace "\x7b" 11, mark .identifier "a" 13,
        mark .equal "=" 15, mark .identifier "b" 17, mark .celi "celi" 19, mark .identifier "a" 24,
        mark .rightBrace "\x7d" 26, .at .eof .null ⟨2, 1⟩]⟩
    let name (y : String) : Node := { kind := .identifier, value := .str y }
    let x : Definition :=
      { name := "f", params := ["a"]
        body := [
          { kind := .assignment, children := [name "a", name "b"],
            line := some 1, column := some 13 },
          { kind := .returnValue, children := [name "a"] }] }
    tokenize source = .ok (c.current :: c.ahead) ∧ c.Named ∧
      (∃ c', Parser.function (.upTo 9) c = .ok x.toNode c') ∧
      ∀ (self : Evaluator) (s : State),
        self.statement x.toNode s =
          .ok .null { s with functions := s.functions.put "f" ⟨["a"], x.body⟩ } := by
  intro source mark c name x
  have htokens : tokenize source = .ok (c.current :: c.ahead) := by decide +kernel
  have hnamed : c.Named := Lexer.named_of_tokenize htokens (List.suffix_refl _)
  have hread : Parser.function (.upTo 9) c = .ok x.toNode ⟨12, .at .eof .null ⟨2, 1⟩, []⟩ := rfl
  have htold : x.Told := by simp [Definition.Told, x]
  obtain ⟨y, hparts, -, hiff, -⟩ := definition_kept_iff 9 c _ _ hnamed hread
  have hx : Parser.definitionParts (.upTo 9) c = .ok (.str "f", ["a"].map .str, x.body) _ := rfl
  obtain rfl : x = y := by
    obtain ⟨yname, params, body⟩ := y
    injection hx.symm.trans hparts with hsame _
    simp only [Prod.mk.injEq, Value.str.injEq, List.map_inj_right fun _ _ => Value.str.inj] at hsame
    obtain ⟨rfl, rfl, rfl⟩ := hsame
    rfl
  exact ⟨htokens, hnamed, ⟨_, hread⟩, hiff.mpr htold⟩

/-- The bare name in the body of a function with one parameter becomes a second parameter, and
nothing is left of the body. So calling the function does nothing where running the body would stop,
as the name is not bound. -/
theorem bare_name_lost :
    let mark (k : TokenKind) : Token := { kind := k, value := .null }
    let name (y : String) : Token := { kind := .identifier, value := .str y }
    let c : Cursor :=
      ⟨0, mark .hawl,
        [name "f", mark .leftParen, name "a", mark .rightParen, mark .leftBrace, name "b",
        mark .rightBrace, mark .eof]⟩
    let x : Definition := ⟨"f", ["a"], [{ kind := .identifier, value := .str "b" }]⟩
    let called : Node := { kind := .call, value := .str "f" }
    let stored (r : EStateM.Result Interrupt State Value) : Option (List String × Nat) :=
      match r with
      | .ok _ t => (t.functions.get? "f").map fun f => (f.params, f.body.length)
      | .error _ _ => none
    let stops (r : EStateM.Result Interrupt State Value) : Bool := match r with
      | .ok _ _ => false
      | .error _ _ => true
    (∃ c', Parser.definitionParts (.upTo 9) c = .ok (.str x.name, x.params.map .str, x.body) c') ∧
      stored ((Evaluator.upTo 9 9).execute x.toNode {}) = some (["a", "b"], 0) ∧
      stops ((Evaluator.upTo 9 9).execute called { functions := [("f", x.stored)] }) = false ∧
      stops ((Evaluator.upTo 9 9).execute called { functions := [("f", x.written)] }) = true :=
  ⟨⟨_, rfl⟩, by decide +kernel, by decide +kernel, by decide +kernel⟩

end Luuqad

import Luuqad.Interpreter.Program
import Luuqad.Proofs.Grammar.Facing
import Luuqad.Proofs.Run.Contract

/-!
# Conditionals

A conditional has arms, each a condition with the statements under it, and perhaps a last resort.
The parser puts all of this into one row of children, and a run tells the parts of the row by the
kinds of the nodes: what comes before the first conditional or block is taken for the first body,
and every conditional in the row for a further arm. So a conditional or a block that is written in a
body ends the body, and it is taken for an arm or for the last resort of the conditional around it.

`Conditional` keeps the parts as they were written, and `Conditional.run` is what they mean. The
tree of a conditional is run in this way by every evaluator if and only if no body holds a
conditional or a block (`conditional_run_iff`).
-/

namespace Luuqad

/-! ## Conditionals as they are written -/

/-- A condition, and the statements under it. -/
structure Arm where
  condition : Node
  body : List Node

/-- A conditional: the first arm, further arms, and perhaps a last resort. -/
structure Conditional where
  first : Arm
  others : List Arm
  last : Option (List Node)

def Arm.toNode (a : Arm) : Node := { kind := .conditional, children := a.condition :: a.body }

namespace Conditional

def lastNodes (last : Option (List Node)) : List Node :=
  last.toList.map fun body => { kind := .block, children := body }

def toNode (x : Conditional) : Node :=
  { kind := .conditional
    children := x.first.condition :: x.first.body ++ x.others.map Arm.toNode ++ lastNodes x.last }

def arms (x : Conditional) : List Arm := x.first :: x.others

/-- No body of an arm holds a conditional or a block. -/
def Flat (x : Conditional) : Prop := ∀ a ∈ x.arms, ∀ m ∈ a.body, Evaluator.isBranch m = false

end Conditional

/-- Evaluate conditions in order up to the first that is true and run the statements under it; if
there is none, run the last resort. -/
def Evaluator.choose (self : Evaluator) (last : Option (List Node)) : List Arm → Run Unit
  | [] => self.block (last.getD [])
  | a :: rest => do
    if ← Run.isTrue (← self.evaluate a.condition) then self.block a.body
    else self.choose last rest

/-- What a conditional means. -/
def Conditional.run (x : Conditional) (self : Evaluator) : Run Unit := self.choose x.last x.arms

/-! ## Conditionals as they are read -/

namespace Parser

/-- A condition in parentheses and the statements under it. -/
def arm (inner : Nested) : Parser Arm := do
  let c ← condition inner
  let body ← braced inner
  return ⟨c, body⟩

def arms (inner : Nested) : Nat → Parser (List Arm)
  | 0 => throw .tooDeep
  | fuel + 1 => do
    if (← kind) = .haddiiKale then
      advance
      let a ← arm inner
      return a :: (← arms inner fuel)
    else return []

def lastResort (inner : Nested) : Parser (Option (List Node)) := do
  if (← kind) = .ugudambeyn then
    advance
    return some (← braced inner)
  else return none

def conditionalParts (inner : Nested) : Parser Conditional := do
  let _ ← expect .haddii
  let first ← arm inner
  let others ← arms inner (← get).bound
  let last ← lastResort inner
  return ⟨first, others, last⟩

theorem alternatives_eq (inner : Nested) (fuel : Nat) :
    alternatives inner fuel = List.map Arm.toNode <$> arms inner fuel := by
  induction fuel with
  | zero => rfl
  | succ fuel ih =>
    simp only [alternatives, arms, arm, ih, map_bind, bind_assoc, pure_bind, bind_map_left]
    refine bind_congr fun k => ?_
    split
    · simp only [map_bind, map_pure, List.map_cons, Arm.toNode]
    · simp only [map_pure, List.map_nil]

theorem conditional_eq (inner : Nested) :
    conditional inner = Conditional.toNode <$> conditionalParts inner := by
  simp only [conditional, conditionalParts, arm, lastResort, alternatives_eq, map_bind,
    bind_assoc, pure_bind, map_pure, bind_map_left]
  refine bind_congr fun _ => bind_congr fun c => bind_congr fun body => ?_
  refine bind_congr fun cursor => bind_congr fun others => bind_congr fun k => ?_
  split
  · simp only [bind_assoc, pure_bind]
    rfl
  · rw [pure_bind]
    rfl

end Parser

/-! ## Running the row -/

namespace Evaluator

variable {self : Evaluator}

theorem ownBody_append (body : List Node) {rest : List Node}
    (hrest : ∀ m ∈ rest, isBranch m = true) :
    ownBody (body ++ rest) = ownBody body := by
  unfold ownBody
  induction body with
  | nil =>
    cases rest with
    | nil => rfl
    | cons m rest => simp [hrest m List.mem_cons_self]
  | cons m body ih => simp only [List.cons_append, List.takeWhile_cons, ih]

theorem ownBody_eq_self_iff {body : List Node} :
    ownBody body = body ↔ ∀ m ∈ body, isBranch m = false := by
  unfold ownBody
  induction body with
  | nil => simp
  | cons m body ih =>
    cases hm : isBranch m with
    | true => simp [hm]
    | false => simp [hm, ih]

theorem branches_append {body : List Node} (hbody : ∀ m ∈ body, isBranch m = false)
    (rest : List Node) :
    self.branches (body ++ rest) = self.branches rest := by
  induction body with
  | nil => rfl
  | cons m body ih =>
    have hm := hbody m List.mem_cons_self
    simp only [isBranch, Bool.or_eq_false_iff, decide_eq_false_iff_not] at hm
    rw [List.cons_append, branches, if_neg hm.1, if_neg hm.2]
    exact ih fun k hk => hbody k (List.mem_cons_of_mem _ hk)

end Evaluator

/-- The arm with its body up to the first branch in it. -/
def Arm.cut (a : Arm) : Arm := { a with body := Evaluator.ownBody a.body }

namespace Conditional

theorem isBranch_of_mem {others : List Arm} {last : Option (List Node)} {m : Node}
    (hm : m ∈ others.map Arm.toNode ++ lastNodes last) : Evaluator.isBranch m = true := by
  rcases List.mem_append.mp hm with hm | hm
  · obtain ⟨a, -, rfl⟩ := List.mem_map.mp hm
    rfl
  · obtain ⟨body, -, rfl⟩ := List.mem_map.mp hm
    rfl

end Conditional

namespace Evaluator

variable {self : Evaluator}

/-- The further arms are tried in order, each with its body up to the first branch in it. -/
theorem branches_arms (hchild : self.child = Node.child) (others : List Arm)
    (last : Option (List Node)) :
    self.branches (others.map Arm.toNode ++ Conditional.lastNodes last) =
      self.choose last (others.map Arm.cut) := by
  induction others with
  | nil =>
    cases last with
    | none => rfl
    | some body => rfl
  | cons a others ih =>
    have hkind : a.toNode.kind = .conditional := rfl
    rw [List.map_cons, List.cons_append, branches, if_pos hkind, ih, hchild]
    rfl

/-- The first arm is run with its body up to the first branch in it. What follows the condition
offers the other arms. -/
theorem conditional_toNode (hchild : self.child = Node.child) (x : Conditional) :
    self.conditional x.toNode = (do
      if ← Run.isTrue (← self.evaluate x.first.condition) then self.block (ownBody x.first.body)
      else
        self.branches
          (x.first.body ++ (x.others.map Arm.toNode ++ Conditional.lastNodes x.last))) := by
  have hrow : x.toNode.children.drop 1 =
      x.first.body ++ (x.others.map Arm.toNode ++ Conditional.lastNodes x.last) := by
    simp [Conditional.toNode]
  unfold conditional
  dsimp only
  rw [hrow, ownBody_append _ fun _ => Conditional.isBranch_of_mem, hchild]
  rfl

/-- If the first body has no branch in it, all conditions are tried in order. -/
theorem conditional_eq_choose (hchild : self.child = Node.child) {x : Conditional}
    (hfirst : ∀ m ∈ x.first.body, isBranch m = false) :
    self.conditional x.toNode = self.choose x.last (x.arms.map Arm.cut) := by
  rw [conditional_toNode hchild, branches_append hfirst, branches_arms hchild]
  rfl

/-! ## Telling bodies apart -/

/-- An evaluator for which a condition is true if the seed is zero, each condition makes the seed
smaller, and each statement adds an entry to the input. -/
def tally : Evaluator where
  evaluate _ := fun s => .ok (.bool (s.chance.seed = 0)) { s with chance := ⟨s.chance.seed - 1⟩ }
  execute _ := fun s => .ok .null { s with input := .interrupt :: s.input }
  rounds := 0
  child := Node.child

theorem tally_sequence (nodes : List Node) (s : State) :
    tally.sequence nodes s =
      .ok .null { s with input := List.replicate nodes.length .interrupt ++ s.input } := by
  induction nodes generalizing s with
  | nil => rfl
  | cons n rest ih =>
    cases rest with
    | nil => rfl
    | cons m rest =>
      let t : State := { s with input := .interrupt :: s.input }
      have hfirst : tally.sequence (n :: m :: rest) s = tally.sequence (m :: rest) t := rfl
      have hentries (k : Nat) : List.replicate k Entry.interrupt ++ t.input =
          List.replicate (k + 1) .interrupt ++ s.input := by
        rw [List.replicate_succ']
        simp [t]
      rw [hfirst, ih t, hentries]
      rfl

theorem tally_first (c : Node) (body : List Node) (others : Run Unit) {s : State}
    (hs : s.chance.seed = 0) :
    ∃ t, (do if ← Run.isTrue (← tally.evaluate c) then tally.block body else others : Run Unit) s =
      .ok () t ∧
      t.input.length = body.length + s.input.length := by
  let t : State := { s with chance := ⟨s.chance.seed - 1⟩ }
  have hvalue : tally.evaluate c s = .ok (.bool true) t := by simp [tally, hs, t]
  have htrue : Run.isTrue (.bool true) t = .ok true t := rfl
  have hbody : tally.block body t = .ok () _ := Run.bind_ok (tally_sequence body t)
  rw [Run.bind_ok hvalue, Run.bind_ok htrue]
  exact ⟨_, hbody, by simp [t]⟩

theorem tally_choose (last : Option (List Node)) {arms : List Arm} {i : Nat} {a : Arm} {s : State}
    (ha : arms[i]? = some a) (hs : s.chance.seed = i) :
    ∃ t, tally.choose last arms s = .ok () t ∧ t.input.length = a.body.length + s.input.length := by
  induction arms generalizing i s with
  | nil => cases ha
  | cons b rest ih =>
    cases i with
    | zero =>
      obtain rfl : b = a := by simpa using ha
      exact tally_first _ _ _ hs
    | succ i =>
      let t : State := { s with chance := ⟨i⟩ }
      have hvalue : tally.evaluate b.condition s = .ok (.bool false) t := by simp [tally, hs, t]
      have hfalse : Run.isTrue (.bool false) t = .ok false t := rfl
      rw [choose, Run.bind_ok hvalue, Run.bind_ok hfalse]
      exact ih (s := t) ha rfl

end Evaluator

namespace Conditional

variable {x : Conditional}

theorem flat_of_length {body : List Node} (h : (Evaluator.ownBody body).length = body.length) :
    ∀ m ∈ body, Evaluator.isBranch m = false :=
  Evaluator.ownBody_eq_self_iff.mp ((List.takeWhile_prefix _).eq_of_length h)

theorem first_of_tally (h : Evaluator.tally.conditional x.toNode = x.run Evaluator.tally) :
    ∀ m ∈ x.first.body, Evaluator.isBranch m = false := by
  let s : State := {}
  obtain ⟨t, hrun, ht⟩ := Evaluator.tally_first x.first.condition x.first.body
    (Evaluator.tally.choose x.last x.others) (s := s) rfl
  obtain ⟨u, hrun', hu⟩ := Evaluator.tally_first x.first.condition (Evaluator.ownBody x.first.body)
    (Evaluator.tally.branches
      (x.first.body ++ (x.others.map Arm.toNode ++ Conditional.lastNodes x.last))) (s := s) rfl
  have heq : x.run Evaluator.tally s = .ok () u := by
    rw [← h, Evaluator.conditional_toNode rfl]
    exact hrun'
  obtain rfl : u = t := by simpa using heq.symm.trans hrun
  exact flat_of_length (by omega)

theorem flat_of_choose {last : Option (List Node)} {arms : List Arm}
    (h : Evaluator.tally.choose last (arms.map Arm.cut) = Evaluator.tally.choose last arms) :
    ∀ a ∈ arms, ∀ m ∈ a.body, Evaluator.isBranch m = false := by
  intro a ha
  obtain ⟨i, hi⟩ := List.mem_iff_getElem?.mp ha
  have hcut : (arms.map Arm.cut)[i]? = some a.cut := by simp [hi]
  let s : State := { chance := ⟨i⟩ }
  obtain ⟨t, hrun, ht⟩ := Evaluator.tally_choose last (s := s) hi rfl
  obtain ⟨u, hrun', hu⟩ := Evaluator.tally_choose last (s := s) hcut rfl
  rw [h, hrun] at hrun'
  cases hrun'
  exact flat_of_length (by simp only [Arm.cut] at hu; omega)

theorem Flat.map_cut (h : x.Flat) : x.arms.map Arm.cut = x.arms := by
  refine (List.map_congr_left fun a ha => ?_).trans (List.map_id _)
  simp [Arm.cut, Evaluator.ownBody_eq_self_iff.mpr (h a ha)]

/-- The row of children is run as it was written, whatever the conditions and statements do, if and
only if no body holds a conditional or a block. -/
theorem conditional_eq_run_iff :
    (∀ self : Evaluator, self.child = Node.child → self.conditional x.toNode = x.run self) ↔
    x.Flat := by
  constructor
  · intro h
    have hrun := h Evaluator.tally rfl
    have hfirst := first_of_tally hrun
    rw [Evaluator.conditional_eq_choose rfl hfirst] at hrun
    exact flat_of_choose hrun
  · intro h self hchild
    have hfirst := h x.first List.mem_cons_self
    rw [Evaluator.conditional_eq_choose hchild hfirst, h.map_cut]
    rfl

end Conditional

/-! ## Conditionals of the parser -/

theorem Run.done_inj {r r' : Run Unit}
    (h : (do r; return .null : Run Value) = do r'; return .null) : r = r' := by
  funext s
  have hs := congrFun h s
  cases hr : r s with
  | ok _ t =>
    rw [bind_ok hr] at hs
    cases hr' : r' s with
    | ok _ t' =>
      rw [bind_ok hr'] at hs
      cases hs
      rfl
    | error e t' =>
      rw [bind_error hr'] at hs
      cases hs
  | error e t =>
    rw [bind_error hr] at hs
    cases hr' : r' s with
    | ok _ t' =>
      rw [bind_ok hr'] at hs
      cases hs
    | error e' t' =>
      rw [bind_error hr'] at hs
      cases hs
      rfl

/-- For every conditional that the parser reads, with any conditions, bodies, further arms and last
resort: running its tree evaluates the conditions in order up to the first true one, runs all
statements under it or else those of the last resort, and does nothing else, if and only if no body
of an arm holds a conditional or a block. The last resort may hold anything. -/
theorem conditional_run_iff (inner : Nested) (c c' : Cursor) (n : Node)
    (h : Parser.conditional inner c = .ok n c') :
    ∃ x : Conditional, Parser.conditionalParts inner c = .ok x c' ∧ n = x.toNode ∧
      ((∀ self : Evaluator, self.child = Node.child →
        self.statement n = do x.run self; return .null) ↔ x.Flat) := by
  rw [Parser.conditional_eq, ← bind_pure_comp] at h
  obtain ⟨x, c₁, hparts, hnode⟩ := Parser.bind_eq_ok h
  cases hnode
  refine ⟨x, hparts, rfl, ?_⟩
  rw [← Conditional.conditional_eq_run_iff]
  refine forall₂_congr fun self _ => ⟨Run.done_inj, fun hrun => ?_⟩
  show (do self.conditional x.toNode; return .null : Run Value) = _
  rw [hrun]

/-- A conditional with two arms, and with a block in its last resort. -/
theorem conditional_run_iff_of_block :
    let mark (k : TokenKind) : Token := { kind := k, value := .null }
    let c : Cursor :=
      ⟨0, mark .haddii, [.leftParen, .true, .rightParen, .leftBrace, .jooji, .rightBrace,
        .haddiiKale, .leftParen, .false, .rightParen, .leftBrace, .soco, .rightBrace, .ugudambeyn,
        .leftBrace, .leftBrace, .rightBrace, .rightBrace, .eof].map mark⟩
    let x : Conditional :=
      { first := ⟨Parser.literal (.bool true), [{ kind := .breakLoop }]⟩
        others := [⟨Parser.literal (.bool false), [{ kind := .continueLoop }]⟩]
        last := some [{ kind := .block }] }
    ∃ c', Parser.conditional (.upTo 9) c = .ok x.toNode c' ∧ x.Flat ∧
      ∀ self : Evaluator, self.child = Node.child →
        self.statement x.toNode = do x.run self; return .null := by
  intro mark c x
  have hread : Parser.conditional (.upTo 9) c = .ok x.toNode ⟨19, mark .eof, []⟩ := rfl
  have hflat : x.Flat := by
    intro a ha m hm
    simp only [x, Conditional.arms, List.mem_cons, List.not_mem_nil, or_false] at ha
    rcases ha with rfl | rfl <;> simp only [List.mem_singleton] at hm <;> rw [hm] <;> rfl
  obtain ⟨y, hparts, -, hiff⟩ := conditional_run_iff (.upTo 9) c _ _ hread
  obtain rfl : x = y := by
    have hx : Parser.conditionalParts (.upTo 9) c = .ok x ⟨19, mark .eof, []⟩ := rfl
    simpa using hx.symm.trans hparts
  exact ⟨_, hread, hflat, hiff.mpr hflat⟩

/-- A conditional that stands in the body of another one is not run if the condition of the other is
true, and it is run if that condition is false. -/
theorem nested_conditional_misplaced :
    let mark (k : TokenKind) : Token := { kind := k, value := .null }
    let name : Token := { kind := .identifier, value := .str "y" }
    let one : Token := { kind := .number, value := .int 1 }
    let c (outer : TokenKind) : Cursor :=
      ⟨0, mark .haddii, [.leftParen, outer, .rightParen, .leftBrace, .haddii, .leftParen, .true,
        .rightParen, .leftBrace, .door].map mark ++ name :: mark .equal :: one ::
        [.rightBrace, .rightBrace, .eof].map mark⟩
    let reads (outer : TokenKind) (x : Conditional) : Prop :=
      ∃ c', Parser.conditionalParts (.upTo 9) (c outer) = .ok x c' ∧
        Parser.conditional (.upTo 9) (c outer) = .ok x.toNode c'
    let bound : State := { vars := [("y", .int 1)] }
    (∃ x, reads .true x ∧ (Evaluator.upTo 9 9).execute x.toNode {} = .ok .null {} ∧
      x.run (.upTo 9 8) {} = .ok () bound) ∧
    ∃ x, reads .false x ∧ (Evaluator.upTo 9 9).execute x.toNode {} = .ok .null bound ∧
      x.run (.upTo 9 8) {} = .ok () {} :=
  ⟨⟨_, ⟨_, rfl, rfl⟩, rfl, rfl⟩, ⟨_, ⟨_, rfl, rfl⟩, rfl, rfl⟩⟩

end Luuqad

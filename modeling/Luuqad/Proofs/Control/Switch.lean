import Luuqad.Proofs.Control.Conditional
import Luuqad.Proofs.Parsing.Kinds

/-!
# Switches

A switch has a value and clauses: values with the statements under them, and last resorts. The
parser makes a block of each clause, with the value of a clause as the first node of its block. A
run takes a block for a last resort only if its first node is a block, which no value is. So a last
resort that starts with another statement is taken for a clause: its first statement is evaluated
and compared with the value of the switch, and the others are run only if the two are equal.

`Switch` keeps the clauses as they were written, and `Switch.run` is what they mean. The tree of a
switch is run as `Switch.asRead` says; this is what was written, for every evaluator, if and only if
every last resort is empty or starts with a block (`switch_run_iff`).
-/

namespace Luuqad

/-! ## Switches as they are written -/

/-- A clause of a switch: a value with the statements under it, or a last resort. -/
inductive Switch.Clause
  | case (a : Arm)
  | otherwise (body : List Node)

/-- A switch: the value that is compared, and the clauses. -/
structure Switch where
  subject : Node
  clauses : List Switch.Clause

namespace Switch.Clause

def toNode : Switch.Clause → Node
  | case a => { kind := .block, children := a.condition :: a.body }
  | otherwise body => { kind := .block, children := body }

/-- The value of a clause and the statements under it. -/
def arm? : Switch.Clause → Option Arm
  | case a => some a
  | otherwise _ => none

/-- The statements of a last resort, if there are any. -/
def lastResort? : Switch.Clause → Option (List Node)
  | otherwise (m :: body) => some (m :: body)
  | _ => none

/-- The clause is told from the clauses of the other sort by its first node. -/
def Told : Switch.Clause → Prop
  | case a => a.condition.kind ≠ .block
  | otherwise body => ∀ m ∈ body.head?, m.kind = .block

/-- What a clause is taken for: a last resort that does not start with a block is taken for a value
with statements. -/
def asRead : Switch.Clause → Switch.Clause
  | otherwise (m :: body) => if m.kind = .block then otherwise (m :: body) else case ⟨m, body⟩
  | c => c

end Switch.Clause

namespace Switch

def toNode (x : Switch) : Node :=
  { kind := .switch, children := x.subject :: x.clauses.map Switch.Clause.toNode }

def arms (x : Switch) : List Arm := x.clauses.filterMap Switch.Clause.arm?

/-- The statements of the last resort. If several hold statements, the last one counts. -/
def last (x : Switch) : List Node := (x.clauses.filterMap Switch.Clause.lastResort?).getLastD []

/-- What a switch is taken for. -/
def asRead (x : Switch) : Switch := { x with clauses := x.clauses.map Switch.Clause.asRead }

end Switch

/-- Evaluate values in order up to the first that is equal to `v` and run the statements under it;
if there is none, run the last resort. -/
def Evaluator.pick (self : Evaluator) (v : Value) (last : List Node) : List Arm → Run Unit
  | [] => self.block last
  | a :: rest => do
    let w ← self.evaluate a.condition
    if ← Run.act (Action.reading fun h => v.equal h w) then self.block a.body
    else self.pick v last rest

/-- What a switch means. -/
def Switch.run (x : Switch) (self : Evaluator) : Run Unit := do
  let v ← self.evaluate x.subject
  self.pick v x.last x.arms

/-! ## Switches as they are read -/

namespace Parser

def clausePart (inner : Nested) : Parser Switch.Clause := do
  let k ← kind
  if k = .xaalad then
    advance
    let v ← inner.expression
    let body ← braced inner
    return .case ⟨v, body⟩
  else if k = .ugudambeyn then
    advance
    let body ← braced inner
    return .otherwise body
  else failExpecting "'xaalad' or 'ugudambeyn'"

def switchParts (inner : Nested) : Parser Switch := do
  let _ ← expect .dooro
  let e ← condition inner
  let _ ← expect .leftBrace
  let clauses ← many .rightBrace (clausePart inner)
  let _ ← expect .rightBrace
  return ⟨e, clauses⟩

theorem many_map {α β : Type} (stop : TokenKind) (f : α → β) (item : Parser α) :
    many stop (f <$> item) = List.map f <$> many stop item := by
  have hitems (fuel : Nat) : itemsUntil stop (f <$> item) fuel =
      List.map f <$> itemsUntil stop item fuel := by
    induction fuel with
    | zero => rfl
    | succ fuel ih =>
      simp only [itemsUntil, ih, map_bind, bind_map_left]
      refine bind_congr fun k => ?_
      split
      · rfl
      · simp only [map_bind, map_pure, List.map_cons]
  simp only [many, hitems, map_bind]

theorem clause_eq (inner : Nested) : clause inner = Switch.Clause.toNode <$> clausePart inner := by
  unfold clause clausePart
  rw [map_bind]
  refine bind_congr fun k => ?_
  split
  · simp only [if_true, map_bind, map_pure, Switch.Clause.toNode]
  · simp only [reduceCtorEq, if_true, if_false, map_bind, map_pure, Switch.Clause.toNode]
  · rename_i hvalue hlast
    rw [if_neg hvalue, if_neg hlast]
    rfl

theorem switch_eq (inner : Nested) : switch inner = Switch.toNode <$> switchParts inner := by
  simp only [switch, switchParts, clause_eq, many_map, map_bind, bind_map_left, map_pure,
    Switch.toNode]

theorem told_of_switchParts (depth : Nat) :
    Yields (switchParts (.upTo depth)) fun x => ∀ a, .case a ∈ x.clauses →
    (Switch.Clause.case a).Told := by
  have hclause : Yields (clausePart (.upTo depth)) fun c => ∀ a, c = .case a →
      (Switch.Clause.case a).Told := by
    refine .after fun k => .ite ?_ (.ite ?_ (.failExpecting _))
    · refine .after fun _ => .bind (nestedExpressive depth).expression fun v hv => .after
        fun body => .pure ?_
      rintro a ⟨⟩ hblock
      rw [hblock] at hv
      cases hv
    · exact .after fun _ => .after fun body => .pure (by simp)
  refine .after fun _ => .after fun e => .after fun _ => .bind hclause.many fun clauses hclauses =>
    ?_
  exact .after fun _ => .pure fun a ha => hclauses _ ha a rfl

end Parser

/-! ## Running the clauses -/

namespace Evaluator

variable {self : Evaluator}

/-- Clauses that are told apart are tried in order. A last resort that was passed is run if there is
no other that holds statements. -/
theorem clauses_eq_pick {clauses : List Switch.Clause} (htold : ∀ c ∈ clauses, c.Told) (v : Value)
    (passed : Option Node) :
    self.clauses v passed (clauses.map Switch.Clause.toNode) =
      self.pick v
        ((clauses.filterMap Switch.Clause.lastResort?).getLastD (passed.elim [] Node.children))
        (clauses.filterMap Switch.Clause.arm?) := by
  induction clauses generalizing passed with
  | nil => rfl
  | cons c clauses ih =>
    have hc := htold c List.mem_cons_self
    have ih (passed : Option Node) := ih (fun c hc => htold c (List.mem_cons_of_mem _ hc)) passed
    rcases c with a | (_ | ⟨m, body⟩)
    · have hstep : self.clauses v passed (Switch.Clause.toNode (.case a) ::
          clauses.map Switch.Clause.toNode) = _ :=
        if_neg hc
      rw [List.map_cons, hstep]
      simp only [ih passed]
      rfl
    · exact ih passed
    · have hstep : self.clauses v passed
          (Switch.Clause.toNode (.otherwise (m :: body)) :: clauses.map Switch.Clause.toNode) = _ :=
        if_pos (hc m rfl)
      have hlast :
          (Switch.Clause.otherwise (m :: body) :: clauses).filterMap Switch.Clause.lastResort? =
          (m :: body) :: clauses.filterMap Switch.Clause.lastResort? := rfl
      rw [List.map_cons, hstep, ih, hlast, List.getLastD_cons]
      rfl

/-- A switch whose clauses are told apart is run as it was written. -/
theorem switch_of_told (hchild : self.child = Node.child) {x : Switch}
    (htold : ∀ c ∈ x.clauses, c.Told) :
    self.switch x.toNode = x.run self := by
  unfold switch
  rw [hchild]
  show (self.evaluate x.subject >>=
    fun v => self.clauses v none (x.clauses.map Switch.Clause.toNode)) = _
  simp only [clauses_eq_pick htold]
  rfl

end Evaluator

namespace Switch.Clause

theorem asRead_of_block {m : Node} (hm : m.kind = .block) (body : List Node) :
    (otherwise (m :: body)).asRead = otherwise (m :: body) := if_pos hm

theorem asRead_of_not_block {m : Node} (hm : m.kind ≠ .block) (body : List Node) :
    (otherwise (m :: body)).asRead = case ⟨m, body⟩ := if_neg hm

theorem toNode_asRead (c : Switch.Clause) : c.asRead.toNode = c.toNode := by
  rcases c with a | (_ | ⟨m, body⟩)
  · rfl
  · rfl
  · by_cases hm : m.kind = .block
    · rw [asRead_of_block hm]
    · rw [asRead_of_not_block hm]
      rfl

theorem told_asRead {c : Switch.Clause} (hcase : ∀ a, c = .case a → c.Told) : c.asRead.Told := by
  rcases c with a | (_ | ⟨m, body⟩)
  · exact hcase a rfl
  · intro m hm
    cases hm
  · by_cases hm : m.kind = .block
    · rw [asRead_of_block hm]
      rintro _ ⟨⟩
      exact hm
    · rw [asRead_of_not_block hm]
      exact hm

/-- What clauses are taken for has at least as many values as the clauses have, and more of them if
a last resort is taken for a clause with a value. -/
theorem length_arms (clauses : List Switch.Clause) :
    (clauses.filterMap arm?).length ≤ ((clauses.map asRead).filterMap arm?).length ∧
      ((clauses.filterMap arm?).length = ((clauses.map asRead).filterMap arm?).length →
        ∀ body, .otherwise body ∈ clauses → ∀ m ∈ body.head?, m.kind = .block) := by
  induction clauses with
  | nil => exact ⟨Nat.le_refl 0, fun _ body hbody => by cases hbody⟩
  | cons c clauses ih =>
    obtain ⟨hle, htold⟩ := ih
    rcases c with a | (_ | ⟨m, body⟩)
    · refine ⟨Nat.succ_le_succ hle, fun h body hbody => ?_⟩
      exact htold (Nat.succ.inj h) body (by simpa using hbody)
    · refine ⟨hle, fun h body hbody => ?_⟩
      rcases List.mem_cons.mp hbody with hc | hbody
      · simp [otherwise.inj hc]
      · exact htold h body hbody
    · rw [List.map_cons]
      by_cases hm : m.kind = .block
      · rw [asRead_of_block hm]
        refine ⟨hle, fun h body hbody => ?_⟩
        rcases List.mem_cons.mp hbody with hc | hbody
        · simp [otherwise.inj hc, hm]
        · exact htold h body hbody
      · rw [asRead_of_not_block hm]
        refine ⟨Nat.le_succ_of_le hle, fun h => ?_⟩
        exact absurd h (Nat.ne_of_lt (Nat.lt_succ_of_le hle))

end Switch.Clause

namespace Switch

variable {x : Switch}

theorem toNode_asRead (x : Switch) : x.asRead.toNode = x.toNode := by
  have hmap : x.asRead.clauses.map Switch.Clause.toNode = x.clauses.map Switch.Clause.toNode := by
    simp [asRead, Switch.Clause.toNode_asRead]
  unfold toNode
  rw [hmap]
  rfl

/-- Every switch is run as what it is taken for. -/
theorem switch_toNode {self : Evaluator} (hchild : self.child = Node.child)
    (hcases : ∀ a, .case a ∈ x.clauses → (Switch.Clause.case a).Told) :
    self.switch x.toNode = x.asRead.run self := by
  rw [← toNode_asRead]
  refine Evaluator.switch_of_told hchild fun c hc => ?_
  obtain ⟨c, hmem, rfl⟩ := List.mem_map.mp hc
  exact Switch.Clause.told_asRead fun a ha => ha ▸ hcases a (ha ▸ hmem)

end Switch

/-! ## Telling clauses apart -/

namespace Evaluator

/-- An evaluator that numbers what it evaluates: each value is the seed, which grows by one. -/
def counter : Evaluator where
  evaluate _ := fun s => .ok (.int s.chance.seed) { s with chance := ⟨s.chance.seed + 1⟩ }
  execute _ := pure .null
  rounds := 0
  child := Node.child

theorem counter_block (nodes : List Node) (s : State) : counter.block nodes s = .ok () s := by
  have hrun : counter.sequence nodes s = .ok .null s := by
    induction nodes with
    | nil => rfl
    | cons n rest ih =>
      cases rest with
      | nil => rfl
      | cons m rest => exact ih
  exact Run.bind_ok hrun

/-- No value is equal to a smaller one, so all values are evaluated. -/
theorem counter_pick {k : Nat} (last : List Node) (arms : List Arm) {s : State}
    (hs : k < s.chance.seed) :
    counter.pick (.int k) last arms s = .ok ()
    { s with chance := ⟨s.chance.seed + arms.length⟩ } := by
  induction arms generalizing s with
  | nil => exact counter_block last s
  | cons a arms ih =>
    let t : State := { s with chance := ⟨s.chance.seed + 1⟩ }
    have hvalue : counter.evaluate a.condition s = .ok (.int s.chance.seed) t := rfl
    have hvalues : (compare (k : Int) s.chance.seed == .eq) = false := by
      have hne : compare (k : Int) s.chance.seed ≠ .eq := by
        rw [ne_eq, Int.compare_eq_eq]
        omega
      simpa using hne
    have hdiffers : Run.act (Action.reading fun h => (Value.int k).equal h (.int s.chance.seed)) t =
        .ok (compare (k : Int) s.chance.seed == .eq) t := rfl
    rw [hvalues] at hdiffers
    rw [pick, Run.bind_ok hvalue, Run.bind_ok hdiffers]
    refine (ih (s := t) (Nat.lt_succ_of_lt hs)).trans ?_
    simp only [t, List.length_cons, Nat.add_assoc, Nat.add_comm 1]

theorem counter_run (x : Switch) (s : State) :
    x.run counter s = .ok () { s with chance := ⟨s.chance.seed + 1 + x.arms.length⟩ } :=
  counter_pick x.last x.arms (s := { s with chance := ⟨s.chance.seed + 1⟩ }) (Nat.lt_succ_self _)

end Evaluator

/-- The clauses are run as they were written, whatever values and statements do, if and only if each
last resort is empty or starts with a block. -/
theorem Switch.switch_eq_run_iff {x : Switch}
    (hcases : ∀ a, .case a ∈ x.clauses → (Switch.Clause.case a).Told) :
    (∀ self : Evaluator, self.child = Node.child → self.switch x.toNode = x.run self) ↔
      ∀ body, .otherwise body ∈ x.clauses → ∀ m ∈ body.head?, m.kind = .block := by
  constructor
  · intro h
    have hrun := h Evaluator.counter rfl
    rw [switch_toNode rfl hcases] at hrun
    have hcount := congrFun hrun {}
    rw [Evaluator.counter_run, Evaluator.counter_run] at hcount
    refine (Switch.Clause.length_arms x.clauses).2 ?_
    injection hcount with _ hstate
    have hseed := congrArg (·.chance.seed) hstate
    simp only [Nat.add_left_cancel_iff] at hseed
    exact hseed.symm
  · intro h self hchild
    refine Evaluator.switch_of_told hchild fun c hc => ?_
    cases c with
    | case a => exact hcases a hc
    | otherwise body => exact h body hc

/-! ## Switches of the parser -/

theorem Run.done_eq_iff {r r' : Run Unit} :
    ((do r; return .null : Run Value) = do r'; return .null) ↔ r = r' :=
  ⟨done_inj, fun h => h ▸ rfl⟩

/-- For every switch that the parser reads, with any clauses in any order: running its tree
evaluates the value of the switch, then the values of the clauses in order up to the first that is
equal to it, and runs all statements under that one or else those of the last resort, and does
nothing else, if and only if each last resort is empty or starts with a block. In every case it does
this for the switch in which any other last resort has its first statement as a value. -/
theorem switch_run_iff (depth : Nat) (c c' : Cursor) (n : Node)
    (h : Parser.switch (.upTo depth) c = .ok n c') :
    ∃ x : Switch, Parser.switchParts (.upTo depth) c = .ok x c' ∧ n = x.toNode ∧
      ((∀ self : Evaluator, self.child = Node.child →
        self.statement n = do x.run self; return .null) ↔
        ∀ body, .otherwise body ∈ x.clauses → ∀ m ∈ body.head?, m.kind = .block) ∧
      ∀ self : Evaluator, self.child = Node.child →
        self.statement n = do x.asRead.run self; return .null := by
  rw [Parser.switch_eq] at h
  obtain ⟨x, hparts, rfl⟩ := Parser.map_eq_ok h
  have hcases := Parser.told_of_switchParts depth _ _ _ hparts
  have hstatement (self : Evaluator) : self.statement x.toNode =
      do self.switch x.toNode; return .null := rfl
  refine ⟨x, hparts, rfl, ?_, fun self hchild => ?_⟩
  · simp only [hstatement, Run.done_eq_iff]
    exact Switch.switch_eq_run_iff hcases
  · rw [hstatement, Switch.switch_toNode hchild hcases]

/-- A switch with a last resort before its other clauses. The last resort starts with a block. -/
theorem switch_run_iff_of_block :
    let mark (k : TokenKind) : Token := { kind := k, value := .null }
    let c : Cursor :=
      ⟨0, mark .dooro,
        [.leftParen, .true, .rightParen, .leftBrace, .ugudambeyn, .leftBrace, .leftBrace,
        .rightBrace, .jooji, .rightBrace, .xaalad, .false, .leftBrace, .soco, .rightBrace,
        .rightBrace, .eof].map mark⟩
    let x : Switch :=
      { subject := Parser.literal (.bool true)
        clauses := [.otherwise [{ kind := .block }, { kind := .breakLoop }],
          .case ⟨Parser.literal (.bool false), [{ kind := .continueLoop }]⟩] }
    ∃ c', Parser.switch (.upTo 9) c = .ok x.toNode c' ∧
      ∀ self : Evaluator, self.child = Node.child →
        self.statement x.toNode = do x.run self; return .null := by
  intro mark c x
  have hread : Parser.switch (.upTo 9) c = .ok x.toNode ⟨17, mark .eof, []⟩ := rfl
  obtain ⟨y, hparts, -, hiff, -⟩ := switch_run_iff 9 c _ _ hread
  obtain rfl : x = y := by
    have hx : Parser.switchParts (.upTo 9) c = .ok x ⟨17, mark .eof, []⟩ := rfl
    simpa using hx.symm.trans hparts
  refine ⟨_, hread, hiff.mpr ?_⟩
  intro body hbody
  have hlast : body = [{ kind := .block }, { kind := .breakLoop }] := by simpa [x] using hbody
  simp [hlast]

/-- A last resort that starts with a declaration stops the run with an error. One that starts with a
name is run before its turn, if the name stands for the value of the switch: a clause that has this
value is then passed over. -/
theorem last_resort_compared :
    let mark (k : TokenKind) : Token := { kind := k, value := .null }
    let name (x : String) : Token := { kind := .identifier, value := .str x }
    let two : Token := { kind := .number, value := .int 2 }
    let declaring (x : String) : List Token := [mark .door, name x, mark .equal, two]
    let c (clauses : List Token) : Cursor :=
      ⟨0, mark .dooro, mark .leftParen :: two :: [.rightParen, .leftBrace].map mark ++ clauses ++
        [.rightBrace, .eof].map mark⟩
    let otherwise (body : List Token) : List Token :=
      [.ugudambeyn, .leftBrace].map mark ++ body ++ [mark .rightBrace]
    let reads (clauses : List Token) (x : Switch) : Prop :=
      ∃ c', Parser.switchParts (.upTo 9) (c clauses) = .ok x c' ∧
        Parser.switch (.upTo 9) (c clauses) = .ok x.toNode c'
    (∃ x e, reads (otherwise (declaring "y")) x ∧
      (Evaluator.upTo 9 9).execute x.toNode {} = .error e {} ∧
      x.run (.upTo 9 8) {} = .ok () { vars := [("y", .int 2)] }) ∧
    ∃ x, reads (otherwise (name "x" :: declaring "y") ++
        mark .xaalad :: two :: mark .leftBrace :: declaring "z" ++ [mark .rightBrace]) x ∧
      let s : State := { vars := [("x", .int 2)] }
      (Evaluator.upTo 9 9).execute x.toNode s =
        .ok .null { vars := [("x", .int 2), ("y", .int 2)] } ∧
      x.run (.upTo 9 8) s = .ok () { vars := [("x", .int 2), ("z", .int 2)] } :=
  ⟨⟨_, _, ⟨_, rfl, rfl⟩, rfl, rfl⟩, ⟨_, ⟨_, rfl, rfl⟩, rfl, rfl⟩⟩

end Luuqad

import Luuqad.Proofs.Lockstep.Expressions

/-!
# Statements in lockstep

A statement is run in lockstep if its parts are; loops are asked for apart, because how many rounds
they take is not a matter of their parts (`Lockstep.Runs.statement`). An import is cut in two for
this: what is read, and running it (`Evaluator.runFile_eq`). Where the runs may be exhausted, all
loops are run in lockstep as well (`Lockstep.Runs.loop`, `Lockstep.Runs.whileLoop`), and so is all
code (`Lockstep.runs_upTo`).
-/

namespace Luuqad

open Run

namespace Evaluator

variable (self : Evaluator)

/-! ## Files in two parts -/

/-- Run what was read. -/
def runRead : Except ReadStop Node → Run Unit
  | .error s => stop s
  | .ok program => self.block program.children

theorem runFile_eq (path : String) :
    self.runFile path = get >>= fun s => self.runRead (s.folder.programAt path) := by
  funext s
  show (Run.act (Action.ofExcept (s.folder.read path)) >>=
    fun source => self.runRead (readProgram source)) s =
    self.runRead (s.folder.programAt path) s
  unfold Folder.programAt
  cases s.folder.read path with
  | error e => rfl
  | ok source => rfl

end Evaluator

namespace Lockstep.Runs

variable {L : Lockstep} {covers : Node → Prop} {ev : Limits → Evaluator} {n : Node} {α : Type}

theorem block (h : L.Runs covers ev) {nodes : List Node} (hnodes : ∀ m ∈ nodes, covers m) :
    L.Follows fun l => (ev l).block nodes :=
  .bind (h.sequence hnodes) fun _ => .pure _

theorem part (h : L.Runs covers ev) {m : Node} (hm : covers m) :
    L.Follows fun l => (ev l).block m.children :=
  h.block fun _ => (h.admits hm).child

/-! ## Variables -/

theorem declare (h : L.Runs covers ev) (hn : L.Admits covers n) (hkind : n.kind = .declaration) :
    L.Follows fun l => (ev l).declare n := by
  refine h.operand_bind (fun _ => hn.child) fun v => .nameOf_bind fun name hname => ?_
  have hseen := hn.seen (.named (.inr (.inl hkind)) hname)
  have hset : L.Keeps (do Run.setVariable name v; return v) :=
    .bind (.setVariable hseen v) fun _ => .pure v
  have hconstant : L.Keeps (do
      if n.constant then Run.noteConstant name
      Run.setVariable name v
      return v) := .ite (.bind (.noteConstant hseen) fun _ => hset) hset
  cases n.declared with
  | none => exact hconstant
  | some type =>
    exact .bind (.noteType hseen _) fun _ => .bind (.checkType _ _ _ _ _) fun _ => hconstant

theorem assignment (h : L.Runs covers ev) (hn : ∀ m ∈ n.children, covers m) :
    L.Follows fun l => (ev l).assignment n := by
  refine h.child_bind fun target htarget => h.operand_bind hn fun v => ?_
  have htarget := h.admits (hn target htarget)
  split
  · rename_i hkind
    exact .nameOf_bind fun name hname => .assign (htarget.seen (.named (.inl hkind) hname)) _ _ _
  · refine h.operand_bind (fun _ => htarget.child) fun object => ?_
    split
    · exact .bind (.act _) fun key => .bind (.act _) fun _ => .pure _
    · exact .bind (.text _) fun _ => .raiseAt n _
  · refine h.operand_bind (fun _ => htarget.child) fun list => ?_
    split
    · refine h.operand_bind (fun _ => htarget.child) fun index => ?_
      refine .get_bind fun s t hst => ⟨fun _ => by rw [(L.abreast hst).heap], ?_⟩
      exact .bind (keeps_place n _ index) fun i => .bind (.act _) fun _ => .pure _
    · exact .raiseAt n _
  · exact .raiseAt n _

theorem keeps_define (hn : L.Admits covers n) (hkind : n.kind = .function) :
    L.Keeps (Evaluator.define n) := by
  refine .ite .fault_bind (.names_bind fun params hparams => .nameOf_bind fun name _ => ?_)
  have hbinds : ∀ p ∈ params, n.Binds p .passed := by
    intro p hp
    obtain ⟨q, hq, hnamed⟩ := hparams p hp
    rw [List.mem_filter, decide_eq_true_eq] at hq
    exact .parameter hkind hq.1 hq.2 hnamed
  exact .of_matched fun s t hst => .ok (L.define name hst (hn.callable hkind hbinds))

/-! ## Conditionals and switches -/

theorem ownBody {nodes : List Node} (hnodes : ∀ m ∈ nodes, covers m) :
    ∀ m ∈ Evaluator.ownBody nodes, covers m :=
  fun m hm => hnodes m (List.takeWhile_subset _ hm)

theorem branches (h : L.Runs covers ev) {nodes : List Node} (hnodes : ∀ m ∈ nodes, covers m) :
    L.Follows fun l => (ev l).branches nodes := by
  induction nodes with
  | nil => exact .pure _
  | cons m rest ih =>
    have hm := hnodes m List.mem_cons_self
    have hchildren : ∀ k ∈ m.children, covers k := fun _ => (h.admits hm).child
    have hrest := ih fun k hk => hnodes k (List.mem_cons_of_mem _ hk)
    refine .ite (h.operand_bind hchildren fun v => .bind (.isTrue v) fun b => ?_)
      (.ite (h.part hm) hrest)
    exact .ite (h.block (ownBody fun k hk => hchildren k (List.mem_of_mem_drop hk))) hrest

theorem conditional (h : L.Runs covers ev) (hn : ∀ m ∈ n.children, covers m) :
    L.Follows fun l => (ev l).conditional n := by
  have hrest : ∀ m ∈ n.children.drop 1, covers m := fun m hm => hn m (List.mem_of_mem_drop hm)
  refine h.operand_bind hn fun v => .bind (.isTrue v) fun b => ?_
  exact .ite (h.block (ownBody hrest)) (h.branches hrest)

theorem clauses (h : L.Runs covers ev) {nodes : List Node} (v : Value) (last : Option Node)
    (hnodes : ∀ m ∈ nodes, covers m) (hlast : ∀ m, last = some m → covers m) :
    L.Follows fun l => (ev l).clauses v last nodes := by
  induction nodes generalizing last with
  | nil =>
    cases last with
    | none => exact h.block (by simp)
    | some m => exact h.part (hlast m rfl)
  | cons m rest ih =>
    have hm := hnodes m List.mem_cons_self
    have hrest {last : Option Node} (hlast : ∀ k, last = some k → covers k) :=
      ih last (fun k hk => hnodes k (List.mem_cons_of_mem _ hk)) hlast
    have hchildren : ∀ k ∈ m.children, covers k := fun _ => (h.admits hm).child
    unfold Evaluator.clauses
    cases hparts : m.children with
    | nil => exact hrest hlast
    | cons first body =>
      rw [hparts] at hchildren
      refine .ite (hrest fun k hk => ?_) ?_
      · cases hk
        exact hm
      · refine .bind (h.evaluate (hchildren first List.mem_cons_self)) fun w =>
          .bind (.act _) fun b => ?_
        exact .ite (h.block fun k hk => hchildren k (List.mem_cons_of_mem _ hk)) (hrest hlast)

theorem switch (h : L.Runs covers ev) (hn : ∀ m ∈ n.children, covers m) :
    L.Follows fun l => (ev l).switch n :=
  h.operand_bind hn fun v => h.clauses v none (fun m hm => hn m (List.mem_of_mem_drop hm)) (by simp)

/-! ## Loops -/

theorem round (h : L.Runs covers ev) {body : List Node} (hbody : ∀ m ∈ body, covers m) :
    L.Follows fun l => (ev l).round body := by
  refine .tryCatch (.bind (h.block hbody) fun _ => .pure true) (fun e he => ?_) fun _ => rfl
  cases e with
  | breaking => exact .pure false
  | continuing => exact .pure true
  | _ => exact .throw he

theorem heading (h : L.Runs covers ev) {β : Type}
    {f : Limits → Value × Value × Value × List Node → Run β} (hn : ∀ m ∈ n.children, covers m)
    (hf : ∀ start stop step body, (∀ m ∈ body, covers m) →
      L.Follows fun l => f l (start, stop, step, body)) :
    L.Follows fun l => (ev l).heading n >>= f l := by
  have hdrop : ∀ m ∈ n.children.drop 2, covers m := fun m hm => hn m (List.mem_of_mem_drop hm)
  unfold Evaluator.heading
  simp only [bind_assoc]
  refine h.operand_bind hn fun start => h.operand_bind hn fun stop => ?_
  cases hrest : n.children.drop 2 with
  | nil => exact hf start stop (.int 1) [] (by simp)
  | cons third rest =>
    rw [hrest] at hdrop
    dsimp only
    split
    · simp only [bind_assoc]
      refine .bind (h.evaluate (hdrop third List.mem_cons_self)) fun step => ?_
      exact hf start stop step rest fun m hm => hdrop m (List.mem_cons_of_mem _ hm)
    · exact hf start stop (.int 1) (third :: rest) hdrop

theorem countRound (h : L.Runs covers ev) {body : List Node} (hbody : ∀ m ∈ body, covers m)
    {v : Value} (hseen : ∀ {name}, v.Names name → L.seen name) (w : Value) :
    L.Follows fun l => (ev l).countRound v body w :=
  .nameOf_bind fun _ hname => .bind (.setVariable (hseen hname) w) fun _ => h.round hbody

theorem counting_of_rounds {n : Node} {start stop step : Value} {body : List Node}
    (hrounds : ∀ i j d : Num, start.num? = some i → stop.num? = some j → step.num? = some d →
      L.Follows fun l => (ev l).countRounds n.value body d.toward stop d start i (ev l).rounds) :
    L.Follows fun l => (ev l).counting n start stop step body := by
  unfold Evaluator.counting
  split
  · exact hrounds _ _ _ ‹_› ‹_› ‹_›
  · exact .raise _

theorem loop (h : L.Runs covers ev) (htires : L.tires) {k : Nat} (hrounds : ∀ l, (ev l).rounds = k)
    (hn : L.Admits covers n) (hkind : n.kind = .loop) : L.Follows fun l => (ev l).loop n := by
  simp only [Evaluator.loop_eq]
  refine h.heading (fun _ => hn.child) fun start stop step body hbody => ?_
  refine counting_of_rounds fun i j d hi hj hd => ?_
  have hround := h.countRound hbody fun hname => hn.seen (.named (.inr (.inr (.inl hkind))) hname)
  simp only [hrounds]
  clear hrounds hi hj hd
  induction k generalizing start i with
  | zero => exact .exhausted htires
  | succ fuel ih =>
    refine .bind (.act _) fun b => .ite (.bind (hround start) fun goesOn => ?_) (.pure _)
    refine .ite (.bind (.act _) fun next => ?_) (.pure _)
    exact .bind (.act _) fun w => ih w next

theorem whileLoop (h : L.Runs covers ev) (htires : L.tires) {k : Nat}
    (hrounds : ∀ l, (ev l).rounds = k) (hn : ∀ m ∈ n.children, covers m) :
    L.Follows fun l => (ev l).whileLoop n := by
  unfold Evaluator.whileLoop
  simp only [hrounds]
  clear hrounds
  induction k with
  | zero => exact .exhausted htires
  | succ fuel ih =>
    refine h.operand_bind hn fun v => .bind (.isTrue v) fun b => .ite ?_ (.pure _)
    refine .bind (h.round fun m hm => hn m (List.mem_of_mem_drop hm)) fun goesOn => ?_
    exact .ite ih (.pure _)

/-! ## Handlers and files -/

theorem tryCatch (h : L.Runs covers ev) (hn : L.Admits covers n) (hkind : n.kind = .tryCatch) :
    L.Follows fun l => (ev l).tryCatch n := by
  have hpart (i : Nat) : L.Follows fun l => (do (ev l).block (← (ev l).child n i).children) :=
    h.child_bind fun m hm => h.part (hn.child hm)
  refine .tryCatch (hpart 0) (fun e he => ?_) fun _ => rfl
  split
  · exact .throw he
  · refine .nameOf_bind fun name hname => ?_
    have hseen := hn.seen (.named (.inr (.inr (.inr hkind))) hname)
    exact .bind (.setVariable hseen _) fun _ => hpart 1

theorem runFile (h : L.Runs covers ev) (hn : L.Admits covers n) (hkind : n.kind = .importFile)
    {path : String} (hpath : n.value = .str path) : L.Follows fun l => (ev l).runFile path := by
  simp only [Evaluator.runFile_eq]
  refine .get_bind fun s t hst => ⟨fun _ => by rw [L.files path hst], ?_⟩
  cases hprogram : s.folder.programAt path with
  | error stop =>
    cases stop with
    | fault f => exact .fault f
    | tooDeep => exact .exhausted (hn.imports hkind)
  | ok program =>
    obtain ⟨source, hread, hparsed⟩ := Folder.programAt_ok hprogram
    exact h.block (hn.file hst hkind hpath hread hparsed)

theorem importFile (h : L.Runs covers ev) (hn : L.Admits covers n) (hkind : n.kind = .importFile) :
    L.Follows fun l => (ev l).importFile n := by
  refine .bind (.text _) fun path => .tryCatch ?_ (fun e he => ?_) fun _ => rfl
  · split
    · rename_i path hpath
      exact h.runFile hn hkind hpath
    · exact .fail _
  · split
    · exact .raise _
    · exact .raise _
    · exact .throw he

/-! ## Classes -/

theorem members (h : L.Runs covers ev) {nodes : List Node} (hnodes : ∀ m ∈ nodes, covers m)
    (methods fields : Entries) : L.Follows fun l => (ev l).members nodes methods fields := by
  induction nodes generalizing methods fields with
  | nil => exact .pure _
  | cons m rest ih =>
    have hm := hnodes m List.mem_cons_self
    have hrest := ih fun k hk => hnodes k (List.mem_cons_of_mem _ hk)
    unfold Evaluator.members
    split
    · exact .bind (.act _) fun key => .bind (.act _) fun code => hrest _ _
    · refine h.operand_bind (fun _ => (h.admits hm).child) fun v => ?_
      exact .bind (.act _) fun key => hrest _ _
    · exact .bind (h.execute hm) fun _ => hrest _ _

theorem keeps_headingOf (v : Value) : L.Keeps (Evaluator.headingOf v) := by
  unfold Evaluator.headingOf
  split
  · split
    · exact .pure _
    · exact .fail _
  · exact .pure _

theorem classDefinition (h : L.Runs covers ev) (hn : ∀ m ∈ n.children, covers m) :
    L.Follows fun l => (ev l).classDefinition n := by
  have hclass (name : String) (r : Ref) :
      L.Keeps (modify fun s => { s with classes := s.classes.put name r } : Run Unit) :=
    .step (fun _ => ⟨rfl, rfl, rfl, rfl, rfl⟩) fun _ _ hst =>
      { hst with classes := by rw [hst.classes] }
  refine .bind (keeps_headingOf _) fun (name, parent) => .bind (.isTrue parent) fun b => ?_
  refine .ite (.bind (.nameOf _) fun parentName => ?_) ?_
  · refine .get_bind fun s t hst => ⟨fun _ => by rw [(L.abreast hst).classes], .ite .fault_bind ?_⟩
    refine .bind (h.members hn [] []) fun (methods, fields) => .bind (.act _) fun r => ?_
    exact .bind (.nameOf _) fun className => .bind (hclass className r) fun _ => .pure _
  · refine .bind (h.members hn [] []) fun (methods, fields) => .bind (.act _) fun r => ?_
    exact .bind (.nameOf _) fun className => .bind (hclass className r) fun _ => .pure _

/-! ## All statements -/

theorem returnValue (h : L.Runs covers ev) (hn : ∀ m ∈ n.children, covers m) :
    L.Follows fun l => (ev l).returnValue n := by
  unfold Evaluator.returnValue
  split
  · exact .throw (by simp)
  · rename_i e rest hchildren
    refine .bind (h.evaluate (hn e ?_)) fun v => .throw (by simp)
    rw [hchildren]
    exact List.mem_cons_self

theorem statement (h : L.Runs covers ev) (hitems : L.Items ev) (hn : L.Admits covers n)
    (hvalue : L.Follows fun l => (ev l).evaluate n)
    (hloop : n.kind = .loop → L.Follows fun l => (ev l).loop n)
    (hwhile : n.kind = .whileLoop → L.Follows fun l => (ev l).whileLoop n) :
    L.Follows fun l => (ev l).statement n := by
  have hdone {r : Limits → Run Unit} (hr : L.Follows r) :
      L.Follows fun l => (do r l; return .null : Run Value) :=
    .bind hr fun _ => .pure _
  have hchildren : ∀ m ∈ n.children, covers m := fun _ => hn.child
  unfold Evaluator.statement
  cases hkind : n.kind with
  | program | block => exact hdone (h.block hchildren)
  | declaration => exact hdone (.bind (h.declare hn hkind) fun _ => .pure _)
  | function => exact hdone (keeps_define hn hkind)
  | call => exact h.call hitems hn hkind
  | conditional => exact hdone (h.conditional hchildren)
  | switch => exact hdone (h.switch hchildren)
  | loop => exact hdone (hloop hkind)
  | whileLoop => exact hdone (hwhile hkind)
  | breakLoop | continueLoop => exact .throw (by simp)
  | returnValue => exact h.returnValue hchildren
  | importFile => exact hdone (h.importFile hn hkind)
  | tryCatch => exact hdone (h.tryCatch hn hkind)
  | classDefinition => exact h.classDefinition hchildren
  | assignment => exact h.assignment hchildren
  | binary | unary | property | methodCall | index | identifier | literal =>
    exact hdone (.bind hvalue fun _ => .pure _)
  | list | object => exact .raise _

/-! ## Programs -/

theorem outermostAll (h : L.Runs covers ev) {nodes : List Node} (hnodes : ∀ m ∈ nodes, covers m) :
    L.Follows fun l => (ev l).outermostAll nodes := by
  induction nodes with
  | nil => exact .pure _
  | cons m rest ih =>
    refine .bind ?_ fun _ => ih fun k hk => hnodes k (List.mem_cons_of_mem _ hk)
    refine .tryCatch (.bind (h.execute (hnodes m List.mem_cons_self)) fun _ => .pure _)
      (fun e he => ?_)
      fun _ => rfl
    cases e with
    | breaking | continuing | returning v => exact .raise _
    | _ => exact .throw he

theorem program (h : L.Runs covers ev) (hn : ∀ m ∈ n.children, covers m) :
    L.Follows fun l => (ev l).program n :=
  .ite .fault_bind (h.outermostAll hn)

end Lockstep.Runs

/-! ## Bounded evaluators -/

/-- If the runs may be exhausted, all code that is admitted with its parts is run in lockstep. -/
theorem Lockstep.runs_upTo {L : Lockstep} {covers : Node → Prop} (htires : L.tires)
    (hadmits : ∀ {n : Node}, covers n → L.Admits covers n)
    (hbody : ∀ {f : UserFunction} {m : Node}, L.callable f → m ∈ f.body → covers m)
    (hparams : ∀ {f : UserFunction} {p : String}, L.callable f → p ∈ f.params → L.seen p)
    (rounds depth : Nat) :
    L.Runs covers fun _ => .upTo rounds depth := by
  induction depth with
  | zero =>
    exact ⟨fun _ => rfl, hadmits, hbody, hparams, fun _ => .exhausted htires,
      fun _ => .exhausted htires⟩
  | succ depth ih =>
    have hrounds (_ : Limits) : (Evaluator.upTo rounds depth).rounds = rounds := by
      cases depth <;> rfl
    have hitems := ih.items htires hrounds
    refine ⟨fun _ => rfl, hadmits, hbody, hparams, fun hn => ?_, fun hn => ?_⟩
    · exact ih.expression hitems (hadmits hn)
    · exact ih.statement hitems (hadmits hn) (ih.evaluate hn) (ih.loop htires hrounds (hadmits hn))
        fun _ => ih.whileLoop htires hrounds fun _ => (hadmits hn).child

end Luuqad

import Luuqad.Interpreter.File
import Luuqad.Proofs.Run.Regime

/-!
# Statements that leave loops and functions

The signals of the statements that leave a loop, a round or a function travel as interrupts through
everything that is run around them. A program is well scoped if each such statement stands in a loop
or function that it can leave: in the program itself and in every file that is read when it runs. A
run of a well scoped program from a fresh state never finds one of them misplaced, and no signal of
a loop leaves a call (`program_scoped`).

The invariant is that every function in the state has a body that stands, in the scope of a
function, in one of the programs that are read. With it, the signals that a statement may emit are
those of its scope.
-/

namespace Luuqad

open Run

/-! ## Where statements stand -/

/-- The node `m` stands in `n` in the scope `d`, if `n` itself stands in the scope `c`. -/
inductive Node.Occurs (n : Node) (c : Scope) : Node → Scope → Prop
  | self : Occurs n c n c
  | body {m k : Node} {d : Scope} :
    Occurs n c m d → m.hasParts = false → k ∈ m.body → Occurs n c k (m.inside d)
  | part {m p k : Node} {d : Scope} :
    Occurs n c m d → m.hasParts = true → p ∈ m.children → k ∈ p.children → Occurs n c k d

/-- The node `m` stands in the program `n` in the scope `d`. -/
def Node.Holds (n m : Node) (d : Scope) : Prop := ∃ k ∈ n.children, k.Occurs .top m d

/-- Whether a node in a scope has the loop or function around it that it leaves. -/
def Node.fits (n : Node) (c : Scope) : Bool :=
  match n.kind with
  | .breakLoop | .continueLoop => c.loop
  | .returnValue => c.function
  | _ => true

/-- The program itself and the programs of the files that it imports, or that those import. -/
inductive Folder.Reads (folder : Folder) (n : Node) : Node → Prop
  | self : Reads folder n n
  | file {p m q : Node} {d : Scope} {path source : String} :
    Reads folder n p → p.Holds m d → m.kind = .importFile → m.value = .str path →
    folder.read path = .ok source → readProgram source = .ok q → Reads folder n q

/-- In the program and in all files that it reads, each statement that leaves a loop or a function
stands in one. -/
def Folder.WellScoped (folder : Folder) (n : Node) : Prop :=
  ∀ p, folder.Reads n p → ∀ m d, p.Holds m d → m.fits d = true

/-! ## A check of all nodes -/

mutual

/-- Whether a check succeeds at every node that stands in a given one. -/
def Node.everywhere (check : Node → Scope → Bool) (c : Scope) : Node → Bool
  | ⟨kind, value, children, declared, constant, line, column⟩ =>
    let n : Node := ⟨kind, value, children, declared, constant, line, column⟩
    check n c &&
      if n.hasParts then everywhereInParts check c children
      else everywhereAfter check (n.inside c) n.heading children

/-- The check of the nodes after the first ones. -/
def Node.everywhereAfter (check : Node → Scope → Bool) (c : Scope) : Nat → List Node → Bool
  | _, [] => true
  | 0, n :: rest => n.everywhere check c && everywhereAfter check c 0 rest
  | i + 1, _ :: rest => everywhereAfter check c i rest

/-- The check of the children of nodes. -/
def Node.everywhereInParts (check : Node → Scope → Bool) (c : Scope) : List Node → Bool
  | [] => true
  | ⟨_, _, children, _, _, _, _⟩ :: rest =>
    everywhereAfter check c 0 children && everywhereInParts check c rest

end

namespace Node

variable {check : Node → Scope → Bool} {c d : Scope} {n m : Node}

theorem everywhere_of_after {i : Nat} {nodes : List Node}
    (h : everywhereAfter check c i nodes = true) (hm : m ∈ nodes.drop i) :
    m.everywhere check c = true := by
  induction nodes generalizing i with
  | nil => simp at hm
  | cons n rest ih =>
    cases i with
    | zero =>
      unfold everywhereAfter at h
      rw [Bool.and_eq_true] at h
      rcases List.mem_cons.mp hm with rfl | hrest
      · exact h.1
      · exact ih h.2 hrest
    | succ i => exact ih h hm

theorem everywhereInParts_cons (p : Node) (rest : List Node) :
    everywhereInParts check c (p :: rest) =
      (everywhereAfter check c 0 p.children && everywhereInParts check c rest) := by
  cases p
  rfl

theorem everywhere_of_parts {nodes : List Node} {p : Node}
    (h : everywhereInParts check c nodes = true) (hp : p ∈ nodes) (hm : m ∈ p.children) :
    m.everywhere check c = true := by
  induction nodes with
  | nil => cases hp
  | cons n rest ih =>
    rw [everywhereInParts_cons, Bool.and_eq_true] at h
    rcases List.mem_cons.mp hp with rfl | hrest
    · exact everywhere_of_after h.1 hm
    · exact ih h.2 hrest

theorem everywhere_eq (n : Node) :
    n.everywhere check c = (check n c &&
      if n.hasParts then everywhereInParts check c n.children
      else everywhereAfter check (n.inside c) n.heading n.children) := by
  cases n
  rfl

theorem check_of_everywhere (h : n.everywhere check c = true) : check n c = true := by
  rw [everywhere_eq, Bool.and_eq_true] at h
  exact h.1

theorem everywhere_body {k : Node} (h : n.everywhere check c = true) (hparts : n.hasParts = false)
    (hk : k ∈ n.body) : k.everywhere check (n.inside c) = true := by
  rw [everywhere_eq, Bool.and_eq_true, if_neg (by simp [hparts])] at h
  exact everywhere_of_after h.2 hk

theorem everywhere_part {p k : Node} (h : n.everywhere check c = true) (hparts : n.hasParts = true)
    (hp : p ∈ n.children) (hk : k ∈ p.children) : k.everywhere check c = true := by
  rw [everywhere_eq, Bool.and_eq_true, if_pos hparts] at h
  exact everywhere_of_parts h.2 hp hk

theorem check_of_occurs (h : n.everywhere check c = true) (hm : n.Occurs c m d) :
    check m d = true := by
  suffices hall : m.everywhere check d = true from check_of_everywhere hall
  induction hm with
  | self => exact h
  | body _ hparts hk ih => exact everywhere_body ih hparts hk
  | part _ hparts hp hk ih => exact everywhere_part ih hparts hp hk

theorem check_of_holds (h : everywhereAfter check .top 0 n.children = true) (hm : n.Holds m d) :
    check m d = true := by
  obtain ⟨k, hk, hoccurs⟩ := hm
  exact check_of_occurs (everywhere_of_after h hk) hoccurs

end Node

/-- It is enough to check the programs of a list that holds what its programs import. -/
theorem Folder.wellScoped_of_closed {folder : Folder} {n : Node} (programs : List Node)
    (hn : n ∈ programs)
    (hfits : ∀ p ∈ programs, Node.everywhereAfter Node.fits .top 0 p.children = true)
    (hclosed : ∀ p ∈ programs, ∀ m d path source q, p.Holds m d → m.kind = .importFile →
      m.value = .str path → folder.read path = .ok source → readProgram source = .ok q →
      q ∈ programs) : folder.WellScoped n := by
  intro p hp m d hm
  suffices hmem : p ∈ programs from Node.check_of_holds (hfits p hmem) hm
  induction hp generalizing m d with
  | self => exact hn
  | file _ hholds hkind hpath hread hprogram ih =>
    exact hclosed _ (ih _ _ hholds) _ _ _ _ _ hholds hkind hpath hread hprogram

/-! ## The regime of well scoped programs -/

/-- Which interrupts may leave a statement in a scope. -/
def Scope.allows (c : Scope) : Interrupt → Prop
  | .breaking | .continuing => c.loop = true
  | .returning _ => c.function = true
  | .fault f => f.isMisplaced = false
  | .stopped | .exhausted => True

namespace Scope

variable {c : Scope} {e : Interrupt}

theorem allows_of_inLoop (h : c.inLoop.allows e) (hbreak : e ≠ .breaking)
    (hcontinue : e ≠ .continuing) : c.allows e := by
  cases e with
  | breaking => exact absurd rfl hbreak
  | continuing => exact absurd rfl hcontinue
  | returning v => exact h
  | fault f => exact h
  | stopped => trivial
  | exhausted => trivial

theorem top_allows_of_body (h : body.allows e) (hreturn : ∀ v, e ≠ .returning v) :
    top.allows e := by
  cases e with
  | returning v => exact absurd rfl (hreturn v)
  | breaking => exact h
  | continuing => exact h
  | fault f => exact h
  | stopped => trivial
  | exhausted => trivial

theorem allows_of_top (h : top.allows e) : c.allows e := by
  cases e with
  | breaking => cases h
  | continuing => cases h
  | returning v => cases h
  | fault f => exact h
  | stopped => trivial
  | exhausted => trivial

end Scope

/-- The node stands, in a scope, in the program or in a file that it reads. -/
def Folder.Within (folder : Folder) (n : Node) (c : Scope) (m : Node) : Prop :=
  ∃ p, folder.Reads n p ∧ p.Holds m c

/-- The functions of the state have bodies from the programs that are read. -/
def Folder.Supplies (folder : Folder) (n : Node) (s : State) : Prop :=
  s.folder = folder ∧
    ∀ name f, s.functions.get? name = some f → ∀ m ∈ f.body, folder.Within n .body m

namespace Folder

variable {folder : Folder} {n : Node} {c : Scope} {m k : Node}

theorem Within.body (h : folder.Within n c m) (hparts : m.hasParts = false) (hk : k ∈ m.body) :
    folder.Within n (m.inside c) k := by
  obtain ⟨p, hp, first, hfirst, hm⟩ := h
  exact ⟨p, hp, first, hfirst, hm.body hparts hk⟩

theorem Within.part {p : Node} (h : folder.Within n c m) (hparts : m.hasParts = true)
    (hp : p ∈ m.children) (hk : k ∈ p.children) : folder.Within n c k := by
  obtain ⟨q, hq, first, hfirst, hm⟩ := h
  exact ⟨q, hq, first, hfirst, hm.part hparts hp hk⟩

theorem Within.function (h : folder.Within n c m) (hkind : m.kind = .function)
    (hk : k ∈ m.children) : folder.Within n .body k := by
  have hparts : m.hasParts = false := by simp [Node.hasParts, hkind]
  have hheading : m.heading = 0 := by simp [Node.heading, hkind]
  have hinside : m.inside c = .body := by simp [Node.inside, hkind]
  have hbody : k ∈ m.body := by
    unfold Node.body
    rwa [hheading, List.drop_zero]
  have hwithin := h.body hparts hbody
  rwa [hinside] at hwithin

theorem Within.fits (hscoped : folder.WellScoped n) (h : folder.Within n c m) :
    m.fits c = true := by
  obtain ⟨p, hp, hm⟩ := h
  exact hscoped p hp m c hm

theorem Within.file {path source : String} {program : Node} (h : folder.Within n c m)
    (hkind : m.kind = .importFile) (hpath : m.value = .str path)
    (hread : folder.read path = .ok source) (hprogram : readProgram source = .ok program)
    (hk : k ∈ program.children) : folder.Within n .top k := by
  obtain ⟨p, hp, hm⟩ := h
  exact ⟨program, .file hp hm hkind hpath hread hprogram, k, hk, .self⟩

theorem Supplies.define {s : State} (hs : folder.Supplies n s) (hm : folder.Within n c m)
    (hkind : m.kind = .function) (name : String) (params : List String) :
    folder.Supplies n { s with
      functions := s.functions.put name ⟨params, m.children.filter (·.kind ≠ .identifier)⟩ } := by
  refine ⟨hs.1, fun other f hf k hk => ?_⟩
  rcases NameTable.get?_put_cases hf with rfl | hold
  · exact hm.function hkind (List.mem_filter.mp hk).1
  · exact hs.2 other f hold k hk

end Folder

/-- Runs of a well scoped program: a statement emits the signals of its scope only. -/
def Regime.scoped (folder : Folder) (n : Node) (hscoped : folder.WellScoped n) : Regime where
  inv := folder.Supplies n
  allows := Scope.allows
  good := folder.Within n
  may _ _ := True
  quiet halike hs := ⟨halike.folder.trans hs.1, halike.functions ▸ hs.2⟩
  change hs hchange := ⟨hchange.folder.trans hs.1, hchange.functions ▸ hs.2⟩
  restore _ ht _ := ht
  define name params hs hm hkind _ := hs.define hm hkind name params
  function hs hf := hs.2 _ _ hf
  params _ _ _ _ := trivial
  binds _ _ := trivial
  file hs hm hkind hpath hread hprogram _ hk := hm.file hkind hpath (hs.1 ▸ hread) hprogram hk
  body hm hparts hk := hm.body hparts hk
  parts hm hparts hp hk := hm.part hparts hp hk
  fault hf := hf
  stopped := trivial
  exhausted := trivial
  breaking hm hkind := by
    simpa [Node.fits, Scope.allows, hkind] using hm.fits hscoped
  continuing hm hkind := by
    simpa [Node.fits, Scope.allows, hkind] using hm.fits hscoped
  returning hm hkind := by
    simpa [Node.fits, Scope.allows, hkind] using hm.fits hscoped
  ofRound := Scope.allows_of_inLoop
  ofCall := Scope.top_allows_of_body
  ofTop := Scope.allows_of_top

/-! ## Signals of loops at calls -/

/-- Run `handler` where a signal of a loop leaves a run. -/
def Run.onSignal (handler : Interrupt → Run Value) (r : Run Value) : Run Value :=
  tryCatch r fun
    | .breaking => handler .breaking
    | .continuing => handler .continuing
    | e => throw e

section Scoped

variable {folder : Folder} {n : Node} {hscoped : folder.WellScoped n}

/-- No signal of a loop leaves what is run as an expression, so there is nothing to handle. -/
theorem Regime.scoped_idle_onSignal (handler : Interrupt → Run Value) :
    (Regime.scoped folder n hscoped).Idle (onSignal handler) := by
  intro r r' hr s hs
  obtain ⟨heq, hmet⟩ := hr s hs
  refine ⟨?_, hmet⟩
  cases hrun : r s with
  | ok v t => exact tryCatch_ok (heq.trans hrun)
  | error e t =>
    rw [hrun] at hmet
    unfold onSignal
    rw [tryCatch_error (heq.trans hrun)]
    cases e with
    | breaking => cases hmet.1
    | continuing => cases hmet.1
    | returning v => rfl
    | fault f => rfl
    | stopped => rfl
    | exhausted => rfl

/-! ## Programs -/

namespace Regime.Runs

variable {ev₁ ev₂ : Evaluator}

theorem outermost (h : Runs (.scoped folder n hscoped) ev₁ ev₂) {m : Node}
    (hm : folder.Within n .top m) :
    Safe ((Regime.scoped folder n hscoped).contract .top) (ev₁.outermost m) (ev₂.outermost m) := by
  refine safe_tryCatch (.bind (h.execute hm) fun _ => .pure _) fun e s he hs => ⟨rfl, ?_⟩
  cases e with
  | breaking => cases he
  | continuing => cases he
  | returning v => cases he
  | fault f => exact ⟨he, hs⟩
  | stopped => exact ⟨trivial, hs⟩
  | exhausted => exact ⟨trivial, hs⟩

theorem outermostAll (h : Runs (.scoped folder n hscoped) ev₁ ev₂) {nodes : List Node}
    (hnodes : ∀ m ∈ nodes, folder.Within n .top m) :
    Safe ((Regime.scoped folder n hscoped).contract .top) (ev₁.outermostAll nodes)
      (ev₂.outermostAll nodes) := by
  induction nodes with
  | nil => exact .pure _
  | cons m rest ih =>
    have hrest : ∀ k ∈ rest, folder.Within n .top k := fun k hk =>
      hnodes k (List.mem_cons_of_mem _ hk)
    exact .bind (h.outermost (hnodes m List.mem_cons_self)) fun _ => ih hrest

theorem program (h : Runs (.scoped folder n hscoped) ev₁ ev₂) :
    Safe ((Regime.scoped folder n hscoped).contract .top) (ev₁.program n) (ev₂.program n) := by
  have hnodes : ∀ m ∈ n.children, folder.Within n .top m := fun m hm => ⟨n, .self, m, hm, .self⟩
  exact .ite (.raise_bind rfl) (h.outermostAll hnodes)

end Regime.Runs

end Scoped

/-- A run of a well scoped program from a fresh state does not fail because a statement that leaves
a loop, a round or a function is misplaced. No signal of a loop ever leaves a call in it: whatever
is done where one does, to calls of functions and of methods at any depth, the run is the same. -/
theorem program_scoped (l : Limits) (s : State) (n : Node) (h : s.folder.WellScoped n) :
    (∀ d t, l.evaluator.program n s.fresh = .error (.fault (.error d)) t →
      d.cause ≠ .breakOutsideLoop ∧ d.cause ≠ .continueOutsideLoop ∧
        d.cause ≠ .returnOutsideFunction) ∧
    ∀ handler, (Evaluator.watched (onSignal handler) l.rounds l.depth).program n s.fresh =
      l.evaluator.program n s.fresh := by
  have hfresh : s.folder.Supplies n s.fresh := by
    refine ⟨rfl, fun name f hf => ?_⟩
    cases hf
  have hruns (handler : Interrupt → Run Value) :=
    (Regime.scoped s.folder n h).runs (Regime.scoped_idle_onSignal handler) l.rounds l.depth
  constructor
  · intro d t hrun
    have hmet := ((hruns throw).program s.fresh hfresh).2
    change Contract.Met _ (l.evaluator.program n s.fresh) at hmet
    rw [hrun] at hmet
    have hplaced : d.cause.isMisplaced = false := hmet.1
    refine ⟨?_, ?_, ?_⟩ <;> intro hcause <;> rw [hcause] at hplaced <;> cases hplaced
  · intro handler
    exact ((hruns handler).program s.fresh hfresh).1

/-- A program that imports `m.so`, defines a function that leaves a loop of its own and returns, and
calls the function in a loop that it leaves. -/
def Node.importing : Node :=
  let literal (v : Value) : Node := { kind := .literal, value := v }
  let leave : Node := { kind := .breakLoop }
  let count : Node :=
    { kind := .loop, value := .str "i", children := [literal (.int 1), literal (.int 3), leave] }
  let result : Node := { kind := .returnValue, children := [literal (.int 2)] }
  let call : Node := { kind := .call, value := .str "f" }
  { kind := .program
    children :=
      [{ kind := .importFile, value := .str "m.so" },
       { kind := .function, value := .str "f", children := [count, result] },
       { kind := .whileLoop, children := [literal (.bool true), call, leave] }] }

/-- The program in `m.so`. -/
def Node.imported : Node :=
  let one : Node := { kind := .literal, value := .int 1 }
  let result : Node := { kind := .returnValue, children := [one] }
  { kind := .program, children := [{ kind := .function, value := .str "g", children := [result] }] }

theorem program_scoped_of_import :
    let s : State := { folder := ⟨[("m.so", "hawl g() \x7b celi 1 \x7d\n")]⟩ }
    s.folder.WellScoped Node.importing ∧
      ∀ handler, (Evaluator.watched (onSignal handler) 9 9).program Node.importing s.fresh =
        (Limits.mk 9 9).evaluator.program Node.importing s.fresh := by
  intro s
  have hread : s.folder.read "m.so" = .ok "hawl g() \x7b celi 1 \x7d\n" := rfl
  have htokens : (tokenize "hawl g() \x7b celi 1 \x7d\n").toOption = some
      [.at .hawl (.str "hawl") ⟨1, 1⟩, .at .identifier (.str "g") ⟨1, 6⟩,
        .at .leftParen (.str "(") ⟨1, 7⟩, .at .rightParen (.str ")") ⟨1, 8⟩,
        .at .leftBrace (.str "\x7b") ⟨1, 10⟩, .at .celi (.str "celi") ⟨1, 12⟩,
        .at .number (.int 1) ⟨1, 17⟩, .at .rightBrace (.str "\x7d") ⟨1, 19⟩,
        .at .eof .null ⟨2, 1⟩] := by decide +kernel
  have hprogram : readProgram "hawl g() \x7b celi 1 \x7d\n" = .ok Node.imported :=
    (readProgram_of_tokens htokens).trans rfl
  have hscoped : s.folder.WellScoped Node.importing := by
    refine Folder.wellScoped_of_closed [Node.importing, Node.imported] (by simp) ?_ ?_
    · intro p hp
      simp only [List.mem_cons, List.not_mem_nil, or_false] at hp
      rcases hp with rfl | rfl <;> rfl
    · intro p hp m d path source q hm hkind hpath hsource hq
      -- both programs import `m.so` only
      let imports (k : Node) (_ : Scope) : Bool := k.kind ≠ .importFile || k.value = .str "m.so"
      have hall : Node.everywhereAfter imports .top 0 p.children = true := by
        simp only [List.mem_cons, List.not_mem_nil, or_false] at hp
        rcases hp with rfl | rfl <;> rfl
      have himports := Node.check_of_holds hall hm
      obtain rfl : path = "m.so" := by simpa [imports, hkind, hpath] using himports
      rw [hread] at hsource
      cases hsource
      rw [hprogram] at hq
      cases hq
      simp
  exact ⟨hscoped, (program_scoped ⟨9, 9⟩ s Node.importing hscoped).2⟩

/-- Where a function leaves a loop of its caller, the signal is seen at the call. -/
example :
    let leave : Node := { kind := .breakLoop }
    let call : Node := { kind := .call, value := .str "f" }
    let one : Node := { kind := .literal, value := .int 1 }
    let function : Node := { kind := .function, value := .str "f", children := [leave] }
    let n : Node :=
      { kind := .program, children := [function, { kind := .whileLoop, children := [one, call] }] }
    (∃ t, (Limits.mk 9 9).evaluator.program n {} = .ok () t) ∧
      ∃ t, (Evaluator.watched (onSignal fun _ => throw .stopped) 9 9).program n {} =
        .error .stopped t :=
  ⟨⟨_, rfl⟩, ⟨_, rfl⟩⟩

end Luuqad

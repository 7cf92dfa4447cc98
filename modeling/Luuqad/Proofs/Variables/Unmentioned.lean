import Luuqad.Proofs.Lockstep.Statements

/-!
# Variables that are not mentioned

A variable that no code mentions does not matter for a run, and the run does not touch it. The code
is what the run may come to: the program, the bodies of the functions of the state, and the files
that any of these import (`State.Reaches`). Two states that are equal except for the entries of the
name are run side by side, and stay so; each keeps its own entries of the name (`program_apart`).

The files belong to the code. A program that imports nothing may call a function of the state that
imports a file, and the file may declare the name (`imported_by_function`).
-/

namespace Luuqad

open Run

/-! ## Tables without a name -/

namespace NameTable

variable {α : Type}

def without (t : NameTable α) (x : String) : NameTable α := t.filter (·.1 ≠ x)

variable {t : NameTable α} {name x : String}

theorem without_cons (n : String) (v : α) (rest : NameTable α) (x : String) :
    without ((n, v) :: rest) x = if n = x then rest.without x else (n, v) :: rest.without x := by
  unfold without
  by_cases hn : n = x <;> simp [hn]

theorem put_cons (n : String) (w : α) (rest : NameTable α) (name : String) (v : α) :
    put ((n, w) :: rest) name v = if n = name then (n, v) :: rest else (n, w) :: rest.put name v :=
  rfl

theorem without_put (hname : name ≠ x) (v : α) :
    (t.put name v).without x = (t.without x).put name v := by
  induction t with
  | nil => simp [put, without, hname]
  | cons entry rest ih =>
    obtain ⟨n, w⟩ := entry
    rw [put_cons, without_cons]
    by_cases hn : n = name
    · have hx : n ≠ x := hn ▸ hname
      rw [if_pos hn, without_cons, if_neg hx, if_neg hx, put_cons, if_pos hn]
    · rw [if_neg hn, without_cons, ih]
      by_cases hx : n = x
      · rw [if_pos hx, if_pos hx]
      · rw [if_neg hx, if_neg hx, put_cons, if_neg hn]

theorem get?_without (hname : name ≠ x) : (t.without x).get? name = t.get? name := by
  induction t with
  | nil => rfl
  | cons entry rest ih =>
    obtain ⟨n, v⟩ := entry
    rw [without_cons, get?_cons]
    by_cases hn : n = x
    · rw [if_pos hn, ih, if_neg (hn ▸ hname)]
    · rw [if_neg hn, get?_cons, ih]

theorem get?_put_of_ne (hname : name ≠ x) (v : α) : (t.put name v).get? x = t.get? x :=
  (get?_put t name x v).trans (if_neg fun h => hname h.symm)

end NameTable

theorem mem_filter_ne {names : List String} {name x : String} (hname : name ≠ x) :
    name ∈ names.filter (· ≠ x) ↔ name ∈ names := by simp [hname]

/-! ## States that differ at a name -/

namespace State

/-- The states are equal except for the entries of a name in the variables, types and constants. -/
structure Apart (x : String) (s t : State) : Prop extends Shares s t where
  vars : t.vars.without x = s.vars.without x
  types : t.types.without x = s.types.without x
  constants : t.constants.filter (· ≠ x) = s.constants.filter (· ≠ x)

/-- The entries of a name are the same in both states. -/
structure KeepsAt (x : String) (s t : State) : Prop where
  vars : t.vars.get? x = s.vars.get? x
  types : t.types.get? x = s.types.get? x
  constants : x ∈ t.constants ↔ x ∈ s.constants

theorem KeepsAt.refl (x : String) (s : State) : s.KeepsAt x s := ⟨rfl, rfl, .rfl⟩

variable {x name : String} {s t u : State}

theorem withConstant_filter (hname : name ≠ x) (s : State) :
    (s.withConstant name).constants.filter (· ≠ x) =
      if name ∈ s.constants.filter (· ≠ x) then s.constants.filter (· ≠ x)
      else s.constants.filter (· ≠ x) ++ [name] := by
  unfold withConstant
  by_cases hmem : name ∈ s.constants
  · have hcontains : s.constants.contains name = true := by simpa using hmem
    simp only [if_pos hcontains, if_pos ((mem_filter_ne hname).mpr hmem)]
  · have hcontains : ¬s.constants.contains name = true := by simpa using hmem
    simp only [if_neg hcontains, if_neg (fun h => hmem ((mem_filter_ne hname).mp h))]
    simp [hname]

namespace Apart

theorem withVariable (h : s.Apart x t) (hname : name ≠ x) (v : Value) :
    (s.withVariable name v).Apart x (t.withVariable name v) := by
  refine { h with vars := ?_ }
  simp only [State.withVariable, NameTable.without_put hname, h.vars]

theorem withType (h : s.Apart x t) (hname : name ≠ x) (type : TokenKind) :
    (s.withType name type).Apart x (t.withType name type) := by
  refine { h with types := ?_ }
  simp only [State.withType, NameTable.without_put hname, h.types]

theorem withConstant (h : s.Apart x t) (hname : name ≠ x) :
    (s.withConstant name).Apart x (t.withConstant name) := by
  refine { h with constants := ?_ }
  rw [withConstant_filter hname, withConstant_filter hname, h.constants]

theorem contains_eq (h : s.Apart x t) (hname : name ≠ x) :
    t.constants.contains name = s.constants.contains name := by
  have hmem : name ∈ t.constants ↔ name ∈ s.constants := by
    rw [← mem_filter_ne hname, h.constants, mem_filter_ne hname]
  rw [Bool.eq_iff_iff, List.contains_iff_mem, List.contains_iff_mem]
  exact hmem

end Apart

namespace KeepsAt

theorem withVariable (h : s.KeepsAt x t) (hname : name ≠ x) (v : Value) :
    s.KeepsAt x (t.withVariable name v) :=
  { h with vars := (NameTable.get?_put_of_ne hname v).trans h.vars }

theorem withType (h : s.KeepsAt x t) (hname : name ≠ x) (type : TokenKind) :
    s.KeepsAt x (t.withType name type) :=
  { h with types := (NameTable.get?_put_of_ne hname _).trans h.types }

theorem withConstant (h : s.KeepsAt x t) (hname : name ≠ x) :
    s.KeepsAt x (t.withConstant name) := by
  refine { h with constants := ?_ }
  rw [mem_withConstant, ← h.constants]
  exact ⟨fun hx => hx.resolve_left fun heq => hname heq.symm, .inr⟩

theorem of_alike (h : s.KeepsAt x t) (halike : t.Alike u) : s.KeepsAt x u :=
  ⟨by rw [halike.vars, h.vars], by rw [halike.types, h.types],
    by rw [halike.constants, h.constants]⟩

end KeepsAt

/-! ## The code that a run may come to -/

/-- Running some statements from the state may look at `m`. -/
inductive Reaches (s : State) (nodes : List Node) : Node → Prop
  | root {m : Node} : m ∈ nodes → Reaches s nodes m
  | function {name : String} {f : UserFunction} {m : Node} :
    s.functions.get? name = some f → m ∈ f.body → Reaches s nodes m
  | child {m k : Node} : Reaches s nodes m → k ∈ m.children → Reaches s nodes k
  | file {m q k : Node} {path source : String} :
    Reaches s nodes m → m.kind = .importFile → m.value = .str path →
      s.folder.read path = .ok source →
    readProgram source = .ok q → k ∈ q.children → Reaches s nodes k

end State

/-! ## Running side by side -/

namespace Lockstep

variable (x : String) (s₀ t₀ : State) (nodes : List Node)

/-- A function whose code may be reached and whose parameters are other names. -/
def Uses (f : UserFunction) : Prop := x ∉ f.params ∧ ∀ m ∈ f.body, s₀.Reaches nodes m

/-- What holds between two runs that start in `s₀` and `t₀`, which are equal except at a name. -/
structure ApartAt (s t : State) : Prop extends State.Apart x s t where
  left : s₀.KeepsAt x s
  right : t₀.KeepsAt x t
  folder₀ : s.folder = s₀.folder
  uses {name : String} {f : UserFunction} : s.functions.get? name = some f → Uses x s₀ nodes f

/-- Two runs that do not look at a name. -/
def apart : Lockstep where
  rel := ApartAt x s₀ t₀ nodes
  tires := True
  seen name := name ≠ x
  callable := Uses x s₀ nodes
  abreast h := h.toShares.abreast
  files _ h := by rw [h.folder]
  quiet {s s' t t'} h hs ht habreast :=
    { habreast with
      folder := by rw [hs.folder, ht.folder, h.folder]
      vars := by rw [hs.vars, ht.vars, h.vars]
      types := by rw [hs.types, ht.types, h.types]
      constants := by rw [hs.constants, ht.constants, h.constants]
      left := h.left.of_alike hs
      right := h.right.of_alike ht
      folder₀ := hs.folder.trans h.folder₀
      uses := fun hf => h.uses (hs.functions ▸ hf) }
  function h hf := h.uses hf
  define name h hf :=
    { h with
      functions := by rw [h.functions]
      left := ⟨h.left.vars, h.left.types, h.left.constants⟩
      right := ⟨h.right.vars, h.right.types, h.right.constants⟩
      uses := fun hg => (NameTable.get?_put_cases hg).elim (fun heq => heq ▸ hf) h.uses }
  lookup h hname := by rw [← NameTable.get?_without hname, h.vars, NameTable.get?_without hname]
  noted h hname := by rw [← NameTable.get?_without hname, h.types, NameTable.get?_without hname]
  constant h hname := h.toApart.contains_eq hname
  setVariable v h hname :=
    { h with
      toApart := h.toApart.withVariable hname v
      left := h.left.withVariable hname v
      right := h.right.withVariable hname v }
  setType type h hname :=
    { h with
      toApart := h.toApart.withType hname type
      left := h.left.withType hname type
      right := h.right.withType hname type }
  setConstant h hname :=
    { h with
      toApart := h.toApart.withConstant hname
      left := h.left.withConstant hname
      right := h.right.withConstant hname }
  restore h h' :=
    { h' with
      vars := h.vars
      left := { h'.left with vars := h.left.vars }
      right := { h'.right with vars := h.right.vars } }

variable {x s₀ nodes}

theorem apart_admits (t₀ : State) (hx : ∀ m, s₀.Reaches nodes m → ¬m.Mentions x) {n : Node}
    (hn : s₀.Reaches nodes n) :
    (apart x s₀ t₀ nodes).Admits (s₀.Reaches nodes) n where
  child hm := hn.child hm
  seen {name} hname := by
    rintro rfl
    exact hx n hn hname
  callable {params} hkind hparams := by
    refine ⟨fun hmem => ?_, fun m hm => hn.child (List.mem_filter.mp hm).1⟩
    cases hparams x hmem with
    | parameter _ hp hidentifier hnamed =>
      exact hx _ (hn.child hp) (.named (.inl hidentifier) hnamed)
  imports _ := trivial
  file hst hkind hpath hread hprogram m hm := hn.file hkind hpath (hst.folder₀ ▸ hread) hprogram hm

theorem apart_runs (t₀ : State) (hx : ∀ m, s₀.Reaches nodes m → ¬m.Mentions x)
    (rounds depth : Nat) :
    (apart x s₀ t₀ nodes).Runs (s₀.Reaches nodes) fun _ => .upTo rounds depth := by
  refine runs_upTo trivial (apart_admits t₀ hx) (fun hf hm => hf.2 _ hm)
    (fun {f p} hf hp => ?_) rounds depth
  rintro rfl
  exact hf.1 hp

end Lockstep

/-- If no code that the program may come to mentions a name, then from states that are equal except
at the name the program ends in the same way, and leaves states that are equal except at the name;
the entries of the name are not touched. -/
theorem program_apart (l : Limits) (n : Node) (x : String) (s t : State) (hst : s.Apart x t)
    (hparams : ∀ name f, s.functions.get? name = some f → x ∉ f.params)
    (hx : ∀ m, s.Reaches n.children m → ¬m.Mentions x) :
    ∃ s' t', s'.Apart x t' ∧ s.KeepsAt x s' ∧ t.KeepsAt x t' ∧
      (l.evaluator.program n s = .ok () s' ∧ l.evaluator.program n t = .ok () t' ∨
        ∃ e, l.evaluator.program n s = .error e s' ∧ l.evaluator.program n t = .error e t') := by
  have hrel : Lockstep.ApartAt x s t n.children s t :=
    { hst with
      left := .refl x s
      right := .refl x t
      folder₀ := rfl
      uses := fun hf => ⟨hparams _ _ hf, fun _ => .function hf⟩ }
  have hprogram := (Lockstep.apart_runs t hx l.rounds l.depth).program fun _ => .root
  have hmatched := Lockstep.follows_const.mp hprogram s t hrel
  change Lockstep.Matched _ (l.evaluator.program n s) (l.evaluator.program n t) at hmatched
  generalize l.evaluator.program n s = p, l.evaluator.program n t = q at hmatched
  cases hmatched with
  | ok h => exact ⟨_, _, h.toApart, h.left, h.right, .inl ⟨rfl, rfl⟩⟩
  | error h _ => exact ⟨_, _, h.toApart, h.left, h.right, .inr ⟨_, rfl, rfl⟩⟩

theorem Value.names_str {name other : String} : (Value.str name).Names other ↔ other = name := by
  constructor
  · rintro ⟨s, t, h⟩
    cases h
    rfl
  · rintro rfl
    exact ⟨{}, {}, rfl⟩

/-- A call of a function of the state, where the name is a variable in one state and a typed
constant in the other. -/
theorem program_apart_of_call :
    let y : Node := { kind := .identifier, value := .str "y" }
    let p : Node := { kind := .identifier, value := .str "p" }
    let setting : Node := { kind := .assignment, children := [y, p] }
    let two : Node := { kind := .literal, value := .int 2 }
    let call : Node := { kind := .call, value := .str "f", children := [two] }
    let n : Node := { kind := .program, children := [call] }
    let s : State :=
      { vars := [("x", .int 1), ("y", .int 0)], functions := [("f", ⟨["p"], [setting]⟩)] }
    let t : State :=
      { vars := [("y", .int 0)], types := [("x", .checked .abn)], constants := ["x"],
        functions := [("f", ⟨["p"], [setting]⟩)] }
    ∃ s' t', s'.Apart "x" t' ∧ s.KeepsAt "x" s' ∧ t.KeepsAt "x" t' ∧
      ((Limits.mk 9 9).evaluator.program n s = .ok () s' ∧
        (Limits.mk 9 9).evaluator.program n t = .ok () t' ∨
        ∃ e, (Limits.mk 9 9).evaluator.program n s = .error e s' ∧
          (Limits.mk 9 9).evaluator.program n t = .error e t') := by
  intro y p setting two call n s t
  have hfunction {name : String} {f : UserFunction} (hf : s.functions.get? name = some f) :
      f = ⟨["p"], [setting]⟩ := by
    simp only [s, NameTable.get?_cons] at hf
    split at hf
    · simpa using hf.symm
    · cases hf
  have hreached : ∀ m, s.Reaches n.children m → m ∈ [call, two, setting, y, p] := by
    intro m hm
    induction hm with
    | root hm => exact List.mem_append_left [two, setting, y, p] hm
    | function hf hm =>
      rw [hfunction hf, List.mem_singleton] at hm
      simp [hm]
    | child _ hk ih =>
      simp only [List.mem_cons, List.not_mem_nil, or_false] at ih
      rcases ih with rfl | rfl | rfl | rfl | rfl
      · simp [List.mem_singleton.mp hk]
      · cases hk
      · rcases List.mem_cons.mp hk with rfl | hk
        · simp
        · simp [List.mem_singleton.mp hk]
      · cases hk
      · cases hk
    | file _ hkind _ _ _ _ ih =>
      simp only [List.mem_cons, List.not_mem_nil, or_false] at ih
      rcases ih with rfl | rfl | rfl | rfl | rfl <;> cases hkind
  refine program_apart ⟨9, 9⟩ n "x" s t ⟨⟨rfl, rfl, rfl, rfl, rfl, rfl, rfl⟩, rfl, rfl, rfl⟩ ?_ ?_
  · intro name f hf
    rw [hfunction hf]
    simp
  · intro m hm hmentions
    have hcut : Text.cut ['.'] "f".toList = none := by decide
    have hm := hreached m hm
    simp only [List.mem_cons, List.not_mem_nil, or_false] at hm
    cases hmentions with
    | named hkind hname =>
      rcases hm with rfl | rfl | rfl | rfl | rfl
      · simp [call] at hkind
      · simp [two] at hkind
      · simp [setting] at hkind
      · exact absurd (Value.names_str.mp hname) (by decide)
      · exact absurd (Value.names_str.mp hname) (by decide)
    | dotted hkind hvalue hdotted =>
      rcases hm with rfl | rfl | rfl | rfl | rfl <;> cases hkind
      cases hvalue
      rw [hcut] at hdotted
      cases hdotted

/-- A program that imports nothing and does not mention `x` calls a function of the state that does
not mention `x` either, but imports a file that declares it. -/
theorem imported_by_function :
    let importing : Node := { kind := .importFile, value := .str "m.sop" }
    let n : Node := { kind := .program, children := [{ kind := .call, value := .str "f" }] }
    let s : State :=
      { functions := [("f", ⟨[], [importing]⟩)], folder := ⟨[("m.sop", "abn x = 5\n")]⟩ }
    ∃ t, (Limits.mk 9 9).evaluator.program n s = .ok () t ∧ ¬s.KeepsAt "x" t := by
  intro importing n s
  let five : Node := { kind := .literal, value := .int 5 }
  let declaring : Node :=
    { kind := .declaration, value := .str "x", children := [five], declared := some .abn,
      line := some 1, column := some 1 }
  have htokens : (tokenize "abn x = 5\n").toOption = some
      [.at .abn (.str "abn") ⟨1, 1⟩, .at .identifier (.str "x") ⟨1, 5⟩,
        .at .equal (.str "=") ⟨1, 7⟩, .at .number (.int 5) ⟨1, 9⟩, .at .eof .null ⟨2, 1⟩] := by
    decide +kernel
  have hprogram : readProgram "abn x = 5\n" =
      .ok { kind := .program, children := [declaring] } := (readProgram_of_tokens htokens).trans rfl
  let t : State := { s with types := [("x", .checked .abn)], vars := [("x", .int 5)] }
  have hfile : (Evaluator.upTo 9 7).runFile "m.sop" s = .ok () t := by
    rw [Evaluator.runFile_eq]
    change (Evaluator.upTo 9 7).runRead (readProgram "abn x = 5\n") s = _
    rw [hprogram]
    rfl
  have himport : (Evaluator.upTo 9 7).importFile importing s = .ok () t :=
    (bind_ok (text_str "m.sop" s)).trans (tryCatch_ok hfile)
  have hbody : (Evaluator.upTo 9 8).functionBody ⟨[], [importing]⟩ s = .ok .null t :=
    tryCatch_ok (bind_ok himport)
  have hcall : (Evaluator.upTo 9 9).execute { kind := .call, value := .str "f" } s =
      .ok .null { t with vars := [] } := bind_ok hbody
  refine ⟨{ t with vars := [] }, ?_, fun h => ?_⟩
  · exact bind_ok (tryCatch_ok (bind_ok hcall))
  · cases h.types

end Luuqad

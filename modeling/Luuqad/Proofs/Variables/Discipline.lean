import Luuqad.Proofs.Control.Scoped
import Luuqad.Proofs.Run.Observed

/-!
# Disciplined runs

What a run may do to names depends on the code that it may come to: the statements that are run, the
bodies of the functions of the state, and the files that are imported by these. `State.MayBind` says
which names that code binds, and how. If a discipline allows all of this, its invariant holds at
every moment of a sequence of statements (`Discipline.always_sequence`) and of a program
(`Discipline.always_program`).
-/

namespace Luuqad

open Run

/-! ## The code that a run may come to -/

namespace State

/-- Running some statements from the state may come to run `m`. -/
inductive MayRun (s : State) (nodes : List Node) : Node → Prop
  | root {m : Node} : m ∈ nodes → MayRun s nodes m
  | function {name : String} {f : UserFunction} {m : Node} :
    s.functions.get? name = some f → m ∈ f.body → MayRun s nodes m
  | body {m k : Node} : MayRun s nodes m → m.hasParts = false → k ∈ m.body → MayRun s nodes k
  | part {m p k : Node} :
    MayRun s nodes m → m.hasParts = true → p ∈ m.children → k ∈ p.children → MayRun s nodes k
  | file {m q k : Node} {path source : String} :
    MayRun s nodes m → m.kind = .importFile → m.value = .str path →
      s.folder.read path = .ok source →
    readProgram source = .ok q → k ∈ q.children → MayRun s nodes k

/-- Running some statements from the state may bind a name in some manner. -/
inductive MayBind (s : State) (nodes : List Node) : String → Manner → Prop
  | node {m : Node} {name : String} {manner : Manner} :
    s.MayRun nodes m → m.Binds name manner → MayBind s nodes name manner
  | parameter {name p : String} {f : UserFunction} :
    s.functions.get? name = some f → p ∈ f.params → MayBind s nodes p .passed

/-- The code in the state `t` is code that running the statements from `s` may come to. -/
structure Supplied (s : State) (nodes : List Node) (t : State) : Prop where
  folder : t.folder = s.folder
  body {name : String} {f : UserFunction} {m : Node} :
    t.functions.get? name = some f → m ∈ f.body → s.MayRun nodes m
  params {name p : String} {f : UserFunction} :
    t.functions.get? name = some f → p ∈ f.params → s.MayBind nodes p .passed

namespace Supplied

variable {s t u : State} {nodes : List Node} {m : Node}

theorem refl (s : State) (nodes : List Node) : s.Supplied nodes s := ⟨rfl, .function, .parameter⟩

theorem congr (h : s.Supplied nodes t) (hfolder : u.folder = t.folder)
    (hfunctions : u.functions = t.functions) : s.Supplied nodes u :=
  ⟨hfolder.trans h.folder, fun hf => h.body (hfunctions ▸ hf), fun hf => h.params (hfunctions ▸ hf)⟩

theorem define (h : s.Supplied nodes t) (hm : s.MayRun nodes m) (hkind : m.kind = .function)
    (name : String) {params : List String} (hparams : ∀ p ∈ params, m.Binds p .passed) :
    s.Supplied nodes { t with
      functions := t.functions.put name ⟨params, m.children.filter (·.kind ≠ .identifier)⟩ } := by
  have hparts : m.hasParts = false := by simp [Node.hasParts, hkind]
  have hbody : m.body = m.children := by simp [Node.body, Node.heading, hkind]
  refine ⟨h.folder, fun hf hk => ?_, fun hf hp => ?_⟩
  · rcases NameTable.get?_put_cases hf with rfl | hold
    · exact hm.body hparts (hbody ▸ (List.mem_filter.mp hk).1)
    · exact h.body hold hk
  · rcases NameTable.get?_put_cases hf with rfl | hold
    · exact .node hm (hparams _ hp)
    · exact h.params hold hp

end Supplied

end State

/-! ## Disciplined runs -/

namespace Discipline

variable (D : Discipline) (s : State) (nodes : List Node)

/-- The regime of a discipline that allows what running some statements from `s` may bind. -/
def regime (hmay : ∀ name manner, s.MayBind nodes name manner → D.may name manner) : Regime where
  inv t := D.inv t ∧ s.Supplied nodes t
  allows _ _ := True
  good _ := s.MayRun nodes
  may := D.may
  quiet halike ht :=
    ⟨D.same halike.vars halike.types halike.constants ht.1,
      ht.2.congr halike.folder halike.functions⟩
  change ht hchange := ⟨D.change ht.1 hchange, ht.2.congr hchange.folder hchange.functions⟩
  restore ht hu hgrows := ⟨D.restore ht.1 hu.1 hgrows, hu.2.congr rfl rfl⟩
  define {t _ _} name _ ht hm hkind hparams :=
    ⟨D.same (s := t) rfl rfl rfl ht.1, ht.2.define hm hkind name hparams⟩
  function ht hf _ hm := ht.2.body hf hm
  params ht hf _ hp := hmay _ _ (ht.2.params hf hp)
  binds hm hbinds := hmay _ _ (.node hm hbinds)
  file ht hm hkind hpath hread hprogram _ hk :=
    hm.file hkind hpath (ht.2.folder ▸ hread) hprogram hk
  body hm hparts hk := hm.body hparts hk
  parts hm hparts hp hk := hm.part hparts hp hk
  fault _ := trivial
  stopped := trivial
  exhausted := trivial
  breaking _ _ := trivial
  continuing _ _ := trivial
  returning _ _ := trivial
  ofRound _ _ _ := trivial
  ofCall _ _ := trivial
  ofTop _ := trivial

variable {D s nodes} {p : State → Prop}

theorem always_sequence (l : Limits)
    (hmay : ∀ name manner, s.MayBind nodes name manner → D.may name manner) (hs : D.inv s)
    (hp : ∀ t, D.inv t → p t) : l.Always (·.sequence nodes) s p := by
  intro _ alarm
  have hruns := (D.regime s nodes hmay).runs_observed (fun t ht => hp t ht.1) alarm l.rounds l.depth
  exact (hruns.conduct.sequence (c := .top) (fun _ hm => .root hm) s ⟨hs, .refl s nodes⟩).1

/-- The invariant of a discipline holds at every moment of a program that binds names as it says. -/
theorem always_program (l : Limits) {n : Node}
    (hmay : ∀ name manner, s.MayBind n.children name manner → D.may name manner) (hs : D.inv s)
    (hp : ∀ t, D.inv t → p t) : l.Always (·.program n) s p := by
  intro _ alarm
  have hruns :=
    (D.regime s n.children hmay).runs_observed (fun t ht => hp t ht.1) alarm l.rounds l.depth
  exact (hruns.safe_program (fun _ hm => .root hm) s ⟨hs, .refl s n.children⟩).1

end Discipline

/-! ## A check of what is bound -/

/-- Whether a value is the text of a name that passes a check. -/
def Value.isName (check : String → Bool) : Value → Bool
  | .str name => check name
  | _ => false

theorem Value.check_of_names {check : String → Bool} {v : Value} {name : String}
    (h : v.isName check = true) (hname : v.Names name) : check name = true := by
  unfold Value.isName at h
  split at h
  · obtain ⟨s, t, hname⟩ := hname
    cases hname
    exact h
  · cases h

/-- Whether a node binds names as allowed, where names are given by texts and no file is
imported. -/
def Node.bindsOnly (allowed : String → Manner → Bool) (n : Node) : Bool :=
  match n.kind with
  | .declaration => n.value.isName (allowed · (.declared n.declared n.constant))
  | .loop => n.value.isName (allowed · .counted)
  | .tryCatch => n.value.isName (allowed · .caught)
  | .function => n.children.all fun p => p.kind ≠ .identifier || p.value.isName (allowed · .passed)
  | .importFile => false
  | _ => true

theorem Node.allowed_of_binds {allowed : String → Manner → Bool} {n : Node} {name : String}
    {manner : Manner} (h : n.bindsOnly allowed = true) (hbinds : n.Binds name manner) :
    allowed name manner = true := by
  unfold Node.bindsOnly at h
  cases hbinds with
  | declaration hkind hname | loop hkind hname | handler hkind hname =>
    rw [hkind] at h
    exact Value.check_of_names h hname
  | parameter hkind hp hidentifier hname =>
    rw [hkind] at h
    have hall := List.all_eq_true.mp h _ hp
    rw [Bool.or_eq_true, decide_eq_true_eq] at hall
    exact Value.check_of_names (hall.resolve_left (· hidentifier)) hname

/-- What is allowed at each node is all that may be bound. -/
theorem State.allowed_of_mayBind (allowed : String → Manner → Bool) {s : State} {nodes : List Node}
    {name : String} {manner : Manner} (hs : s.functions = [])
    (hnodes : Node.everywhereAfter (fun m _ => m.bindsOnly allowed) .top 0 nodes = true)
    (h : s.MayBind nodes name manner) : allowed name manner = true := by
  have hrun {m : Node} (hm : s.MayRun nodes m) :
      ∃ c, m.everywhere (fun m _ => m.bindsOnly allowed) c = true := by
    induction hm with
    | root hm => exact ⟨.top, Node.everywhere_of_after hnodes hm⟩
    | function hf _ =>
      rw [hs] at hf
      cases hf
    | body _ hparts hk ih =>
      obtain ⟨c, hc⟩ := ih
      exact ⟨_, Node.everywhere_body hc hparts hk⟩
    | part _ hparts hp hk ih =>
      obtain ⟨c, hc⟩ := ih
      exact ⟨c, Node.everywhere_part hc hparts hp hk⟩
    | file _ hkind _ _ _ _ ih =>
      obtain ⟨c, hc⟩ := ih
      have hbinds := Node.check_of_everywhere hc
      simp [Node.bindsOnly, hkind] at hbinds
  cases h with
  | node hm hbinds =>
    obtain ⟨c, hc⟩ := hrun hm
    exact Node.allowed_of_binds (Node.check_of_everywhere hc) hbinds
  | parameter hf _ =>
    rw [hs] at hf
    cases hf

end Luuqad

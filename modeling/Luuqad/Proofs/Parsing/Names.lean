import Luuqad.Proofs.Lexing.Tiling
import Luuqad.Proofs.Parsing.Shapes
import Luuqad.Proofs.Parsing.Steps

/-!
# Names of tokens and names in trees

The value of a name token is a text, and the parser puts it into the tree as it is. This is followed
through a row of parts: the cursor keeps to the tokens it starts with, so each part is read where
the name tokens still have texts (`many_of_named`). A statement is a bare name only if it is its
first token (`statement_bare`).
-/

namespace Luuqad

/-- The values of the name tokens at the cursor and after it are texts. -/
def Cursor.Named (c : Cursor) : Prop :=
  Parser.AllAt (fun t => t.kind = .identifier → ∃ x, t.value = .str x) c

theorem Lexer.Spells.text_of_identifier {kind : TokenKind} {value : Value} {text : List Char}
    (h : Spells kind value text) (hkind : kind = .identifier) : ∃ x, value = .str x := by
  cases h with
  | number => cases hkind
  | _ => exact ⟨_, rfl⟩

/-- The scanner gives texts to name tokens. -/
theorem Lexer.named_of_tokenize {source : String} {tokens : List Token}
    (h : tokenize source = .ok tokens) {c : Cursor} (hc : c.current :: c.ahead <:+ tokens) :
    c.Named := by
  have hscan : scan true (.behind []) source.toList = .ok tokens := h
  obtain ⟨spans, -, marked, -, hmarked, htokens⟩ := scan_tiles hscan
  have hspelled : ∀ t ∈ marked, t.kind = .identifier → ∃ x, t.value = .str x := by
    clear htokens
    induction hmarked with
    | nil => simp
    | cons hstands _ ih =>
      refine List.forall_mem_cons.mpr ⟨fun hkind => ?_, ih⟩
      exact hstands.1.text_of_identifier hkind
  intro t ht hkind
  rcases htokens with rfl | rfl
  · exact hspelled t (hc.mem ht) hkind
  · rcases List.mem_append.mp (hc.mem ht) with hmem | hmem
    · exact hspelled t hmem hkind
    · obtain rfl : t = .at .eof .null _ := by simpa using hmem
      cases hkind

namespace Parser

variable {α : Type}

theorem Located.named {p : Parser α} (hp : Located p) {c c' : Cursor} {a : α} (hc : c.Named)
    (hrun : p c = .ok a c') : c'.Named := by
  have hend := hp.stepwise.allAt hc
  rwa [hrun] at hend

theorem many_of_named {item : Parser α} {stop : TokenKind} {P : α → Prop} (hitem : Located item)
    (h : ∀ c a c', c.Named → item c = .ok a c' → P a) {c c' : Cursor} {items : List α}
    (hc : c.Named) (hrun : many stop item c = .ok items c') : ∀ a ∈ items, P a := by
  have hitems (fuel : Nat) {c : Cursor} {items : List α} (hc : c.Named)
      (hrun : itemsUntil stop item fuel c = .ok items c') : ∀ a ∈ items, P a := by
    induction fuel generalizing c items with
    | zero => cases hrun
    | succ fuel ih =>
      obtain ⟨_, _, hkind, hrun⟩ := bind_eq_ok hrun
      cases hkind
      split at hrun
      · cases hrun
        simp
      · obtain ⟨a, c₁, hfirst, hrun⟩ := bind_eq_ok hrun
        obtain ⟨more, c₂, hmore, hrun⟩ := bind_eq_ok hrun
        cases hrun
        exact List.forall_mem_cons.mpr ⟨h c a c₁ hc hfirst, ih (hitem.named hc hfirst) hmore⟩
  exact hitems _ hc hrun

theorem name_of_named {c c' : Cursor} {v : Value} (hc : c.Named) (hrun : name c = .ok v c') :
    ∃ x, v = .str x := by
  obtain ⟨t, c₁, hexpect, hrun⟩ := bind_eq_ok hrun
  cases hrun
  obtain ⟨_, _, hcurrent, hexpect⟩ := bind_eq_ok hexpect
  cases hcurrent
  split at hexpect
  · cases hexpect
    exact hc _ (by simp) ‹_›
  · cases hexpect

/-! ## Bare names -/

/-- The parser yields no bare names. -/
abbrev NeverBare (p : Parser Node) : Prop := Yields p fun n => n.kind ≠ .identifier

namespace NeverBare

variable {inner : Nested}

theorem braced {f : List Node → Node} (hf : ∀ body, (f body).kind ≠ .identifier) :
    NeverBare (Parser.braced inner >>= fun body => pure (f body)) :=
  .after fun body => .pure (hf body)

theorem access (notName : Parser Unit) (target : Node) :
    NeverBare (Parser.access notName inner target) := by
  have hmember (v : Value) :
      NeverBare (advance >>= fun _ => kind >>= fun k => if k = .leftParen then
      advance >>= fun _ => inner.expression.arguments >>= fun args =>
        (pure { kind := .methodCall, value := v, children := target :: args } : Parser Node)
      else pure { kind := .property, value := v, children := [target] }) :=
    .after fun _ => .after fun _ => .ite (.after fun _ => .after fun _ => .pure nofun) (.pure nofun)
  refine .after fun _ => .ite (.after fun _ => .after fun t => ?_) ?_
  · exact .ite (.after fun _ => hmember t.value) (hmember t.value)
  · exact .after fun _ => .after fun _ => .after fun _ => .pure nofun

theorem binding (declared : Option TokenKind) (constant : Bool) (start : Token) :
    NeverBare (Parser.binding inner declared constant start) := by
  refine .after fun _ => .ite (.after fun _ => ?_) ?_
  all_goals exact .after fun _ => .after fun _ => .after fun _ => .pure nofun

theorem declaration (typed constant : Bool) : NeverBare (Parser.declaration inner typed constant) :=
  .after fun _ => .ite (.after fun _ => binding _ _ _) (binding _ _ _)

theorem constant : NeverBare (Parser.constant inner) :=
  .after fun _ => .after fun _ => .after fun _ => .ite (.after fun _ => binding _ _ _)
    (binding _ _ _)

theorem function : NeverBare (Parser.function inner) :=
  .after fun _ => .after fun _ => .after fun _ => .after fun _ => .after fun _ => braced nofun

theorem call : NeverBare (Parser.call inner) := by
  have hcall (v : Value) :
      NeverBare (callOf v inner >>= fun n => skip .semicolon >>= fun _ => pure n) :=
    .bind (.after fun _ => .after fun _ => .after fun _ => .pure nofun) fun n hn => .after
      fun _ => .pure hn
  refine .after fun t => .ite (.after fun _ => ?_) ?_
  all_goals exact .after fun _ => hcall _

theorem importFile : NeverBare Parser.importFile := by
  refine .after fun _ => .after fun _ => .ite (.after fun _ => ?_) ?_
  all_goals exact .after fun _ => .pure nofun

theorem conditional : NeverBare (Parser.conditional inner) := by
  refine .after fun _ => .after fun _ => .after fun _ => .after fun _ => .after fun _ => .after
    fun _ => .ite ?_ ?_
  · exact .after fun _ => .after fun _ => .after fun _ => .pure nofun
  · exact .after fun _ => .pure nofun

theorem loop : NeverBare (Parser.loop inner) :=
  .after fun _ => .after fun _ => .after fun _ => .after fun _ => .after fun _ => .after fun _ =>
    .after fun _ => .after fun _ => braced nofun

theorem whileLoop : NeverBare (Parser.whileLoop inner) :=
  .after fun _ => .after fun _ => braced nofun

theorem breakLoop : NeverBare Parser.breakLoop := .after fun _ => .pure nofun

theorem continueLoop : NeverBare Parser.continueLoop := .after fun _ => .pure nofun

theorem tryCatch : NeverBare (Parser.tryCatch inner) :=
  .after fun _ => .after fun _ => .after fun _ => .after fun _ => .after fun _ => .after fun _ =>
    braced nofun

theorem classDefinition : NeverBare (Parser.classDefinition inner) := by
  refine .after fun _ => .after fun _ => .after fun _ =>
    .ite (.after fun _ => .after fun _ => ?_) ?_
  all_goals exact .after fun _ => braced nofun

theorem returnValue : NeverBare (Parser.returnValue inner) :=
  .after fun _ => .after fun _ => .ite (.pure nofun) (.after fun _ => .pure nofun)

theorem switch : NeverBare (Parser.switch inner) :=
  .after fun _ => .after fun _ => .after fun _ => .after fun _ => .after fun _ => .pure nofun

end NeverBare

variable {inner : Nested} {c c' : Cursor} {n : Node}

/-- Of the statements that start with a name, that name alone is a bare name. -/
theorem named_bare (h : named inner c = .ok n c') (hn : n.kind = .identifier) :
    n.value = c.current.value := by
  obtain ⟨start, _, hstart, h⟩ := bind_eq_ok h
  cases hstart
  obtain ⟨_, c₁, -, h⟩ := bind_eq_ok h
  obtain ⟨k, c₂, -, h⟩ := bind_eq_ok h
  revert hn
  generalize c.current = t at h
  have hother {p : Parser Node} (hp : NeverBare p) {c : Cursor} (hrun : p c = .ok n c') :
      n.kind = .identifier → n.value = t.value := fun hn => absurd hn (hp c n c' hrun)
  have hassigned (target : Node) : NeverBare (advance >>= fun _ => inner.expression >>= fun v =>
      (pure { kind := .assignment, children := [target, v], line := t.line, column := t.column } :
        Parser Node)) :=
    .after fun _ => .after fun _ => .pure nofun
  have haccesses (notName : Parser Unit) (fuel : Nat) {target : Node}
      (htarget : target.kind = .identifier → target.value = t.value) :
      Yields (accesses notName inner target fuel) fun m => m.kind = .identifier →
        m.value = t.value := by
    induction fuel generalizing target with
    | zero => exact .throw _
    | succ fuel ih =>
      exact .after fun _ =>
        .ite (.bind (NeverBare.access notName target) fun _ hm => ih fun h => absurd h hm)
        (.pure htarget)
  have haccessed (notName : Parser Unit) : Yields (get >>= fun c =>
      accesses notName inner { kind := .identifier, value := t.value } c.bound >>= fun target =>
      kind >>= fun k => if k = .equal then advance >>= fun _ => inner.expression >>= fun v =>
        (pure { kind := .assignment, children := [target, v], line := t.line, column := t.column } :
          Parser Node)
      else pure target) fun m => m.kind = .identifier → m.value = t.value :=
    .after fun _ => .bind (haccesses _ _ fun _ => rfl) fun target htarget => .after fun _ =>
      .ite ((hassigned target).mono fun m hm h => absurd h hm) (.pure htarget)
  split at h
  · exact haccessed _ _ _ _ h
  · exact haccessed _ _ _ _ h
  · have hcall : NeverBare (advance >>= fun _ => inner.expression.arguments >>= fun args =>
        (pure { kind := .call, value := t.value, children := args } : Parser Node)) :=
      .after fun _ => .after fun _ => .pure nofun
    exact hother hcall h
  · exact hother (hassigned _) h
  · cases h
    exact fun _ => rfl

theorem statement_bare (h : statement inner c = .ok n c') (hn : n.kind = .identifier) :
    c.current.kind = .identifier ∧ n.value = c.current.value := by
  obtain ⟨t, _, hcurrent, h⟩ := bind_eq_ok h
  cases hcurrent
  have hother {p : Parser Node} (hp : NeverBare p) (hrun : p c = .ok n c') {q : Prop} : q :=
    absurd hn (hp c n c' hrun)
  generalize hk : c.current.kind = k at h ⊢
  cases k with
  | identifier => exact ⟨rfl, named_bare h hn⟩
  | haddii => exact hother .conditional h
  | dooro => exact hother .switch h
  | abn | jajab | qoraal | bool | teed | walax | door => exact hother (.declaration _ _) h
  | madoor => exact hother .constant h
  | hawl => exact hother .function h
  | celi => exact hother .returnValue h
  | gelin => exact hother .call h
  | kuceli => exact hother .loop h
  | intay => exact hother .whileLoop h
  | iskuDay => exact hother .tryCatch h
  | kaKeen => exact hother .importFile h
  | fasalka => exact hother .classDefinition h
  | jooji => exact hother .breakLoop h
  | soco => exact hother .continueLoop h
  | leftBrace =>
    have hblock :
        NeverBare (braced inner >>= fun body => pure { kind := .block, children := body }) :=
          .braced nofun
    exact hother hblock h
  | qor =>
    have hcall (t : Token) : NeverBare (advance >>= fun _ => sum inner >>= fun e => (pure
        { kind := .call, value := .str "qor", children := [e], line := t.line,
          column := t.column } : Parser Node)) :=
      .after fun _ => .after fun _ => .pure nofun
    exact hother (hcall _) h
  | _ => exact hother .failUnexpected h

end Parser

end Luuqad

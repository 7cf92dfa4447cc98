import Luuqad.Proofs.Parsing.Kinds
import Luuqad.Proofs.Parsing.Program

/-!
# Chains of accesses

A name with accesses behind it is read in two places: at the start of a statement, where an equals
sign may follow it, and inside an expression. Both read the same tree from the same tokens, and stop
at the same token if it is a wrong one; they differ only in what they say is expected (`Alike`). So
the target of an assignment is the tree that the same tokens have inside an expression
(`chains_alike`).

That the tree is the same wherever the tokens stand needs to know in front of which tokens a parser
returns, not only that it returns in front of the one that follows: `Settles` says of what kinds
this token may be instead.
-/

namespace Luuqad.Parser

/-! ## Parsers that differ in what they expect -/

/-- Two results are the same, or two syntax errors at the same token. -/
inductive Alike {α : Type} :
    EStateM.Result ParseStop Cursor α → EStateM.Result ParseStop Cursor α → Prop
  | same (r : EStateM.Result ParseStop Cursor α) : Alike r r
  | errors {e e' : Diagnostic} {c : Cursor} : e.cause.errorClass = .parser →
      e'.cause.errorClass = .parser →
      e.line = e'.line → e.column = e'.column → Alike (.error (.error e) c) (.error (.error e') c)

namespace Alike

variable {α β : Type} {p p' : Parser α} {f f' : α → Parser β}

theorem of_complains (h : Complains p) (h' : Complains p') (c : Cursor) : Alike (p c) (p' c) := by
  obtain ⟨cause, hclass, hrun⟩ := h c.current
  obtain ⟨cause', hclass', hrun'⟩ := h' c.current
  have hp := hrun c.index c.ahead
  have hp' := hrun' c.index c.ahead
  change p c = _ at hp
  change p' c = _ at hp'
  rw [hp, hp']
  exact .errors hclass hclass' rfl rfl

theorem bind {c : Cursor} (hp : Alike (p c) (p' c)) (hf : ∀ a c, Alike (f a c) (f' a c)) :
    Alike ((p >>= f) c) ((p' >>= f') c) := by
  rw [bind_apply, bind_apply]
  generalize p c = r, p' c = r' at hp
  cases hp with
  | same r =>
    cases r with
    | ok a c' => exact hf a c'
    | error e c' => exact .same _
  | errors hclass hclass' hline hcolumn => exact .errors hclass hclass' hline hcolumn

theorem after {c : Cursor} (hf : ∀ a c, Alike (f a c) (f' a c)) :
    Alike ((p >>= f) c) ((p >>= f') c) :=
  .bind (.same _) hf

theorem eq_ok {r : EStateM.Result ParseStop Cursor α} {a : α} {c : Cursor} (h : Alike r (.ok a c)) :
    r = .ok a c := by
  cases h
  rfl

theorem exists_error {r : EStateM.Result ParseStop Cursor α} {e' : Diagnostic} {c : Cursor}
    (h : Alike r (.error (.error e') c)) (hclass : e'.cause.errorClass = .parser) :
    ∃ e, r = .error (.error e) c ∧ e.cause.errorClass = .parser ∧ e.line = e'.line ∧
    e.column = e'.column := by
  cases h with
  | same => exact ⟨e', rfl, hclass, rfl, rfl⟩
  | errors hclass _ hline hcolumn => exact ⟨_, rfl, hclass, hline, hcolumn⟩

theorem access {notName notName' : Parser Unit} (h : Complains notName) (h' : Complains notName')
    (inner : Nested) (target : Node) (c : Cursor) :
    Alike (access notName inner target c) (access notName' inner target c) := by
  refine .after (fun k c => ?_)
  split
  · refine .after fun _ c => .after fun name c => ?_
    split
    · exact .bind (.of_complains h h' c) fun _ _ => .same _
    · exact .same _
  · exact .same _

theorem accesses {notName notName' : Parser Unit} (h : Complains notName) (h' : Complains notName')
    (inner : Nested) (target : Node) (fuel : Nat) (c : Cursor) :
    Alike (accesses notName inner target fuel c) (accesses notName' inner target fuel c) := by
  induction fuel generalizing target c with
  | zero => exact .same _
  | succ fuel ih =>
    refine .after fun k c => ?_
    split
    · exact .bind (.access h h' inner target c) ih
    · exact .same _

end Alike

/-! ## What may follow instead -/

namespace Graded

variable {α β σ : Type} {p q : Graded α} {f : α → Graded β} {n n' x y : Nat} {m m' : Prop}
  {heads heads' starts ends free free' mids : TokenKind → Prop} {ts : List Token} {t : Token}

/-- What comes of a parser that has passed `ts` and looks at `t`. If it returns, it does so in front
of every token of a kind among `free` too. If `moves` holds, it does not return without having
passed a token. -/
def Settled (p : Graded α) (x : Nat) (free : TokenKind → Prop) (moves : Prop) (ts : List Token)
    (t : Token) : Prop :=
  (∃ a, p.Passes x (fun k => k = t.kind ∨ free k) a ts ∧ (moves → ts ≠ [])) ∨ p.Refuses x ts t

/-- The parser passes some tokens of all that begin with a kind among `heads` and hold an end token,
and is settled then. Only sequences of at most `n` tokens are considered, where `x` tokens before
them count too. -/
def Settles (p : Graded α) (n x : Nat) (heads free : TokenKind → Prop) (moves : Prop) : Prop :=
  ∀ ts : List Token, ts.length + x ≤ n → (∃ t ∈ ts, t.kind = .eof) → Begins heads ts →
    ∃ pre t rest, ts = pre ++ t :: rest ∧ (∀ u ∈ pre, u.kind ≠ .eof) ∧ p.Settled x free moves pre t

theorem Tracks.settles (h : p.Tracks n x heads ends m) :
    p.Settles n x heads (fun _ => False) m := by
  intro ts hts hend hheads
  obtain ⟨pre, t, rest, heq, hinside, hdecided, -⟩ := h ts hts hend hheads
  refine ⟨pre, t, rest, heq, hinside, hdecided.imp_left ?_⟩
  rintro ⟨a, hpass, hmoves⟩
  exact ⟨a, hpass.mono (Nat.le_refl _) fun k hk => hk.resolve_right id, hmoves⟩

theorem Settled.mono (h : p.Settled x free m ts t)
    (hpass : ∀ (ends : TokenKind → Prop) a us, p.Passes x ends a us →
    q.Passes y ends a us) (hrefuse : p.Refuses x ts t → q.Refuses y ts t) (hfree :
    ∀ k, free' k → free k)
    (hm : m' → m) : q.Settled y free' m' ts t := by
  refine h.imp ?_ hrefuse
  rintro ⟨a, ha, hmoves⟩
  exact ⟨a, (hpass _ a ts ha).mono (Nat.le_refl _) fun k hk => hk.imp_right (hfree k),
    fun hm' => hmoves (hm hm')⟩

theorem Settles.mono (h : p.Settles n x heads free m) (hheads : ∀ k, heads' k → heads k)
    (hfree : ∀ k, free' k → free k) (hm : m' → m) : p.Settles n x heads' free' m' := by
  intro ts hts hend hbegins
  obtain ⟨pre, t, rest, heq, hinside, hsettled⟩ := h ts hts hend (hbegins.mono hheads)
  exact ⟨pre, t, rest, heq, hinside, hsettled.mono (fun _ _ _ h => h) id hfree hm⟩

theorem Settles.restrict (h : p.Settles n x (fun _ => True) free m) : p.Settles n x heads free m :=
  h.mono (fun _ _ => trivial) (fun _ hk => hk) id

theorem Settles.later (h : p.Settles n x heads free m) (hx : x ≤ y) :
    p.Settles n y heads free m := by
  intro ts hts hend hbegins
  obtain ⟨pre, t, rest, heq, hinside, hsettled⟩ := h ts (by omega) hend hbegins
  exact ⟨pre, t, rest, heq, hinside, hsettled.mono (fun _ _ _ h => h.mono hx fun _ hk => hk)
    (fun h => h.mono hx) (fun _ hk => hk) id⟩

theorem Settles.pure (a : α) : Settles (fun _ _ => Pure.pure a) n x heads free False := by
  intro ts _ hend _
  obtain ⟨t, rest, rfl⟩ := exists_cons_of_end hend
  exact ⟨[], t, rest, rfl, by simp, .inl ⟨a, fun _ _ _ _ _ _ _ => rfl, False.elim⟩⟩

theorem end_of_inside {pre rest : List Token} (hend : ∃ u ∈ pre ++ rest, u.kind = .eof)
    (hinside : ∀ u ∈ pre, u.kind ≠ .eof) : ∃ u ∈ rest, u.kind = .eof := by
  obtain ⟨u, hu, hkind⟩ := hend
  rcases List.mem_append.mp hu with hu | hu
  · exact absurd hkind (hinside u hu)
  · exact ⟨u, hu, hkind⟩

/-- If the second parser passes nothing, the tokens that may follow it have to be among those that
may follow the first. -/
theorem Settles.bind (hq : q.Settles n x heads free' m)
    (hf : ∀ a, (f a).Settles n y (fun _ => True) free m') (hy : y ≤ x ∨ m ∧ y ≤ x + 1)
    (hfree : m' ∨ ∀ k, free k → free' k) :
    Settles (fun d r => q d r >>= fun a => f a d r) n x heads free (m ∨ m') := by
  intro ts hts hend hheads
  obtain ⟨pre, t, rest, rfl, hinside, ⟨a, hpass, hmoves⟩ | hrefuse⟩ := hq ts hts hend hheads
  · have hlen := length_le_of_moves hy hmoves
    rw [List.length_append] at hts
    obtain ⟨pre', u, rest', heq, hinside', hsettled⟩ :=
      hf a (t :: rest) (by omega) (end_of_inside hend hinside) trivial
    refine ⟨pre ++ pre', u, rest', by rw [heq, List.append_assoc], ?_, ?_⟩
    · intro v hv
      exact (List.mem_append.mp hv).elim (hinside v) (hinside' v)
    · rcases hsettled with ⟨b, hpass', hmoves'⟩ | hrefuse'
      · refine .inl ⟨b, hpass.bind hpass' hlen fun r hr => ?_, ?_⟩
        · cases pre' with
          | nil =>
            obtain ⟨rfl, -⟩ := List.cons.inj heq
            exact hr.mono fun k => Or.imp_right (hfree.resolve_left (fun hm => hmoves' hm rfl) k)
          | cons v pre' =>
            obtain ⟨rfl, -⟩ := List.cons.inj heq
            exact .inl rfl
        · rintro (hm | hm)
          · simp [hmoves hm]
          · simp [hmoves' hm]
      · refine .inr (hpass.bind_refuses hrefuse' hlen fun r => ?_)
        have hbegins : Begins (· = t.kind) (pre' ++ u :: r) := begins_of_split heq rfl
        exact hbegins.mono fun _ => .inl
  · exact ⟨pre, t, rest, rfl, hinside, .inr hrefuse.bind⟩

theorem Settles.thenMoving (hq : q.Settles n x heads free' m)
    (hf : ∀ a, (f a).Settles n x (fun _ => True) free True) :
    Settles (fun d r => q d r >>= fun a => f a d r) n x heads free True :=
  (Settles.bind hq hf (.inl (Nat.le_refl _)) (.inl trivial)).mono (fun _ hk => hk)
    (fun _ hk => hk) .inr

theorem Settles.andThen (hq : q.Settles n x heads free' True)
    (hf : ∀ a, (f a).Settles n (x + 1) (fun _ => True) free m) (hfree : ∀ k, free k → free' k) :
    Settles (fun d r => q d r >>= fun a => f a d r) n x heads free True :=
  (Settles.bind hq hf (.inr ⟨trivial, Nat.le_refl _⟩) (.inr hfree)).mono (fun _ hk => hk)
    (fun _ hk => hk) .inl

theorem Settles.map (hq : q.Settles n x heads free m) (g : α → β) :
    Settles (fun d r => q d r >>= fun a => Pure.pure (g a)) n x heads free m :=
  (Settles.bind hq (fun a => .pure (g a)) (.inl (Nat.le_refl _)) (.inr fun _ hk => hk)).mono
    (fun _ hk => hk) (fun _ hk => hk) .inl

theorem Settles.pass (hheads : ¬heads .eof) (hp : p.Settles n (x + 1) (fun _ => True) free m) :
    Settles (fun d r => advance >>= fun _ => p d r) n x heads free True := by
  intro ts hts hend hbegins
  obtain ⟨t, us, rfl, ht⟩ := hbegins.exists_cons
  have hne : t.kind ≠ .eof := fun hk => hheads (hk ▸ ht)
  have hrest : ∃ u ∈ us, u.kind = .eof := by
    obtain ⟨u, hu, hkind⟩ := hend
    exact ⟨u, (List.mem_cons.mp hu).resolve_left fun heq => hne (heq ▸ hkind), hkind⟩
  rw [List.length_cons] at hts
  obtain ⟨pre, u, rest, rfl, hinside, hsettled⟩ :=
    hp us (by omega) hrest (.of_ne_nil (List.ne_nil_of_mem hrest.choose_spec.1))
  refine ⟨t :: pre, u, rest, rfl, List.forall_mem_cons.mpr ⟨hne, hinside⟩, ?_⟩
  have hlen : x + 1 ≤ [t].length + x := by simp [Nat.add_comm]
  rcases hsettled with ⟨a, hpass, -⟩ | hrefuse
  · refine .inl ⟨a, (passes_advance x t).bind hpass hlen fun r hr => ?_, fun _ => by simp⟩
    exact .of_ne_nil (by simp [hr.ne_nil])
  · exact .inr ((passes_advance x t).bind_refuses hrefuse hlen fun r => .of_ne_nil (by simp))

theorem Settles.current {f : Token → Graded α}
    (h : ∀ t, heads t.kind → (f t).Settles n x (· = t.kind) free True) :
    Settles (fun d r => Parser.current >>= fun t => f t d r) n x heads free True := by
  intro ts hts hend hheads
  obtain ⟨t, us, rfl, ht⟩ := hheads.exists_cons
  obtain ⟨pre, u, rest, heq, hinside, hsettled⟩ := h t ht _ hts hend rfl
  refine ⟨pre, u, rest, heq, hinside, ?_⟩
  -- the token under the cursor is the first one passed, or the one that is refused
  rcases hsettled with ⟨a, hpass, hmoves⟩ | ⟨cause, hcause, hrun⟩
  · obtain ⟨v, pre, rfl⟩ := List.exists_cons_of_ne_nil (hmoves trivial)
    obtain ⟨rfl, -⟩ := List.cons.inj heq
    exact .inl ⟨a, hpass.current, hmoves⟩
  · refine .inr ⟨cause, hcause, fun d r i rest hd hr => ?_⟩
    have hrun := hrun d r i rest hd hr
    cases pre with
    | nil =>
      obtain ⟨rfl, -⟩ := List.cons.inj heq
      exact hrun
    | cons v pre =>
      obtain ⟨rfl, -⟩ := List.cons.inj heq
      exact hrun

theorem Settles.ite {c : Prop} [Decidable c] (hp : c → p.Settles n x heads free m)
    (hq : ¬c → q.Settles n x heads free m) :
    Settles (fun d r => if c then p d r else q d r) n x heads free m := by
  split
  · exact hp ‹_›
  · exact hq ‹_›

theorem Settles.refuses (h : ∀ t, p.Refuses x [] t) : p.Settles n x heads free m := by
  intro ts _ hend _
  obtain ⟨t, rest, rfl⟩ := exists_cons_of_end hend
  exact ⟨[], t, rest, rfl, by simp, .inr (h t)⟩

theorem Settles.expect {k : TokenKind} (hk : k ≠ .eof) :
    Settles (fun _ _ => Parser.expect k) n x heads free True := by
  refine .current fun t _ => .ite (fun ht => ?_) fun _ => ?_
  · exact .pass (by rw [ht]; exact hk.symm) (.pure t)
  · exact .refuses (refuses_of_complains (.failExpecting _))

/-- Two ways to go on, the first of them in front of certain tokens. If the second one passes
nothing, none of the tokens that may follow it is such a token. -/
theorem Settles.unless {c : TokenKind → Prop} [DecidablePred c] (hp : p.Settles n x c free True)
    (hq : q.Settles n x (fun _ => True) free m) (hfree : m ∨ ∀ k, free k → ¬c k) :
    Settles (fun d r => kind >>= fun k => if c k then p d r else q d r) n x heads free m := by
  intro ts hts hend hheads
  obtain ⟨t, us, rfl, -⟩ := hheads.exists_cons
  by_cases ht : c t.kind
  · obtain ⟨pre, u, rest, heq, hinside, hsettled⟩ := hp _ hts hend ht
    refine ⟨pre, u, rest, heq, hinside, ?_⟩
    rcases hsettled with ⟨a, hpass, hmoves⟩ | hrefuse
    · obtain ⟨v, pre, rfl⟩ := List.exists_cons_of_ne_nil (hmoves trivial)
      obtain ⟨rfl, -⟩ := List.cons.inj heq
      refine .inl ⟨a, .kind (k := t.kind) ?_ fun _ _ => rfl, fun _ => hmoves trivial⟩
      simpa only [if_pos ht] using hpass
    · refine .inr (.kind (k := t.kind) ?_ fun _ => begins_of_split heq rfl)
      simpa only [if_pos ht] using hrefuse
  · obtain ⟨pre, u, rest, heq, hinside, hsettled⟩ := hq _ hts hend trivial
    refine ⟨pre, u, rest, heq, hinside, ?_⟩
    rcases hsettled with ⟨a, hpass, hmoves⟩ | hrefuse
    · refine .inl ⟨a, fun d r i rest hd hr hrest => ?_, hmoves⟩
      have hfirst : Begins (fun k => ¬c k) (pre ++ rest) := by
        cases pre with
        | nil =>
          obtain ⟨rfl, -⟩ := List.cons.inj heq
          refine hrest.mono fun k hk => ?_
          rcases hk with rfl | hk
          · exact ht
          · exact hfree.resolve_left (fun hm => hmoves hm rfl) k hk
        | cons v pre =>
          obtain ⟨rfl, -⟩ := List.cons.inj heq
          exact ht
      obtain ⟨v, vs, hsplit, hv⟩ := hfirst.exists_cons
      have hrun := hpass d r i rest hd hr hrest
      dsimp only
      rw [hsplit] at hrun ⊢
      rw [bind_apply, kind_facing]
      dsimp only
      rw [if_neg hv, hrun]
    · refine .inr (.kind (k := t.kind) ?_ fun _ => begins_of_split heq rfl)
      simpa only [if_neg ht] using hrefuse

/-- A loop settles if its body does, given that what the body runs after one round does. -/
theorem Settles.loop (loop : σ → Graded α) (body : (σ → Graded α) → σ → Graded α)
    (hloop : ∀ s d r, loop s d (r + 1) = body (fun s d r => loop s d (r - 1)) s d (r + 1))
    (hbody : ∀ (next : σ → Graded α) n', n' ≤ n →
      (∀ s, (next s).Settles n' (x + 1) (fun _ => True) free False) →
      ∀ s, (body next s).Settles n' x (fun _ => True) free False) (s : σ) :
    (loop s).Settles n x (fun _ => True) free False := by
  suffices hall : ∀ n', n' ≤ n →
      ∀ s, (loop s).Settles n' x (fun _ => True) free False from hall n (Nat.le_refl _) s
  intro n'
  induction n' with
  | zero =>
    intro _ s ts hts hend
    obtain ⟨t, rest, rfl⟩ := exists_cons_of_end hend
    simp at hts
  | succ n' ih =>
    intro hn s ts hts hend hheads
    -- one round less is enough after one more token
    have hnext (s : σ) : Settles (fun d r => loop s d (r - 1)) (n' + 1) (x + 1)
        (fun _ => True) free False := by
      intro ts hts hend hheads
      obtain ⟨pre, t, rest, heq, hinside, hsettled⟩ := ih (by omega) s ts (by omega) hend hheads
      refine ⟨pre, t, rest, heq, hinside, hsettled.mono (fun _ _ _ h => h.oneRoundLess) ?_
        (fun _ hk => hk) id⟩
      rintro ⟨cause, hcause, hrun⟩
      exact ⟨cause, hcause, fun d r i rest hd hr => hrun d (r - 1) i rest (by omega) (by omega)⟩
    have hround (d r : Nat) (hr : 0 < r) :
        loop s d r = body (fun s d r => loop s d (r - 1)) s d r := by
      obtain ⟨r, rfl⟩ : ∃ k, r = k + 1 := ⟨r - 1, by omega⟩
      exact hloop s d r
    obtain ⟨pre, t, rest, heq, hinside, hsettled⟩ := hbody _ (n' + 1) hn hnext s ts hts hend hheads
    refine ⟨pre, t, rest, heq, hinside, hsettled.mono (fun _ _ _ h => h.congr hround) ?_
      (fun _ hk => hk) id⟩
    rintro ⟨cause, hcause, hrun⟩
    refine ⟨cause, hcause, fun d r i rest hd hr => ?_⟩
    rw [hround d r (by omega)]
    exact hrun d r i rest hd hr

theorem Viable.settles_arguments {item : Nat → Parser α}
    (hitem : Viable (fun d _ => item d) n 1 starts mids True) (hmids : mids .rightParen) :
    Settles (fun d _ => Parser.arguments (item d)) n 1 heads free True := by
  have hclose {heads : TokenKind → Prop} (items : List α) : Settles
      (fun _ _ => Parser.expect .rightParen >>= fun _ => Pure.pure items) n 1 heads free True :=
    (Settles.expect (by decide)).map _
  have hends (k : TokenKind) (hk : k = .rightParen) : mids k := hk ▸ hmids
  have hmore :=
    ((hitem.itemsAfterCommas hends (by simp)).bounded (Nat.zero_le _)).later (Nat.zero_le 1)
  have hsome := hitem.tracks.settles.thenMoving fun a => hmore.tracks.settles.thenMoving fun more =>
    hclose (a :: more)
  exact .unless (c := (· = .rightParen)) (hclose []) hsome (.inl trivial)

end Graded

/-! ## Accesses -/

section

open Luuqad.Parser.Graded

variable {n : Nat} {notName : Parser Unit}

/-- An access may stand in front of every token but an opening parenthesis, which would make a
property a call. -/
theorem NestedViable.settles_access (h : NestedViable n) (hname : Complains notName)
    (target : Node) :
    Settles (fun d _ => Parser.access notName (.upTo d) target) n 0 (fun _ => True)
    (· ≠ .leftParen) True := by
  have hmember (v : Value) : Settles (fun d _ => kind >>= fun k => if k = .leftParen then
      advance >>= fun _ => (Nested.upTo d).expression.arguments >>= fun args =>
        (pure { kind := .methodCall, value := v, children := target :: args } : Parser Node)
      else pure { kind := .property, value := v, children := [target] }) n 2
        (fun _ => True) (· ≠ .leftParen)
      False := by
    apply Settles.unless (c := (· = .leftParen))
    · apply Settles.pass (by simp)
      exact ((h.expression.settles_arguments rfl).later (by omega)).map _
    · exact .pure _
    · exact .inr fun _ hk => hk
  have hindex :
      Settles (fun d _ => expect .leftBracket >>= fun _ => (Nested.upTo d).expression >>= fun i =>
      expect .rightBracket >>=
        fun _ => (pure { kind := .index, children := [target, i] } : Parser Node)) n 0
      (fun _ => True) (· ≠ .leftParen) True := by
    refine (Settles.expect (by decide)).andThen
      (fun _ => h.expression.tracks.settles.thenMoving fun i => ?_)
      fun _ hk => hk
    exact (Settles.expect (by decide)).map _
  apply Settles.unless (c := (· = .dot)) ?_ hindex (.inl trivial)
  apply Settles.pass (by simp)
  refine Settles.current fun t _ => .ite (fun _ => ?_) fun ht => ?_
  · exact .refuses fun u => (refuses_of_complains hname u).bind
  · exact .pass (by rw [Decidable.not_not.mp ht]; decide) (hmember t.value)

/-- The accesses end in front of every token that cannot carry them on. -/
theorem NestedViable.settles_accesses (h : NestedViable n) (hname : Complains notName)
    (target : Node) :
    Settles (fun d r => Parser.accesses notName (.upTo d) target r) n 0 (fun _ => True)
      (Level.access.stops · = true) False := by
  refine .loop (fun target d r => Parser.accesses notName (.upTo d) target r)
    (fun next target d r => kind >>= fun k => if k = .dot ∨ k = .leftBracket then
      Parser.access notName (.upTo d) target >>= fun t => next t d r else pure target)
    (fun _ _ _ => rfl) (fun next n' hn hnext target => ?_) target
  have hround :=
    ((h.below hn).settles_access hname target).andThen hnext fun _ => not_leftParen_of_access_stops
  exact .unless (c := fun k => k = .dot ∨ k = .leftBracket) hround.restrict (.pure target)
    (.inr fun _ => not_access_of_stops)

end

/-! ## Names with accesses -/

/-- A name and the accesses to it, as they are read at the start of a statement. -/
def chain (inner : Nested) : Parser Node := do
  let start ← current
  advance
  let notName : Parser Unit := do fail (.expectedToken "IDENTIFIER" (← kind).shown)
  accesses notName inner { kind := .identifier, value := start.value } (← get).bound

section

open Luuqad.Parser.Graded

variable (inner : Nested) {start : Token} {us : List Token}

theorem chain_facing (i : Nat) (h : us ≠ []) :
    chain inner (.facing i (start :: us)) =
      accesses (do fail (.expectedToken "IDENTIFIER" (← kind).shown)) inner
        { kind := .identifier, value := start.value }
          (Cursor.facing (i + 1) us).bound (.facing (i + 1) us) := by
  simp only [chain, bind_apply, current_facing, advance_facing h, get_apply]

theorem postfixed_facing (i : Nat) (hstart : start.kind = .identifier)
    (h : Begins (· ≠ .leftParen) us) :
    postfixed inner (.facing i (start :: us)) =
      accesses (failExpecting "property name") inner { kind := .identifier, value := start.value }
        (Cursor.facing (i + 1) us).bound (.facing (i + 1) us) := by
  obtain ⟨u, us, rfl, hu⟩ := h.exists_cons
  have hprimary : primary inner (.facing i (start :: u :: us)) =
      .ok { kind := .identifier, value := start.value } (.facing (i + 1) (u :: us)) := by
    simp only [primary, bind_apply, current_facing, hstart, advance_facing (List.cons_ne_nil _ _),
      kind_facing, if_neg hu, pure_apply, nameOf, true_or, if_true]
  simp only [postfixed, bind_apply, hprimary, get_apply]

theorem statement_facing (i : Nat) (hstart : start.kind = .identifier)
    (h : Begins (fun k => k = .dot ∨ k = .leftBracket) us) :
    statement inner (.facing i (start :: us)) = (chain inner >>= afterChain inner start)
    (.facing i (start :: us)) := by
  obtain ⟨u, us, rfl, hu⟩ := h.exists_cons
  rw [bind_apply, chain_facing inner i (List.cons_ne_nil _ _)]
  rcases hu with hu | hu <;>
  simp only [statement, named, bind_apply, current_facing, hstart,
    advance_facing (List.cons_ne_nil _ _), kind_facing, hu, get_apply] <;> rfl

theorem chain_alike (i : Nat) (hstart : start.kind = .identifier) (h : Begins (· ≠ .leftParen) us) :
    Alike (chain inner (.facing i (start :: us))) (postfixed inner (.facing i (start :: us))) := by
  rw [chain_facing inner i h.ne_nil, postfixed_facing inner i hstart h]
  exact .accesses (.fail fun _ => rfl) (.failExpecting _) inner _ _ _

variable {inner}

theorem Reads.expression_of_postfixed {target : Node} {ts : List Token}
    (h : Reads postfixed (Level.access.stops · = true) target ts)
    (hb : Begins (· = .identifier) ts) :
    Reads expression (Level.logical.stops · = true) target ts := by
  have hopens (l : Level) : Begins (l.opens · = true) ts :=
    hb.mono fun k hk => by rw [hk]; cases l <;> rfl
  have hfactor : Level.factor.Reaches target ts := by
    refine .of_reads (.inl rfl) fun d i rest hd hrest => ?_
    obtain ⟨t, us, rfl, ht⟩ := (hopens .access).exists_cons
    rw [← h d i rest hd hrest]
    exact factor_of_opens ht
  have hterm : Level.term.Reaches target ts := reaches_tighter (hopens _) hfactor
  have hsum : Level.sum.Reaches target ts := reaches_tighter (hopens _) hterm
  have hcomparison : Level.comparison.Reaches target ts := reaches_tighter (hopens _) hsum
  have hlogical : Level.logical.Reaches target ts := reaches_tighter (hopens _) hcomparison
  exact hlogical.reads

theorem reads_postfixed {pre : List Token} {target : Node} {ends : TokenKind → Prop}
    (hstart : start.kind = .identifier)
    (hpass : Passes (fun d r => accesses (failExpecting "property name") (.upTo d)
      { kind := .identifier, value := start.value } r) 0 ends target pre)
    (hfirst : ∀ rest, Begins ends rest → Begins (· ≠ .leftParen) (pre ++ rest)) :
    Reads postfixed ends target (start :: pre) := by
  intro d i rest hd hrest
  have hbound := Cursor.length_lt_bound (i + 1) (pre ++ rest)
  rw [List.length_cons] at hd ⊢
  rw [List.length_append] at hbound
  have hrun :=
    hpass d (Cursor.facing (i + 1) (pre ++ rest)).bound (i + 1) rest (by omega) (by omega) hrest
  rw [List.cons_append, postfixed_facing _ i hstart (hfirst rest hrest)]
  exact hrun.trans (congrArg _ (Cursor.facing_congr (by omega)))

/-- A name with accesses is passed up to a token that decides what comes of it: it is read, here and
in every expression, or there is a syntax error. -/
theorem postfixed_decided (hstart : start.kind = .identifier) (hus : Begins (· ≠ .leftParen) us)
    (hend : ∃ u ∈ us, u.kind = .eof) :
    ∃ pre t rest, us = pre ++ t :: rest ∧ ∀ d, us.length ≤ d →
      (∃ target, postfixed (.upTo d) (.facing 0 (start :: us)) =
        .ok target (.facing (pre.length + 1) (t :: rest)) ∧
        Reads expression (Level.logical.stops · = true) target (start :: pre)) ∨
      ∃ e, postfixed (.upTo d) (.facing 0 (start :: us)) = .error (.error e)
        (.facing (pre.length + 1) (t :: rest)) ∧
        e.cause.errorClass = .parser := by
  obtain ⟨pre, t, rest, rfl, -, hsettled⟩ :=
    (nestedViable us.length).settles_accesses (.failExpecting "property name")
    { kind := .identifier, value := start.value } us (Nat.le_refl _) hend
      (hus.mono fun _ _ => trivial)
  refine ⟨pre, t, rest, rfl, fun d hd => ?_⟩
  have hlength : (pre ++ t :: rest).length = pre.length + rest.length + 1 := by simp [Nat.add_assoc]
  rcases hsettled with ⟨target, hpass, -⟩ | ⟨cause, hclass, hrefuse⟩
  · have hfirst (r : List Token)
        (hr : Begins (fun k => k = t.kind ∨ Level.access.stops k = true) r) :
        Begins (· ≠ .leftParen) (pre ++ r) := by
      cases pre with
      | nil =>
        refine hr.mono fun k hk => ?_
        rcases hk with rfl | hk
        · exact hus
        · exact not_leftParen_of_access_stops hk
      | cons u pre => exact hus
    have hreads := reads_postfixed hstart hpass hfirst
    refine .inl ⟨target, ?_, ?_⟩
    · have hrun := hreads d 0 (t :: rest) (by simp; omega) (.inl rfl)
      rwa [Nat.zero_add] at hrun
    · exact Reads.expression_of_postfixed
        (fun d i r hd hr => hreads d i r hd (hr.mono fun _ => .inr)) hstart
  · have hbound := Cursor.length_lt_bound (0 + 1) (pre ++ t :: rest)
    refine .inr ⟨⟨cause, t.line, t.column⟩, ?_, hclass⟩
    rw [postfixed_facing _ 0 hstart hus]
    exact (hrefuse d _ (0 + 1) rest (by omega) (by omega)).trans
      (congrArg _ (Cursor.facing_congr (by omega)))

theorem chain_kind {c c' : Cursor} {target : Node} (h : chain inner c = .ok target c') :
    target.kind ≠ .assignment := by
  have hexpressive : Expressive (chain inner) :=
    .after fun _ => .after fun _ => .after fun _ => NestedExpressive.accesses _ rfl _
  intro hkind
  have hexpression : target.kind.isExpression = true := hexpressive c target c' h
  rw [hkind] at hexpression
  cases hexpression

/-- An assignment has the chain in front of its equals sign as its target. -/
theorem afterChain_assignment {c c' : Cursor} {target node : Node}
    (htarget : target.kind ≠ .assignment) (h : afterChain inner start target c = .ok node c')
    (hnode : node.kind = .assignment) :
    ∃ value, node.children = [target, value] := by
  obtain ⟨k, c₁, -, h⟩ := bind_eq_ok h
  split at h
  · obtain ⟨_, c₂, -, h⟩ := bind_eq_ok h
    obtain ⟨value, c₃, -, h⟩ := bind_eq_ok h
    cases h
    exact ⟨value, rfl⟩
  · cases h
    exact absurd hnode htarget

end

end Luuqad.Parser

namespace Luuqad

open Luuqad.Parser

/-- For tokens that start with a name and an access and end in an end token: the chain that a
statement starts with, before it looks for an equals sign, and the same tokens inside an expression
are read alike. Either both give one tree and stop at one place, and the tokens passed give this
tree in every expression; or both stop at one place with syntax errors that have the same line and
column. So the target of an assignment is the tree that its tokens have inside an expression. -/
theorem chains_alike (start next : Token) (rest : List Token) (hstart : start.kind = .identifier)
    (hnext : next.kind = .dot ∨ next.kind = .leftBracket)
    (hend : EndsInEof (start :: next :: rest)) :
    Parser.run statement (start :: next :: rest) =
        Parser.run (fun inner => chain inner >>= afterChain inner start) (start :: next :: rest) ∧
      ((∃ target c, Parser.run chain (start :: next :: rest) = some (.ok target c) ∧
          Parser.run postfixed (start :: next :: rest) = some (.ok target c) ∧
          Reads expression (Level.logical.stops · = true) target
            ((start :: next :: rest).take c.index)) ∨
        ∃ e e' c, Parser.run chain (start :: next :: rest) = some (.error (.error e) c) ∧
          Parser.run postfixed (start :: next :: rest) = some (.error (.error e') c) ∧
          e.cause.errorClass = .parser ∧ e'.cause.errorClass = .parser ∧ e.line = e'.line ∧
            e.column = e'.column) ∧
      ∀ node c, Parser.run statement (start :: next :: rest) = some (.ok node c) →
        node.kind = .assignment →
        ∃ target value c', node.children = [target, value] ∧
          Parser.run postfixed (start :: next :: rest) = some (.ok target c') ∧
          Reads expression (Level.logical.stops · = true) target
            ((start :: next :: rest).take c'.index) := by
  have hus : Begins (fun k => k = .dot ∨ k = .leftBracket) (next :: rest) := hnext
  have hparen : Begins (· ≠ .leftParen) (next :: rest) :=
    hus.mono (by rintro _ (rfl | rfl) <;> decide)
  have heof : ∃ u ∈ next :: rest, u.kind = .eof := by
    obtain ⟨u, hu, hkind⟩ := hend.exists_eof
    refine ⟨u, (List.mem_cons.mp hu).resolve_left ?_, hkind⟩
    rintro rfl
    rw [hstart] at hkind
    cases hkind
  have hrun {α : Type} (p : Nested → Parser α) :=
    run_facing p (List.cons_ne_nil start (next :: rest))
  simp only [hrun]
  generalize hd : (start :: next :: rest).length + 2 = d
  have hstatement := statement_facing (.upTo d) 0 hstart hus
  have halike := chain_alike (.upTo d) 0 hstart hparen
  obtain ⟨pre, t, after, hsplit, hdecided⟩ := postfixed_decided hstart hparen heof
  have htake : (start :: next :: rest).take (pre.length + 1) = start :: pre := by
    rw [hsplit, List.take_succ_cons, List.take_left]
  rcases hdecided d (by simp only [List.length_cons] at hd ⊢; omega) with ⟨target, hpost, hreads⟩ |
    ⟨e', hpost, hclass⟩
  · rw [hpost] at halike
    have hchain := halike.eq_ok
    rw [← htake] at hreads
    refine ⟨congrArg some hstatement,
      .inl ⟨target, _, congrArg some hchain, congrArg some hpost, hreads⟩, ?_⟩
    intro node c hok hnode
    rw [hstatement] at hok
    obtain ⟨target', c₁, hchain', hafter⟩ := bind_eq_ok (Option.some.inj hok)
    rw [hchain] at hchain'
    cases hchain'
    obtain ⟨value, hchildren⟩ := afterChain_assignment (chain_kind hchain) hafter hnode
    exact ⟨target, value, _, hchildren, congrArg some hpost, hreads⟩
  · rw [hpost] at halike
    obtain ⟨e, hchain, hclass', hline, hcolumn⟩ := halike.exists_error hclass
    refine ⟨congrArg some hstatement,
      .inr ⟨e, e', _, congrArg some hchain, congrArg some hpost, hclass', hclass, hline, hcolumn⟩,
      ?_⟩
    intro node c hok
    rw [hstatement] at hok
    obtain ⟨target, c₁, hchain', -⟩ := bind_eq_ok (Option.some.inj hok)
    rw [hchain] at hchain'
    cases hchain'

/-- The target `x.x(x)[x]` of an assignment is what is read up to its equals sign. -/
theorem chains_alike_of_call :
    let x := someName.render
    let tokens :=
      [x, (Mark.plain .dot).val, x, (Mark.plain .leftParen).val, x, (Mark.plain .rightParen).val,
      (Mark.plain .leftBracket).val, x, (Mark.plain .rightBracket).val, (Mark.plain .equal).val, x,
      (Mark.plain .eof).val]
    EndsInEof tokens ∧ ∃ node c, Parser.run statement tokens = some (.ok node c) ∧
      node.kind = .assignment ∧
      ∃ target value c', node.children = [target, value] ∧
        Parser.run postfixed tokens = some (.ok target c') ∧
        Reads expression (Level.logical.stops · = true) target (tokens.take c'.index) := by
  intro x tokens
  have hends : EndsInEof tokens := ⟨_, rfl, rfl⟩
  obtain ⟨node, c, hrun, hnode⟩ : ∃ node c, Parser.run statement tokens = some (.ok node c) ∧
      node.kind = .assignment := ⟨_, _, rfl, rfl⟩
  exact ⟨hends, node, c, hrun, hnode,
    (chains_alike _ _ _ rfl (.inl rfl) hends).2.2 node c hrun hnode⟩

end Luuqad

import Luuqad.Proofs.Grammar.Facing
import Luuqad.Proofs.Grammar.Render

/-!
# What a parser makes of any tokens

The tokens that a parser is given may be anything, as long as an end token is among them. A parser
tracks them if it passes some tokens, none of which is the end token, and then either returns
because of the token that follows, or stops with a syntax error at that token. What follows is not
looked at in either case. In addition, what was passed is the beginning of something that the parser
accepts: it can be completed so that the parser returns in front of every token of a kind among
`ends`.

The rules for completing a sequence of parsers need to know how each of them can be completed from
its start, and with which kind of token; this is `Graded.Opens`. Both together are `Graded.Viable`,
and the lemmas of this module show how the constructs that parsers are built with preserve it.

Parsers of nested parts have a limit of depth, and loops have a limit of rounds. `Graded` makes both
of them arguments, so that what is said here holds for all limits that are large enough: more tokens
deep than the parser passes. A parser that starts after other tokens may count `x` of them as well.
-/

namespace Luuqad.Parser

/-- A parser for every depth that its nested parts may reach and every number of rounds that its
loop may take. -/
abbrev Graded (α : Type) := Nat → Nat → Parser α

namespace Graded

variable {α β σ : Type}

/-- In front of the tokens `ts` and a token with a kind among `ends`, the parser passes `ts` and
returns `a`. -/
def Passes (p : Graded α) (x : Nat) (ends : TokenKind → Prop) (a : α) (ts : List Token) : Prop :=
  ∀ (d r i : Nat) (rest : List Token), ts.length + x ≤ d → ts.length + x < r → Begins ends rest →
    p d r (.facing i (ts ++ rest)) = .ok a (.facing (i + ts.length) rest)

/-- In front of the tokens `ts` and the token `t`, the parser passes `ts` and stops with a syntax
error at `t`. -/
def Refuses (p : Graded α) (x : Nat) (ts : List Token) (t : Token) : Prop :=
  ∃ cause : Cause, cause.errorClass = .parser ∧
    ∀ (d r i : Nat) (rest : List Token), ts.length + x ≤ d → ts.length + x < r →
      p d r (.facing i (ts ++ t :: rest)) =
        .error (.error ⟨cause, t.line, t.column⟩) (.facing (i + ts.length) (t :: rest))

/-- What comes of a parser that has passed `ts` and looks at `t`. If `moves` holds, it does not
return without having passed a token. -/
structure Outcome (p : Graded α) (x : Nat) (ends : TokenKind → Prop) (moves : Prop)
    (ts : List Token) (t : Token) : Prop where
  inside : ∀ u ∈ ts, u.kind ≠ .eof
  decided : (∃ a, p.Passes x (· = t.kind) a ts ∧ (moves → ts ≠ [])) ∨ p.Refuses x ts t
  completed : ts ≠ [] → ∃ more a, p.Passes x ends a (ts ++ more)

/-- The parser has an outcome on all tokens that begin with a kind among `heads` and hold an end
token. Only sequences of at most `n` tokens are considered, where `x` tokens before them count
too. -/
def Tracks (p : Graded α) (n x : Nat) (heads ends : TokenKind → Prop) (moves : Prop) : Prop :=
  ∀ ts : List Token, ts.length + x ≤ n → (∃ t ∈ ts, t.kind = .eof) → Begins heads ts →
    ∃ pre t rest, ts = pre ++ t :: rest ∧ p.Outcome x ends moves pre t

/-- Some tokens are passed. In front of a token with a kind among `ends`, they begin with a kind
among `starts`. -/
def Opens (p : Graded α) (x : Nat) (starts ends : TokenKind → Prop) (moves : Prop) : Prop :=
  ∃ ts a, p.Passes x ends a ts ∧ (∀ rest, Begins ends rest → Begins starts (ts ++ rest)) ∧
    (moves → ts ≠ [])

/-- The parser tracks all tokens, and it can be completed from its start. -/
structure Viable (p : Graded α) (n x : Nat) (starts ends : TokenKind → Prop) (moves : Prop) :
    Prop where
  tracks : p.Tracks n x (fun _ => True) ends moves
  opens : p.Opens x starts ends moves

variable {p q : Graded α} {f : α → Graded β} {n n' x y : Nat} {m m' m'' : Prop} {a : α} {b : β}
  {heads heads' starts starts' mids ends ends' : TokenKind → Prop} {ts us : List Token} {t : Token}

/-! ## Weaker limits and other kinds -/

theorem Passes.mono (h : p.Passes x ends a ts) (hx : x ≤ y) (hends : ∀ k, ends' k → ends k) :
    p.Passes y ends' a ts :=
  fun d r i rest hd hr hrest => h d r i rest (by omega) (by omega) (hrest.mono hends)

theorem Refuses.mono (h : p.Refuses x ts t) (hx : x ≤ y) : p.Refuses y ts t := by
  obtain ⟨cause, hcause, hrun⟩ := h
  exact ⟨cause, hcause, fun d r i rest hd hr => hrun d r i rest (by omega) (by omega)⟩

theorem Outcome.map (h : p.Outcome x ends m ts t)
    (hpass : ∀ (ends : TokenKind → Prop) a us, p.Passes x ends a us → q.Passes y ends a us)
    (hrefuse : p.Refuses x ts t → q.Refuses y ts t) (hends : ∀ k, ends' k → ends k)
    (hm : m' → m) : q.Outcome y ends' m' ts t where
  inside := h.inside
  decided := by
    rcases h.decided with ⟨a, ha, hmoves⟩ | hr
    · exact .inl ⟨a, hpass _ a ts ha, fun hm' => hmoves (hm hm')⟩
    · exact .inr (hrefuse hr)
  completed := by
    intro hne
    obtain ⟨more, a, ha⟩ := h.completed hne
    exact ⟨more, a, (hpass _ a _ ha).mono (Nat.le_refl _) hends⟩

theorem Tracks.mono (h : p.Tracks n x heads ends m) (hx : x ≤ y) (hn : n' + x ≤ n + y)
    (hheads : ∀ k, heads' k → heads k) (hends : ∀ k, ends' k → ends k) (hm : m' → m) :
    p.Tracks n' y heads' ends' m' := by
  intro ts hts hend hbegins
  obtain ⟨pre, t, rest, heq, houtcome⟩ := h ts (by omega) hend (hbegins.mono hheads)
  refine ⟨pre, t, rest, heq, houtcome.map (fun _ _ _ h => h.mono hx fun _ hk => hk) ?_ hends hm⟩
  exact fun h => h.mono hx

theorem Opens.mono (h : p.Opens x starts ends m) (hx : x ≤ y)
    (hstarts : ∀ k, starts k → starts' k) (hends : ∀ k, ends' k → ends k) (hm : m' → m) :
    p.Opens y starts' ends' m' := by
  obtain ⟨ts, a, hpass, hbegins, hmoves⟩ := h
  refine ⟨ts, a, hpass.mono hx hends, fun rest hrest => ?_, fun hm' => hmoves (hm hm')⟩
  exact (hbegins rest (hrest.mono hends)).mono hstarts

theorem Viable.mono (h : p.Viable n x starts ends m) (hx : x ≤ y) (hn : n' + x ≤ n + y)
    (hstarts : ∀ k, starts k → starts' k) (hends : ∀ k, ends' k → ends k) (hm : m' → m) :
    p.Viable n' y starts' ends' m' :=
  ⟨h.tracks.mono hx hn (fun _ hk => hk) hends hm, h.opens.mono hx hstarts hends hm⟩

theorem Tracks.restrict (h : p.Tracks n x heads ends m) (hheads : ∀ k, heads' k → heads k) :
    p.Tracks n x heads' ends m :=
  h.mono (Nat.le_refl _) (Nat.le_refl _) hheads (fun _ hk => hk) id

theorem Tracks.before (h : p.Tracks n x heads ends m) (hends : ∀ k, ends' k → ends k) :
    p.Tracks n x heads ends' m :=
  h.mono (Nat.le_refl _) (Nat.le_refl _) (fun _ hk => hk) hends id

theorem Tracks.still (h : p.Tracks n x heads ends m) : p.Tracks n x heads ends False :=
  h.mono (Nat.le_refl _) (Nat.le_refl _) (fun _ hk => hk) (fun _ hk => hk) False.elim

theorem Viable.still (h : p.Viable n x starts ends m) : p.Viable n x starts ends False :=
  h.mono (Nat.le_refl _) (Nat.le_refl _) (fun _ hk => hk) (fun _ hk => hk) False.elim

theorem Viable.tracksFrom (h : p.Viable n x starts ends m) : p.Tracks n x heads ends m :=
  h.tracks.restrict fun _ _ => trivial

theorem Viable.later (h : p.Viable n x starts ends m) (hx : x ≤ y) : p.Viable n y starts ends m :=
  h.mono hx (by omega) (fun _ hk => hk) (fun _ hk => hk) id

theorem Viable.below (h : p.Viable n x starts ends m) (hn : n' ≤ n) :
    p.Viable n' x starts ends m :=
  h.mono (Nat.le_refl _) (by omega) (fun _ hk => hk) (fun _ hk => hk) id

theorem Viable.before (h : p.Viable n x starts ends m) (hends : ∀ k, ends' k → ends k) :
    p.Viable n x starts ends' m :=
  h.mono (Nat.le_refl _) (Nat.le_refl _) (fun _ hk => hk) hends id

theorem Viable.from (h : p.Viable n x starts ends m) (hstarts : ∀ k, starts k → starts' k) :
    p.Viable n x starts' ends m :=
  h.mono (Nat.le_refl _) (Nat.le_refl _) hstarts (fun _ hk => hk) id

theorem Viable.closed (h : p.Viable n x starts (fun _ => True) m) (hx : x ≤ y) :
    p.Viable n y starts ends m :=
  (h.later hx).before fun _ _ => trivial

/-! ## One parser after another -/

theorem Passes.bind (hq : q.Passes x mids a ts) (hf : (f a).Passes y ends b us)
    (hy : y ≤ ts.length + x) (hmids : ∀ rest, Begins ends rest → Begins mids (us ++ rest)) :
    Passes (fun d r => q d r >>= fun a => f a d r) x ends b (ts ++ us) := by
  intro d r i rest hd hr hrest
  rw [List.length_append] at hd hr ⊢
  dsimp only
  rw [List.append_assoc, bind_apply, hq d r i _ (by omega) (by omega) (hmids rest hrest)]
  dsimp only
  rw [hf d r _ rest (by omega) (by omega) hrest, Nat.add_assoc]

theorem Refuses.bind (hq : q.Refuses x ts t) :
    Refuses (fun d r => q d r >>= fun a => f a d r) x ts t := by
  obtain ⟨cause, hcause, hrun⟩ := hq
  refine ⟨cause, hcause, fun d r i rest hd hr => ?_⟩
  dsimp only
  rw [bind_apply, hrun d r i rest hd hr]

theorem Passes.bind_refuses (hq : q.Passes x mids a ts) (hf : (f a).Refuses y us t)
    (hy : y ≤ ts.length + x) (hmids : ∀ rest, Begins mids (us ++ t :: rest)) :
    Refuses (fun d r => q d r >>= fun a => f a d r) x (ts ++ us) t := by
  obtain ⟨cause, hcause, hrun⟩ := hf
  refine ⟨cause, hcause, fun d r i rest hd hr => ?_⟩
  rw [List.length_append] at hd hr ⊢
  dsimp only
  rw [List.append_assoc, bind_apply, hq d r i _ (by omega) (by omega) (hmids rest)]
  dsimp only
  rw [hrun d r _ rest (by omega) (by omega), Nat.add_assoc]

/-- The first kind is the same if what follows some first tokens is replaced by tokens of the same
first kind. -/
theorem begins_of_split {pre rest : List Token} {u : Token} (h : t :: us = pre ++ u :: rest)
    (hts : Begins (· = u.kind) ts) : Begins (· = t.kind) (pre ++ ts) := by
  cases pre with
  | nil =>
    obtain ⟨rfl, -⟩ := List.cons.inj h
    exact hts
  | cons v pre =>
    obtain ⟨rfl, -⟩ := List.cons.inj h
    rfl

theorem length_le_of_moves (hy : y ≤ x ∨ m ∧ y ≤ x + 1) (hmoves : m → ts ≠ []) :
    y ≤ ts.length + x := by
  rcases hy with hy | ⟨hm, hy⟩
  · omega
  · have := List.length_pos_iff.mpr (hmoves hm)
    omega

/-- If the first parser moves, the second one may count a token before it. -/
theorem Tracks.bind (hq : q.Tracks n x heads mids m)
    (hf : ∀ a, (f a).Tracks n y (fun _ => True) ends m')
    (ho : ∀ a, (f a).Opens y mids ends m'') (hy : y ≤ x ∨ m ∧ y ≤ x + 1) :
    Tracks (fun d r => q d r >>= fun a => f a d r) n x heads ends (m ∨ m') := by
  intro ts hts hend hheads
  obtain ⟨pre, t, rest, rfl, hinside, hdecided, hcompleted⟩ := hq ts hts hend hheads
  -- what the first parser passed is completed by what the second one opens with
  have hopened : pre ≠ [] → ∃ more b,
      Passes (fun d r => q d r >>= fun a => f a d r) x ends b (pre ++ more) := by
    intro hpre
    obtain ⟨w, a, hw⟩ := hcompleted hpre
    obtain ⟨v, b, hv, hbegins, -⟩ := ho a
    have hall := hw.bind hv (length_le_of_moves hy fun _ => by simp [hpre]) hbegins
    rw [List.append_assoc] at hall
    exact ⟨w ++ v, b, hall⟩
  rcases hdecided with ⟨a, hpass, hmoves⟩ | hrefuse
  · have hlen := length_le_of_moves hy hmoves
    have hrestend : ∃ u ∈ t :: rest, u.kind = .eof := by
      obtain ⟨u, hu, hkind⟩ := hend
      rcases List.mem_append.mp hu with hu | hu
      · exact absurd hkind (hinside u hu)
      · exact ⟨u, hu, hkind⟩
    rw [List.length_append] at hts
    obtain ⟨pre', u, rest', heq, hinside', hdecided', hcompleted'⟩ :=
      hf a (t :: rest) (by omega) hrestend trivial
    refine ⟨pre ++ pre', u, rest', by rw [heq, List.append_assoc], ?_, ?_, ?_⟩
    · intro v hv
      rcases List.mem_append.mp hv with hv | hv
      · exact hinside v hv
      · exact hinside' v hv
    · rcases hdecided' with ⟨b, hpass', hmoves'⟩ | hrefuse'
      · refine .inl ⟨b, hpass.bind hpass' hlen fun _ hr => begins_of_split heq hr, ?_⟩
        rintro (hm | hm)
        · simp [hmoves hm]
        · simp [hmoves' hm]
      · exact .inr (hpass.bind_refuses hrefuse' hlen fun _ => begins_of_split heq rfl)
    · intro hne
      by_cases hpre' : pre' = []
      · subst hpre'
        rw [List.append_nil] at hne ⊢
        exact hopened hne
      · obtain ⟨w, b, hw⟩ := hcompleted' hpre'
        refine ⟨w, b, ?_⟩
        rw [List.append_assoc]
        refine hpass.bind hw hlen fun r _ => ?_
        obtain ⟨v, vs, rfl⟩ := List.exists_cons_of_ne_nil hpre'
        obtain ⟨rfl, -⟩ := List.cons.inj heq
        rfl
  · exact ⟨pre, t, rest, rfl, hinside, .inr hrefuse.bind, hopened⟩

theorem Opens.bind (hq : q.Opens x starts mids m) (hf : ∀ a, (f a).Opens y mids ends m')
    (hy : y ≤ x ∨ m ∧ y ≤ x + 1) :
    Opens (fun d r => q d r >>= fun a => f a d r) x starts ends (m ∨ m') := by
  obtain ⟨ts, a, hpass, hbegins, hmoves⟩ := hq
  obtain ⟨us, b, hpass', hbegins', hmoves'⟩ := hf a
  refine ⟨ts ++ us, b, hpass.bind hpass' (length_le_of_moves hy hmoves) hbegins', ?_, ?_⟩
  · intro rest hrest
    rw [List.append_assoc]
    exact hbegins _ (hbegins' rest hrest)
  · rintro (hm | hm)
    · simp [hmoves hm]
    · simp [hmoves' hm]

theorem Tracks.andThen (hq : q.Tracks n x heads mids True)
    (hf : ∀ a, (f a).Viable n (x + 1) starts' ends m') (hmids : ∀ k, starts' k → mids k) :
    Tracks (fun d r => q d r >>= fun a => f a d r) n x heads ends True :=
  (Tracks.bind hq (fun a => (hf a).tracks) (fun a => ((hf a).from hmids).opens)
    (.inr ⟨trivial, Nat.le_refl _⟩)).mono (Nat.le_refl _) (Nat.le_refl _) (fun _ hk => hk)
    (fun _ hk => hk) .inl

theorem Viable.andThen (hq : q.Viable n x starts mids True)
    (hf : ∀ a, (f a).Viable n (x + 1) starts' ends m') (hmids : ∀ k, starts' k → mids k) :
    Viable (fun d r => q d r >>= fun a => f a d r) n x starts ends True where
  tracks := hq.tracks.andThen hf hmids
  opens := (Opens.bind hq.opens (fun a => ((hf a).from hmids).opens)
    (.inr ⟨trivial, Nat.le_refl _⟩)).mono (Nat.le_refl _) (fun _ hk => hk) (fun _ hk => hk) .inl

theorem Viable.closedThen (hq : q.Viable n x starts (fun _ => True) True) (hx : x ≤ y)
    (hf : ∀ a, (f a).Viable n (y + 1) starts' ends m') :
    Viable (fun d r => q d r >>= fun a => f a d r) n y starts ends True :=
  (hq.later hx).andThen hf fun _ _ => trivial

theorem Viable.bind (hq : q.Viable n x starts mids m)
    (hf : ∀ a, (f a).Viable n x starts' ends m') (hmids : ∀ k, starts' k → mids k) :
    Viable (fun d r => q d r >>= fun a => f a d r) n x starts ends m' where
  tracks := (Tracks.bind hq.tracks (fun a => (hf a).tracks) (fun a => ((hf a).from hmids).opens)
    (.inl (Nat.le_refl _))).mono (Nat.le_refl _) (Nat.le_refl _) (fun _ hk => hk)
    (fun _ hk => hk) .inr
  opens := (Opens.bind hq.opens (fun a => ((hf a).from hmids).opens)
    (.inl (Nat.le_refl _))).mono (Nat.le_refl _) (fun _ hk => hk) (fun _ hk => hk) .inr

/-! ## Parsers of at most one token -/

theorem exists_cons_of_end (h : ∃ t ∈ ts, t.kind = .eof) : ∃ t rest, ts = t :: rest := by
  obtain ⟨t, ht, -⟩ := h
  exact List.exists_cons_of_ne_nil (List.ne_nil_of_mem ht)

theorem Opens.pure (a : α) : Opens (fun _ _ => Pure.pure a) x ends ends False :=
  ⟨[], a, fun _ _ _ _ _ _ _ => rfl, fun _ hrest => hrest, False.elim⟩

theorem Viable.pure (a : α) : Viable (fun _ _ => Pure.pure a) n x ends ends False where
  tracks := by
    intro ts _ hend _
    obtain ⟨t, rest, rfl⟩ := exists_cons_of_end hend
    refine ⟨[], t, rest, rfl, by simp, .inl ⟨a, fun _ _ _ _ _ _ _ => rfl, False.elim⟩, ?_⟩
    exact fun h => absurd rfl h
  opens := .pure a

theorem Viable.map (hq : q.Viable n x starts ends m) (g : α → β) :
    Viable (fun d r => q d r >>= fun a => Pure.pure (g a)) n x starts ends m := by
  have hpure (a : α) : Viable (fun _ _ => Pure.pure (g a) : Graded β) n x ends ends False := .pure _
  refine ⟨(Tracks.bind hq.tracks (fun a => (hpure a).tracks) (fun a => (hpure a).opens) ?_).mono
    (Nat.le_refl _) (Nat.le_refl _) (fun _ hk => hk) (fun _ hk => hk) .inl, ?_⟩
  · exact .inl (Nat.le_refl _)
  · exact (Opens.bind hq.opens (fun a => (hpure a).opens) (.inl (Nat.le_refl _))).mono
      (Nat.le_refl _) (fun _ hk => hk) (fun _ hk => hk) .inl

theorem passes_advance (x : Nat) (t : Token) :
    Passes (fun _ _ => advance) x (fun _ => True) () [t] := by
  intro d r i rest _ _ hrest
  exact advance_facing hrest.ne_nil

theorem Tracks.advance (hheads : ∀ k, heads k → k ≠ .eof) :
    Tracks (fun _ _ => Parser.advance) n x heads (fun _ => True) True := by
  intro ts _ hend hbegins
  obtain ⟨t, rest, rfl, ht⟩ := hbegins.exists_cons
  obtain ⟨u, rest, rfl⟩ : ∃ u rest', rest = u :: rest' := by
    cases rest with
    | nil =>
      obtain ⟨v, hv, hkind⟩ := hend
      obtain rfl := List.mem_singleton.mp hv
      exact absurd hkind (hheads _ ht)
    | cons u rest => exact ⟨u, rest, rfl⟩
  refine ⟨[t], u, rest, rfl, ?_, .inl ⟨(), ?_, fun _ => by simp⟩, fun _ => ⟨[], (), ?_⟩⟩
  · intro v hv
    obtain rfl := List.mem_singleton.mp hv
    exact hheads _ ht
  · exact (passes_advance x t).mono (Nat.le_refl _) fun _ _ => trivial
  · exact passes_advance x t

theorem Tracks.pass (hheads : ¬heads .eof) (hp : p.Viable n (x + 1) starts ends m) :
    Tracks (fun d r => Parser.advance >>= fun _ => p d r) n x heads ends True := by
  refine Tracks.andThen (.advance ?_) (fun _ => hp) fun _ _ => trivial
  rintro k hk rfl
  exact hheads hk

theorem Opens.pass {k : TokenKind} (hp : p.Opens (x + 1) starts ends m) :
    Opens (fun d r => Parser.advance >>= fun _ => p d r) x (· = k) ends True := by
  obtain ⟨ts, a, hpass, hbegins, -⟩ := hp
  refine ⟨[(Mark.plain k).val] ++ ts, a, ?_, fun _ _ => rfl, fun _ => by simp⟩
  apply (passes_advance x _).bind hpass
  · simp [Nat.add_comm]
  · exact fun rest hrest => (hbegins rest hrest).mono fun _ _ => trivial

end Graded

/-- The parser stops with a syntax error at the token under the cursor. -/
def Complains {α : Type} (p : Parser α) : Prop :=
  ∀ t : Token, ∃ cause : Cause, cause.errorClass = .parser ∧ ∀ i rest,
    p (.facing i (t :: rest)) =
      .error (.error ⟨cause, t.line, t.column⟩) (.facing i (t :: rest))

namespace Complains

variable {α β : Type}

theorem fail {cause : TokenKind → Cause} (h : ∀ k, (cause k).errorClass = .parser) :
    Complains (kind >>= fun k => Parser.fail (cause k) : Parser α) :=
  fun t => ⟨cause t.kind, h t.kind, fun _ _ => rfl⟩

theorem failExpecting (expected : String) : Complains (Parser.failExpecting expected : Parser α) :=
  fail fun _ => rfl

theorem failUnexpected : Complains (Parser.failUnexpected : Parser α) :=
  fail fun _ => rfl

end Complains

namespace Graded

variable {α β σ : Type} {p q : Graded α} {f : α → Graded β} {n x y : Nat} {m m' : Prop} {a : α}
  {heads starts starts' mids ends : TokenKind → Prop} {ts us : List Token} {t : Token}

theorem Tracks.refuses (h : ∀ t, p.Refuses x [] t) : p.Tracks n x heads ends m := by
  intro ts _ hend _
  obtain ⟨t, rest, rfl⟩ := exists_cons_of_end hend
  exact ⟨[], t, rest, rfl, by simp, .inr (h t), fun hne => absurd rfl hne⟩

theorem refuses_of_complains {p : Parser α} (hp : Complains p) (t : Token) :
    Refuses (fun _ _ => p) x [] t := by
  obtain ⟨cause, hcause, hrun⟩ := hp t
  exact ⟨cause, hcause, fun d r i rest _ _ => hrun i rest⟩

theorem Tracks.complains {p : Parser α} (hp : Complains p) :
    Tracks (fun _ _ => p) n x heads ends m :=
  .refuses (refuses_of_complains hp)

/-! ## Looking at a token -/

theorem Tracks.ite {c : Prop} [Decidable c] (hp : c → p.Tracks n x heads ends m)
    (hq : ¬c → q.Tracks n x heads ends m) :
    Tracks (fun d r => if c then p d r else q d r) n x heads ends m := by
  split
  · exact hp ‹_›
  · exact hq ‹_›

theorem Passes.kind {f : TokenKind → Graded α} {k : TokenKind} (h : (f k).Passes x ends a ts)
    (hbegins : ∀ rest, Begins ends rest → Begins (· = k) (ts ++ rest)) :
    Passes (fun d r => Parser.kind >>= fun k => f k d r) x ends a ts := by
  intro d r i rest hd hr hrest
  obtain ⟨t, us, heq, ht⟩ := (hbegins rest hrest).exists_cons
  have hrun := h d r i rest hd hr hrest
  dsimp only
  rw [heq] at hrun ⊢
  rw [bind_apply, kind_facing]
  dsimp only
  rw [ht, hrun]

theorem Refuses.kind {f : TokenKind → Graded α} {k : TokenKind} (h : (f k).Refuses x ts t)
    (hbegins : ∀ rest, Begins (· = k) (ts ++ t :: rest)) :
    Refuses (fun d r => Parser.kind >>= fun k => f k d r) x ts t := by
  obtain ⟨cause, hcause, hrun⟩ := h
  refine ⟨cause, hcause, fun d r i rest hd hr => ?_⟩
  obtain ⟨u, us, heq, hu⟩ := (hbegins rest).exists_cons
  have hrun := hrun d r i rest hd hr
  dsimp only
  rw [heq] at hrun ⊢
  rw [bind_apply, kind_facing]
  dsimp only
  rw [hu, hrun]

theorem Tracks.kind {f : TokenKind → Graded α}
    (h : ∀ k, heads k → (f k).Tracks n x (· = k) ends m) :
    Tracks (fun d r => Parser.kind >>= fun k => f k d r) n x heads ends m := by
  intro ts hts hend hheads
  obtain ⟨t, us, rfl, ht⟩ := hheads.exists_cons
  obtain ⟨pre, u, rest, heq, hinside, hdecided, hcompleted⟩ := h t.kind ht _ hts hend rfl
  refine ⟨pre, u, rest, heq, hinside, ?_, fun hne => ?_⟩
  · rcases hdecided with ⟨a, hpass, hmoves⟩ | hrefuse
    · exact .inl ⟨a, hpass.kind fun _ hr => begins_of_split heq hr, hmoves⟩
    · exact .inr (hrefuse.kind fun _ => begins_of_split heq rfl)
  · obtain ⟨more, a, hpass⟩ := hcompleted hne
    refine ⟨more, a, hpass.kind fun r _ => ?_⟩
    obtain ⟨v, vs, rfl⟩ := List.exists_cons_of_ne_nil hne
    obtain ⟨rfl, -⟩ := List.cons.inj heq
    rfl

theorem Opens.kind {f : TokenKind → Graded α} (hf : ∀ k, starts k → f k = p)
    (h : p.Opens x starts ends m) :
    Opens (fun d r => Parser.kind >>= fun k => f k d r) x starts ends m := by
  obtain ⟨ts, a, hpass, hbegins, hmoves⟩ := h
  refine ⟨ts, a, fun d r i rest hd hr hrest => ?_, hbegins, hmoves⟩
  obtain ⟨t, us, heq, ht⟩ := (hbegins rest hrest).exists_cons
  have hrun := hpass d r i rest hd hr hrest
  dsimp only
  rw [heq] at hrun ⊢
  rw [bind_apply, kind_facing]
  dsimp only
  rw [hf t.kind ht, hrun]

theorem Passes.current {f : Token → Graded α} (h : (f t).Passes x ends a (t :: ts)) :
    Passes (fun d r => Parser.current >>= fun t => f t d r) x ends a (t :: ts) :=
  fun d r i rest hd hr hrest => h d r i rest hd hr hrest

theorem Tracks.current {f : Token → Graded α}
    (h : ∀ t, heads t.kind → (f t).Tracks n x (· = t.kind) ends True) :
    Tracks (fun d r => Parser.current >>= fun t => f t d r) n x heads ends True := by
  intro ts hts hend hheads
  obtain ⟨t, us, rfl, ht⟩ := hheads.exists_cons
  obtain ⟨pre, u, rest, heq, hinside, hdecided, hcompleted⟩ := h t ht _ hts hend rfl
  cases pre with
  | nil =>
    obtain ⟨rfl, rfl⟩ := List.cons.inj heq
    refine ⟨[], t, us, rfl, by simp, ?_, fun hne => absurd rfl hne⟩
    rcases hdecided with ⟨a, -, hmoves⟩ | ⟨cause, hcause, hrun⟩
    · exact absurd rfl (hmoves trivial)
    · exact .inr ⟨cause, hcause, fun d r i rest hd hr => hrun d r i rest hd hr⟩
  | cons v pre =>
    obtain ⟨rfl, rfl⟩ := List.cons.inj heq
    refine ⟨t :: pre, u, rest, rfl, hinside, ?_, fun hne => ?_⟩
    · rcases hdecided with ⟨a, hpass, hmoves⟩ | ⟨cause, hcause, hrun⟩
      · exact .inl ⟨a, hpass.current, hmoves⟩
      · exact .inr ⟨cause, hcause, fun d r i rest hd hr => hrun d r i rest hd hr⟩
    · obtain ⟨more, a, hpass⟩ := hcompleted hne
      exact ⟨more, a, hpass.current⟩

theorem Viable.accept {c : TokenKind → Prop} [DecidablePred c] {f g : Token → Graded α}
    {k : TokenKind} (hg : ∀ t u, (g t).Refuses x [] u) (heof : ¬c .eof) (hk : c k)
    (hf : ∀ t, (f t).Viable n (x + 1) starts ends m) :
    Viable (fun d r => Parser.current >>= fun t =>
      if c t.kind then Parser.advance >>= fun _ => f t d r else g t d r) n x (· = k) ends
      True where
  tracks := by
    refine .current fun t _ => .ite (fun ht => ?_) fun _ => .refuses (hg t)
    exact .pass (fun hkind => heof (hkind ▸ ht)) (hf t)
  opens := by
    obtain ⟨ts, a, hpass, hbegins, -⟩ := (hf (Mark.plain k).val).opens
    have hall := (passes_advance x (Mark.plain k).val).bind (f := fun _ => f (Mark.plain k).val)
      hpass (by simp [Nat.add_comm]) fun rest hrest => (hbegins rest hrest).mono fun _ _ => trivial
    have hright : c (Mark.plain k).val.kind := hk
    refine ⟨(Mark.plain k).val :: ts, a, .current ?_, fun _ _ => rfl, fun _ => by simp⟩
    simpa only [if_pos hright, List.singleton_append] using hall

theorem Viable.expect {k : TokenKind} (hk : k ≠ .eof) :
    Viable (fun _ _ => Parser.expect k) n x (· = k) (fun _ => True) True :=
  .accept (c := (· = k)) (fun _ => refuses_of_complains (.failExpecting _)) hk.symm rfl .pure

theorem Viable.expectThen {f : Token → Graded α} {k : TokenKind} (hk : k ≠ .eof)
    (hf : ∀ t, (f t).Viable n (x + 1) starts ends m) :
    Viable (fun d r => Parser.expect k >>= fun t => f t d r) n x (· = k) ends True :=
  (Viable.expect hk).andThen hf fun _ _ => trivial

/-! ## Loops -/

theorem Passes.congr (h : q.Passes x ends a ts) (hpq : ∀ d r, 0 < r → p d r = q d r) :
    p.Passes x ends a ts := by
  intro d r i rest hd hr hrest
  rw [hpq d r (by omega)]
  exact h d r i rest hd hr hrest

theorem Tracks.congr (h : q.Tracks n x heads ends m) (hpq : ∀ d r, 0 < r → p d r = q d r) :
    p.Tracks n x heads ends m := by
  intro ts hts hend hheads
  obtain ⟨pre, t, rest, heq, houtcome⟩ := h ts hts hend hheads
  refine ⟨pre, t, rest, heq, houtcome.map (fun _ _ _ h => h.congr hpq) ?_ (fun _ hk => hk) id⟩
  rintro ⟨cause, hcause, hrun⟩
  refine ⟨cause, hcause, fun d r i rest hd hr => ?_⟩
  rw [hpq d r (by omega)]
  exact hrun d r i rest hd hr

theorem Passes.oneRoundLess (h : p.Passes x ends a ts) :
    Passes (fun d r => p d (r - 1)) (x + 1) ends a ts :=
  fun d r i rest hd hr hrest => h d (r - 1) i rest (by omega) (by omega) hrest

theorem Viable.oneRoundLess (h : p.Viable n x starts ends m) :
    Viable (fun d r => p d (r - 1)) (n + 1) (x + 1) starts ends m where
  tracks := by
    intro ts hts hend hheads
    obtain ⟨pre, t, rest, heq, houtcome⟩ := h.tracks ts (by omega) hend hheads
    refine ⟨pre, t, rest, heq, houtcome.map (fun _ _ _ h => h.oneRoundLess) ?_ (fun _ hk => hk) id⟩
    rintro ⟨cause, hcause, hrun⟩
    exact ⟨cause, hcause, fun d r i rest hd hr => hrun d (r - 1) i rest (by omega) (by omega)⟩
  opens := by
    obtain ⟨ts, a, hpass, hbegins, hmoves⟩ := h.opens
    exact ⟨ts, a, hpass.oneRoundLess, hbegins, hmoves⟩

theorem Opens.nothing (a : α) (h : ∀ d r i rest, 0 < r → Begins ends rest →
    p d r (.facing i rest) = .ok a (.facing i rest)) : p.Opens x ends ends False :=
  ⟨[], a, fun d r i rest _ hr hrest => h d r i rest (by omega) hrest,
    fun _ hrest => hrest, False.elim⟩

/-- A loop is viable if its body is, given that what the body runs after one round is. The body has
to pass a token before it goes on with the next round; this is why there it may count one token
more. -/
theorem Viable.loop (loop : σ → Graded α) (body : (σ → Graded α) → σ → Graded α)
    (hloop : ∀ s d r, loop s d (r + 1) = body (fun s d r => loop s d (r - 1)) s d (r + 1))
    (hopen : ∀ s, (loop s).Opens x ends ends False)
    (hbody : ∀ (next : σ → Graded α) n', n' ≤ n →
      (∀ s, (next s).Viable n' (x + 1) ends ends False) →
      ∀ s, (body next s).Tracks n' x (fun _ => True) ends False) (s : σ) :
    (loop s).Viable n x ends ends False := by
  suffices htracks : ∀ n', n' ≤ n → ∀ s, (loop s).Tracks n' x (fun _ => True) ends False from
    ⟨htracks n (Nat.le_refl _) s, hopen s⟩
  intro n'
  induction n' with
  | zero =>
    intro _ s ts hts hend
    obtain ⟨t, rest, rfl⟩ := exists_cons_of_end hend
    simp at hts
  | succ n' ih =>
    intro hn s
    have hnext (s : σ) : Viable (fun d r => loop s d (r - 1)) (n' + 1) (x + 1) ends ends False :=
      Viable.oneRoundLess ⟨ih (by omega) s, hopen s⟩
    refine (hbody _ (n' + 1) hn hnext s).congr fun d r hr => ?_
    obtain ⟨r, rfl⟩ : ∃ k, r = k + 1 := ⟨r - 1, by omega⟩
    exact hloop s d r

theorem Viable.bounded (h : p.Viable n x starts ends m) (hx : x ≤ 1) :
    Viable (fun d _ => get >>= fun c => p d c.bound) n x starts ends m := by
  have hbound (i : Nat) (us rest : List Token) (hrest : rest ≠ []) :
      us.length + x < (Cursor.facing i (us ++ rest)).bound := by
    have hlt := Cursor.length_lt_bound i (us ++ rest)
    have := List.length_pos_iff.mpr hrest
    rw [List.length_append] at hlt
    omega
  have hpass (ends : TokenKind → Prop) (a : α) (us : List Token) (h : p.Passes x ends a us) :
      Passes (fun d _ => get >>= fun c => p d c.bound) x ends a us :=
    fun d r i rest hd _ hrest => h d _ i rest hd (hbound i us rest hrest.ne_nil) hrest
  constructor
  · intro ts hts hend hheads
    obtain ⟨pre, t, rest, heq, houtcome⟩ := h.tracks ts hts hend hheads
    refine ⟨pre, t, rest, heq, houtcome.map hpass ?_ (fun _ hk => hk) id⟩
    rintro ⟨cause, hcause, hrun⟩
    refine ⟨cause, hcause, fun d r i rest hd hr => ?_⟩
    exact hrun d _ i rest hd (hbound i pre (t :: rest) (by simp))
  · obtain ⟨ts, a, hts, hbegins, hmoves⟩ := h.opens
    exact ⟨ts, a, hpass _ a ts hts, hbegins, hmoves⟩

theorem Viable.boundedThen (hq : q.Viable n x starts mids m) (hx : x ≤ 1) (hy : x ≤ y)
    (hf : ∀ a, (f a).Viable n y starts' ends m') (hmids : ∀ k, starts' k → mids k) :
    Viable (fun d r => get >>= fun c => q d c.bound >>= fun a => f a d r) n y starts ends m' :=
  ((hq.bounded hx).later hy).bind hf hmids

/-! ## Nested parts -/

theorem Tracks.of_le (h : n ≤ x) : p.Tracks n x heads ends m := by
  intro ts hts hend
  obtain ⟨t, rest, rfl⟩ := exists_cons_of_end hend
  simp only [List.length_cons] at hts
  omega

theorem Passes.nested (h : p.Passes x ends a ts) (hq : ∀ d r, q (d + 1) r = p d r) :
    q.Passes (x + 1) ends a ts := by
  intro d r i rest hd hr hrest
  obtain ⟨d, rfl⟩ : ∃ e, d = e + 1 := ⟨d - 1, by omega⟩
  rw [hq]
  exact h d r i rest (by omega) (by omega) hrest

/-- A part that is nested one level deeper starts one token later. -/
theorem Tracks.nested (h : p.Tracks n x heads ends m) (hq : ∀ d r, q (d + 1) r = p d r) :
    q.Tracks (n + 1) (x + 1) heads ends m := by
  intro ts hts hend hheads
  obtain ⟨pre, t, rest, heq, houtcome⟩ := h ts (by omega) hend hheads
  refine ⟨pre, t, rest, heq, houtcome.map (fun _ _ _ h => h.nested hq) ?_ (fun _ hk => hk) id⟩
  rintro ⟨cause, hcause, hrun⟩
  refine ⟨cause, hcause, fun d r i rest hd hr => ?_⟩
  obtain ⟨d, rfl⟩ : ∃ e, d = e + 1 := ⟨d - 1, by omega⟩
  rw [hq]
  exact hrun d r i rest (by omega) (by omega)

theorem Opens.nested (h : p.Opens x starts ends m) (hq : ∀ d r, q (d + 1) r = p d r) :
    q.Opens (x + 1) starts ends m := by
  obtain ⟨ts, a, hpass, hbegins, hmoves⟩ := h
  exact ⟨ts, a, hpass.nested hq, hbegins, hmoves⟩

end Graded

end Luuqad.Parser

import Luuqad.Proofs.Grammar.RoundTrip
import Luuqad.Proofs.Parsing.Outcome

/-!
# Choices and rows

Parsers that choose by the token under the cursor, and loops over items, are viable if their parts
are. A loop over items can be left in front of the token that closes it, whatever it has passed
before.
-/

namespace Luuqad.Parser.Graded

variable {α β : Type} {p q : Graded α} {n x : Nat} {m : Prop} {k : TokenKind}
  {starts mids ends : TokenKind → Prop}

/-! ## Choices -/

/-- Two ways to go on, the first of them in front of certain tokens, which none of `starts` is. -/
theorem Viable.unless {c : TokenKind → Prop} [DecidablePred c] (hp : p.Tracks n x c ends m)
    (hq : q.Viable n x starts ends m) (hstarts : ∀ k, starts k → ¬c k) :
    Viable (fun d r => kind >>= fun k => if c k then p d r else q d r) n x starts ends m where
  tracks := by
    refine .kind fun k _ => .ite (fun hk => hp.restrict ?_) fun _ => hq.tracksFrom
    rintro _ rfl
    exact hk
  opens := .kind (p := q) (fun k hk => by simp only [if_neg (hstarts k hk)]) hq.opens

theorem Viable.when {c : TokenKind → Prop} [DecidablePred c] (hp : p.Viable n x starts ends m)
    (hq : q.Tracks n x (fun k => ¬c k) ends m) (hstarts : ∀ k, starts k → c k) :
    Viable (fun d r => kind >>= fun k => if c k then p d r else q d r) n x starts ends m where
  tracks := by
    refine .kind fun k _ => .ite (fun _ => hp.tracksFrom) fun hk => hq.restrict ?_
    rintro _ rfl
    exact hk
  opens := .kind (p := p) (fun k hk => by simp only [if_pos (hstarts k hk)]) hp.opens

theorem Viable.require {c : TokenKind → Prop} [DecidablePred c] {stop : Parser Unit}
    {f : Token → Graded α} (hstop : Complains stop) (heof : c .eof) (hk : ¬c k)
    (hf : ∀ t, (f t).Viable n (x + 1) starts ends m) :
    Viable (fun d r => current >>= fun t =>
      if c t.kind then stop >>= fun _ => advance >>= fun _ => f t d r
      else advance >>= fun _ => f t d r) n x (· = k) ends True := by
  have hall := Viable.accept (c := fun k => ¬c k)
    (g := fun t d r => stop >>= fun _ => advance >>= fun _ => f t d r)
    (fun _ u => (refuses_of_complains hstop u).bind) (fun h => h heof) hk hf
  simpa only [ite_not] using hall

theorem Viable.unlessToken {c : TokenKind → Prop} [DecidablePred c] {f : Token → Graded α}
    (hf : ∀ t, c t.kind → (f t).Tracks n x c ends True) (hq : q.Viable n x starts ends m)
    (hstarts : ∀ k, starts k → ¬c k) :
    Viable (fun d r => current >>= fun t => if c t.kind then f t d r else q d r) n x starts ends
      False := by
  have hcurrent : Tracks (fun d r => current >>= fun t => f t d r) n x c ends True :=
    .current fun t ht => (hf t ht).restrict (by rintro _ rfl; exact ht)
  have hall := Viable.unless hcurrent.still hq.still hstarts
  suffices heq : (fun d r => current >>= fun t => if c t.kind then f t d r else q d r) =
      fun d r => kind >>= fun k => if c k then current >>= fun t => f t d r else q d r from
    heq ▸ hall
  funext d r cursor
  show (if c cursor.current.kind then f cursor.current d r else q d r) cursor =
    (if c cursor.current.kind then current >>= fun t => f t d r else q d r) cursor
  split <;> rfl

theorem Viable.skip (hk : k ≠ .eof) :
    Viable (fun _ _ => Parser.skip k) n x (· = k) (fun _ => True) False where
  tracks := by
    refine .kind fun k' _ => .ite (fun hk' => ?_) fun _ => (Viable.pure ()).tracksFrom
    subst hk'
    exact (Tracks.advance (by rintro _ rfl; exact hk)).still
  opens := by
    refine ⟨[(Mark.plain k).val], (), fun d r i rest _ _ hrest => ?_, fun _ _ => rfl, False.elim⟩
    exact skip_facing_of_eq rfl hrest.ne_nil

/-! ## Rows of items -/

variable {item : Nat → Parser α} {stop close : TokenKind}

theorem Viable.itemsUntil (hitem : Viable (fun d _ => item d) n x starts mids True)
    (hmids : mids stop) :
    Viable (fun d r => Parser.itemsUntil stop (item d) r) n x (· = stop) (· = stop) False := by
  refine .loop (fun _ d r => Parser.itemsUntil stop (item d) r)
    (fun next s d r => kind >>= fun k => if k = stop then Pure.pure [] else
      item d >>= fun a => next s d r >>= fun more => Pure.pure (a :: more))
    (fun _ _ _ => rfl) (fun _ => .nothing [] fun d r i rest hr hrest => ?_)
    (fun next n' hn hnext s => ?_) ()
  · obtain ⟨r, rfl⟩ : ∃ k, r = k + 1 := ⟨r - 1, by omega⟩
    obtain ⟨t, rest, rfl, ht⟩ := hrest.exists_cons
    exact itemsUntil_stop ht (by omega)
  · have hround := (hitem.below hn).andThen (fun a => (hnext s).map (a :: ·))
      (by rintro _ rfl; exact hmids)
    exact (Viable.when (c := (· = stop)) (.pure []) hround.still.tracksFrom fun _ h => h).tracks

theorem Viable.many (hitem : Viable (fun d _ => item d) n x starts mids True) (hmids : mids stop)
    (hx : x ≤ 1) :
    Viable (fun d _ => Parser.many stop (item d)) n x (· = stop) (· = stop) False :=
  (Viable.itemsUntil hitem hmids).bounded hx

theorem Viable.itemsAfterCommas (hitem : Viable (fun d _ => item d) n (x + 1) starts mids True)
    (hends : ∀ k, ends k → mids k) (hcomma : ¬ends .comma) :
    Viable (fun d r => Parser.itemsAfterCommas (item d) r) n x ends ends False := by
  refine .loop (fun _ d r => Parser.itemsAfterCommas (item d) r)
    (fun next s d r => kind >>= fun k => if k = .comma then
      advance >>= fun _ => item d >>= fun a => next s d r >>= fun more => Pure.pure (a :: more)
      else Pure.pure [])
    (fun _ _ _ => rfl) (fun _ => .nothing [] fun d r i rest hr hrest => ?_)
    (fun next n' hn hnext s => ?_) ()
  · obtain ⟨r, rfl⟩ : ∃ k, r = k + 1 := ⟨r - 1, by omega⟩
    obtain ⟨t, rest, rfl, ht⟩ := hrest.exists_cons
    have hne : t.kind ≠ .comma := fun hk => hcomma (hk ▸ ht)
    simp only [Parser.itemsAfterCommas, bind_apply, kind_facing, if_neg hne, pure_apply]
  · have hround :=
      (hitem.below hn).andThen (fun a => ((hnext s).later (by omega)).map (a :: ·)) hends
    refine (Viable.unless (c := (· = .comma)) (Tracks.pass (by simp) hround).still
      (.pure []) ?_).tracks
    rintro _ hk rfl
    exact hcomma hk

theorem Viable.arguments (hitem : Viable (fun d _ => item d) n 1 starts mids True)
    (hmids : mids .rightParen) :
    Viable (fun d _ => Parser.arguments (item d)) n 1 (· = .rightParen) (fun _ => True) True := by
  have hclose {y : Nat} (items : List α) : Viable
      (fun _ _ => Parser.expect .rightParen >>= fun _ => Pure.pure items) n y (· = .rightParen)
      (fun _ => True) True := (Viable.expect (by decide)).map _
  have hends (k : TokenKind) (hk : k = .rightParen) : mids k := hk ▸ hmids
  have hsome := hitem.andThen (fun a => (hitem.itemsAfterCommas hends (by simp)).boundedThen
    (Nat.zero_le _) (Nat.zero_le 2) (fun more => hclose (a :: more)) fun _ h => h) hends
  exact .when (c := (· = .rightParen)) (hclose []) hsome.tracksFrom fun _ h => h

theorem Viable.separatedUntil (hitem : Viable (fun d _ => item d) n 1 starts mids True)
    (hmids : mids close) (hclose : close ≠ .comma) :
    Viable (fun d r => Parser.separatedUntil close (item d) r) n 1 (· = close)
    (· = close) False := by
  refine .loop (fun _ d r => Parser.separatedUntil close (item d) r)
    (fun next s d r => kind >>= fun k => if k = close then Pure.pure [] else
      item d >>= fun a => kind >>= fun k => if k = .comma then
        advance >>= fun _ => next s d r >>= fun more => Pure.pure (a :: more)
        else Pure.pure [a])
    (fun _ _ _ => rfl) (fun _ => .nothing [] fun d r i rest hr hrest => ?_)
    (fun next n' hn hnext s => ?_) ()
  · obtain ⟨r, rfl⟩ : ∃ k, r = k + 1 := ⟨r - 1, by omega⟩
    obtain ⟨t, rest, rfl, ht⟩ := hrest.exists_cons
    exact separatedUntil_close ht (by omega)
  · have hrest (a : α) := Viable.unless (c := (· = .comma))
      (Tracks.pass (by simp) (((hnext s).later (Nat.le_succ _)).map (a :: ·))).still (.pure [a])
      (by rintro _ rfl; exact hclose)
    have hround := (hitem.below hn).andThen hrest (by rintro _ rfl; exact hmids)
    exact (Viable.when (c := (· = close)) (.pure []) hround.still.tracksFrom fun _ h => h).tracks

end Luuqad.Parser.Graded

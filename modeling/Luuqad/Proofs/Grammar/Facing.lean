import Luuqad.Parser.Program

/-!
# Running a parser on given tokens

`Cursor.facing i ts` is the cursor after `i` steps with the tokens `ts` still to be read. The lemmas
here say what the elementary parsers do on it; everything else about the parser is derived from
them.
-/

namespace Luuqad

/-- The cursor after `i` steps, in front of some tokens. -/
def Cursor.facing (i : Nat) : List Token → Cursor
  | [] => ⟨i, default, []⟩
  | t :: ts => ⟨i, t, ts⟩

theorem Cursor.facing_congr {i j : Nat} {ts : List Token} (h : i = j) : facing i ts = facing j ts :=
  h ▸ rfl

/-- A loop over the tokens ahead may take more rounds than there are tokens. -/
theorem Cursor.length_lt_bound (i : Nat) (ts : List Token) : ts.length < (facing i ts).bound := by
  cases ts <;> simp [facing, bound]

/-- There are tokens, and the kind of the first one is as `p` says. -/
def Begins (p : TokenKind → Prop) : List Token → Prop
  | [] => False
  | t :: _ => p t.kind

namespace Begins

variable {p q : TokenKind → Prop} {ts us : List Token}

theorem ne_nil (h : Begins p ts) : ts ≠ [] := by
  rintro rfl
  exact h

theorem exists_cons (h : Begins p ts) : ∃ t us, ts = t :: us ∧ p t.kind := by
  cases ts with
  | nil => exact h.elim
  | cons t us => exact ⟨t, us, rfl, h⟩

theorem length_pos (h : Begins p ts) : 0 < ts.length := List.length_pos_iff.mpr h.ne_nil

theorem mono (h : Begins p ts) (hpq : ∀ k, p k → q k) : Begins q ts := by
  obtain ⟨t, us, rfl, ht⟩ := h.exists_cons
  exact hpq _ ht

theorem append (h : Begins p ts) : Begins p (ts ++ us) := by
  obtain ⟨t, ts, rfl, ht⟩ := h.exists_cons
  exact ht

theorem append_of (h : ts = [] ∨ Begins p ts) (hu : Begins p us) : Begins p (ts ++ us) := by
  rcases h with rfl | h
  · exact hu
  · exact h.append

end Begins

namespace Parser

variable {α β : Type} {i : Nat} {t : Token} {ts : List Token}

theorem bind_apply (x : Parser α) (f : α → Parser β) (c : Cursor) :
    (x >>= f) c = match x c with
      | .ok a c' => f a c'
      | .error e c' => .error e c' := by
  show EStateM.bind x f c = _
  unfold EStateM.bind
  cases x c <;> rfl

theorem bind_eq_ok {p : Parser α} {f : α → Parser β} {c c' : Cursor} {b : β}
    (h : (p >>= f) c = .ok b c') : ∃ a c₁, p c = .ok a c₁ ∧ f a c₁ = .ok b c' := by
  rw [bind_apply] at h
  cases hp : p c with
  | ok a c₁ => exact ⟨a, c₁, rfl, by simpa only [hp] using h⟩
  | error e c₁ => simp [hp] at h

theorem map_eq_ok {p : Parser α} {f : α → β} {c c' : Cursor} {b : β} (h : (f <$> p) c = .ok b c') :
    ∃ a, p c = .ok a c' ∧ b = f a := by
  rw [← bind_pure_comp] at h
  obtain ⟨a, c₁, hp, ha⟩ := bind_eq_ok h
  cases ha
  exact ⟨a, hp, rfl⟩

theorem pure_apply (a : α) (c : Cursor) : (pure a : Parser α) c = .ok a c := rfl

theorem get_apply (c : Cursor) : (get : Parser Cursor) c = .ok c c := rfl

theorem current_facing : current (.facing i (t :: ts)) = .ok t (.facing i (t :: ts)) := rfl

theorem kind_facing : kind (.facing i (t :: ts)) = .ok t.kind (.facing i (t :: ts)) := rfl

theorem advance_facing (h : ts ≠ []) :
    advance (.facing i (t :: ts)) = .ok () (.facing (i + 1) ts) := by
  cases ts with
  | nil => exact absurd rfl h
  | cons u us => rfl

theorem expect_facing {k : TokenKind} (hk : t.kind = k) (h : ts ≠ []) :
    expect k (.facing i (t :: ts)) = .ok t (.facing (i + 1) ts) := by
  simp only [expect, bind_apply, current_facing, hk, if_true, advance_facing h, pure_apply]

theorem skip_facing {k : TokenKind} (h : Begins (· ≠ k) ts) :
    skip k (.facing i ts) = .ok () (.facing i ts) := by
  obtain ⟨t, us, rfl, ht⟩ := h.exists_cons
  simp only [skip, bind_apply, kind_facing, if_neg ht, pure_apply]

theorem skip_facing_of_eq {k : TokenKind} (hk : t.kind = k) (h : ts ≠ []) :
    skip k (.facing i (t :: ts)) = .ok () (.facing (i + 1) ts) := by
  simp only [skip, bind_apply, kind_facing, hk, if_true, advance_facing h]

end Parser

end Luuqad

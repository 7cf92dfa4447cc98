import Luuqad.Proofs.Lexing.Scan
import Mathlib.Data.List.Forall2

/-!
# Tokens tile the text

A scanned text is cut into stretches that lie side by side: the lexemes of its tokens, comments, and
blanks (`Tiling`). Each step of the scanner adds the stretch it read in front of the tiling of the
rest, and the place it keeps is the place counted afresh from the start of the text.
-/

namespace Luuqad

/-! ### Places -/

/-- The place behind some characters: lines are counted by the newlines in front, columns by the
characters since the last of them. -/
def Position.behind (cs : List Char) : Position :=
  ⟨1 + cs.count '\n', 1 + (cs.reverse.takeWhile (· != '\n')).length⟩

theorem Position.behind_after (cs : List Char) (c : Char) :
    (Position.behind cs).after c = .behind (cs ++ [c]) := by
  unfold Position.behind Position.after
  by_cases hc : c = '\n'
  · subst hc
    simp only [beq_self_eq_true, if_true, List.count_append, List.count_singleton_self,
      List.reverse_append, List.reverse_singleton, List.singleton_append]
    rw [List.takeWhile_cons_of_neg (by simp)]
    simp [Nat.add_assoc]
  · have hne : (c != '\n') = true := by simpa using hc
    have hcount : [c].count '\n' = 0 := List.count_eq_zero.mpr (by simpa using Ne.symm hc)
    simp only [beq_iff_eq, hc, if_false, List.count_append, hcount, List.reverse_append,
      List.reverse_singleton, List.singleton_append]
    rw [List.takeWhile_cons, if_pos hne]
    simp [Nat.add_assoc]

theorem Position.behind_past (before cs : List Char) :
    (Position.behind before).past cs = .behind (before ++ cs) := by
  induction cs generalizing before with
  | nil => simp [Position.past]
  | cons c cs ih =>
    rw [Position.past, List.foldl_cons, ← Position.past, Position.behind_after, ih,
      List.append_assoc, List.singleton_append]

namespace Lexer

/-- A stretch of a text: the characters from `start` up to, and without, `stop`. -/
structure Span where
  start : Nat
  stop : Nat
deriving DecidableEq, Repr

namespace Span

def text (s : Span) (source : List Char) : List Char :=
  (source.drop s.start).take (s.stop - s.start)

def Covers (s : Span) (i : Nat) : Prop := s.start ≤ i ∧ i < s.stop

/-- The stretch is a whole comment: a line comment goes on to the end of its line, a block comment
to the first closing. -/
inductive IsComment (source : List Char) (s : Span) : Prop
  | line {body : List Char} : s.text source = '/' :: '/' :: body → '\n' ∉ body →
      (∀ c ∈ source[s.stop]?, c = '\n') → IsComment source s
  | block {body : List Char} : s.text source = '/' :: '*' :: (body ++ ['*', '/']) →
      ¬ ['*', '/'] <:+: body → IsComment source s

theorem text_between (before middle after : List Char) :
    (Span.mk before.length (before ++ middle).length).text (before ++ middle ++ after) =
      middle := by
  simp [Span.text]

end Span

/-- From the place `i` on, the text consists of the stretches `spans` and `comments`, which lie side
by side, and of blanks. -/
structure Tiling (source : List Char) (i : Nat) (spans comments : List Span) : Prop where
  inside : ∀ s ∈ spans, i ≤ s.start ∧ s.start < s.stop ∧ s.stop ≤ source.length
  ordered : spans.Pairwise fun s s' => s.stop ≤ s'.start
  comment : ∀ g ∈ comments, i ≤ g.start ∧ g.IsComment source
  apart : ∀ g ∈ comments, ∀ s ∈ spans, g.stop ≤ s.start ∨ s.stop ≤ g.start
  covered : ∀ j (hj : j < source.length), i ≤ j →
    (∃ s ∈ spans, s.Covers j) ∨ (∃ g ∈ comments, g.Covers j) ∨ Text.isBlank source[j] = true

namespace Tiling

variable {source : List Char} {i k : Nat} {spans comments : List Span}

theorem nil (source : List Char) : Tiling source source.length [] [] where
  inside := by simp
  ordered := .nil
  comment := by simp
  apart := by simp
  covered j hj hij := by omega

theorem blank (h : Tiling source (i + 1) spans comments) (hi : i < source.length)
    (hblank : Text.isBlank source[i] = true) : Tiling source i spans comments where
  inside s hs := by
    have hin := h.inside s hs
    omega
  ordered := h.ordered
  comment g hg := ⟨by have := (h.comment g hg).1; omega, (h.comment g hg).2⟩
  apart := h.apart
  covered j hj hij := by
    rcases Nat.eq_or_lt_of_le hij with rfl | hlt
    · exact .inr (.inr hblank)
    · exact h.covered j hj hlt

theorem skip (h : Tiling source k spans comments) (hik : i ≤ k)
    (hcomment : (Span.mk i k).IsComment source) : Tiling source i spans (⟨i, k⟩ :: comments) where
  inside s hs := by
    have hin := h.inside s hs
    omega
  ordered := h.ordered
  comment g hg := by
    rcases List.mem_cons.mp hg with rfl | hg
    · exact ⟨Nat.le_refl _, hcomment⟩
    · exact ⟨Nat.le_trans hik (h.comment g hg).1, (h.comment g hg).2⟩
  apart g hg s hs := by
    rcases List.mem_cons.mp hg with rfl | hg
    · exact .inl (h.inside s hs).1
    · exact h.apart g hg s hs
  covered j hj hij := by
    by_cases hjk : j < k
    · exact .inr (.inl ⟨⟨i, k⟩, List.mem_cons_self, hij, hjk⟩)
    · rcases h.covered j hj (Nat.le_of_not_lt hjk) with hspan | ⟨g, hg, hcovers⟩ | hblank
      · exact .inl hspan
      · exact .inr (.inl ⟨g, List.mem_cons_of_mem _ hg, hcovers⟩)
      · exact .inr (.inr hblank)

theorem token (h : Tiling source k spans comments) (hik : i < k) (hk : k ≤ source.length) :
    Tiling source i (⟨i, k⟩ :: spans) comments where
  inside s hs := by
    rcases List.mem_cons.mp hs with rfl | hs
    · exact ⟨Nat.le_refl _, hik, hk⟩
    · have hin := h.inside s hs
      omega
  ordered := List.pairwise_cons.mpr ⟨fun s hs => (h.inside s hs).1, h.ordered⟩
  comment g hg := ⟨by have := (h.comment g hg).1; omega, (h.comment g hg).2⟩
  apart g hg s hs := by
    rcases List.mem_cons.mp hs with rfl | hs
    · exact .inr (h.comment g hg).1
    · exact h.apart g hg s hs
  covered j hj hij := by
    by_cases hjk : j < k
    · exact .inl ⟨⟨i, k⟩, List.mem_cons_self, hij, hjk⟩
    · rcases h.covered j hj (Nat.le_of_not_lt hjk) with ⟨s, hs, hcovers⟩ | hother
      · exact .inl ⟨s, List.mem_cons_of_mem _ hs, hcovers⟩
      · exact .inr hother

end Tiling

/-- The token stands on the stretch: the stretch is its lexeme, and its place is counted afresh. -/
def StandsOn (source : List Char) (t : Token) (s : Span) : Prop :=
  Spells t.kind t.value (s.text source) ∧
    t.line = some (Position.behind (source.take s.start)).line ∧
    t.column = some (Position.behind (source.take s.start)).column

theorem scan_tiles {fresh : Bool} {before cs : List Char} {tokens : List Token}
    (h : scan fresh (.behind before) cs = .ok tokens) :
    ∃ spans comments marked, Tiling (before ++ cs) before.length spans comments ∧
      List.Forall₂ (StandsOn (before ++ cs)) marked spans ∧
      (tokens = marked ∨ tokens = marked ++ [.at .eof .null (.behind (before ++ cs))]) := by
  -- the text still to be read grows shorter with each stretch that is taken off its front
  induction hn : cs.length using Nat.strong_induction_on generalizing fresh before cs tokens with
  | _ n ih =>
    subst hn
    cases cs with
    | nil =>
      rw [scan_nil] at h
      rw [List.append_nil]
      refine ⟨[], [], [], .nil before, .nil, ?_⟩
      cases h
      cases fresh <;> simp
    | cons c rest =>
      rcases scan_cases h with ⟨hblank, hrest⟩ | ⟨body, after, htext, hbody, hafter, hrest⟩ |
        ⟨body, after, htext, hbody, hrest⟩ |
        ⟨tail, after, kind, value, later, rfl, hspells, rfl, hrest⟩
      · rw [Position.behind_after] at hrest
        obtain ⟨spans, comments, marked, htiling, hmarked, htokens⟩ :=
          ih rest.length (by simp) hrest rfl
        simp only [List.append_assoc, List.singleton_append, List.length_append,
          List.length_singleton] at htiling hmarked htokens
        exact ⟨spans, comments, marked, htiling.blank (by simp) (by simpa using hblank), hmarked,
          htokens⟩
      · have hsource : before ++ c :: rest = before ++ '/' :: '/' :: body ++ after := by
          simp [htext]
        rw [Position.behind_past] at hrest
        obtain ⟨spans, comments, marked, htiling, hmarked, htokens⟩ :=
          ih after.length (by rw [htext]; simp; omega) hrest rfl
        rw [hsource]
        refine ⟨spans, _, marked, htiling.skip (by simp) ?_, hmarked, htokens⟩
        refine .line (Span.text_between _ _ _) hbody fun d hd => hafter d ?_
        rw [List.getElem?_append_right (Nat.le_refl _), Nat.sub_self] at hd
        rwa [List.head?_eq_getElem?]
      · have hsource : before ++ c :: rest
            = before ++ '/' :: '*' :: (body ++ ['*', '/']) ++ after := by simp [htext]
        rw [Position.behind_past] at hrest
        obtain ⟨spans, comments, marked, htiling, hmarked, htokens⟩ :=
          ih after.length (by rw [htext]; simp; omega) hrest rfl
        rw [hsource]
        exact ⟨spans, _, marked, htiling.skip (by simp) (.block (Span.text_between _ _ _) hbody),
          hmarked, htokens⟩
      · have hsource : before ++ c :: (tail ++ after) = before ++ c :: tail ++ after := by simp
        rw [Position.behind_past] at hrest
        obtain ⟨spans, comments, marked, htiling, hmarked, htokens⟩ :=
          ih after.length (by rw [List.length_cons, List.length_append]; omega) hrest rfl
        rw [hsource]
        refine ⟨_, comments, .at kind value (.behind before) :: marked,
          htiling.token (by simp) (by simp), .cons ⟨?_, ?_, ?_⟩ hmarked, ?_⟩
        · rw [Span.text_between]
          exact hspells
        · simp [Token.at]
        · simp [Token.at]
        · rcases htokens with rfl | rfl
          · exact .inl rfl
          · exact .inr rfl

theorem Spells.kind_ne_eof {kind : TokenKind} {value : Value} {text : List Char}
    (h : Spells kind value text) : kind ≠ .eof := by
  have hkeywords : ∀ entry ∈ TokenKind.keywords, entry.2 ≠ .eof := by decide
  have hsymbols : ∀ entry ∈ symbols, entry.2 ≠ .eof := by decide
  cases h with
  | identifier => decide
  | keyword hmem => exact hkeywords _ hmem
  | number => decide
  | string => decide
  | symbol hmem => exact hsymbols _ hmem

theorem kind_ne_eof_of_standsOn {source : List Char} {marked : List Token} {spans : List Span}
    (h : List.Forall₂ (StandsOn source) marked spans) : ∀ t ∈ marked, t.kind ≠ .eof := by
  induction h with
  | nil => simp
  | cons hstands _ ih => exact List.forall_mem_cons.mpr ⟨hstands.1.kind_ne_eof, ih⟩

/-- The tokens of a text, its end apart, stand in order on stretches of the text. What lies outside
of them is blank or belongs to a comment that touches none of them. An end token is the last one and
stands behind the whole text. -/
theorem tokenize_tiles (source : String) (tokens : List Token) (h : tokenize source = .ok tokens) :
    ∃ spans comments, Tiling source.toList 0 spans comments ∧
      List.Forall₂ (StandsOn source.toList) (tokens.filter (·.kind != .eof)) spans ∧
      (∀ t ∈ tokens.dropLast, t.kind ≠ .eof) ∧
      ∀ t ∈ tokens.getLast?, t.kind = .eof → t = .at .eof .null (.behind source.toList) := by
  have hscan : scan true (.behind []) source.toList = .ok tokens := h
  obtain ⟨spans, comments, marked, htiling, hmarked, htokens⟩ := scan_tiles hscan
  rw [List.nil_append] at htiling hmarked htokens
  have hkinds := kind_ne_eof_of_standsOn hmarked
  have hfilter : marked.filter (·.kind != .eof) = marked :=
    List.filter_eq_self.mpr fun t ht => by simpa using hkinds t ht
  refine ⟨spans, comments, htiling, ?_⟩
  rcases htokens with rfl | rfl
  · rw [hfilter]
    refine ⟨hmarked, fun t ht => hkinds t ((List.dropLast_sublist _).mem ht), fun t ht heof => ?_⟩
    exact absurd heof (hkinds t (List.mem_of_getLast? ht))
  · rw [List.filter_append, hfilter]
    refine ⟨by simpa [Token.at] using hmarked, ?_, ?_⟩
    · simpa using hkinds
    · intro t ht _
      simpa using ht.symm

theorem tokenize_tiles_of_comment :
    ∃ spans comments, Tiling "x >= 'a' /* b */\n".toList 0 spans comments ∧
      List.Forall₂ (StandsOn "x >= 'a' /* b */\n".toList)
        [.at .identifier (.str "x") ⟨1, 1⟩, .at .greaterEqual (.str ">=") ⟨1, 3⟩,
          .at .string (.str "a") ⟨1, 6⟩] spans := by
  have hread : tokenize "x >= 'a' /* b */\n" = .ok [.at .identifier (.str "x") ⟨1, 1⟩,
      .at .greaterEqual (.str ">=") ⟨1, 3⟩, .at .string (.str "a") ⟨1, 6⟩,
      .at .eof .null ⟨2, 1⟩] := by decide +kernel
  obtain ⟨spans, comments, htiling, hstands, -⟩ := tokenize_tiles _ _ hread
  exact ⟨spans, comments, htiling, hstands⟩

end Lexer

end Luuqad

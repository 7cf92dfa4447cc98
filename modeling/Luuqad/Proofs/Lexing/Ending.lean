import Luuqad.Proofs.Lexing.Tiling

/-!
# Texts with a blank behind them

The scanner marks the end of a text by a token only if a blank or a comment comes after the last
token. A blank behind the text makes sure of that and changes nothing else: the same tokens are
read, with the same places, and one end token follows; and a text that cannot be read without the
blank cannot be read with it (`tokenize_newline`).

`BlankAdded` compares what comes of a text with what comes of the text and the blank. A fault that
stands inside the text is the same in both. A string or a comment that is not closed is reported at
the end of the text, so its place moves on with the blank.
-/

namespace Luuqad

/-! ### Places -/

namespace Position

variable (p : Position)

theorem past_append (cs ds : List Char) : p.past (cs ++ ds) = (p.past cs).past ds :=
  List.foldl_append

theorem line_le_after (c : Char) : p.line ≤ (p.after c).line := by
  unfold after
  split
  · exact Nat.le_succ _
  · exact Nat.le_refl _

theorem line_le_past (cs : List Char) : p.line ≤ (p.past cs).line := by
  induction cs generalizing p with
  | nil => exact Nat.le_refl _
  | cons c cs ih => exact Nat.le_trans (p.line_le_after c) (ih (p.after c))

end Position

/-- The token has a place, on this line or on one before it. -/
def Token.UpTo (t : Token) (line : Nat) : Prop :=
  ∃ p : Position, p.line ≤ line ∧ t.line = some p.line ∧ t.column = some p.column

/-- If the fault has a place, it stands on this line or on one before it. -/
def Fault.UpTo (f : Fault) (line : Nat) : Prop := ∀ d, f = .error d → ∃ l ≤ line, d.line = some l

def Cause.at (cause : Cause) (p : Position) : Fault := cause.faultAt p.line p.column

namespace Lexer

/-! ### Steps that fail, and all steps -/

section

variable {fresh : Bool} {c : Char} {rest : List Char} {p : Position}

theorem lexeme_error {f : Fault} (h : lexeme c rest p = .error f) :
    f.UpTo (p.past (c :: rest)).line := by
  have hstart : p.line ≤ (p.past (c :: rest)).line := p.line_le_past _
  rintro d rfl
  unfold lexeme at h
  split at h
  · cases h
  · split at h
    · simp only [number] at h
      split at h <;> cases h
    · split at h
      · simp only [string] at h
        split at h
        · cases h
        · cases h
          exact ⟨_, Nat.le_refl _, rfl⟩
      · simp only [operator] at h
        split at h
        · cases h
        · cases h
        · cases h
          exact ⟨_, hstart, rfl⟩

theorem scan_unclosed {more : List Char} (h : commentLength? more = none) :
    scan fresh p ('/' :: '*' :: more) =
      .error (Cause.unterminatedComment.at (p.past ('/' :: '*' :: more))) := by
  rw [scan, if_neg (by decide), if_neg (by simp), if_pos (by simp), List.drop_succ_cons,
    List.drop_zero, h]
  rfl

theorem scan_fault {f : Fault} (hc : Text.isBlank c = false)
    (hslash : c = '/' → ∀ d ∈ rest.head?, d ≠ '/' ∧ d ≠ '*') (h : lexeme c rest p = .error f) :
    scan fresh p (c :: rest) = .error f := by
  rw [scan_lexeme fresh p hc hslash, h]
  rfl

theorem text_cases (c : Char) (rest : List Char) :
    Text.isBlank c = true ∨
    (∃ body after, c :: rest = '/' :: '/' :: (body ++ after) ∧ '\n' ∉ body ∧
      ∀ d ∈ after.head?, d = '\n') ∨
    (∃ body after, c :: rest = '/' :: '*' :: (body ++ '*' :: '/' :: after) ∧
      ¬['*', '/'] <:+: body) ∨
    (∃ more, c :: rest = '/' :: '*' :: more ∧ commentLength? more = none) ∨
    (Text.isBlank c = false ∧ (c = '/' → ∀ d ∈ rest.head?, d ≠ '/' ∧ d ≠ '*')) := by
  cases hblank : Text.isBlank c with
  | true => exact .inl rfl
  | false =>
    right
    by_cases hc : c = '/'
    · subst hc
      cases rest with
      | nil => simp
      | cons d more =>
        by_cases hline : d = '/'
        · obtain ⟨body, after, rfl, hbody, hafter⟩ := lineComment_split more
          exact .inl ⟨body, after, by rw [hline], hbody, hafter⟩
        · by_cases hblock : d = '*'
          · subst hblock
            cases hlength : commentLength? more with
            | none => exact .inr (.inr (.inl ⟨more, rfl, hlength⟩))
            | some n =>
              obtain ⟨body, after, rfl, hbody, -⟩ := commentLength_eq_some hlength
              exact .inr (.inl ⟨body, after, rfl, hbody⟩)
          · exact .inr (.inr (.inr ⟨rfl, fun _ e he => by cases he; exact ⟨hline, hblock⟩⟩))
    · exact .inr (.inr (.inr ⟨rfl, fun h => absurd h hc⟩))

end

/-! ### What a blank changes -/

/-- What comes of a text, and what comes of it if a blank is added; `q` and `q'` are the places
behind them. -/
inductive BlankAdded (q q' : Position) :
    Except Fault (List Token) → Except Fault (List Token) → Prop
  /-- The tokens are the same, and one end token follows. -/
  | read {marked ending : List Token} : (∀ t ∈ marked, t.kind ≠ .eof ∧ t.UpTo q.line) →
      ending = [] ∨ ending = [.at .eof .null q] →
      BlankAdded q q' (.ok (marked ++ ending)) (.ok (marked ++ [.at .eof .null q']))
  /-- What is wrong stands inside the text. -/
  | wrong {f : Fault} : f.UpTo q.line → BlankAdded q q' (.error f) (.error f)
  /-- Something is not closed, which shows at the end only. -/
  | unclosed {cause : Cause} : cause.errorClass = .lexer →
      BlankAdded q q' (.error (cause.at q)) (.error (cause.at q'))

namespace BlankAdded

variable {q q' : Position} {r r' : Except Fault (List Token)}

theorem nothing {ending : List Token} (h : ending = [] ∨ ending = [.at .eof .null q]) :
    BlankAdded q q' (.ok ending) (.ok [.at .eof .null q']) :=
  @read q q' [] ending (by simp) h

theorem fails_iff (h : BlankAdded q q' r r') : (∃ f, r = .error f) ↔ ∃ f, r' = .error f := by
  cases h <;> simp

theorem of_ok {tokens : List Token} (h : BlankAdded q q' r (.ok tokens)) :
    ∃ marked ending, (∀ t ∈ marked, t.kind ≠ .eof ∧ t.UpTo q.line) ∧
    (ending = [] ∨ ending = [.at .eof .null q]) ∧
      r = .ok (marked ++ ending) ∧ tokens = marked ++ [.at .eof .null q'] := by
  cases h with
  | read hmarked hending => exact ⟨_, _, hmarked, hending, rfl, rfl⟩

theorem token {t : Token} (h : BlankAdded q q' r r') (ht : t.kind ≠ .eof ∧ t.UpTo q.line) :
    BlankAdded q q' (r.map (t :: ·)) (r'.map (t :: ·)) := by
  cases h with
  | read hmarked hending => exact .read (List.forall_mem_cons.mpr ⟨ht, hmarked⟩) hending
  | wrong hf => exact .wrong hf
  | unclosed hcause => exact .unclosed hcause

end BlankAdded

/-! ### A blank behind a lexeme -/

theorem takeWhile_append_stop {p : Char → Bool} {b : Char} (h : p b = false) (cs : List Char) :
    (cs ++ [b]).takeWhile p = cs.takeWhile p := by
  rw [List.takeWhile_append]
  split
  · rename_i hall
    have hself : cs.takeWhile p = cs := (List.takeWhile_prefix p).eq_of_length hall
    simp [hself, h]
  · rfl

variable {b : Char} (hb : Text.isBlank b = true) (fresh : Bool) (p : Position)
include hb

theorem commentLength_append_blank (cs : List Char) :
    commentLength? (cs ++ [b]) = commentLength? cs := by
  have hslash : b ≠ '/' := Text.ne_of_isBlank hb (by decide)
  induction cs using commentLength?.induct with
  | case1 =>
    have hopen : ∀ rest, b = '*' → ([] : List Char) = '/' :: rest → False := by simp
    rw [List.nil_append, commentLength?.eq_3 _ _ hopen]
    rfl
  | case2 after => rfl
  | case3 d cs hopen ih =>
    have hopen' : ∀ rest, d = '*' → cs ++ [b] = '/' :: rest → False := by
      intro rest hd heq
      cases cs with
      | nil => exact hslash (List.cons.inj heq).1
      | cons e cs => exact hopen cs hd (by rw [(List.cons.inj heq).1])
    rw [List.cons_append, commentLength?.eq_3 _ _ hopen', commentLength?.eq_3 _ _ hopen, ih]

variable (c : Char) (rest : List Char)

theorem operator_append_blank : operator c (rest ++ [b]) p = operator c rest p := by
  cases rest with
  | nil =>
    simp only [operator, List.nil_append, List.head?_cons, Option.bind_some,
      twoCharOperator_blank c hb]
    cases operator? c <;> rfl
  | cons d rest => simp [operator]

theorem string_append_blank (hc : isQuote c = true) :
    string c (rest ++ [b]) p = string c rest p ∨
      string c rest p = .error (Cause.unterminatedString.at (p.past (c :: rest))) ∧
        string c (rest ++ [b]) p =
          .error (Cause.unterminatedString.at (p.past (c :: (rest ++ [b])))) := by
  have hbc : b ≠ c := by
    have hcases : c = '\x22' ∨ c = '\x27' := by simpa [isQuote] using hc
    rcases hcases with rfl | rfl <;> exact Text.ne_of_isBlank hb (by decide)
  have htake : (rest ++ [b]).takeWhile (· != c) = _ := List.takeWhile_append
  by_cases hclosed : (rest.takeWhile (· != c)).length < rest.length
  · -- the closing quote stands in front of the blank
    left
    rw [if_neg (Nat.ne_of_lt hclosed)] at htake
    have hclosed' : (rest.takeWhile (· != c)).length < (rest ++ [b]).length := by
      rw [List.length_append]
      omega
    simp only [string, htake, if_pos hclosed, if_pos hclosed']
  · right
    have hlength : (rest.takeWhile (· != c)).length = rest.length :=
      Nat.le_antisymm (List.takeWhile_prefix _).length_le (Nat.le_of_not_lt hclosed)
    have hblank : [b].takeWhile (· != c) = [b] := by simp [hbc]
    rw [if_pos hlength, hblank] at htake
    have hopen : ¬((rest ++ [b]).takeWhile (· != c)).length < (rest ++ [b]).length := by
      rw [htake]
      exact Nat.lt_irrefl _
    simp only [string, if_neg hclosed, if_neg hopen]
    exact ⟨rfl, rfl⟩

/-- A blank does not change what is read in front of it, unless it becomes part of a string that is
not closed. -/
theorem lexeme_append_blank :
    lexeme c (rest ++ [b]) p = lexeme c rest p ∨
      lexeme c rest p = .error (Cause.unterminatedString.at (p.past (c :: rest))) ∧
        lexeme c (rest ++ [b]) p =
          .error (Cause.unterminatedString.at (p.past (c :: (rest ++ [b])))) := by
  unfold lexeme
  split
  · simp [word, takeWhile_append_stop (isNameChar_of_isBlank hb)]
  · split
    · simp [number, takeWhile_append_stop (isNumberChar_of_isBlank hb)]
    · split
      · exact string_append_blank hb p c rest ‹_›
      · exact .inl (operator_append_blank hb p c rest)

/-! ### A blank behind a text -/

variable {p c rest}

omit hb in
theorem BlankAdded.after (pre : List Char) {after : List Char}
    (h : ∀ rest ∈ [after, after ++ [b]], scan fresh p (pre ++ rest) = scan false (p.past pre) rest)
    (hafter : BlankAdded ((p.past pre).past after) ((p.past pre).past (after ++ [b]))
      (scan false (p.past pre) after) (scan false (p.past pre) (after ++ [b]))) :
    BlankAdded (p.past (pre ++ after)) (p.past (pre ++ after ++ [b])) (scan fresh p (pre ++ after))
      (scan fresh p (pre ++ after ++ [b])) := by
  rw [List.append_assoc, h after (by simp), h (after ++ [b]) (by simp), Position.past_append,
    Position.past_append]
  exact hafter

theorem BlankAdded.lineComment {body : List Char} (hbody : '\n' ∉ body) :
    BlankAdded (p.past ('/' :: '/' :: body)) (p.past ('/' :: '/' :: (body ++ [b])))
      (scan fresh p ('/' :: '/' :: body)) (scan fresh p ('/' :: '/' :: (body ++ [b]))) := by
  have hcomment {body : List Char} (hbody : '\n' ∉ body) :
      scan fresh p ('/' :: '/' :: body) = .ok [.at .eof .null (p.past ('/' :: '/' :: body))] := by
    have hend : ∀ c ∈ ([] : List Char).head?, c = '\n' := by simp
    have hscan := scan_lineComment fresh p hbody hend
    rwa [List.append_nil, scan_nil] at hscan
  have hblank : scan fresh p ('/' :: '/' :: (body ++ [b])) =
      .ok [.at .eof .null (p.past ('/' :: '/' :: (body ++ [b])))] := by
    by_cases hnewline : b = '\n'
    · have hplace : p.past ('/' :: '/' :: (body ++ [b])) = (p.past ('/' :: '/' :: body)).after b :=
        p.past_append ('/' :: '/' :: body) [b]
      rw [scan_lineComment fresh p hbody (by simpa using hnewline), scan_blank _ _ hb,
        scan_nil, hplace]
      rfl
    · exact hcomment (by simp [hbody, Ne.symm hnewline])
  rw [hcomment hbody, hblank]
  exact .nothing (.inr rfl)

theorem BlankAdded.lexeme (hc : Text.isBlank c = false)
    (hslash : c = '/' → ∀ d ∈ rest.head?, d ≠ '/' ∧ d ≠ '*')
    (ih : ∀ tail after, rest = tail ++ after → BlankAdded ((p.past (c :: tail)).past after)
      ((p.past (c :: tail)).past (after ++ [b])) (scan true (p.past (c :: tail)) after)
      (scan true (p.past (c :: tail)) (after ++ [b]))) :
    BlankAdded (p.past (c :: rest)) (p.past (c :: (rest ++ [b]))) (scan fresh p (c :: rest))
      (scan fresh p (c :: (rest ++ [b]))) := by
  have hslash' : c = '/' → ∀ d ∈ (rest ++ [b]).head?, d ≠ '/' ∧ d ≠ '*' := by
    intro h d hd
    cases rest with
    | nil =>
      cases hd
      exact ⟨Text.ne_of_isBlank hb (by decide), Text.ne_of_isBlank hb (by decide)⟩
    | cons e rest => exact hslash h d hd
  have hadded := lexeme_append_blank hb p c rest
  cases hread : Lexer.lexeme c rest p with
  | error f =>
    rw [scan_fault hc hslash hread]
    rcases hadded with heq | ⟨hopen, hopen'⟩
    · rw [scan_fault hc hslash' (heq.trans hread)]
      exact .wrong (lexeme_error hread)
    · rw [hread] at hopen
      cases hopen
      rw [scan_fault hc hslash' hopen']
      exact .unclosed rfl
  | ok read =>
    obtain ⟨t, n⟩ := read
    obtain ⟨tail, after, kind, value, rfl, rfl, rfl, hspells⟩ := lexeme_ok hread
    rw [List.append_assoc] at hadded hslash' ⊢
    have hread' : Lexer.lexeme c (tail ++ (after ++ [b])) p =
        .ok (.at kind value p, tail.length) := by
      rcases hadded with heq | ⟨hopen, -⟩
      · exact heq.trans hread
      · rw [hread] at hopen
        cases hopen
    have hupto : (Token.at kind value p).UpTo ((p.past (c :: tail)).past after).line :=
      ⟨p, Nat.le_trans (p.line_le_past _) (Position.line_le_past _ _), rfl, rfl⟩
    rw [scan_token fresh p hc hslash hread, scan_token fresh p hc hslash' hread',
      ← List.cons_append, ← List.cons_append, Position.past_append, Position.past_append]
    exact (ih tail after rfl).token ⟨hspells.kind_ne_eof, hupto⟩

theorem scan_append_blank (fresh : Bool) (p : Position) (cs : List Char) :
    BlankAdded (p.past cs) (p.past (cs ++ [b])) (scan fresh p cs) (scan fresh p (cs ++ [b])) := by
  -- the text still to be read grows shorter with each blank, comment or token
  induction hn : cs.length using Nat.strong_induction_on generalizing fresh p cs with
  | _ n ih =>
    subst hn
    cases cs with
    | nil =>
      rw [List.nil_append, scan_blank fresh p hb, scan_nil, scan_nil]
      exact .nothing (by cases fresh <;> simp [Position.past])
    | cons c rest =>
      rcases text_cases c rest with hc | ⟨body, after, htext, hbody, hafter⟩ |
        ⟨body, after, htext, hbody⟩ |
        ⟨more, htext, hopen⟩ | ⟨hc, hslash⟩
      · refine .after fresh [c] (fun rest _ => scan_blank fresh p hc rest) ?_
        exact ih rest.length (by simp) _ _ _ rfl
      · rw [htext]
        cases after with
        | nil =>
          rw [List.append_nil]
          exact .lineComment hb fresh hbody
        | cons d after =>
          refine .after fresh ('/' :: '/' :: body) (fun rest hrest => ?_) (ih _ ?_ _ _ _ rfl)
          · refine scan_lineComment fresh p hbody fun e he => hafter e ?_
            simp only [List.mem_cons, List.not_mem_nil, or_false] at hrest
            rcases hrest with rfl | rfl <;> exact he
          · rw [htext]
            simp only [List.length_cons, List.length_append]
            omega
      · have hsplit : c :: rest = '/' :: '*' :: (body ++ ['*', '/']) ++ after := by simp [htext]
        rw [hsplit]
        refine .after fresh _ (fun rest _ => ?_) (ih _ ?_ _ _ _ rfl)
        · have hcomment := scan_blockComment fresh p hbody rest
          simpa using hcomment
        · rw [hsplit]
          simp only [List.length_cons, List.length_append]
          omega
      · have hopen' : commentLength? (more ++ [b]) = none := by rwa [commentLength_append_blank hb]
        rw [htext, List.cons_append, List.cons_append, scan_unclosed hopen, scan_unclosed hopen']
        exact .unclosed rfl
      · refine .lexeme hb fresh hc hslash fun tail after hrest => ih after.length ?_ _ _ _ rfl
        rw [hrest, List.length_cons, List.length_append]
        omega

omit hb

theorem tokenize_append_newline (source : String) :
    BlankAdded (.behind source.toList) (.behind (source ++ "\n").toList) (tokenize source)
      (tokenize (source ++ "\n")) := by
  have hplace (cs : List Char) : Position.start.past cs = .behind cs := Position.behind_past [] cs
  have hnewline : Text.isBlank '\n' = true := by decide
  have hscan := scan_append_blank hnewline true .start source.toList
  rw [hplace, hplace] at hscan
  rw [tokenize, tokenize, String.toList_append]
  exact hscan

/-- A newline behind a text does not change whether the text can be read. The tokens are those of
the text without its end token, with the same kinds, values and places, and one end token follows
them. So whatever text ends in a blank, its tokens end in an end token and hold no other. -/
theorem tokenize_newline (source : String) :
    ((∃ f, tokenize source = .error f) ↔ ∃ f, tokenize (source ++ "\n") = .error f) ∧
    (∀ tokens tokens', tokenize source = .ok tokens → tokenize (source ++ "\n") = .ok tokens' →
      tokens' = tokens.filter (·.kind != .eof) ++
        [.at .eof .null (.behind (source ++ "\n").toList)]) ∧
    ∀ b tokens, source.toList.getLast? = some b → Text.isBlank b = true →
    tokenize source = .ok tokens →
      ∃ marked e, tokens = marked ++ [e] ∧ e.kind = .eof ∧ ∀ t ∈ marked, t.kind ≠ .eof := by
  have hadded := tokenize_append_newline source
  refine ⟨hadded.fails_iff, fun tokens tokens' htokens htokens' => ?_,
    fun b tokens hlast hb htokens => ?_⟩
  · rw [htokens, htokens'] at hadded
    obtain ⟨marked, ending, hmarked, hending, heq, rfl⟩ := hadded.of_ok
    cases heq
    have hkept : marked.filter (·.kind != .eof) = marked :=
      List.filter_eq_self.mpr fun t ht => by simpa using (hmarked t ht).1
    have hdropped : ending.filter (·.kind != .eof) = [] := by rcases hending with rfl | rfl <;> rfl
    rw [List.filter_append, hkept, hdropped, List.append_nil]
  · -- the blank is one that was added to the characters in front of it
    obtain ⟨front, hfront⟩ := List.getLast?_eq_some_iff.mp hlast
    have hblank := scan_append_blank hb true .start front
    rw [← hfront, show scan true .start source.toList = .ok tokens from htokens] at hblank
    obtain ⟨marked, ending, hmarked, -, -, rfl⟩ := hblank.of_ok
    exact ⟨marked, _, rfl, rfl, fun t ht => (hmarked t ht).1⟩

/-- A comment that ends its text is followed by an end token, and a newline moves this token to the
next line. -/
theorem tokenize_newline_of_comment :
    let x : Token := .at .identifier (.str "x") ⟨1, 1⟩
    tokenize "x // y" = .ok [x, .at .eof .null ⟨1, 7⟩] ∧
      tokenize ("x // y" ++ "\n") = .ok [x, .at .eof .null ⟨2, 1⟩] := by
  intro x
  have hread : tokenize "x // y" = .ok [x, .at .eof .null ⟨1, 7⟩] := by decide +kernel
  have hend : Position.behind ("x // y" ++ "\n").toList = ⟨2, 1⟩ := by decide +kernel
  obtain ⟨hfails, hsame, -⟩ := tokenize_newline "x // y"
  refine ⟨hread, ?_⟩
  cases hread' : tokenize ("x // y" ++ "\n") with
  | error f =>
    obtain ⟨f', hf'⟩ := hfails.mpr ⟨f, hread'⟩
    rw [hread] at hf'
    cases hf'
  | ok tokens =>
    rw [hsame _ _ hread hread', hend]
    rfl

end Lexer

end Luuqad

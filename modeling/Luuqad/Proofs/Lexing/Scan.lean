import Luuqad.Proofs.Lexing.Lexemes

/-!
# Steps of the scanner

One equation for each thing a text can go on with: a blank, a comment of either kind, or a token.
Read backwards, `scan_cases` says what a successful scan began with.
-/

namespace Luuqad.Lexer

/-! ### The end of a block comment -/

theorem commentLength_eq_some {cs : List Char} {n : Nat} (h : commentLength? cs = some n) :
    ∃ body after, cs = body ++ '*' :: '/' :: after ∧ ¬ ['*', '/'] <:+: body ∧
      n = body.length + 2 := by
  induction cs using commentLength?.induct generalizing n with
  | case1 => simp [commentLength?] at h
  | case2 after =>
    refine ⟨[], after, rfl, by simp, ?_⟩
    simpa [commentLength?] using h.symm
  | case3 c rest hopen ih =>
    rw [commentLength?.eq_3 _ _ hopen] at h
    obtain ⟨m, hm, rfl⟩ := Option.map_eq_some_iff.mp h
    obtain ⟨body, after, rfl, hbody, rfl⟩ := ih hm
    refine ⟨c :: body, after, rfl, ?_, rfl⟩
    rw [List.infix_cons_iff]
    rintro (hstart | hinside)
    · -- the closing would stand one character earlier
      obtain ⟨tail, htail⟩ := hstart
      cases htail
      exact hopen _ rfl rfl
    · exact hbody hinside

theorem commentLength_body {body : List Char} (h : ¬ ['*', '/'] <:+: body) (after : List Char) :
    commentLength? (body ++ '*' :: '/' :: after) = some (body.length + 2) := by
  induction body with
  | nil => rfl
  | cons c body ih =>
    rw [List.infix_cons_iff, not_or] at h
    have hopen : ∀ rest, c = '*' → body ++ '*' :: '/' :: after = '/' :: rest → False := by
      intro rest hc hrest
      cases body with
      | nil => simp at hrest
      | cons d body =>
        obtain ⟨rfl, -⟩ := List.cons.inj hrest
        exact h.1 ⟨body, by simp [hc]⟩
    rw [List.cons_append, commentLength?.eq_3 _ _ hopen, ih h.2]
    rfl

/-! ### One step -/

variable (fresh : Bool) (p : Position)

theorem scan_nil : scan fresh p [] = .ok (if fresh then [] else [.at .eof .null p]) := by
  rw [scan]

theorem scan_blank {c : Char} (hc : Text.isBlank c = true) (rest : List Char) :
    scan fresh p (c :: rest) = scan false (p.after c) rest := by
  rw [scan, if_pos hc]

theorem scan_lineComment {body rest : List Char} (hbody : '\n' ∉ body)
    (hrest : ∀ c ∈ rest.head?, c = '\n') :
    scan fresh p ('/' :: '/' :: (body ++ rest)) =
      scan false (p.past ('/' :: '/' :: body)) rest := by
  have hline : ∀ d ∈ '/' :: body, (d != '\n') = true := by
    intro d hd
    have hne : d ≠ '\n' := by
      rintro rfl
      simp [hbody] at hd
    simpa using hne
  have htake : ('/' :: (body ++ rest)).takeWhile (· != '\n') = '/' :: body := by
    cases rest with
    | nil => rw [List.append_nil, List.takeWhile_eq_self_iff.mpr hline]
    | cons c rest =>
      obtain rfl : c = '\n' := hrest c rfl
      exact takeWhile_before hline rfl
  have hdrop : ('/' :: (body ++ rest)).dropWhile (· != '\n') = rest := by
    have hsplit := List.takeWhile_append_dropWhile (p := (· != '\n')) (l := '/' :: (body ++ rest))
    rw [htake, List.cons_append] at hsplit
    exact List.append_cancel_left (List.cons.inj hsplit).2
  rw [scan, if_neg (by decide), if_pos (by simp), htake, hdrop]

theorem scan_blockComment {body : List Char} (hbody : ¬ ['*', '/'] <:+: body) (rest : List Char) :
    scan fresh p ('/' :: '*' :: (body ++ '*' :: '/' :: rest))
      = scan false (p.past ('/' :: '*' :: (body ++ ['*', '/']))) rest := by
  rw [scan, if_neg (by decide), if_neg (by simp), if_pos (by simp)]
  simp only [List.drop_succ_cons, List.drop_zero, commentLength_body hbody]
  have hlength : (body ++ ['*', '/']).length = body.length + 2 := by simp
  have htext : body ++ '*' :: '/' :: rest = (body ++ ['*', '/']) ++ rest := by simp
  rw [htext, List.take_succ_cons, ← hlength, List.take_left, List.drop_left]

theorem scan_lexeme {c : Char} {rest : List Char} (hc : Text.isBlank c = false)
    (hslash : c = '/' → ∀ d ∈ rest.head?, d ≠ '/' ∧ d ≠ '*') :
    scan fresh p (c :: rest) = lexeme c rest p >>= fun r =>
      (scan true (p.past (c :: rest.take r.2)) (rest.drop r.2)).map (r.1 :: ·) := by
  have hcomment : ∀ d, d = '/' ∨ d = '*' → ¬ (c == '/' && rest.head? == some d) = true := by
    intro d hd hboth
    simp only [Bool.and_eq_true, beq_iff_eq] at hboth
    have hne := hslash hboth.1 d hboth.2
    rcases hd with rfl | rfl
    · exact hne.1 rfl
    · exact hne.2 rfl
  rw [scan, if_neg (by simp [hc]), if_neg (hcomment '/' (.inl rfl)),
    if_neg (hcomment '*' (.inr rfl))]
  cases lexeme c rest p <;> rfl

theorem scan_token {c : Char} {tail rest : List Char} {t : Token} (hc : Text.isBlank c = false)
    (hslash : c = '/' → ∀ d ∈ (tail ++ rest).head?, d ≠ '/' ∧ d ≠ '*')
    (h : lexeme c (tail ++ rest) p = .ok (t, tail.length)) :
    scan fresh p (c :: (tail ++ rest))
      = (scan true (p.past (c :: tail)) rest).map (t :: ·) := by
  rw [scan_lexeme fresh p hc hslash, h]
  show (scan true (p.past (c :: (tail ++ rest).take tail.length))
    ((tail ++ rest).drop tail.length)).map _ = _
  rw [List.take_left, List.drop_left]

/-! ### What a successful scan began with -/

theorem head_dropWhile {p : Char → Bool} {cs : List Char} :
    ∀ d ∈ (cs.dropWhile p).head?, p d = false := by
  intro d hd
  have hne : cs.dropWhile p ≠ [] := by
    intro hnil
    simp [hnil] at hd
  have hhead := List.head_dropWhile_not p hne
  rw [List.head?_eq_some_head hne] at hd
  rwa [Option.some.inj hd] at hhead

theorem lineComment_split (rest : List Char) :
    ∃ body after, rest = body ++ after ∧ '\n' ∉ body ∧ ∀ c ∈ after.head?, c = '\n' := by
  refine ⟨rest.takeWhile (· != '\n'), rest.dropWhile (· != '\n'),
    List.takeWhile_append_dropWhile.symm, fun hmem => ?_, fun c hc => ?_⟩
  · have hne := List.mem_takeWhile_imp hmem
    simp at hne
  · simpa using head_dropWhile c hc

variable {fresh p}

theorem scan_cases {c : Char} {rest : List Char} {tokens : List Token}
    (h : scan fresh p (c :: rest) = .ok tokens) :
    (Text.isBlank c = true ∧ scan false (p.after c) rest = .ok tokens) ∨
    (∃ body after, c :: rest = '/' :: '/' :: (body ++ after) ∧ '\n' ∉ body ∧
      (∀ d ∈ after.head?, d = '\n') ∧ scan false (p.past ('/' :: '/' :: body)) after = .ok tokens) ∨
    (∃ body after, c :: rest = '/' :: '*' :: (body ++ '*' :: '/' :: after) ∧
      ¬ ['*', '/'] <:+: body ∧
      scan false (p.past ('/' :: '*' :: (body ++ ['*', '/']))) after = .ok tokens) ∨
    (∃ tail after kind value later, rest = tail ++ after ∧ Spells kind value (c :: tail) ∧
      tokens = .at kind value p :: later ∧ scan true (p.past (c :: tail)) after = .ok later) := by
  by_cases hblank : Text.isBlank c = true
  · rw [scan_blank fresh p hblank] at h
    exact .inl ⟨hblank, h⟩
  by_cases hline : (c == '/' && rest.head? == some '/') = true
  · right; left
    simp only [Bool.and_eq_true, beq_iff_eq, List.head?_eq_some_iff] at hline
    obtain ⟨rfl, more, rfl⟩ := hline
    obtain ⟨body, after, rfl, hbody, hafter⟩ := lineComment_split more
    rw [scan_lineComment fresh p hbody hafter] at h
    exact ⟨body, after, rfl, hbody, hafter, h⟩
  by_cases hblock : (c == '/' && rest.head? == some '*') = true
  · right; right; left
    have hshape := hblock
    simp only [Bool.and_eq_true, beq_iff_eq, List.head?_eq_some_iff] at hshape
    obtain ⟨rfl, more, rfl⟩ := hshape
    cases hlength : commentLength? more with
    | none =>
      rw [scan, if_neg hblank, if_neg hline, if_pos hblock] at h
      simp [hlength] at h
    | some n =>
      obtain ⟨body, after, rfl, hbody, -⟩ := commentLength_eq_some hlength
      rw [scan_blockComment fresh p hbody] at h
      exact ⟨body, after, rfl, hbody, h⟩
  · right; right; right
    rw [scan, if_neg hblank, if_neg hline, if_neg hblock] at h
    cases hread : lexeme c rest p with
    | error e => simp [hread] at h
    | ok read =>
      obtain ⟨t, n⟩ := read
      obtain ⟨tail, after, kind, value, rfl, rfl, rfl, hspells⟩ := lexeme_ok hread
      simp only [hread, List.take_left, List.drop_left] at h
      cases hlater : scan true (p.past (c :: tail)) after with
      | error e =>
        rw [hlater] at h
        exact absurd h (by simp [bind, Except.bind])
      | ok later =>
        rw [hlater] at h
        cases h
        exact ⟨tail, after, kind, value, later, rfl, hspells, rfl, hlater⟩

end Luuqad.Lexer

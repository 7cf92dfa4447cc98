import Luuqad.Proofs.Lexing.Ending
import Luuqad.Proofs.Parsing.Juxtaposed

/-!
# Programs with a newline behind them

The tokens of a text that does not end in a blank or in a comment have no end token. The parser then
keeps looking at the last token, so such a text is never a program: it is rejected, or the parser
does not come to an end. A newline behind the text adds the end token. `NewlineRead` says what comes
of a text without the newline and with it.

The two are the same just for the texts that are settled: with the newline the text is a program and
it ends in a blank or in a comment, or something is wrong with it before its end
(`readProgram_newline_iff`).
-/

namespace Luuqad

open Luuqad.Parser

/-! ## Any tokens -/

variable {tokens : List Token} {n : Node} {d : Diagnostic} {c : Cursor}

theorem run_program_within {r : EStateM.Result ParseStop Cursor Node}
    (h : Parser.run program tokens = some r) :
    (endOf r).current ∈ tokens := by
  cases tokens with
  | nil => cases h
  | cons t rest =>
    have hstart : AllAt (· ∈ t :: rest) ⟨0, t, rest⟩ := fun u hu => hu
    have hend := (stepwise_program ((t :: rest).length + 2)).allAt hstart
    cases h
    exact hend _ List.mem_cons_self

theorem exists_eof_of_parse (h : parse tokens = .ok n) : ∃ t ∈ tokens, t.kind = .eof := by
  unfold parse at h
  split at h
  · cases h
  · rename_i node c hrun
    obtain ⟨start, -, hprogram⟩ := Option.map_eq_some_iff.mp hrun
    exact ⟨c.current, run_program_within hrun, (program_current hprogram).2⟩
  · cases h
  · cases h

theorem parse_error_at (h : parse tokens = .error (.fault (.error d))) :
    ∃ t ∈ tokens, d.cause.errorClass = .parser ∧ d.line = t.line ∧ d.column = t.column := by
  unfold parse at h
  split at h
  · cases h
  · cases h
  · rename_i e c hrun
    cases h
    obtain ⟨start, -, hprogram⟩ := Option.map_eq_some_iff.mp hrun
    exact ⟨c.current, run_program_within hrun, (located_program _).error_at hprogram⟩
  · cases h

theorem parse_error_cases {stop : ReadStop} (h : parse tokens = .error stop) :
    tokens = [] ∨ stop = .tooDeep ∨ ∃ d, stop = .fault (.error d) := by
  unfold parse at h
  split at h
  · rename_i hrun
    cases tokens with
    | nil => exact .inl rfl
    | cons t rest => cases hrun
  · cases h
  · cases h
    exact .inr (.inr ⟨_, rfl⟩)
  · cases h
    exact .inr (.inl rfl)

/-- Which end token marks the end of a program does not matter. -/
theorem parse_of_other_eof {marked : List Token} (hmarked : ∀ t ∈ marked, t.kind ≠ .eof)
    {e e' : Token} (he : e.kind = .eof) (he' : e'.kind = .eof) (h : parse (marked ++ [e]) = .ok n) :
    parse (marked ++ [e']) = .ok n := by
  have honly : EndsInOnlyEof (marked ++ [e]) := by
    refine ⟨.append_eof marked ⟨e, he⟩, ?_⟩
    rwa [List.dropLast_concat]
  obtain ⟨statements, pre, mark, htokens, -, rfl, hpasses⟩ := passesStatements_of_parse honly h
  obtain ⟨rfl, -⟩ := List.append_inj' htokens rfl
  exact hpasses.parsed ⟨e', he'⟩

/-- Tokens in front of an end token are a program, or they are rejected at one of them whatever
follows, or they are rejected at the end token. -/
theorem parse_ended {marked : List Token} (hmarked : ∀ t ∈ marked, t.kind ≠ .eof) {e : Token}
    (he : e.kind = .eof) :
    (∃ n, parse (marked ++ [e]) = .ok n) ∨
      (∃ t ∈ marked, ∃ d, d.line = t.line ∧
        ∀ more, parse (marked ++ more) = .error (.fault (.error d))) ∨
      ∃ d, d.cause.errorClass = .parser ∧ d.line = e.line ∧ d.column = e.column ∧
        parse (marked ++ [e]) = .error (.fault (.error d)) := by
  obtain ⟨pre, t, rest, htokens, -, hdecided, -⟩ :=
    program_decided (EndsInEof.append_eof marked ⟨e, he⟩).exists_eof
  rcases hdecided with ⟨n, haccepted⟩ | ⟨d, hclass, hline, hcolumn, hrejected⟩
  · exact .inl ⟨n, by rw [htokens, parse_of_ok (haccepted.run rest)]⟩
  · right
    rcases List.eq_nil_or_concat rest with rfl | ⟨inside, last, rfl⟩
    · obtain ⟨rfl, heq⟩ := List.append_inj' htokens rfl
      cases heq
      exact .inr ⟨d, hclass, hline, hcolumn, parse_of_error (hrejected.run [])⟩
    · obtain ⟨rfl, -⟩ : marked = pre ++ t :: inside ∧ [e] = [last] :=
        List.append_inj' (by simpa using htokens) rfl
      refine .inl ⟨t, by simp, d, hline, fun more => ?_⟩
      rw [List.append_assoc]
      exact parse_of_error (hrejected.run (inside ++ more))

/-! ## What comes of a text without a newline and with it -/

/-- What is reported is an error of reading, at this place. -/
def Diagnostic.ReadAt (d : Diagnostic) (p : Position) : Prop :=
  (d.cause.errorClass = .lexer ∨ d.cause.errorClass = .parser) ∧ d.line = some p.line ∧
    d.column = some p.column

/-- What comes of a text, and what comes of it with a newline behind it; `q` and `q'` are the places
behind them. -/
inductive NewlineRead (marked : Prop) (q q' : Position) :
    Except ReadStop Node → Except ReadStop Node → Prop
  | program {n : Node} : marked → NewlineRead marked q q' (.ok n) (.ok n)
  /-- A text whose end is not marked is no program. -/
  | unmarked {stop : ReadStop} {n : Node} : ¬marked → NewlineRead marked q q' (.error stop) (.ok n)
  /-- What is wrong stands inside the text. -/
  | wrong {f : Fault} : f.UpTo q.line →
      NewlineRead marked q q' (.error (.fault f)) (.error (.fault f))
  /-- What is wrong shows at the end only, and there the parser goes on for ever. -/
  | endless {d : Diagnostic} : d.ReadAt q' →
      NewlineRead marked q q' (.error .tooDeep) (.error (.fault (.error d)))
  /-- What is wrong shows at the end only, and something is reported before. -/
  | moved {d d' : Diagnostic} {p : Position} : p.line ≤ q.line → d.ReadAt p → d'.ReadAt q' →
      NewlineRead marked q q' (.error (.fault (.error d))) (.error (.fault (.error d')))

theorem parse_newline {marked ending : List Token} {q q' : Position}
    (hmarked : ∀ t ∈ marked, t.kind ≠ .eof ∧ t.UpTo q.line)
    (hending : ending = [] ∨ ending = [.at .eof .null q]) :
    NewlineRead (ending ≠ []) q q' (parse (marked ++ ending))
    (parse (marked ++ [.at .eof .null q'])) := by
  have hkinds : ∀ t ∈ marked, t.kind ≠ .eof := fun t ht => (hmarked t ht).1
  have hplaces : ∀ t ∈ marked ++ ending, t.UpTo q.line := by
    intro t ht
    rcases List.mem_append.mp ht with ht | ht
    · exact (hmarked t ht).2
    · rcases hending with rfl | rfl
      · cases ht
      · obtain rfl : t = .at .eof .null q := by simpa using ht
        exact ⟨q, Nat.le_refl _, rfl, rfl⟩
  -- without an end token there is no program, and with one the newline makes no difference to it
  have hprogram {n : Node} (h : parse (marked ++ ending) = .ok n) :
      ending ≠ [] ∧ parse (marked ++ [.at .eof .null q']) = .ok n := by
    rcases hending with rfl | rfl
    · obtain ⟨t, ht, heof⟩ := exists_eof_of_parse h
      rw [List.append_nil] at ht
      exact absurd heof (hkinds t ht)
    · exact ⟨by simp, parse_of_other_eof hkinds rfl rfl h⟩
  rcases parse_ended hkinds (e := .at .eof .null q') rfl with ⟨n, hok⟩ | ⟨t, ht, d, hline, hwrong⟩ |
    ⟨d, hclass, hline, hcolumn, hend⟩
  · rw [hok]
    cases hread : parse (marked ++ ending) with
    | ok m =>
      obtain ⟨hne, hsame⟩ := hprogram hread
      cases hok.symm.trans hsame
      exact .program hne
    | error stop =>
      refine .unmarked fun hne => ?_
      obtain rfl := hending.resolve_left hne
      have hsame : parse (marked ++ [.at .eof .null q]) = .ok n :=
        parse_of_other_eof hkinds rfl rfl hok
      rw [hread] at hsame
      cases hsame
  · rw [hwrong ending, hwrong [.at .eof .null q']]
    obtain ⟨p, hp, htline, -⟩ := (hmarked t ht).2
    refine .wrong fun d' hd' => ?_
    cases hd'
    exact ⟨p.line, hp, hline.trans htline⟩
  · have hat : d.ReadAt q' := ⟨.inr hclass, hline, hcolumn⟩
    rw [hend]
    cases hread : parse (marked ++ ending) with
    | ok m =>
      cases hend.symm.trans (hprogram hread).2
    | error stop =>
      rcases parse_error_cases hread with hnil | rfl | ⟨d', rfl⟩
      · obtain ⟨rfl, -⟩ := List.append_eq_nil_iff.mp hnil
        cases hend
      · exact .endless hat
      · obtain ⟨t, ht, hclass', hline', hcolumn'⟩ := parse_error_at hread
        obtain ⟨p, hp, htline, htcolumn⟩ := hplaces t ht
        exact .moved hp ⟨.inr hclass', hline'.trans htline, hcolumn'.trans htcolumn⟩ hat

/-- The scanner marks the end of the text: a blank or a comment comes after the last token. -/
def EndMarked (source : String) : Prop := ∃ tokens, tokenize source = .ok tokens ∧ EndsInEof tokens

theorem readProgram_newline (source : String) :
    NewlineRead (EndMarked source) (.behind source.toList) (.behind (source ++ "\n").toList)
    (readProgram source)
      (readProgram (source ++ "\n")) := by
  have hadded := Lexer.tokenize_append_newline source
  unfold readProgram
  generalize hread : tokenize source = r at hadded ⊢
  generalize tokenize (source ++ "\n") = r' at hadded ⊢
  cases hadded with
  | wrong hf => exact .wrong hf
  | unclosed hclass => exact .moved (Nat.le_refl _) ⟨.inl hclass, rfl, rfl⟩ ⟨.inl hclass, rfl, rfl⟩
  | @read marked ending hmarked hending =>
    have hmark : EndMarked source ↔ ending ≠ [] := by
      constructor
      · rintro ⟨tokens, htokens, hends⟩ rfl
        cases hread.symm.trans htokens
        obtain ⟨t, ht, heof⟩ := hends.exists_eof
        rw [List.append_nil] at ht
        exact (hmarked t ht).1 heof
      · intro hne
        obtain rfl := hending.resolve_left hne
        exact ⟨_, hread, .append_eof marked ⟨.at .eof .null _, rfl⟩⟩
    rw [propext hmark]
    exact parse_newline hmarked hending

/-! ## Settled texts -/

theorem Position.line_behind_newline (source : String) :
    (Position.behind source.toList).line < (Position.behind (source ++ "\n").toList).line := by
  have hend : (source ++ "\n").toList = source.toList ++ ['\n'] := String.toList_append
  rw [hend, ← Position.behind_after]
  exact Nat.lt_succ_self _

/-- A newline makes no difference to the text: with it, the text is a program and its end is marked
without it, or what is wrong does not show at the end only. -/
def Settled (source : String) : Prop :=
  match readProgram (source ++ "\n") with
  | .ok _ => EndMarked source
  | .error (.fault (.error d)) => d.line ≠ some (Position.behind (source ++ "\n").toList).line
  | .error _ => True

/-- A text is read in the same way with a newline behind it if and only if it is settled. -/
theorem readProgram_newline_iff (source : String) :
    readProgram source = readProgram (source ++ "\n") ↔ Settled source := by
  have hread := readProgram_newline source
  have hline := Position.line_behind_newline source
  unfold Settled
  generalize readProgram source = r at hread ⊢
  generalize readProgram (source ++ "\n") = r' at hread ⊢
  cases hread with
  | program hmarked => exact iff_of_true rfl hmarked
  | unmarked hmarked => exact iff_of_false nofun hmarked
  | @wrong f hf =>
    refine iff_of_true rfl ?_
    cases f with
    | failure f => trivial
    | error d =>
      obtain ⟨l, hl, hd⟩ := hf d rfl
      intro hend
      rw [hd, Option.some.injEq] at hend
      omega
  | endless hat => exact iff_of_false nofun fun hne => hne hat.2.1
  | @moved d d' p hp hat hat' =>
    refine iff_of_false (fun heq => ?_) fun hne => hne hat'.2.1
    cases heq
    have hsame := hat.2.1.symm.trans hat'.2.1
    rw [Option.some.injEq] at hsame
    omega

theorem readProgram_ok_iff (source : String) :
    (∃ n, readProgram source = .ok n) ↔
    (∃ n, readProgram (source ++ "\n") = .ok n) ∧ EndMarked source := by
  have hread := readProgram_newline source
  generalize readProgram source = r at hread ⊢
  generalize readProgram (source ++ "\n") = r' at hread ⊢
  cases hread with
  | program hmarked => simp [hmarked]
  | unmarked hmarked => simp [hmarked]
  | wrong | endless | moved => simp

theorem readProgram_newline_ends (source : String) :
    readProgram (source ++ "\n") ≠ .error .tooDeep := by
  have hread := readProgram_newline source
  generalize readProgram source = r at hread
  generalize readProgram (source ++ "\n") = r' at hread ⊢
  cases hread with
  | program | unmarked | wrong | endless | moved => nofun

theorem settled_of_program {source : String} {n : Node} (h : readProgram source = .ok n) :
    Settled source := by
  rw [← readProgram_newline_iff]
  have hread := readProgram_newline source
  rw [h] at hread ⊢
  generalize readProgram (source ++ "\n") = r' at hread ⊢
  cases hread with
  | program => rfl

end Luuqad

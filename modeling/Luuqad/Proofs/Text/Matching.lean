import Luuqad.Text.Pattern

/-!
# What patterns match

A match takes a run from the text for each part of the pattern (`matchStart_cons`). In the other
direction the lemmas say which run is taken: all that is accepted if the longest run is tried first,
and the first one behind which the pattern goes on if the shortest is.
-/

namespace Luuqad.Text

/-- A run that a part can stand for. -/
structure Part.Takes (p : Part) (run : List Char) : Prop where
  accepts : ∀ c ∈ run, p.accepts c = true
  one : p.extent = .one → ∃ c, run = [c]

namespace Pattern

variable {p : Part} {ps : Pattern} {cs run rest after : List Char}
    {kept : List (List Char)} {α : Type}
  {accepts : Char → Bool} {next : List Char → Option α} {a : α}

/-! ## Runs -/

theorem splitRun_stop (h : (next cs).map ([], ·) = some (run, a)) :
    ∃ rest, cs = run ++ rest ∧ (∀ c ∈ run, accepts c = true) ∧ next rest = some a := by
  obtain ⟨b, hb, heq⟩ := Option.map_eq_some_iff.mp h
  cases heq
  exact ⟨cs, rfl, by simp, hb⟩

theorem splitRun_eq_some {longest : Bool} (h : splitRun accepts longest next cs = some (run, a)) :
    ∃ rest, cs = run ++ rest ∧ (∀ c ∈ run, accepts c = true) ∧ next rest = some a := by
  induction cs generalizing run with
  | nil => exact splitRun_stop h
  | cons c cs ih =>
    have hgo (hc : accepts c = true) {run' : List Char} (hsplit : splitRun accepts longest next cs =
        some (run', a)) :
        ∃ rest, c :: cs = c :: run' ++ rest ∧ (∀ d ∈ c :: run', accepts d = true) ∧
          next rest = some a := by
      obtain ⟨rest, hcs, hrun, hnext⟩ := ih hsplit
      refine ⟨rest, by rw [hcs, List.cons_append], fun d hd => ?_, hnext⟩
      rcases List.mem_cons.mp hd with rfl | hd
      · exact hc
      · exact hrun d hd
    unfold splitRun at h
    split at h
    · exact splitRun_stop h
    · rename_i hc
      have hc : accepts c = true := by simpa using hc
      split at h
      · split at h
        · rename_i hsplit
          cases h
          exact hgo hc hsplit
        · exact splitRun_stop h
      · split at h
        · rename_i hnext
          cases h
          exact ⟨c :: cs, rfl, by simp, hnext⟩
        · obtain ⟨⟨run', b⟩, hsplit, heq⟩ := Option.map_eq_some_iff.mp h
          cases heq
          exact hgo hc hsplit

/-- The longest run is all that is accepted, if the pattern can go on behind it. -/
theorem splitRun_longest (hrun : ∀ c ∈ run, accepts c = true)
    (hrest : ∀ c ∈ rest.head?, accepts c = false) (hnext : next rest = some a) :
    splitRun accepts true next (run ++ rest) = some (run, a) := by
  induction run with
  | nil =>
    cases rest with
    | nil => simp [splitRun, hnext]
    | cons c rest => simp [splitRun, hrest c rfl, hnext]
  | cons c run ih =>
    have hc := hrun c List.mem_cons_self
    simp [splitRun, hc, ih fun d hd => hrun d (List.mem_cons_of_mem _ hd)]

/-- The shortest run is the first one behind which the pattern can go on. -/
theorem splitRun_shortest (hrun : ∀ c ∈ run, accepts c = true) (hnext : next rest = some a)
    (hnone : ∀ zs, zs ≠ [] → zs <:+ run → next (zs ++ rest) = none) :
    splitRun accepts false next (run ++ rest) = some (run, a) := by
  induction run with
  | nil =>
    cases rest with
    | nil => simp [splitRun, hnext]
    | cons c rest => cases hc : accepts c <;> simp [splitRun, hc, hnext]
  | cons c run ih =>
    have hc := hrun c List.mem_cons_self
    have hfirst : next (c :: (run ++ rest)) = none :=
      hnone (c :: run) (List.cons_ne_nil _ _) List.suffix_rfl
    have hothers := ih (fun d hd => hrun d (List.mem_cons_of_mem _ hd)) fun zs hzs hsuffix =>
      hnone zs hzs (hsuffix.trans (List.suffix_cons c run))
    simp [splitRun, hc, hfirst, hothers]

/-! ## What a match consists of -/

theorem splitPart_eq_some (h : splitPart p next cs = some (run, a)) :
    ∃ rest, cs = run ++ rest ∧ p.Takes run ∧ next rest = some a := by
  obtain ⟨accepts, extent, filled, kept⟩ := p
  have hrun (hextent : extent ≠ .one)
      (hsplit : splitRun accepts (extent == .longest) next cs = some (run, a)) :
      ∃ rest, cs = run ++ rest ∧ Part.Takes ⟨accepts, extent, filled, kept⟩ run ∧
        next rest = some a := by
    obtain ⟨rest, hcs, hrun, hnext⟩ := splitRun_eq_some hsplit
    exact ⟨rest, hcs, ⟨hrun, fun hone => absurd hone hextent⟩, hnext⟩
  have hfilled (hextent : extent ≠ .one) {c : Char} {cs' : List Char} (hc : accepts c = true)
      (hcs : cs = c :: cs') (hsplit : (splitRun accepts (extent == .longest) next cs').map
        (fun found => (c :: found.1, found.2)) = some (run, a)) :
      ∃ rest, cs = run ++ rest ∧ Part.Takes ⟨accepts, extent, filled, kept⟩ run ∧
        next rest = some a := by
    obtain ⟨⟨run', b⟩, hfound, heq⟩ := Option.map_eq_some_iff.mp hsplit
    cases heq
    obtain ⟨rest, rfl, hrun, hnext⟩ := splitRun_eq_some hfound
    refine ⟨rest, hcs, ⟨fun d hd => ?_, fun hone => absurd hone hextent⟩, hnext⟩
    rcases List.mem_cons.mp hd with rfl | hd
    · exact hc
    · exact hrun d hd
  cases extent with
  | one =>
    cases cs with
    | nil => cases filled <;> cases h
    | cons c rest =>
      simp only [splitPart] at h
      split at h
      · rename_i hc
        obtain ⟨b, hb, heq⟩ := Option.map_eq_some_iff.mp h
        cases heq
        exact ⟨rest, rfl, ⟨by simpa using hc, fun _ => ⟨c, rfl⟩⟩, hb⟩
      · cases h
  | longest | shortest =>
    cases filled with
    | false => exact hrun (by simp) h
    | true =>
      cases cs with
      | nil => cases h
      | cons c cs' =>
        simp only [splitPart] at h
        split at h
        · exact hfilled (by simp) ‹_› rfl h
        · cases h

theorem matchStart_cons (h : matchStart (p :: ps) cs = some (kept, after)) :
    ∃ run rest kept', cs = run ++ rest ∧ p.Takes run ∧
    matchStart ps rest = some (kept', after) := by
  obtain ⟨⟨run, kept', after'⟩, hsplit, heq⟩ := Option.map_eq_some_iff.mp h
  cases heq
  obtain ⟨rest, hcs, htakes, hnext⟩ := splitPart_eq_some hsplit
  exact ⟨run, rest, kept', hcs, htakes, hnext⟩

theorem of_matchStart_text {s : String}
    (h : matchStart (Pattern.text s ++ ps) cs = some (kept, after)) :
    ∃ rest kept', cs = s.toList ++ rest ∧ matchStart ps rest = some (kept', after) := by
  unfold Pattern.text at h
  generalize s.toList = chars at h ⊢
  induction chars generalizing cs kept with
  | nil => exact ⟨cs, kept, rfl, h⟩
  | cons c chars ih =>
    obtain ⟨run, rest, kept', rfl, htakes, hrest⟩ := matchStart_cons h
    obtain ⟨d, rfl⟩ := htakes.one rfl
    obtain rfl : d = c := by simpa using htakes.accepts d List.mem_cons_self
    obtain ⟨rest', kept'', rfl, hmatch⟩ := ih hrest
    exact ⟨rest', kept'', rfl, hmatch⟩

theorem of_matchStart_blanks (h : matchStart (blanks ++ ps) cs = some (kept, after)) :
    ∃ run rest kept', cs = run ++ rest ∧ (∀ c ∈ run, isBlank c = true) ∧
    matchStart ps rest = some (kept', after) := by
  obtain ⟨run, rest, kept', hcs, htakes, hrest⟩ := matchStart_cons h
  exact ⟨run, rest, kept', hcs, htakes.accepts, hrest⟩

/-! ## Matches -/

theorem matchStart_one (hone : p.extent = .one) {c : Char} (hc : p.accepts c = true) :
    matchStart (p :: ps) (c :: rest) =
      (matchStart ps rest).map fun (kept, after) => (if p.kept then [c] :: kept
        else kept, after) := by
  obtain ⟨accepts, extent, filled, keeps⟩ := p
  obtain rfl : extent = .one := hone
  have hc : accepts c = true := hc
  simp only [matchStart, splitPart, hc, if_true, Option.map_map]
  rfl

theorem matchStart_text (s : String) :
    matchStart (Pattern.text s ++ ps) (s.toList ++ cs) = matchStart ps cs := by
  unfold Pattern.text
  induction s.toList with
  | nil => rfl
  | cons c chars ih =>
    rw [List.map_cons, List.cons_append, List.cons_append, matchStart_one rfl (by simp), ih]
    cases matchStart ps cs <;> rfl

theorem matchStart_longest (hextent : p.extent = .longest) (hfilled : p.filled = true → run ≠ [])
    (hrun : ∀ c ∈ run, p.accepts c = true) (hrest : ∀ c ∈ rest.head?, p.accepts c = false)
    (hnext : matchStart ps rest = some (kept, after)) :
    matchStart (p :: ps) (run ++ rest) = some (if p.kept then run :: kept else kept, after) := by
  obtain ⟨accepts, extent, filled, keeps⟩ := p
  obtain rfl : extent = .longest := hextent
  have hsplit : splitPart ⟨accepts, .longest, filled, keeps⟩ (matchStart ps) (run ++ rest) =
      some (run, kept, after) := by
    cases filled with
    | false => exact splitRun_longest hrun hrest hnext
    | true =>
      obtain ⟨c, run, rfl⟩ := List.exists_cons_of_ne_nil (hfilled rfl)
      have htail := splitRun_longest (fun d hd => hrun d (List.mem_cons_of_mem _ hd)) hrest hnext
      have hc : accepts c = true := hrun c List.mem_cons_self
      simp only [List.cons_append, splitPart, hc, if_true]
      rw [show (Extent.longest == Extent.longest) = true from rfl, htail]
      rfl
  rw [matchStart, hsplit]
  rfl

theorem matchStart_shortest (hextent : p.extent = .shortest) (hfilled : p.filled = false)
    (hrun : ∀ c ∈ run, p.accepts c = true) (hnext : matchStart ps rest = some (kept, after))
    (hnone : ∀ zs, zs ≠ [] → zs <:+ run → matchStart ps (zs ++ rest) = none) :
    matchStart (p :: ps) (run ++ rest) = some (if p.kept then run :: kept else kept, after) := by
  obtain ⟨accepts, extent, filled, keeps⟩ := p
  obtain rfl : extent = .shortest := hextent
  obtain rfl : filled = false := hfilled
  have hsplit : splitPart ⟨accepts, .shortest, false, keeps⟩ (matchStart ps) (run ++ rest) =
      some (run, kept, after) := splitRun_shortest hrun hnext hnone
  rw [matchStart, hsplit]
  rfl

theorem matchStart_blanks (hrun : ∀ c ∈ run, isBlank c = true)
    (hrest : ∀ c ∈ rest.head?, isBlank c = false)
    (hnext : matchStart ps rest = some (kept, after)) :
    matchStart (blanks ++ ps) (run ++ rest) = some (kept, after) :=
  matchStart_longest (p := ⟨isBlank, .longest, false, false⟩) rfl (by simp) hrun hrest hnext

/-! ## Searching -/

theorem search_of_matchStart (h : matchStart ps cs = some (kept, after)) :
    search ps cs = some kept := by
  unfold search
  rw [h]

theorem search_eq_none (h : ∀ zs, zs <:+ cs → matchStart ps zs = none) : search ps cs = none := by
  induction cs with
  | nil =>
    unfold search
    rw [h [] List.suffix_rfl]
  | cons c cs ih =>
    unfold search
    rw [h (c :: cs) List.suffix_rfl]
    exact ih fun zs hzs => h zs (hzs.trans (List.suffix_cons c cs))

end Pattern

end Luuqad.Text

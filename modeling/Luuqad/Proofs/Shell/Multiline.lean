import Luuqad.Proofs.Shell.Effects
import Luuqad.Proofs.Text.Replace
import Mathlib.Data.List.TakeWhile

/-!
# Multi-line mode

In multi-line mode the shell collects lines until one of them ends the block. Commands leave the
mode alone, except for the one that enters it (`command_cases`), and there is no other way in than a
line. So, by induction on the rounds of the loop, the lines collected are always those that were
entered since the mode was (`Rounds.outside_or_within`), and the block is executed as a whole when
it ends (`blocks_exact`).

A round of the loop takes one entry. That the loop goes through the input in rounds is `entries_eq`.
-/

namespace Luuqad

theorem Text.strip_eq_nil_iff {cs : List Char} : strip cs = [] ↔ Blank cs := by
  rw [strip, stripEnd, List.reverse_eq_nil_iff, List.dropWhile_eq_nil_iff]
  constructor
  · intro h
    have hnil : cs.dropWhile isBlank = [] := by
      cases hrest : cs.dropWhile isBlank with
      | nil => rfl
      | cons c rest =>
        have hc : isBlank c = true := h c (by simp [hrest])
        have hhead := List.head?_dropWhile_not isBlank cs
        simp [hrest, hc] at hhead
    exact List.dropWhile_eq_nil_iff.mp hnil
  · intro h c hc
    rw [List.dropWhile_eq_nil_iff.mpr h] at hc
    cases hc

theorem State.showing_empty (s : State) : s.showing "" = s := by rw [showing, String.append_empty]

theorem State.showing_showing (s : State) (text more : String) :
    (s.showing text).showing more = s.showing (text ++ more) := by
  rw [showing, showing, showing, String.append_assoc]

namespace Session

open Shell

variable {α β : Type} {limits : Limits} {line : String} {s t : Shell}

theorem get_bind {f : Shell → Session α} : (get >>= f) s = f s s := rfl

theorem bind_ok {x : Session α} {a : α} {f : α → Session β} (h : x s = .ok a t) :
    (x >>= f) s = f a t := by
  change EStateM.bind x f s = _
  rw [EStateM.bind, h]

theorem bind_error {x : Session α} {e : Stop} {f : α → Session β} (h : x s = .error e t) :
    (x >>= f) s = .error e t := by
  change EStateM.bind x f s = _
  rw [EStateM.bind, h]

theorem tryCatch_of_ok {x : Session α} {handle : Stop → Session α} {a : α} (h : x s = .ok a t) :
    tryCatch x handle s = .ok a t := by
  change EStateM.tryCatch x handle s = _
  rw [EStateM.tryCatch, h]

theorem tryCatch_of_error {x : Session α} {handle : Stop → Session α} {e : Stop}
    (h : x s = .error e t) :
    tryCatch x handle s = handle e t := by
  change EStateM.tryCatch x handle s = _
  rw [EStateM.tryCatch, h]
  rfl

theorem modify_bind {f : Shell → Shell} {g : Unit → Session α} : (modify f >>= g) s = g () (f s) :=
  rfl

theorem printLine_eq (text : String) (s : Shell) :
    printLine text s = .ok () { s with program := s.program.showing (text ++ "\n") } := rfl

theorem printLine_bind {text : String} {f : Unit → Session α} :
    (printLine text >>= f) s = f () { s with program := s.program.showing (text ++ "\n") } := rfl

/-! ## What leaves the mode alone -/

/-- The shell after a part of a session, however it ended. -/
def after (x : Session α) (s : Shell) : Shell :=
  match x s with
  | .ok _ t => t
  | .error _ t => t

theorem after_of_ok {x : Session α} {a : α} (h : x s = .ok a t) : after x s = t := by rw [after, h]

theorem after_of_error {x : Session α} {e : Stop} (h : x s = .error e t) :
    after x s = t := by rw [after, h]

/-- A part of a session leaves the mode and the collected lines as they are, however it ends. -/
def KeepsMode (x : Session α) : Prop :=
  ∀ s, (after x s).multiline = s.multiline ∧ (after x s).buffer = s.buffer

namespace KeepsMode

theorem pure (a : α) : KeepsMode (Pure.pure a) := fun _ => ⟨rfl, rfl⟩

theorem get : KeepsMode (MonadState.get : Session Shell) := fun _ => ⟨rfl, rfl⟩

theorem throw (e : Stop) : KeepsMode (MonadExcept.throw e : Session α) := fun _ => ⟨rfl, rfl⟩

theorem bind {x : Session α} {f : α → Session β} (hx : KeepsMode x) (hf : ∀ a, KeepsMode (f a)) :
    KeepsMode (x >>= f) := by
  intro s
  have hfirst := hx s
  cases hrun : x s with
  | ok a t =>
    rw [after_of_ok hrun] at hfirst
    have hrest := hf a t
    have hafter : after (x >>= f) s = after (f a) t := by rw [after, bind_ok hrun, after]
    rw [hafter]
    exact ⟨hrest.1.trans hfirst.1, hrest.2.trans hfirst.2⟩
  | error e t =>
    rw [after_of_error hrun] at hfirst
    rw [after_of_error (bind_error hrun)]
    exact hfirst

theorem bind_if {p : Prop} [Decidable p] {x : Session Unit} {y : Session β} (hx : KeepsMode x)
    (hy : KeepsMode y) :
    KeepsMode (if p then x >>= fun _ => y else y) := by
  split
  · exact bind hx fun _ => hy
  · exact hy

theorem onProgram (f : State → State) : KeepsMode (Session.onProgram f) := fun _ => ⟨rfl, rfl⟩

theorem print (text : String) : KeepsMode (Session.print text) := onProgram _

theorem printLine (text : String) : KeepsMode (Session.printLine text) := print _

theorem printLines (texts : List String) : KeepsMode (Session.printLines texts) := print _

theorem running (r : Run α) : KeepsMode (Session.running r) := by
  intro s
  unfold after Session.running
  cases r s.program with
  | ok a p => exact ⟨rfl, rfl⟩
  | error e p => cases e <;> exact ⟨rfl, rfl⟩

theorem load (path : String) : KeepsMode (Session.load path) := by
  unfold Session.load
  split
  · exact printLine _
  · refine bind get fun s => ?_
    split
    · exact printLines _
    · exact printLine _
    · exact printLine _

theorem run (limits : Limits) (path : String) : KeepsMode (Session.run limits path) := by
  unfold Session.run
  split
  · exact printLine _
  · exact bind (running _) fun _ => pure _

theorem examples (names : List String) :
    KeepsMode (modify ({ · with examples := names }) : Session Unit) := fun _ => ⟨rfl, rfl⟩

theorem listExamples : KeepsMode Session.listExamples := by
  unfold Session.listExamples
  refine bind get fun s => ?_
  dsimp only
  split
  · exact printLine _
  · split
    · exact printLine _
    · exact bind (examples _) fun _ => bind (printLine _) fun _ => bind (printLines _)
        fun _ => printLine _

theorem runExample (limits : Limits) (argument : String) :
    KeepsMode (Session.runExample limits argument) := by
  unfold Session.runExample
  split
  · exact printLine _
  · split
    · exact printLine _
    · refine bind get fun s => ?_
      refine bind_if listExamples (bind get fun t => ?_)
      dsimp only
      split
      · exact pure _
      · split
        · exact printLine _
        · exact run _ _

theorem showVariables (table : List (String × Value)) :
    KeepsMode (Session.showVariables table) := by
  induction table with
  | nil => exact pure _
  | cons entry rest ih =>
    refine bind get fun s => ?_
    dsimp only
    split
    · exact printLine _
    · exact bind (printLine _) fun _ => ih

theorem listVariables : KeepsMode Session.listVariables := by
  refine bind (printLine _) fun _ => bind get fun s => ?_
  dsimp only
  split
  · exact printLine _
  · exact showVariables _

theorem reset : KeepsMode Session.reset := bind (onProgram _) fun _ => printLine _

theorem leave : KeepsMode Session.leave := bind (printLine _) fun _ => throw _

end KeepsMode

/-- Of all commands only the one that enters multi-line mode or leaves it changes the mode. -/
theorem command_cases (limits : Limits) (text : String) :
    KeepsMode (command limits text) ∨ command limits text = toggleMultiline := by
  unfold command
  dsimp only
  split
  · exact Or.inl (.printLines _)
  · exact Or.inl .leave
  · exact Or.inl .leave
  · exact Or.inl (.pure _)
  · exact Or.inl (.load _)
  · exact Or.inl (.run _ _)
  · exact Or.inl .listExamples
  · exact Or.inl (.runExample _ _)
  · exact Or.inl .reset
  · exact Or.inl .listVariables
  · exact Or.inr rfl
  · exact Or.inl (.printLine _)

/-! ## Entries -/

def isBlankLine (line : String) : Bool := line.toList.all Text.isBlank

def endsBlock (line : String) : Bool := Text.strip line.toList = ":end".toList

/-- The lines of a block that count. -/
def collected (lines : List String) : List String := lines.filter fun line => !isBlankLine line

theorem collected_append (lines more : List String) :
    collected (lines ++ more) = collected lines ++ collected more :=
  List.filter_append ..

theorem isEmpty_strip (line : String) :
    (String.ofList (Text.strip line.toList)).isEmpty = isBlankLine line := by
  rw [Bool.eq_iff_iff, String.isEmpty_iff, String.ofList_eq_empty_iff, Text.strip_eq_nil_iff,
    isBlankLine, List.all_eq_true]
  rfl

theorem endsBlock_iff {line : String} :
    endsBlock line = true ↔ String.ofList (Text.strip line.toList) = ":end" := by
  rw [endsBlock, decide_eq_true_iff]
  exact ⟨fun h => h ▸ String.ofList_toList, fun h => by rw [← h, String.toList_ofList]⟩

theorem isBlankLine_of_endsBlock (h : endsBlock line = true) : isBlankLine line = false := by
  rw [← isEmpty_strip, endsBlock_iff.mp h]
  rfl

theorem enterLine_collecting (hmode : s.multiline = true) : enterLine limits line s = .ok ()
    (if endsBlock line then
      { s with
        program := execute .absent ("\n".intercalate s.buffer) s.program
        multiline := false
        buffer := [] }
    else { s with buffer := s.buffer ++ collected [line] }) := by
  unfold enterLine
  rw [get_bind, isEmpty_strip]
  cases hend : endsBlock line with
  | true =>
    rw [isBlankLine_of_endsBlock hend, if_neg Bool.false_ne_true, if_pos hmode,
      if_pos (endsBlock_iff.mp hend)]
    rfl
  | false =>
    have hstrip : ¬ String.ofList (Text.strip line.toList) = ":end" := by
      rw [← endsBlock_iff, hend]
      exact Bool.false_ne_true
    cases hblank : isBlankLine line with
    | true =>
      rw [if_pos rfl, collected, List.filter_cons_of_neg (by simp [hblank]), List.filter_nil,
        List.append_nil]
      rfl
    | false =>
      rw [if_neg Bool.false_ne_true, if_pos hmode, if_neg hstrip, collected,
        List.filter_cons_of_pos (by simp [hblank]), List.filter_nil]
      rfl

theorem toggleMultiline_eq (hmode : s.multiline = false) : ∃ text, toggleMultiline s = .ok ()
    { s with program := s.program.showing text, multiline := true, buffer := [] } := by
  obtain ⟨program, multiline, buffer, examples⟩ := s
  cases hmode
  unfold toggleMultiline
  rw [get_bind, Bool.not_false, if_pos rfl, modify_bind, printLine_bind, printLine_eq,
    State.showing_showing]
  exact ⟨_, rfl⟩

theorem enterLine_of_entering (hmode : s.multiline = false)
    (hline : Text.strip line.toList = ":multiline".toList) :
    enterLine limits line s = toggleMultiline s := by
  have hstrip : String.ofList (Text.strip line.toList) = ":multiline" := by
    rw [hline, String.ofList_toList]
  unfold enterLine
  rw [get_bind, hstrip, hmode]
  rfl

theorem buffer_enterLine (hmode : s.multiline = false) (hbuffer : s.buffer = []) :
    (after (enterLine limits line) s).buffer = [] := by
  have hkeeps {x : Session Unit} (hx : KeepsMode x) : (after x s).buffer = [] :=
    (hx s).2.trans hbuffer
  have htoggle : (after toggleMultiline s).buffer = [] := by
    obtain ⟨text, htoggle⟩ := toggleMultiline_eq hmode
    rw [after_of_ok htoggle]
  have hget {f : Shell → Session Unit} : after (get >>= f) s = after (f s) s := rfl
  -- The two ways into multi-line mode start without lines; whatever else a line does keeps the
  -- mode.
  unfold enterLine
  rw [hget, hmode]
  split
  · exact hkeeps (.pure _)
  · rw [if_neg Bool.false_ne_true]
    split
    · exact htoggle
    · split
      · obtain hcommand | hentering :=
          command_cases limits (String.ofList (Text.strip (line.toList.drop 1)))
        · exact hkeeps hcommand
        · rw [hentering]
          exact htoggle
      · exact hkeeps (.onProgram _)

/-- What is shown after an interrupt. -/
def interruptNotice (multiline : Bool) : String :=
  "\nUse :exit or :quit to exit the shell, or press Ctrl+D" ++ "\n" ++
    if multiline then "Exiting multiline mode" ++ "\n" else ""

theorem interrupt_eq (hbuffer : s.multiline = false → s.buffer = []) : interrupt s = .ok ()
    { s with
      program := s.program.showing (interruptNotice s.multiline)
      multiline := false
      buffer := [] } := by
  obtain ⟨program, multiline, buffer, examples⟩ := s
  unfold interrupt
  rw [printLine_bind, get_bind]
  cases multiline with
  | false =>
    have hnone : buffer = [] := hbuffer rfl
    have hnotice : interruptNotice false =
        "\nUse :exit or :quit to exit the shell, or press Ctrl+D" ++ "\n" :=
      String.append_empty
    rw [hnone, hnotice]
    rfl
  | true =>
    rw [if_pos rfl, printLine_bind, State.showing_showing]
    rfl

theorem enter_of_ok (h : enterLine limits line s = .ok () t) :
    enter limits (.line line) s = .ok () t := by
  rw [enter, tryCatch_of_ok h]

theorem enter_of_stopped (h : enterLine limits line s = .error .stopped t) :
    enter limits (.line line) s = interrupt t := by
  rw [enter, tryCatch_of_error h]

theorem enter_of_error {e : Stop} (h : enterLine limits line s = .error e t) (he : e ≠ .stopped) :
    enter limits (.line line) s = .error e t := by
  rw [enter, tryCatch_of_error h]
  cases e with
  | exited code => rfl
  | stopped => exact absurd rfl he
  | exhausted => rfl

theorem enter_outside {e : Entry} (hmode : s.multiline = false) (hbuffer : s.buffer = [])
    (h : enter limits e s = .ok () t) :
    t.buffer = [] ∧ (t.multiline = true → ∃ line, e = .line line) := by
  cases e with
  | interrupt =>
    have hinterrupt : interrupt s = .ok () t := h
    rw [interrupt_eq fun _ => hbuffer] at hinterrupt
    cases hinterrupt
    exact ⟨rfl, fun hcollects => absurd hcollects Bool.false_ne_true⟩
  | line line =>
    refine ⟨?_, fun _ => ⟨line, rfl⟩⟩
    have hline : (after (enterLine limits line) s).buffer = [] := buffer_enterLine hmode hbuffer
    cases hrun : enterLine limits line s with
    | ok a u =>
      rw [enter_of_ok hrun] at h
      cases h
      rw [after_of_ok hrun] at hline
      exact hline
    | error e u =>
      rw [after_of_error hrun] at hline
      by_cases hstopped : e = .stopped
      · subst hstopped
        rw [enter_of_stopped hrun, interrupt_eq fun _ => hline] at h
        cases h
        rfl
      · rw [enter_of_error hrun hstopped] at h
        cases h

/-! ## The loop -/

def promptText (multiline : Bool) : String :=
  if multiline then styled "1;33" "... " else "\n" ++ styled "1;36" "soplang>" ++ " "

/-- The shell after it prompted. -/
def prompted (s : Shell) : Shell := { s with program := s.program.showing (promptText s.multiline) }

/-- The shell after it prompted and took an entry, which leaves the `rest` of the input. -/
def asked (s : Shell) (rest : List Entry) : Shell :=
  { prompted s with program := { (prompted s).program with input := rest } }

/-- The shell `t` is what the loop comes to from `s` when the entries `taken` were taken and dealt
with, one in each round. What a program reads while it runs is not among them. -/
inductive Rounds (limits : Limits) (s : Shell) : List Entry → Shell → Prop
  | start : Rounds limits s [] s
  | next {taken : List Entry} {t u : Shell} {e : Entry}
      {rest : List Entry} : Rounds limits s taken t →
      t.program.input = e :: rest → enter limits e (asked t rest) = .ok () u →
        Rounds limits s (taken ++ [e]) u

/-- How the loop ends from a shell: there is no entry, or dealing with the next one ends the
session. -/
inductive Concludes (limits : Limits) (s : Shell) : EStateM.Result Stop Shell Unit → Prop
  | farewell : s.program.input = [] → Concludes limits s (Session.farewell (prompted s))
  | stop {e : Entry} {rest : List Entry} {why : Stop} {t : Shell} : s.program.input = e :: rest →
      enter limits e (asked s rest) = .error why t → Concludes limits s (.error why t)

theorem prompt_bind {f : Unit → Session α} : (prompt >>= f) s = f () (prompted s) := rfl

theorem entries_of_nil {bound : Nat} (h : s.program.input = []) :
    entries limits (bound + 1) s = farewell (prompted s) := by
  have hinput : (prompted s).program.input = [] := h
  rw [entries, prompt_bind, get_bind, hinput]

theorem entries_of_cons {bound : Nat} {e : Entry} {rest : List Entry}
    (h : s.program.input = e :: rest) :
    entries limits (bound + 1) s = (enter limits e >>= fun _ => entries limits bound)
    (asked s rest) := by
  have hinput : (prompted s).program.input = e :: rest := h
  rw [entries, prompt_bind, get_bind, hinput]
  rfl

/-- Going through the input is a series of rounds, which the loop ends or which reaches the
bound. -/
theorem entries_eq {taken : List Entry} (bound : Nat) (h : Rounds limits s taken t) : ∃ more u,
    Rounds limits s (taken ++ more) u ∧
    (more.length = bound ∧ entries limits bound t = .ok () u ∨
      Concludes limits u (entries limits bound t)) := by
  induction bound generalizing taken t with
  | zero => exact ⟨[], t, by rwa [List.append_nil], Or.inl ⟨rfl, rfl⟩⟩
  | succ bound ih =>
    cases hinput : t.program.input with
    | nil =>
      refine ⟨[], t, by rwa [List.append_nil], Or.inr ?_⟩
      rw [entries_of_nil hinput]
      exact .farewell hinput
    | cons e rest =>
      rw [entries_of_cons hinput]
      cases henter : enter limits e (asked t rest) with
      | ok a u =>
        obtain ⟨more, v, hrounds, hend⟩ := ih (.next h hinput henter)
        rw [bind_ok henter]
        refine ⟨e :: more, v, by simpa using hrounds, ?_⟩
        exact hend.imp_left fun hbound => ⟨by rw [List.length_cons, hbound.1], hbound.2⟩
      | error why u =>
        rw [bind_error henter]
        exact ⟨[], t, by rwa [List.append_nil], Or.inr (.stop hinput henter)⟩

/-! ## Blocks -/

/-- Since the shell `v`, which is in multi-line mode without a line, the shell `t` took `lines`,
none of which ends the block, and did nothing but prompt for them and keep those that are not
blank. -/
structure Collects (v : Shell) (lines : List String) (t : Shell) : Prop where
  entered : v.multiline = true
  empty : v.buffer = []
  unended : ∀ line ∈ lines, endsBlock line = false
  taken : v.program.input = lines.map .line ++ t.program.input
  program : t.program =
    { v.program.showing (String.join (lines.map fun _ => promptText true)) with
      input := t.program.input }
  multiline : t.multiline = true
  buffer : t.buffer = collected lines
  examples : t.examples = v.examples

namespace Collects

variable {v : Shell} {lines : List String} {rest : List Entry}

theorem refl (hmode : t.multiline = true) (hbuffer : t.buffer = []) : Collects t [] t where
  entered := hmode
  empty := hbuffer
  unended _ hline := absurd hline List.not_mem_nil
  taken := rfl
  program := by
    change _ = { t.program.showing "" with input := t.program.input }
    rw [State.showing_empty]
  multiline := hmode
  buffer := hbuffer
  examples := rfl

theorem next (h : Collects v lines t) (hinput : t.program.input = .line line :: rest)
    (hline : endsBlock line = false) :
    Collects v (lines ++ [line]) { asked t rest with buffer := t.buffer ++ collected [line] } where
  entered := h.entered
  empty := h.empty
  unended l hl := by
    obtain hl | hl := List.mem_append.mp hl
    · exact h.unended l hl
    · rwa [List.mem_singleton.mp hl]
  taken := by
    rw [h.taken, hinput, List.map_append, List.append_assoc]
    rfl
  program := by
    have hjoin : String.join ((lines ++ [line]).map fun _ => promptText true) =
        String.join (lines.map fun _ => promptText true) ++ promptText true := by
      rw [List.map_append, String.join, List.foldl_append]
      rfl
    rw [hjoin, ← State.showing_showing, asked, prompted, h.multiline, h.program]
    rfl
  multiline := h.multiline
  buffer := by
    rw [collected_append, ← h.buffer]
  examples := h.examples

end Collects

theorem enter_within (limits : Limits) (hmode : s.multiline = true) :
    enter limits .interrupt s = .ok ()
      { s with
        program := s.program.showing (interruptNotice true)
        multiline := false
        buffer := [] } ∧
    (∀ line, endsBlock line = true → enter limits (.line line) s = .ok ()
      { s with
        program := execute .absent ("\n".intercalate s.buffer) s.program
        multiline := false
        buffer := [] }) ∧
    ∀ line, endsBlock line = false → enter limits (.line line) s = .ok ()
      { s with buffer := s.buffer ++ collected [line] } := by
  refine ⟨?_, fun line hline => ?_, fun line hline => ?_⟩
  · have hinterrupt := interrupt_eq (s := s) (by simp [hmode])
    rw [hmode] at hinterrupt
    exact hinterrupt
  · rw [enter_of_ok (enterLine_collecting hmode), hline, if_pos rfl]
  · rw [enter_of_ok (enterLine_collecting hmode), hline, if_neg Bool.false_ne_true]

/-- The last of the entries taken are `lines`, and the line before them opened the block to which
they belong. -/
def Within (limits : Limits) (s : Shell) (taken : List Entry) (lines : List String) (t : Shell) :
    Prop :=
  ∃ before opener rest u v, taken = before ++ .line opener :: lines.map .line ∧
    Rounds limits s before u ∧ u.multiline = false ∧ u.program.input = .line opener :: rest ∧
    enter limits (.line opener) (asked u rest) = .ok () v ∧ Collects v lines t

theorem Within.collects {taken : List Entry} {lines : List String}
    (h : Within limits s taken lines t) :
    ∃ v, Collects v lines t := by
  obtain ⟨before, opener, rest, u, v, -, -, -, -, -, hcollects⟩ := h
  exact ⟨v, hcollects⟩

/-- When the loop prompts, it is outside of multi-line mode and no line is collected, or it is
within a block. -/
theorem Rounds.outside_or_within {taken : List Entry} (hmode : s.multiline = false)
    (hbuffer : s.buffer = []) (h : Rounds limits s taken t) :
    t.multiline = false ∧ t.buffer = [] ∨ ∃ lines, Within limits s taken lines t := by
  induction h with
  | start => exact Or.inl ⟨hmode, hbuffer⟩
  | @next taken t u e rest hrounds hinput henter ih =>
    obtain ⟨houtside, hnone⟩ |
        ⟨lines, before, opener, rest', u', v, htaken, hbefore, hu', hinput', hopened,
      hcollects⟩ := ih
    -- Outside of a block the entry may open one; within a block it ends the block or makes it
    -- longer.
    · obtain ⟨hempty, hline⟩ := enter_outside (s := asked t rest) houtside hnone henter
      cases hafter : u.multiline with
      | false => exact Or.inl ⟨rfl, hempty⟩
      | true =>
        obtain ⟨opener, rfl⟩ := hline hafter
        exact Or.inr ⟨[], taken, opener, rest, t, u, rfl, hrounds, houtside, hinput, henter,
          .refl hafter hempty⟩
    · obtain ⟨hinterrupt, hended, hkept⟩ :=
        enter_within limits (s := asked t rest) hcollects.multiline
      cases e with
      | interrupt =>
        rw [hinterrupt] at henter
        cases henter
        exact Or.inl ⟨rfl, rfl⟩
      | line line =>
        cases hend : endsBlock line with
        | true =>
          rw [hended line hend] at henter
          cases henter
          exact Or.inl ⟨rfl, rfl⟩
        | false =>
          rw [hkept line hend] at henter
          cases henter
          refine Or.inr ⟨lines ++ [line], before, opener, rest', u', v, ?_, hbefore, hu',
            hinput', hopened, hcollects.next hinput hend⟩
          rw [htaken, List.map_append, List.append_assoc]
          rfl

def welcomed (s : Shell) : Shell :=
  { s with program := s.program.showing (String.join (welcome.map (· ++ "\n"))) }

theorem converse_eq (limits : Limits) (s : Shell) :
    converse limits s = entries limits (s.program.input.length + 1) (welcomed s) := rfl

/-- A conversation is a series of rounds. Whenever it prompts outside of multi-line mode, no line is
collected. Whenever it prompts in multi-line mode, all that was done since a line entered the mode
was to prompt and to collect lines. Then an interrupt discards them and leaves the mode; a line that
ends the block leaves the mode after the lines collected, which are all that are not blank, in order
and joined by line feeds, were executed once; any other line is collected if it is not blank, and
that is all. -/
theorem blocks_exact (limits : Limits) {s : Shell} (hmode : s.multiline = false)
    (hbuffer : s.buffer = []) :
    (∃ taken t, Rounds limits (welcomed s) taken t ∧
      (taken.length = s.program.input.length + 1 ∧ converse limits s = .ok () t ∨
        Concludes limits t (converse limits s))) ∧
    ∀ taken t, Rounds limits (welcomed s) taken t →
      (t.multiline = false → t.buffer = []) ∧
      (t.multiline = true → ∃ lines, Within limits (welcomed s) taken lines t ∧ ∀ rest,
        enter limits .interrupt (asked t rest) = .ok ()
          { asked t rest with
            program := (asked t rest).program.showing (interruptNotice true), multiline :=
              false, buffer := [] } ∧
        (∀ line, endsBlock line = true → enter limits (.line line) (asked t rest) = .ok ()
          { asked t rest with
            program := execute .absent ("\n".intercalate (collected lines)) (asked t rest).program
            multiline := false, buffer := [] }) ∧
        ∀ line, endsBlock line = false → enter limits (.line line) (asked t rest) = .ok ()
          { asked t rest with buffer := collected (lines ++ [line]) }) := by
  refine ⟨?_, fun taken t hrounds => ?_⟩
  · have hstart : Rounds limits (welcomed s) [] (welcomed s) := .start
    rw [converse_eq]
    exact entries_eq (s.program.input.length + 1) hstart
  · obtain ⟨houtside, hnone⟩ | ⟨lines, hwithin⟩ :=
      Rounds.outside_or_within (s := welcomed s) hmode hbuffer hrounds
    · exact ⟨fun _ => hnone,
        fun hcollects => absurd (houtside.symm.trans hcollects) Bool.false_ne_true⟩
    · obtain ⟨v, hcollects⟩ := hwithin.collects
      refine ⟨fun houtside => absurd (houtside.symm.trans hcollects.multiline) Bool.false_ne_true,
        fun _ =>
        ⟨lines, hwithin, fun rest => ?_⟩⟩
      have hentered := enter_within limits (s := asked t rest) hcollects.multiline
      have hbuffer : (asked t rest).buffer = collected lines := hcollects.buffer
      simpa only [hbuffer, collected_append] using hentered

/-- A block of two lines with a blank one between them. The second one would be a command outside of
the block. -/
theorem blocks_exact_of_two_lines :
    let s : Shell :=
      { program :=
        { input := [.line ":multiline", .line "x", .line " ", .line ":help", .line " :end"] } }
    s.multiline = false ∧ s.buffer = [] ∧ ∃ t,
      Rounds .standard (welcomed s) [.line ":multiline", .line "x", .line " ", .line ":help"] t ∧
      t.program.input = [.line " :end"] ∧
      enter .standard (.line " :end") (asked t []) = .ok ()
        { asked t [] with
          program := execute .absent "x\n:help" (asked t []).program, multiline :=
            false, buffer := [] } := by
  intro s
  have hstrip : Text.strip ":multiline".toList = ":multiline".toList := by decide +kernel
  obtain ⟨text, hopened⟩ := toggleMultiline_eq
    (s := asked (welcomed s) [.line "x", .line " ", .line ":help", .line " :end"]) rfl
  have hopen : Rounds .standard (welcomed s) [.line ":multiline"] _ :=
    .next .start rfl (enter_of_ok ((enterLine_of_entering rfl hstrip).trans hopened))
  have hfirst : Rounds .standard (welcomed s) [.line ":multiline", .line "x"] _ :=
    .next hopen rfl ((enter_within _ rfl).2.2 "x" (by decide +kernel))
  have hblank : Rounds .standard (welcomed s) [.line ":multiline", .line "x", .line " "] _ :=
    .next hfirst rfl ((enter_within _ rfl).2.2 " " (by decide +kernel))
  have hsecond : Rounds .standard (welcomed s) [.line ":multiline", .line "x", .line " ",
      .line ":help"] _ :=
    .next hblank rfl ((enter_within _ rfl).2.2 ":help" (by decide +kernel))
  obtain ⟨lines, hwithin, hentered⟩ :=
    ((blocks_exact .standard (s := s) rfl rfl).2 _ _ hsecond).2 rfl
  obtain ⟨v, hcollects⟩ := hwithin.collects
  have hlines : "\n".intercalate (collected lines) = "x\n:help" := by
    rw [← hcollects.buffer]
    change "\n".intercalate ([] ++ collected ["x"] ++ collected [" "] ++ collected [":help"]) = _
    decide +kernel
  refine ⟨rfl, rfl, _, hsecond, rfl, ?_⟩
  rw [(hentered []).2.1 " :end" (by decide +kernel), hlines]

end Session

end Luuqad

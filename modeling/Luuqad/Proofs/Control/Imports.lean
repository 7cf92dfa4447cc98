import Luuqad.Interpreter.File
import Luuqad.Proofs.Control.Conditional
import Luuqad.Proofs.Lockstep.Statements
import Luuqad.Proofs.Parsing.Places

/-!
# Imports of texts without a final newline

An import reads the text of a file as it is, while a file that is run on its own gets a newline at
its end first. So a newline at the end of an imported text makes a difference if the end of the text
is not marked without it: the import then fails, or it never ends, whatever the text says. To the
texts that are settled it makes no difference, neither when they are imported
(`Evaluator.importText_newline_iff`) nor to any code that runs in a folder with such files
(`execute_inFolder`).
-/

namespace Luuqad

open Run

/-! ## Importing a text -/

/-- How a run is interrupted when a text or some tokens cannot be read. -/
def ReadStop.interrupt : ReadStop → Interrupt
  | .fault f => .fault f
  | .tooDeep => .exhausted

/-- What an import makes of whatever interrupts the file. -/
def Interrupt.ofImport (path : String) (e : Interrupt) : Interrupt :=
  match e, e.caught? with
  | .fault (.failure (.fileMissing _)), _ => .fault (Cause.fileNotFound path).fault
  | _, some text => .fault (Cause.importFailed path text).fault
  | _, none => e

namespace Evaluator

variable (self : Evaluator) (path : String) {source : String} {s : State}

/-- Import a text that a file at a path has. -/
def importText (source : String) : Run Unit :=
  MonadExcept.tryCatch (self.runRead (readProgram source)) fun e => throw (e.ofImport path)

theorem importText_of_error {stop : ReadStop} (h : readProgram source = .error stop) :
    self.importText path source s = .error (stop.interrupt.ofImport path) s := by
  have hstop : self.runRead (readProgram source) s = .error stop.interrupt s := by
    rw [h]
    cases stop <;> rfl
  exact tryCatch_error hstop

theorem importText_of_ok {n : Node} {t : State} (h : readProgram source = .ok n)
    (hrun : self.block n.children s = .ok () t) : self.importText path source s = .ok () t := by
  have hread : self.runRead (readProgram source) s = .ok () t := by
    rw [h]
    exact hrun
  exact tryCatch_ok hread

variable {path}

theorem importFile_of_read {n : Node} (hpath : n.value = .str path)
    (hread : s.folder.read path = .ok source) :
    self.importFile n s = self.importText path source s := by
  have hrun : self.runFile path s = self.runRead (readProgram source) s := by
    rw [runFile_eq]
    show self.runRead (s.folder.programAt path) s = _
    unfold Folder.programAt
    rw [hread]
  unfold importFile
  rw [hpath, bind_ok (text_str path s)]
  cases hresult : self.runRead (readProgram source) s with
  | ok _ t => exact (tryCatch_ok (hrun.trans hresult)).trans (tryCatch_ok hresult).symm
  | error e t =>
    refine (tryCatch_error (hrun.trans hresult)).trans (.trans ?_ (tryCatch_error hresult).symm)
    -- what is left is the handler of the import against `Interrupt.ofImport`
    cases e with
    | fault f =>
      cases f with
      | failure f => cases f <;> rfl
      | error d => rfl
    | _ => rfl

/-- A newline behind a text makes no difference to its imports, whatever is done with its
statements, if and only if the text is settled. -/
theorem importText_newline_iff (source : String) :
    (∀ (self : Evaluator) (path : String), self.importText path source =
      self.importText path (source ++ "\n")) ↔
      Settled source := by
  rw [← readProgram_newline_iff]
  constructor
  · intro h
    -- statements of `tally` never fail, so it tells a program from what cannot be read
    have hsame := congrFun (h tally "") {}
    have hread := readProgram_newline source
    generalize hleft : readProgram source = r at hread
    generalize hright : readProgram (source ++ "\n") = r' at hread
    cases hread with
    | program | wrong => rfl
    | @unmarked stop n _ =>
      rw [importText_of_error tally "" hleft,
        importText_of_ok tally "" hright (bind_ok (tally_sequence _ _))] at hsame
      cases hsame
    | endless =>
      rw [importText_of_error tally "" hleft, importText_of_error tally "" hright] at hsame
      cases hsame
    | @moved d d' p hp hat hat' =>
      rw [importText_of_error tally "" hleft, importText_of_error tally "" hright] at hsame
      -- all that the import keeps of an error is its message
      have hmessage : d.message = d'.message := by
        injection hsame with hinterrupt
        injection hinterrupt with hfault
        injection hfault with hdiagnostic
        injection hdiagnostic with hcause
        injection hcause
      have hline := Position.line_behind_newline source
      rw [← hat.message_inj hat' hmessage] at hline
      omega
  · intro h self path
    unfold importText
    rw [h]

end Evaluator

/-- Only settled texts can be imported: any other import fails before it does anything, or it never
ends. -/
theorem settled_or_importText_error (source : String) :
    Settled source ∨
      ∀ (self : Evaluator) (path : String) (s : State),
        ∃ e, self.importText path source s = .error e s := by
  cases hread : readProgram source with
  | ok n => exact .inl (settled_of_program hread)
  | error stop => exact .inr fun self path s => ⟨_, self.importText_of_error path hread⟩

theorem readProgram_endLine_iff (source : String) :
    (∃ n, readProgram source = .ok n) ↔
    (∃ n, readProgram (endLine source) = .ok n) ∧ EndMarked source := by
  unfold endLine
  split
  · constructor
    · intro h
      exact ⟨h, ((readProgram_ok_iff source).mp h).2⟩
    · intro h
      exact h.1
  · exact readProgram_ok_iff source

/-! ## Folders with the same programs -/

def State.inFolder (s : State) (f : Folder) : State := { s with folder := f }

/-- The result of a run, with another folder in the state. -/
def Run.inFolder {α : Type} (f : Folder) :
    EStateM.Result Interrupt State α → EStateM.Result Interrupt State α
  | .ok a s => .ok a (s.inFolder f)
  | .error e s => .error e (s.inFolder f)

namespace Lockstep

variable {f f' : Folder}

/-- Two runs in folders with the same programs. -/
def folders (h : ∀ path, f'.programAt path = f.programAt path) : Lockstep where
  rel s t := s.folder = f ∧ t = s.inFolder f'
  tires := True
  seen _ := True
  callable _ := True
  abreast hst := by
    obtain ⟨-, rfl⟩ := hst
    exact ⟨rfl, rfl, rfl, rfl, rfl, rfl⟩
  files path hst := by
    obtain ⟨rfl, rfl⟩ := hst
    exact h path
  quiet {s s' t t'} hst hs ht habreast := by
    obtain ⟨rfl, rfl⟩ := hst
    refine ⟨hs.folder, State.Abreast.eq { habreast with } ?_ ?_ ?_ ht.folder⟩
    · exact ht.vars.trans hs.vars.symm
    · exact ht.types.trans hs.types.symm
    · exact ht.constants.trans hs.constants.symm
  function _ _ := trivial
  define name hst _ := ⟨hst.1, by rw [hst.2]; rfl⟩
  lookup hst _ := by rw [hst.2]; rfl
  noted hst _ := by rw [hst.2]; rfl
  constant hst _ := by rw [hst.2]; rfl
  setVariable v hst _ := ⟨hst.1, by rw [hst.2]; rfl⟩
  setType type hst _ := ⟨hst.1, by rw [hst.2]; rfl⟩
  setConstant hst _ := ⟨hst.1, by rw [hst.2]; rfl⟩
  restore hst hst' := ⟨hst'.1, by rw [hst.2, hst'.2]; rfl⟩

theorem folders_runs (h : ∀ path, f'.programAt path = f.programAt path) (rounds depth : Nat) :
    (folders h).Runs (fun _ => True) fun _ => .upTo rounds depth := by
  refine runs_upTo trivial (fun _ => ?_) (fun _ _ => trivial) (fun _ _ => trivial) rounds depth
  exact ⟨fun _ => trivial, fun _ => trivial, fun _ _ => trivial, fun _ => trivial,
    fun _ _ _ _ _ _ _ => trivial⟩

theorem Matched.inFolder {h : ∀ path, f'.programAt path = f.programAt path} {α : Type}
    {p q : EStateM.Result Interrupt State α} (hmatched : (folders h).Matched p q) :
    q = Run.inFolder f' p := by
  cases hmatched with
  | ok hst => rw [hst.2]; rfl
  | error hst _ => rw [hst.2]; rfl

end Lockstep

/-- Code runs in the same way in folders with the same programs. -/
theorem execute_inFolder {f f' : Folder} (h : ∀ path, f'.programAt path = f.programAt path)
    (l : Limits) (n : Node) (s : State) :
    l.evaluator.execute n (s.inFolder f') =
      Run.inFolder f' (l.evaluator.execute n (s.inFolder f)) := by
  have hruns := (Lockstep.folders_runs h l.rounds l.depth).execute (n := n) trivial
  exact (Lockstep.follows_const.mp hruns (s.inFolder f) (s.inFolder f') ⟨rfl, rfl⟩).inFolder

/-! ## Folders with a newline more -/

namespace Folder

/-- The same is read from the folders, except that files with this text may have a newline behind
it. -/
def EndsLine (source : String) (f f' : Folder) : Prop :=
  ∀ path, f'.read path = f.read path ∨ f.read path = .ok source ∧
    f'.read path = .ok (source ++ "\n")

variable {f f' : Folder} {source : String}

theorem EndsLine.programAt (h : f.EndsLine source f') (hsettled : Settled source) (path : String) :
    f'.programAt path = f.programAt path := by
  unfold Folder.programAt
  rcases h path with hsame | ⟨hread, hread'⟩
  · rw [hsame]
  · rw [hread, hread']
    exact ((readProgram_newline_iff source).mpr hsettled).symm

/-- The folder with other texts in its files. -/
def mapTexts (f : Folder) (g : String → String) : Folder :=
  ⟨f.files.map fun file => (file.1, g file.2)⟩

def Place.mapText (g : String → String) : Place → Place
  | .file text => .file (g text)
  | .folder here => .folder here
  | .outside => .outside

variable (f) (g : String → String)

theorem lookup_map_snd {α : Type} [BEq α] (l : List (α × String)) (a : α) :
    (l.map fun e => (e.1, g e.2)).lookup a = (l.lookup a).map g := by
  induction l with
  | nil => rfl
  | cons e l ih =>
    rw [List.map_cons, List.lookup_cons, List.lookup_cons, ih]
    split <;> rfl

theorem entries_mapTexts : (f.mapTexts g).entries = f.entries.map fun e => (e.1, g e.2) := by
  simp [entries, mapTexts]

theorem look?_mapTexts (here : List String) :
    (f.mapTexts g).look? here = (f.look? here).map (Place.mapText g) := by
  unfold look?
  rw [entries_mapTexts, lookup_map_snd]
  cases f.entries.lookup here with
  | some text => rfl
  | none =>
    simp only [Option.map_none, List.any_map, Function.comp_def]
    split <;> rfl

theorem follow_mapTexts (path : String) (rest : List String) (place : Place) :
    (f.mapTexts g).follow path rest (place.mapText g) =
      (f.follow path rest place).map (Place.mapText g) := by
  induction rest generalizing place with
  | nil => rfl
  | cons part rest ih =>
    cases place with
    | file text => rfl
    | outside =>
      simp only [Place.mapText, follow]
      split
      · exact ih .outside
      · rfl
    | folder here =>
      simp only [Place.mapText, follow, look?_mapTexts]
      split
      · exact ih (.folder here)
      · split
        · split
          · exact ih .outside
          · exact ih (.folder here.dropLast)
        · split
          · rfl
          · cases f.look? (here ++ [part]) with
            | none => rfl
            | some place => exact ih place

theorem find_mapTexts (path : String) :
    (f.mapTexts g).find path = (f.find path).map (Place.mapText g) := by
  have hlookup : (f.mapTexts g).files.lookup path = (f.files.lookup path).map g :=
    lookup_map_snd g f.files path
  simp only [find, hlookup]
  split
  · rfl
  · split
    · rfl
    · split
      · rfl
      · cases f.files.lookup path with
        | some text => rfl
        | none =>
          by_cases hroot : path.startsWith "/" = true
          · simp only [Option.map_none, if_pos hroot]
            exact follow_mapTexts f g path _ .outside
          · simp only [Option.map_none, if_neg hroot]
            exact follow_mapTexts f g path _ (.folder [])

variable {f g}

theorem plainLines_of_not_mem {text : List Char} (h : '\r' ∉ text) : plainLines text = text := by
  fun_induction plainLines text with
  | case1 | case2 => simp at h
  | case3 c rest _ _ ih => rw [ih (by simp_all)]
  | case4 => rfl

theorem read_of_file {path text : String} (h : f.find path = .ok (.file text))
    (hplain : '\r' ∉ text.toList) :
    f.read path = .ok text := by
  unfold read
  rw [h]
  simp only [plainLines_of_not_mem hplain, String.ofList_toList]

/-- The folder with a newline behind each file with this text. -/
def endLines (f : Folder) (source : String) : Folder :=
  f.mapTexts fun text => if text = source then source ++ "\n" else text

theorem endsLine_endLines (f : Folder) (hplain : '\r' ∉ source.toList) :
    f.EndsLine source (f.endLines source) := by
  intro path
  let g := fun text => if text = source then source ++ "\n" else text
  have hfind : (f.endLines source).find path = (f.find path).map (Place.mapText g) :=
    f.find_mapTexts g path
  have hsame (h : (f.find path).map (Place.mapText g) = f.find path) :
      (f.endLines source).read path = f.read path := by
    unfold read
    rw [hfind, h]
  cases hplace : f.find path with
  | error e => exact .inl (hsame (by rw [hplace]; rfl))
  | ok place =>
    rw [hplace] at hfind hsame
    cases place with
    | folder | outside => exact .inl (hsame rfl)
    | file text =>
      by_cases htext : text = source
      · subst htext
        refine .inr ⟨read_of_file hplace hplain, read_of_file (hfind.trans ?_) ?_⟩
        · simp [Place.mapText, Except.map, g]
        · simpa using hplain
      · exact .inl (hsame (by simp [Place.mapText, Except.map, g, htext]))

end Folder

/-! ## Importing with and without a newline -/

/-- A newline behind an imported text makes no difference if and only if the text is settled, and
then it makes none to any code in a folder with such files. An import of any other text fails or
never ends, though the parser always comes to an end if there is a newline. So an import accepts
fewer texts than a file that is run on its own: their end has to be marked. -/
theorem import_newline_iff (source : String) :
    ((∀ (self : Evaluator) (path : String), self.importText path source =
      self.importText path (source ++ "\n")) ↔
        Settled source) ∧
      (Settled source ∨
        ∀ (self : Evaluator) (path : String) (s : State),
          ∃ e, self.importText path source s = .error e s) ∧
      (∀ (self : Evaluator) (n : Node) (path : String) (s : State), n.value = .str path →
        s.folder.read path = .ok source → self.importFile n s = self.importText path source s) ∧
      (Settled source → ∀ (l : Limits) (n : Node) (s : State) (f f' : Folder),
        f.EndsLine source f' →
        l.evaluator.execute n (s.inFolder f') =
          Run.inFolder f' (l.evaluator.execute n (s.inFolder f))) ∧
      ((∃ n, readProgram source = .ok n) ↔
        (∃ n, readProgram (endLine source) = .ok n) ∧ EndMarked source) ∧
      readProgram (source ++ "\n") ≠ .error .tooDeep := by
  refine ⟨Evaluator.importText_newline_iff source, settled_or_importText_error source, ?_, ?_,
    readProgram_endLine_iff source, readProgram_newline_ends source⟩
  · intro self n path s hpath hread
    exact self.importFile_of_read hpath hread
  · intro hsettled l n s f f' hends
    exact execute_inFolder (hends.programAt hsettled) l n s

/-- The end of a text is marked by a comment. -/
theorem import_newline_iff_of_comment :
    let source := "door x = 5 // five"
    let f : Folder := ⟨[("m.sop", source)]⟩
    let f' : Folder := ⟨[("m.sop", source ++ "\n")]⟩
    Settled source ∧ f.EndsLine source f' ∧ ∀ (l : Limits) (n : Node) (s : State),
      l.evaluator.execute n (s.inFolder f') =
        Run.inFolder f' (l.evaluator.execute n (s.inFolder f)) := by
  intro source f f'
  have htokens : (tokenize source).toOption = some
      [.at .door (.str "door") ⟨1, 1⟩, .at .identifier (.str "x") ⟨1, 6⟩,
        .at .equal (.str "=") ⟨1, 8⟩, .at .number (.int 5) ⟨1, 10⟩, .at .eof .null ⟨1, 19⟩] := by
    decide +kernel
  have hsettled : Settled source := settled_of_program ((readProgram_of_tokens htokens).trans rfl)
  have hends : f.EndsLine source f' := f.endsLine_endLines (by decide +kernel)
  exact ⟨hsettled, hends,
    fun l n s => (import_newline_iff source).2.2.2.1 hsettled l n s f f' hends⟩

/-- Without a newline behind it, the last number of a text is taken for the next statement as well;
the last name of a text is taken for one for ever. -/
theorem import_without_newline_fails :
    let n : Node := { kind := .importFile, value := .str "m.sop" }
    let f : Folder := ⟨[("m.sop", "door x = 5")]⟩
    let f' : Folder := ⟨[("m.sop", "door x = 5\n")]⟩
    let message := "Khalad parser: Calaamad aan la filayn: number sadar 1, goobta 10"
    (∀ self : Evaluator, self.importFile n { folder := f } =
        .error (.fault (Cause.importFailed "m.sop" message).fault) { folder := f }) ∧
      (Evaluator.upTo 9 9).importFile n { folder := f' } =
        .ok () { folder := f', vars := [("x", .int 5)] } ∧
      readProgram "x" = .error .tooDeep ∧
      readProgram "x\n" =
        .ok { kind := .program, children := [{ kind := .identifier, value := .str "x" }] } := by
  intro n f f' message
  have hread : f.read "m.sop" = .ok "door x = 5" := rfl
  have hread' : f'.read "m.sop" = .ok "door x = 5\n" := rfl
  let tokens : List Token := [.at .door (.str "door") ⟨1, 1⟩, .at .identifier (.str "x") ⟨1, 6⟩,
    .at .equal (.str "=") ⟨1, 8⟩, .at .number (.int 5) ⟨1, 10⟩]
  let name : Token := .at .identifier (.str "x") ⟨1, 1⟩
  let eof : Token := .at .eof .null ⟨2, 1⟩
  have htokens : (tokenize "door x = 5").toOption = some tokens := by decide +kernel
  have htokens' : (tokenize "door x = 5\n").toOption = some (tokens ++ [eof]) := by decide +kernel
  have hname : (tokenize "x").toOption = some [name] := by decide +kernel
  have hname' : (tokenize "x\n").toOption = some [name, eof] := by decide +kernel
  refine ⟨fun self => ?_, ?_, ?_, ?_⟩
  · rw [self.importFile_of_read rfl hread,
      self.importText_of_error "m.sop" ((readProgram_of_tokens htokens).trans rfl)]
    rfl
  · rw [Evaluator.importFile_of_read _ rfl hread']
    exact Evaluator.importText_of_ok _ "m.sop" ((readProgram_of_tokens htokens').trans rfl) rfl
  · exact (readProgram_of_tokens hname).trans rfl
  · exact (readProgram_of_tokens hname').trans rfl

end Luuqad

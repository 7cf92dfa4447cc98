import Luuqad.Shell.Session

/-!
# What a line of the shell changes

Whatever becomes of a line, the shell binds at most one name for it, and the line alone tells which
one (`declaredAs?`). Functions, classes and constants are never changed, and neither is anything
that other names stand for (`line_touches`). Only lines that start like a declaration bind anything:
putting a line into the form that the patterns expect never makes a declaration of it
(`startsDeclaration_tidy`).
-/

namespace Luuqad

/-- The second state has the functions, classes and constants of the first one, and all its
variables and types except for those of one name. What is in a cell stays there. -/
structure State.TouchedAt (name : String) (s t : State) : Prop where
  functions : t.functions = s.functions
  classes : t.classes = s.classes
  constants : t.constants = s.constants
  vars : ∀ n, n ≠ name → t.vars.get? n = s.vars.get? n
  types : ∀ n, n ≠ name → t.types.get? n = s.types.get? n
  cells : t.heap.cells = s.heap.cells

def State.showing (s : State) (text : String) : State := { s with out := s.out ++ text }

namespace State.TouchedAt

variable {name : String} {s t : State}

theorem refl (name : String) (s : State) : s.TouchedAt name s :=
  ⟨rfl, rfl, rfl, fun _ _ => rfl, fun _ _ => rfl, rfl⟩

theorem showing (text : String) (h : s.TouchedAt name t) : s.TouchedAt name (t.showing text) :=
  ⟨h.functions, h.classes, h.constants, h.vars, h.types, h.cells⟩

end State.TouchedAt

namespace Shell

variable {s : State} {code text : List Char} {b : Binding} {name : String}

/-! ## Bindings -/

theorem cells_double (h : Heap) (x : Float) : (h.double x).2.cells = h.cells := by
  unfold Heap.double
  split <;> rfl

theorem Binding.touchedAt (b : Binding) (s : State) : s.TouchedAt b.name (b.apply s) where
  functions := rfl
  classes := rfl
  constants := rfl
  vars n hn := (NameTable.get?_put _ _ _ _).trans (if_neg hn)
  types n hn := by
    obtain ⟨name, value, noted⟩ := b
    cases noted with
    | none => rfl
    | some label => exact (NameTable.get?_put _ _ _ _).trans (if_neg hn)
  cells := by
    obtain ⟨name, value, noted⟩ := b
    cases value with
    | float x => exact cells_double s.heap x
    | _ => rfl

theorem name_declareAny (h : (declareAny s name text).binding = some b) : b.name = name := by
  unfold declareAny at h
  split at h
  · cases h
    rfl
  · split at h
    · cases h
      rfl
    · cases h
      rfl
    · split at h
      · cases h
      · cases h
        rfl

theorem name_declareNumber (h : (declareNumber s name text).binding = some b) : b.name = name := by
  unfold declareNumber at h
  simp only at h
  split at h
  · cases h
  · cases h
    rfl

theorem name_declareText (h : (declareText name text).binding = some b) : b.name = name := by
  unfold declareText at h
  split at h
  · cases h
    rfl
  · cases h

/-- What is made of a declaration with a given keyword. -/
def declareAs (s : State) (word name : String) (text : List Char) : Attempt :=
  if word = "door" then declareAny s name text
  else if word = "abn" then declareNumber s name text
  else declareText name text

theorem name_declareAs {word : String} (h : (declareAs s word name text).binding = some b) :
    b.name = name := by
  unfold declareAs at h
  split at h
  · exact name_declareAny h
  · split at h
    · exact name_declareNumber h
    · exact name_declareText h

/-! ## The name that a line declares -/

/-- The name and the value of a line that starts like a declaration, with its keyword. -/
def declaredAs? (code : List Char) : Option (String × String × List Char) := do
  let word ← declarationWords.find? (startsWith code)
  let found ← declared? word code
  return (word, found)

theorem declare_eq (s : State) (code : List Char) :
    declare s code =
      ((declaredAs? code).map fun found => declareAs s found.1 found.2.1 found.2.2).getD
      ⟨none, .unanswered⟩ := by
  unfold declare declaredAs?
  simp only [declarationWords, List.find?_cons, List.find?_nil]
  cases startsWith code "door" with
  | true => cases hfound : declared? "door" code <;> simp [hfound, declareAs]
  | false =>
    cases startsWith code "abn" with
    | true => cases hfound : declared? "abn" code <;> simp [hfound, declareAs]
    | false =>
      cases startsWith code "qoraal" with
      | true => cases hfound : declared? "qoraal" code <;> simp [hfound, declareAs]
      | false => rfl

theorem name_declare (h : (declare s code).binding = some b) :
    (declaredAs? code).map (·.2.1) = some b.name := by
  rw [declare_eq] at h
  cases hfound : declaredAs? code with
  | none =>
    rw [hfound] at h
    cases h
  | some found =>
    rw [hfound] at h
    rw [Option.map_some, name_declareAs h]

theorem name_attempt {line : String} (h : (attempt s line).binding = some b) :
    (declaredAs? line.toList).map (·.2.1) = some b.name := by
  unfold attempt at h
  simp only at h
  split at h
  · cases h
  · split at h
    · cases h
    · exact name_declare h

/-! ## Lines that are no declarations -/

def startsDeclaration (code : List Char) : Bool := declarationWords.any (startsWith code)

theorem declaredAs?_eq_none (h : startsDeclaration code = false) : declaredAs? code = none := by
  have hword : declarationWords.find? (startsWith code) = none :=
    List.find?_eq_none.mpr fun word hmem => by simpa using List.any_eq_false.mp h word hmem
  rw [declaredAs?, hword]
  rfl

theorem startsDeclaration_print (text : List Char) :
    startsDeclaration ("qor(\"".toList ++ text) = false := rfl

/-- Putting a line into the form that the patterns expect never makes a declaration of it. -/
theorem startsDeclaration_tidy {line : String}
    (h : startsDeclaration (Text.strip line.toList) = false) :
    startsDeclaration (tidy line).toList = false := by
  have hcut (code : List Char) (hcode : startsDeclaration code = false) : startsDeclaration
      (if declarationWords.any (startsWith code) && code.contains '=' &&
      !Text.contains " = ".toList code then
        Text.replaceFirst ['='] " = ".toList code else code) = false := by
    have hany : declarationWords.any (startsWith code) = false := hcode
    simpa [hany] using hcode
  unfold tidy
  rw [String.toList_ofList]
  apply hcut
  split
  · split
    · rw [List.append_assoc]
      exact startsDeclaration_print _
    · exact h
  · exact h

/-! ## Lines -/

/-- What a line does: it shows a text, after it bound the name that it declares or nothing. -/
theorem execute_cases (d : Delegate) (line : String) (s : State) : ∃ text,
    execute d line s = s.showing text ∨
    ∃ b : Binding, (declaredAs? (tidy line).toList).map (·.2.1) = some b.name ∧
      execute d line s = (b.apply s).showing text := by
  by_cases hsilent : isSilent line = true
  · refine ⟨"", .inl ?_⟩
    rw [execute, if_pos hsilent, State.showing, String.append_empty]
  · have hexecute : execute d line s = ((attempt s (tidy line)).binding.elim s (·.apply s)).showing
        ((attempt s (tidy line)).verdict.shown d) := if_neg hsilent
    refine ⟨(attempt s (tidy line)).verdict.shown d, ?_⟩
    rw [hexecute]
    cases hbinding : (attempt s (tidy line)).binding with
    | none => exact Or.inl rfl
    | some b => exact Or.inr ⟨b, name_attempt hbinding, rfl⟩

/-- Whatever becomes of a line, and whatever comes of handing it on, it changes the entries of one
name at most in the tables of the program, which depends on the line only, and no functions,
classes, constants or cells. A line that does not start like a declaration changes no entry at
all. -/
theorem line_touches (line : String) : ∃ name, ∀ (d : Delegate) (sh : Shell), ∃ t,
    Session.code d line sh = .ok () { sh with program := t } ∧ sh.program.TouchedAt name t ∧
    (startsDeclaration (Text.strip line.toList) = false →
      t.vars = sh.program.vars ∧ t.types = sh.program.types) := by
  refine ⟨((declaredAs? (tidy line).toList).map (·.2.1)).getD "", fun d sh => ⟨_, rfl, ?_⟩⟩
  obtain ⟨text, hshown | ⟨b, hname, hbound⟩⟩ := execute_cases d line sh.program
  · rw [hshown]
    exact ⟨.showing text (.refl _ _), fun _ => ⟨rfl, rfl⟩⟩
  · rw [hbound, hname]
    refine ⟨.showing text (b.touchedAt sh.program), fun hstart => ?_⟩
    rw [declaredAs?_eq_none (startsDeclaration_tidy hstart)] at hname
    cases hname

/-- A line that prints a sum binds nothing. -/
theorem line_touches_of_sum :
    startsDeclaration (Text.strip " qor(x + 1)".toList) = false ∧
    ∀ (d : Delegate) (sh : Shell), ∃ t, Session.code d " qor(x + 1)" sh = .ok ()
    { sh with program := t } ∧
      t.vars = sh.program.vars ∧ t.types = sh.program.types := by
  have hstart : startsDeclaration (Text.strip " qor(x + 1)".toList) = false := by decide +kernel
  obtain ⟨name, h⟩ := line_touches " qor(x + 1)"
  refine ⟨hstart, fun d sh => ?_⟩
  obtain ⟨t, hcode, -, hsame⟩ := h d sh
  exact ⟨t, hcode, hsame hstart⟩

end Shell

end Luuqad

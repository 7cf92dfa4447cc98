import Luuqad.Error.Diagnostic

/-!
# Messages and places

The message of an error is made of a text that depends on the cause and, at the end, the place where
the error arose. A text that has been filled in once is looked up in the catalogue once more, and so
it must not be a code itself (`Diagnostic.message_eq`).
-/

namespace Luuqad

/-- The end of a message, which tells the place. -/
def Diagnostic.placeText (d : Diagnostic) : String :=
  match d.line with
  | none => ""
  | some l => " sadar " ++ toString l ++ (match d.column with
    | none => ""
    | some c => ", goobta " ++ toString c)

namespace Family

variable {f : Family} {text : String}

theorem template?_of_long {n : Nat} (hcodes : f.table.all fun entry => entry.1.length < n)
    (htext : n ≤ text.length) :
    f.template? text = none := by
  refine List.lookup_eq_none_iff.mpr fun entry hmem => bne_iff_ne.mpr fun heq => ?_
  have hshort : entry.1.length < n := by simpa using List.all_eq_true.mp hcodes entry hmem
  rw [← heq] at hshort
  omega

theorem errorMessage_eq {code : String} {t : Template} {params : List Param}
    (hcode : f.template? code = some t) (hfill : ∀ place, t.fillIfAny (params ++ place) = .ok text)
    (hfree : f.template? text = none) (line column : Option String) :
    f.errorMessage code line column params = .ok (f.render text line column) := by
  simp only [errorMessage, hcode]
  rw [hfill]
  change f.format text line column [] = _
  rw [format, hfree]

end Family

/-- Whatever the place, a message is the same text, with the place at its end. -/
theorem Diagnostic.message_eq (c : Cause) {t : Template} {text : String}
    (hcode : c.errorClass.family.template? c.code = some t)
    (hfill : ∀ place, t.fillIfAny (c.data.map (fun (n, t) => (n, .ok t)) ++ place) = .ok text)
    (hfree : c.errorClass.family.template? text = none) (line column : Option Nat) :
    message ⟨c, line, column⟩ =
      "Khalad " ++ c.errorClass.family.label ++ ": " ++ text ++ placeText ⟨c, line, column⟩ := by
  unfold message
  rw [Family.errorMessage_eq hcode hfill hfree]
  cases line <;> cases column <;> rfl

/-! ## Faults that differ in their places -/

/-- The class of an error of the language, or the category of a failure. -/
def Fault.kind : Fault → ErrorClass ⊕ FailureCategory
  | .error d => .inl d.cause.errorClass
  | .failure f => .inr f.category

/-- The end of the text of a fault, which tells the place. -/
def Fault.placeText : Fault → String
  | .error d => d.placeText
  | .failure _ => ""

/-- Two faults of the same class whose texts are the same up to the place at the end. -/
structure Fault.SameButPlace (f g : Fault) : Prop where
  kind : f.kind = g.kind
  text : ∃ text, f.message = text ++ f.placeText ∧ g.message = text ++ g.placeText

theorem Fault.SameButPlace.failure (f : Failure) : SameButPlace (.failure f) (.failure f) :=
  ⟨rfl, f.message, String.append_empty.symm, String.append_empty.symm⟩

theorem Fault.SameButPlace.of_message_eq {c : Cause} {text : String}
    (h : ∀ line column, Diagnostic.message ⟨c, line, column⟩ =
      text ++ Diagnostic.placeText ⟨c, line, column⟩)
    (line column line' column' : Option Nat) :
    SameButPlace (c.faultAt line column) (c.faultAt line' column') :=
  ⟨rfl, text, h line column, h line' column'⟩

theorem Fault.sameButPlace_badIndex (line column line' column' : Option Nat) :
    SameButPlace (Cause.badIndex.faultAt line column) (Cause.badIndex.faultAt line' column') := by
  have hcodes : Family.type.table.all fun entry => entry.1.length < 38 := by decide +kernel
  have hfree : Family.type.template? "Ma isticmaali karo '[]' oo ku shaqeeya abn" = none :=
    Family.template?_of_long hcodes (by decide +kernel)
  exact .of_message_eq (Diagnostic.message_eq .badIndex rfl (fun _ => rfl) hfree) line column
    line' column'

theorem Fault.sameButPlace_indexOutOfRange (index : String)
    (line column line' column' : Option Nat) :
    SameButPlace ((Cause.indexOutOfRange index).faultAt line column)
      ((Cause.indexOutOfRange index).faultAt line' column') := by
  have hcodes : Family.runtime.table.all fun entry => entry.1.length < 38 := by decide +kernel
  have hfree : Family.runtime.template? ("Tirada fihris-ku waa ka baxsan xadka: " ++
      (index ++ "")) = none := by
    refine Family.template?_of_long hcodes ?_
    rw [String.length_append]
    exact Nat.le_add_right 38 _
  exact .of_message_eq (Diagnostic.message_eq (.indexOutOfRange index) rfl (fun _ => rfl) hfree)
    line column line' column'

end Luuqad

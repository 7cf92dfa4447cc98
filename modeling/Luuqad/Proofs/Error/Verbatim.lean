import Luuqad.Proofs.Error.Messages
import Luuqad.Proofs.Error.Renderings

/-!
# Messages carry their data unchanged

The data of a cause are put into the template of its code, and the text that results is looked up in
the catalogue once more. Two things are to be known so that nothing can go wrong: the template asks
for no slot that the cause does not fill and has no brace that closes nothing (`Cause.Uses.fits`),
and no filled template is a code (`Family.template?_filled`). Then the message shows each text as it
is, whatever the text (`Cause.message_verbatim`).
-/

namespace Luuqad

namespace Family

variable {f : Family} {code : String} {t : Template} {values : String → String}
    {params : List Param}

/-- The end of a message: the line if it is given, and behind it the column if that is given,
too. -/
def ending : Option String → Option String → String
  | none, _ => ""
  | some l, none => " sadar " ++ l
  | some l, some c => " sadar " ++ l ++ (", goobta " ++ c)

theorem render_eq (f : Family) (text : String) (line column : Option String) :
    f.render text line column = "Khalad " ++ f.label ++ ": " ++ text ++ ending line column := by
  cases line with
  | none => rfl
  | some l =>
    cases column with
    | none => simp only [render, ending, String.append_empty]
    | some c => rfl

theorem errorMessage_filled (h : f.template? code = some t) (hbrace : .brace ∉ t)
    (hparams : ∀ name ∈ t.slots, params.lookup name = some (.ok (values name)))
    (line column : Option String) :
    f.errorMessage code line column params = .ok (f.render (t.filled values) line column) := by
  have hfill : t.fillIfAny (params ++ placeParams line column) = .ok (t.filled values) := by
    unfold Template.fillIfAny
    split
    · -- there are no parameters, and so there are no slots
      rename_i hempty
      obtain ⟨rfl, -⟩ := List.append_eq_nil_iff.mp (List.isEmpty_iff.mp hempty)
      have hnone : ∀ name ∈ t.slots, (Piece.slot name).shown = values name :=
        fun name hname => absurd (hparams name hname) (by simp)
      rw [Template.shown_eq_filled, Template.filled_congr hnone]
    · have hslots : ∀ name ∈ t.slots, (params ++ placeParams line column).lookup name =
          some (.ok (values name)) := by
        intro name hname
        rw [List.lookup_append, hparams name hname, Option.some_or]
      rw [Template.fill_eq hslots, if_neg hbrace]
  simp only [errorMessage, h]
  rw [hfill]
  change f.format (t.filled values) line column [] = _
  rw [format, template?_filled h]

end Family

namespace Cause

variable {c : Cause} {t : Template}

/-- Whether the cause is told by a code. Complaints of the library and the like are texts of their
own. -/
def isCoded : Cause → Bool
  | complaint _ | badValue _ | other _ => false
  | _ => true

/-- The cause is told by a code, and `t` is the template of the code in the table of its own
family. -/
structure Uses (c : Cause) (t : Template) : Prop where
  coded : c.isCoded = true
  template : c.errorClass.family.template? c.code = some t

def keywords (c : Cause) : List String := c.data.map Prod.fst

/-- A cause gives a text to each slot of its template, and the template can be filled. -/
theorem Uses.fits (h : c.Uses t) :
    (t.slots.all c.keywords.contains && !t.contains .brace) = true := by
  obtain ⟨hcoded, htemplate⟩ := h
  cases c with
  | complaint _ | badValue _ | other _ => cases hcoded
  | badLoopBounds =>
    have hnone : Family.type.template? "invalid_for_loop" = none := rfl
    cases hnone.symm.trans htemplate
  | malformed =>
    have hnone : Family.runtime.template? "invalid_syntax" = none := rfl
    cases hnone.symm.trans htemplate
  | _ =>
    obtain rfl : _ = t := Option.some.inj htemplate
    rfl

theorem Uses.lookup (h : c.Uses t) {values : String → String} {params : List Param}
    (hparams : ∀ name ∈ c.keywords, params.lookup name = some (.ok (values name))) :
    ∀ name ∈ t.slots, params.lookup name = some (.ok (values name)) := by
  intro name hname
  have hslots := (Bool.and_eq_true_iff.mp h.fits).1
  exact hparams name (by simpa using List.all_eq_true.mp hslots name hname)

theorem Uses.brace (h : c.Uses t) : .brace ∉ t := by
  simpa using (Bool.and_eq_true_iff.mp h.fits).2

def textOf (c : Cause) (name : String) : String := (c.data.lookup name).getD ""

theorem lookup_params {entries : List (String × String)} {name : String}
    (h : name ∈ entries.map Prod.fst) :
    (entries.map fun entry => ((entry.1, .ok entry.2) : Param)).lookup name =
      some (.ok ((entries.lookup name).getD "")) := by
  induction entries with
  | nil => cases h
  | cons entry rest ih =>
    rw [List.map_cons, List.lookup_cons, List.lookup_cons]
    cases hname : name == entry.1 with
    | true => rfl
    | false =>
      have hne : name ≠ entry.1 := by simpa using hname
      exact ih ((List.mem_cons.mp h).resolve_left hne)

/-- For every cause whose code is in the table of its own family, whatever texts are given for its
data (and whatever else is given), and for every line and column: the error can be made, and its
message is the name of the family, the template with each slot replaced by its text, and the place.
This is so for the texts that the cause itself has, in particular. -/
theorem message_verbatim (c : Cause) (t : Template) (h : c.Uses t) :
    (∀ (values : String → String) (params : List Param),
      (∀ name ∈ c.keywords, params.lookup name = some (.ok (values name))) →
        ∀ line column : Option String,
        c.errorClass.family.errorMessage c.code line column params =
          .ok ("Khalad " ++ c.errorClass.family.label ++ ": " ++ t.filled values ++
            Family.ending line column)) ∧
    ∀ line column : Option Nat, Diagnostic.message ⟨c, line, column⟩ =
      "Khalad " ++ c.errorClass.family.label ++ ": " ++ t.filled c.textOf ++
        Family.ending (line.map toString) (column.map toString) := by
  have hmade (values : String → String) (params : List Param)
      (hparams : ∀ name ∈ c.keywords, params.lookup name = some (.ok (values name)))
      (line column : Option String) :
      c.errorClass.family.errorMessage c.code line column params =
        .ok ("Khalad " ++ c.errorClass.family.label ++ ": " ++ t.filled values ++
          Family.ending line column) := by
    rw [Family.errorMessage_filled h.template h.brace (h.lookup hparams), Family.render_eq]
  refine ⟨hmade, fun line column => ?_⟩
  unfold Diagnostic.message
  rw [hmade c.textOf _ fun _ => lookup_params]
  rfl

/-- An import that fails with a text that is itself a code, in a file that is called like a slot. -/
theorem message_verbatim_of_import :
    let c := importFailed "\x7berror\x7d" "import_error"
    let t := (Family.importing.template? "import_error").getD []
    let params : List Param := [("token", .error .loneClosingBrace), ("error", .ok "import_error"),
      ("filename", .ok "\x7berror\x7d")]
    c.Uses t ∧ (∀ name ∈ c.keywords, params.lookup name = some (.ok (c.textOf name))) ∧
      Family.importing.errorMessage "import_error" (some "3") none params =
        .ok "Khalad import: Qalad baa ka jira file-ka \x7berror\x7d: import_error sadar 3" ∧
      Diagnostic.message ⟨c, some 3, some 7⟩ =
        "Khalad import: Qalad baa ka jira file-ka \x7berror\x7d: import_error sadar 3, goobta 7" := by
  intro c t params
  have huses : c.Uses t := ⟨rfl, rfl⟩
  have hparams : ∀ name ∈ c.keywords, params.lookup name = some (.ok (c.textOf name)) := by
    intro name hname
    rcases List.mem_cons.mp hname with rfl | hname
    · rfl
    · obtain rfl := List.mem_singleton.mp hname
      rfl
  obtain ⟨hmade, hmessage⟩ := message_verbatim c t huses
  exact ⟨huses, hparams, hmade c.textOf params hparams (some "3") none, hmessage (some 3) (some 7)⟩

end Cause

end Luuqad

import Luuqad.Error.Catalogue
import Luuqad.Proofs.Text.Occurrences

/-!
# The two renderings of an error

A code of the catalogue can be rendered in two ways. The message of an error fills the template of
the code (`Family.errorMessage_eq_ite`); a message that is looked up by its code shows the template
as it stands (`Family.lookupMessage_eq`), for the template is taken for a text that is no code. So
the two differ as soon as there is something to fill in, and the only parameters for which they
agree are those that look like the slots they are put into (`Family.renderings_agree_iff`). A brace
that closes nothing makes them differ, too: a template with it can be shown but not filled.
-/

namespace Luuqad

/-- A part of a template, with a text in the place of a slot. -/
def Piece.filled (values : String → String) : Piece → String
  | slot name => values name
  | p => p.shown

namespace Template

variable {t : Template} {values : String → String} {params : List Param}

/-! ## Filling -/

def slots : Template → List String
  | [] => []
  | .slot name :: rest => name :: slots rest
  | _ :: rest => slots rest

/-- The template with a text in the place of each slot. -/
def filled (values : String → String) : Template → String
  | [] => ""
  | p :: rest => p.filled values ++ filled values rest

/-- Parameters that give a text to each slot of a template, and to nothing else. -/
structure Gives (t : Template) (values : String → String) (params : List Param) : Prop where
  slot : ∀ name ∈ t.slots, params.lookup name = some (.ok (values name))
  only : ∀ p ∈ params, p.1 ∈ t.slots

theorem shown_eq_filled (t : Template) :
    t.shown = t.filled fun name => (Piece.slot name).shown := by
  induction t with
  | nil => rfl
  | cons p rest ih => cases p <;> simp [shown, filled, Piece.filled, ih]

theorem filled_congr {values' : String → String}
    (h : ∀ name ∈ t.slots, values name = values' name) :
    t.filled values = t.filled values' := by
  induction t with
  | nil => rfl
  | cons p rest ih => cases p <;> simp_all [slots, filled, Piece.filled]

theorem fill_text (params : List Param) (s : String) (rest : Template) :
    fill params (.text s :: rest) = (fill params rest).map (s ++ ·) := by
  rw [fill]
  cases fill params rest <;> rfl

theorem fill_slot {name text : String} (hname : params.lookup name = some (.ok text))
    (rest : Template) :
    fill params (.slot name :: rest) = (fill params rest).map (text ++ ·) := by
  simp only [fill, hname]
  cases fill params rest <;> rfl

theorem fill_eq (h : ∀ name ∈ t.slots, params.lookup name = some (.ok (values name))) :
    t.fill params = if .brace ∈ t then .error .loneClosingBrace else .ok (t.filled values) := by
  induction t with
  | nil => rfl
  | cons p rest ih =>
    cases p with
    | brace => simp [fill]
    | text s =>
      rw [fill_text, ih h, apply_ite (Except.map _)]
      simp [Except.map, filled, Piece.filled, Piece.shown]
    | slot name =>
      obtain ⟨hname, hrest⟩ := List.forall_mem_cons.mp h
      rw [fill_slot hname, ih hrest, apply_ite (Except.map _)]
      simp [Except.map, filled, Piece.filled]

theorem Gives.slots_eq_nil (h : t.Gives values []) : t.slots = [] :=
  List.eq_nil_iff_forall_not_mem.mpr fun name hname => by simpa using h.slot name hname

theorem Gives.eq_nil (h : t.Gives values params) (hslots : t.slots = []) : params = [] :=
  List.eq_nil_iff_forall_not_mem.mpr fun p hp => by simpa [hslots] using h.only p hp

/-- If nothing is to be filled in, the template is shown as it stands, which makes a difference for
a brace only. -/
theorem fillIfAny_eq (h : t.Gives values params) (place : List Param) :
    t.fillIfAny (params ++ place) =
      if .brace ∈ t ∧ params ++ place ≠ [] then .error .loneClosingBrace
        else .ok (t.filled values) := by
  cases hall : params ++ place with
  | nil =>
    obtain ⟨rfl, -⟩ := List.append_eq_nil_iff.mp hall
    have hnone : ∀ name ∈ t.slots, (Piece.slot name).shown = values name := by simp [h.slots_eq_nil]
    simp [fillIfAny, shown_eq_filled, filled_congr hnone]
  | cons p rest =>
    have hslots : ∀ name ∈ t.slots, (p :: rest).lookup name = some (.ok (values name)) := by
      intro name hname
      rw [← hall, List.lookup_append, h.slot name hname, Option.some_or]
    simp [fillIfAny, fill_eq hslots]

/-! ## Telling slots from what stands behind them -/

/-- Whether a slot can be told from what stands behind it in the template as it stands: that is
nothing, or a text that occurs only there. -/
def separated (name : String) : Template → Bool
  | [] => true
  | .text s :: rest =>
    let start := (Piece.slot name).shown.toList
    let whole := start ++ (s.toList ++ (shown rest).toList)
    decide (∀ i, i ≤ whole.length → Text.OccursAt s.toList whole i → i = start.length)
  | _ => false

/-- Whether all slots can be told from what stands behind them. -/
def rigid : Template → Bool
  | [] => true
  | .slot name :: rest => separated name rest && rigid rest
  | _ :: rest => rigid rest

theorem of_separated {name : String} (hseparated : separated name t = true)
    (h : values name ++ t.filled values = (Piece.slot name).shown ++ t.shown) :
    values name = (Piece.slot name).shown ∧ t.filled values = t.shown := by
  cases t with
  | nil => simpa [filled, shown] using h
  | cons p rest =>
    cases p with
    | slot _ | brace => cases hseparated
    | text s =>
      have hparts : values name ++ (s ++ filled values rest) = (Piece.slot name).shown ++
          (s ++ shown rest) := h
      have hchars := congrArg String.toList hparts
      simp only [String.toList_append] at hchars
      obtain ⟨hname, hrest⟩ := Text.append_inj_of_only (of_decide_eq_true hseparated) hchars
      refine ⟨String.toList_injective hname, ?_⟩
      rw [filled, shown, String.toList_injective hrest]
      rfl

/-- In a template whose slots can be told from what stands behind them, only texts that look like
slots make the filled template look as if it were not filled. -/
theorem filled_eq_shown_iff (hrigid : t.rigid = true) :
    t.filled values = t.shown ↔ ∀ name ∈ t.slots, values name = (Piece.slot name).shown := by
  refine ⟨fun h => ?_, fun h => (filled_congr h).trans (shown_eq_filled t).symm⟩
  induction t with
  | nil => simp [slots]
  | cons p rest ih =>
    cases p with
    | text _ | brace => exact ih hrigid ((String.append_right_inj _).mp h)
    | slot name =>
      obtain ⟨hseparated, hrest⟩ := Bool.and_eq_true_iff.mp hrigid
      obtain ⟨hname, hfilled⟩ := of_separated hseparated h
      exact List.forall_mem_cons.mpr ⟨hname, ih hrest hfilled⟩

/-- The text that a template starts with. -/
def lead : Template → String
  | .text s :: _ => s
  | _ => ""

theorem lead_prefix (values : String → String) (t : Template) :
    t.lead.toList <+: (t.filled values).toList := by
  cases t with
  | nil => exact List.nil_prefix
  | cons p rest =>
    cases p with
    | text s =>
      rw [filled, String.toList_append]
      exact List.prefix_append _ _
    | slot _ | brace => exact List.nil_prefix

end Template

namespace Family

variable {f : Family} {code : String} {t : Template} {values : String → String}
    {params : List Param}
  {line column : Option String}

/-! ## The catalogue -/

theorem mem_table (h : f.template? code = some t) : (code, t) ∈ f.table := by
  obtain ⟨before, after, htable, -⟩ := List.lookup_eq_some_iff.mp h
  rw [htable]
  exact List.mem_append_right _ List.mem_cons_self

theorem rigid_of_template? (h : f.template? code = some t) : t.rigid = true := by
  have htable : f.table.all fun entry => entry.2.rigid := by cases f <;> decide +kernel
  exact List.all_eq_true.mp htable _ (mem_table h)

theorem slots_of_brace (h : f.template? code = some t) (hbrace : .brace ∈ t) : t.slots = [] := by
  have htable : ∀ entry ∈ f.table, .brace ∈ entry.2 → entry.2.slots = [] := by
    cases f <;> decide +kernel
  exact htable _ (mem_table h) hbrace

theorem template?_filled (h : f.template? code = some t) (values : String → String) :
    f.template? (t.filled values) = none := by
  have htable : f.table.all fun entry => f.table.all fun other =>
      !entry.2.lead.toList.isPrefixOf other.1.toList := by
    cases f <;> decide +kernel
  have hcodes := List.all_eq_true.mp (List.all_eq_true.mp htable _ (mem_table h))
  refine List.lookup_eq_none_iff.mpr fun other hmem => bne_iff_ne.mpr fun heq => ?_
  have hstart := t.lead_prefix values
  rw [heq] at hstart
  have hcode := hcodes other hmem
  rw [List.isPrefixOf_iff_prefix.mpr hstart] at hcode
  cases hcode

/-! ## Both renderings -/

/-- A place is given for an error: a line, a column or both. -/
def Placed (line column : Option String) : Prop := line ≠ none ∨ column ≠ none

instance : Decidable (Placed line column) := inferInstanceAs (Decidable (_ ∨ _))

theorem render_inj {a b : String} : f.render a line column = f.render b line column ↔ a = b := by
  unfold render
  rw [String.append_left_inj, String.append_right_inj]

theorem lookupMessage_eq (h : f.template? code = some t) (line column : Option String)
    (params : List Param) :
    f.lookupMessage code line column params = .ok (f.render t.shown line column) := by
  have hshown : f.template? t.shown = none := t.shown_eq_filled ▸ template?_filled h _
  simp only [lookupMessage, h, format, hshown]

/-- The place of an error as parameters. -/
abbrev placeParams (line column : Option String) : List Param :=
  (column.map fun c => ("position", .ok c)).toList ++ (line.map fun l => ("line", .ok l)).toList

theorem placeParams_ne_nil_iff : placeParams line column ≠ [] ↔ Placed line column := by
  cases line <;> cases column <;> simp [placeParams, Placed]

theorem errorMessage_eq_ite (h : f.template? code = some t) (hparams : t.Gives values params)
    (line column : Option String) :
    f.errorMessage code line column params = if .brace ∈ t ∧
    Placed line column then .error .loneClosingBrace
      else .ok (f.render (t.filled values) line column) := by
  have hany : .brace ∈ t ∧ params ++ placeParams line column ≠ [] ↔
      .brace ∈ t ∧ Placed line column := by
    refine and_congr_right fun hbrace => ?_
    obtain rfl : params = [] := hparams.eq_nil (slots_of_brace h hbrace)
    exact placeParams_ne_nil_iff
  have hfill := Template.fillIfAny_eq hparams (placeParams line column)
  simp only [hany] at hfill
  simp only [errorMessage, h]
  rw [hfill]
  split
  · rfl
  · change f.format (t.filled values) line column [] = _
    rw [format, template?_filled h]

/-- For every family, every code of its table, every way to give texts to the slots of its template,
and every line and column: a message that is looked up shows the template as it stands; the message
of an error shows it filled, or fails if it has a brace that closes nothing and a place is given;
and so the two are the same exactly if this does not happen and each text looks like the slot that
it is given to. -/
theorem renderings_agree_iff (f : Family) (code : String) (t : Template)
    (h : f.template? code = some t) (values : String → String) (params : List Param)
    (hparams : t.Gives values params) (line column : Option String) :
    f.lookupMessage code line column params = .ok (f.render t.shown line column) ∧
    (f.errorMessage code line column params = if .brace ∈ t ∧
      Placed line column then .error .loneClosingBrace
      else .ok (f.render (t.filled values) line column)) ∧
    (f.lookupMessage code line column params = f.errorMessage code line column params ↔
      ¬(.brace ∈ t ∧ Placed line column) ∧ ∀ name ∈ t.slots,
        values name = (Piece.slot name).shown) := by
  have hlookup := lookupMessage_eq h line column params
  have herror := errorMessage_eq_ite h hparams line column
  refine ⟨hlookup, herror, ?_⟩
  rw [hlookup, herror, ← Template.filled_eq_shown_iff (rigid_of_template? h)]
  by_cases hfails : .brace ∈ t ∧ Placed line column
  · simp [hfails]
  · rw [if_neg hfails, Except.ok.injEq, render_inj]
    simp [hfails, eq_comm]

/-- A type that does not fit, with all that is known about it. -/
theorem renderings_agree_iff_of_mismatch :
    let t := (type.template? "type_mismatch").getD []
    let values :=
      fun name => if name = "var_name" then "x" else if name = "value" then "b" else "abn"
    let params : List Param :=
      [("var_name", .ok "x"), ("value", .ok "b"), ("expected_type", .ok "abn")]
    type.template? "type_mismatch" = some t ∧ t.Gives values params ∧
      type.lookupMessage "type_mismatch" (some "3") (some "7") params =
        .ok ("Khalad type: '\x7bvar_name\x7d' waa \x7bexpected_type\x7d laakin qiimaheeda '\x7bvalue\x7d' ma ahan " ++
          "\x7bexpected_type\x7d sadar 3, goobta 7") ∧
      type.errorMessage "type_mismatch" (some "3") (some "7") params =
        .ok "Khalad type: 'x' waa abn laakin qiimaheeda 'b' ma ahan abn sadar 3, goobta 7" := by
  intro t values params
  have htemplate : type.template? "type_mismatch" = some t := rfl
  have hslots : t.slots = ["var_name", "expected_type", "value", "expected_type"] := rfl
  have hparams : t.Gives values params := by
    refine ⟨?_, ?_⟩ <;> rw [hslots]
    · simp [params, values, List.lookup_cons]
    · simp [params]
  obtain ⟨hlookup, herror, -⟩ :=
    renderings_agree_iff type "type_mismatch" t htemplate values params hparams
      (some "3") (some "7")
  exact ⟨htemplate, hparams, hlookup, herror⟩

/-- A message that is looked up shows the name of a slot where the message of the error shows the
character. The message about a missing brace can be looked up for a line, but the error cannot be
made. -/
theorem looked_up_unfilled :
    lexer.lookupMessage "unexpected_char" none none [("char", .ok "@")] =
      .ok "Khalad lexer: Xaraf aan la filayn: \x7bchar\x7d" ∧
    lexer.errorMessage "unexpected_char" none none [("char", .ok "@")] =
      .ok "Khalad lexer: Xaraf aan la filayn: @" ∧
    parser.lookupMessage "missing_brace" (some "3") none [] =
      .ok "Khalad parser: Waxaa ka maqan hal '\x7d' sadar 3" ∧
    parser.errorMessage "missing_brace" (some "3") none [] = .error .loneClosingBrace :=
  ⟨rfl, rfl, rfl, rfl⟩

end Family

end Luuqad

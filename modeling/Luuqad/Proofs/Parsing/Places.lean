import Luuqad.Proofs.Lexing.Printing
import Luuqad.Proofs.Parsing.Newline

/-!
# Messages name places

The message of an error of reading ends in its line and its column, whatever comes before them. So
errors of reading at different places have different messages (`Diagnostic.ReadAt.message_inj`).
-/

namespace Luuqad

/-! ## Messages end in a place -/

theorem Family.format_nil (f : Family) (text : String) (line column : Option String) :
    ∃ shown, f.format text line column [] = .ok (f.render shown line column) := by
  unfold format
  split
  · exact ⟨_, rfl⟩
  · exact ⟨_, rfl⟩

theorem Diagnostic.message_of_fill {cause : Cause} {line column : Nat} {t : Template}
    {text : String} (ht : cause.errorClass.family.template? cause.code = some t)
    (hfill : t.fillIfAny (cause.data.map (fun entry => (entry.1, .ok entry.2)) ++
      [("position", .ok (toString column)), ("line", .ok (toString line))]) = .ok text) :
    ∃ (f : Family) (shown : String), Diagnostic.message ⟨cause, some line, some column⟩ =
      f.render shown (some (toString line)) (some (toString column)) := by
  obtain ⟨shown, hshown⟩ :=
    cause.errorClass.family.format_nil text (some (toString line)) (some (toString column))
  have hmessage : Diagnostic.message ⟨cause, some line, some column⟩ =
      (cause.errorClass.family.errorMessage cause.code (some (toString line))
        (some (toString column))
        (cause.data.map fun entry => (entry.1, .ok entry.2))).toOption.getD "" := rfl
  have herror : cause.errorClass.family.errorMessage cause.code (some (toString line))
      (some (toString column)) (cause.data.map fun entry => (entry.1, .ok entry.2)) =
        .ok (cause.errorClass.family.render shown (some (toString line))
          (some (toString column))) := by
    unfold Family.errorMessage
    rw [ht]
    exact (congrArg (· >>= _) hfill).trans hshown
  refine ⟨cause.errorClass.family, shown, ?_⟩
  rw [hmessage, herror]
  rfl

namespace Diagnostic.ReadAt

variable {d d' : Diagnostic} {p p' : Position}

theorem message (h : d.ReadAt p) :
    ∃ (f : Family) (shown : String),
      d.message = f.render shown (some (toString p.line)) (some (toString p.column)) := by
  obtain ⟨cause, line, column⟩ := d
  obtain ⟨hclass, rfl, rfl⟩ := h
  cases cause with
  | unexpectedChar | unterminatedString | unterminatedComment | expectedToken | unexpectedToken =>
    exact message_of_fill rfl rfl
  | _ => exact hclass.elim nofun nofun

/-! ## Places are told by messages -/

theorem digits_inj {before before' : List Char} {mark : Char} (hmark : mark.isDigit = false)
    {n n' : Nat} (h : before ++ mark :: Number.digitsOf n = before' ++ mark :: Number.digitsOf n') :
    before = before' ∧ n = n' := by
  have hdigits (n : Nat) (before : List Char) :
      (before ++ mark :: Number.digitsOf n).reverse.takeWhile Char.isDigit =
        (Number.digitsOf n).reverse := by
    have hall : ∀ c ∈ (Number.digitsOf n).reverse, c.isDigit = true := fun c hc =>
      Number.digits_digitsOf n c (List.mem_reverse.mp hc)
    rw [List.reverse_append, List.reverse_cons, List.append_assoc, List.singleton_append]
    exact Lexer.takeWhile_before hall hmark
  have hsame : Number.digitsOf n = Number.digitsOf n' := by
    rw [← List.reverse_inj, ← hdigits n before, ← hdigits n' before', h]
  refine ⟨List.append_cancel_right (hsame ▸ h), ?_⟩
  rw [← Number.valueOf_digitsOf n, hsame, Number.valueOf_digitsOf]

theorem toList_render (f : Family) (shown : String) (line column : Nat) :
    ∃ before, (f.render shown (some (toString line)) (some (toString column))).toList =
      (before ++ ' ' :: Number.digitsOf line) ++ ", goobta".toList ++ ' ' ::
        Number.digitsOf column := by
  refine ⟨("Khalad " ++ f.label ++ ": " ++ shown ++ " sadar").toList, ?_⟩
  simp [Family.render, Number.digitsOf]

/-- Errors of reading with the same message have the same place. -/
theorem message_inj (h : d.ReadAt p) (h' : d'.ReadAt p') (hmessage : d.message = d'.message) :
    p = p' := by
  obtain ⟨f, shown, hd⟩ := h.message
  obtain ⟨f', shown', hd'⟩ := h'.message
  obtain ⟨before, htext⟩ := toList_render f shown p.line p.column
  obtain ⟨before', htext'⟩ := toList_render f' shown' p'.line p'.column
  rw [hd, hd'] at hmessage
  rw [hmessage, htext'] at htext
  obtain ⟨hbefore, hcolumn⟩ := digits_inj (by decide) htext
  obtain ⟨-, hline⟩ := digits_inj (by decide) (List.append_cancel_right hbefore)
  show Position.mk p.line p.column = ⟨p'.line, p'.column⟩
  rw [hline, hcolumn]

end Diagnostic.ReadAt

end Luuqad

import Luuqad.Proofs.Text.Replace

/-!
# Occurrences

A text occurs in another one at the places where it is the beginning of what follows. Cutting finds
the first of these places (`cut_spec`), and repeated cutting takes the first one, then the first one
behind it, and so on (`divided_pieces`), so that no two of the occurrences that are taken overlap.
What is said about pieces follows from this: joined again they are the text (`Divided.join`), there
is more than one if something occurs at all (`Divided.one_lt_length_iff`), and it occurs in none of
them (`Divided.not_part`).
-/

namespace Luuqad.Text

variable {needle cs before after : List Char} {parts : List (List Char)} {i j : Nat}

/-! ## Places -/

/-- What is searched for stands at a place of a text. -/
def OccursAt (needle cs : List Char) (i : Nat) : Prop := i ≤ cs.length ∧ needle <+: cs.drop i

instance : Decidable (OccursAt needle cs i) := inferInstanceAs (Decidable (_ ∧ _))

/-- The first place at which something occurs. -/
structure FirstAt (needle cs : List Char) (i : Nat) : Prop where
  occurs : OccursAt needle cs i
  first : ∀ j, OccursAt needle cs j → i ≤ j

theorem FirstAt.unique (hi : FirstAt needle cs i) (hj : FirstAt needle cs j) : i = j :=
  Nat.le_antisymm (hi.first j hj.occurs) (hj.first i hi.occurs)

theorem occursAt_zero : OccursAt needle cs 0 ↔ needle <+: cs := by simp [OccursAt]

theorem occursAt_succ {c : Char} : OccursAt needle (c :: cs) (i + 1) ↔ OccursAt needle cs i := by
  simp [OccursAt]

theorem OccursAt.part (h : OccursAt needle cs i) : needle <:+: cs :=
  h.2.isInfix.trans (List.drop_suffix i cs).isInfix

theorem occursAt_of_part (h : needle <:+: cs) : ∃ i, OccursAt needle cs i := by
  obtain ⟨before, after, rfl⟩ := h
  exact ⟨before.length, by simp [OccursAt]⟩

theorem OccursAt.take_append (h : OccursAt needle cs i) :
    cs.take i ++ (needle ++ cs.drop (i + needle.length)) = cs := by
  obtain ⟨after, hafter⟩ := h.2
  have hdrop : cs.drop (i + needle.length) = after := by
    rw [← List.drop_drop, ← hafter, List.drop_left]
  rw [hdrop, hafter, List.take_append_drop]

theorem OccursAt.of_take (h : OccursAt needle (cs.take i) j) :
    OccursAt needle cs j ∧ j + needle.length ≤ i := by
  obtain ⟨hj, hstart⟩ := h
  have hlength := hstart.length_le
  simp only [List.length_drop, List.length_take] at hj hlength
  refine ⟨⟨by omega, hstart.trans ?_⟩, by omega⟩
  rw [List.drop_take]
  exact List.take_prefix _ _

theorem occursAt_append (before needle after : List Char) :
    OccursAt needle (before ++ (needle ++ after)) before.length := by simp [OccursAt]

/-- Around something that occurs at one place only, a text can be put together in one way only. -/
theorem append_inj_of_only {before' after' : List Char}
    (honly : ∀ i, i ≤ (before ++ (needle ++ after)).length →
      OccursAt needle (before ++ (needle ++ after)) i →
      i = before.length)
    (h : before' ++ (needle ++ after') = before ++ (needle ++ after)) :
    before' = before ∧ after' = after := by
  have hoccurs := occursAt_append before' needle after'
  rw [h] at hoccurs
  obtain ⟨hbefore, hrest⟩ := List.append_inj h (honly _ hoccurs.1 hoccurs)
  exact ⟨hbefore, List.append_cancel_left hrest⟩

/-- Cutting a text finds the first place at which something occurs, and what stands before and
behind it. -/
theorem cut_spec (h : cut needle cs = some (before, after)) :
    FirstAt needle cs before.length ∧ before ++ (needle ++ after) = cs := by
  induction cs generalizing before with
  | nil =>
    cases needle with
    | nil =>
      cases h
      exact ⟨⟨occursAt_zero.mpr List.nil_prefix, fun _ _ => Nat.zero_le _⟩, rfl⟩
    | cons c rest => cases h
  | cons c cs ih =>
    by_cases hstart : needle <+: c :: cs
    · rw [cut_of_start hstart] at h
      cases h
      refine ⟨⟨occursAt_zero.mpr hstart, fun _ _ => Nat.zero_le _⟩, ?_⟩
      obtain ⟨after, hafter⟩ := hstart
      rw [← hafter, List.drop_left, List.nil_append]
    · rw [cut_of_not_start hstart, Option.map_eq_some_iff] at h
      obtain ⟨⟨before', after'⟩, hcut, heq⟩ := h
      cases heq
      obtain ⟨hfirst, hwhole⟩ := ih hcut
      refine ⟨⟨occursAt_succ.mpr hfirst.occurs, fun j hj => ?_⟩, by rw [List.cons_append, hwhole]⟩
      cases j with
      | zero => exact absurd (occursAt_zero.mp hj) hstart
      | succ j => exact Nat.succ_le_succ (hfirst.first j (occursAt_succ.mp hj))

theorem cut_eq_none_iff : cut needle cs = none ↔ ¬needle <:+: cs := by
  rw [← contains_iff, contains, Bool.not_eq_true, Option.isSome_eq_false_iff,
    Option.isNone_iff_eq_none]

theorem eq_take_drop_of_cut (h : cut needle cs = some (before, after)) :
    before = cs.take before.length ∧ after = cs.drop (before.length + needle.length) := by
  rw [← (cut_spec h).2]
  simp [List.drop_append]

/-! ## The first occurrence -/

/-- The place that is shown for a part of a text: the first one at which it occurs, or minus one. -/
inductive Shown (needle cs : List Char) : Int → Prop
  | missing : ¬needle <:+: cs → Shown needle cs (-1)
  | found {i : Nat} : FirstAt needle cs i → Shown needle cs i

theorem shown_find? (needle cs : List Char) :
    Shown needle cs ((find? needle cs).elim (-1) fun i => i) := by
  cases hcut : cut needle cs with
  | none =>
    rw [find?, hcut]
    exact .missing (cut_eq_none_iff.mp hcut)
  | some found =>
    rw [find?, hcut]
    exact .found (cut_spec hcut).1

namespace Shown

variable {place : Int}

theorem ne_iff (h : Shown needle cs place) : place ≠ -1 ↔ needle <:+: cs := by
  cases h with
  | missing hnone => simp [hnone]
  | found hfirst => simp [hfirst.occurs.part]

theorem exists_firstAt (h : Shown needle cs place) (hplace : place ≠ -1) :
    ∃ i : Nat, place = i ∧ FirstAt needle cs i := by
  cases h with
  | missing _ => exact absurd rfl hplace
  | found hfirst => exact ⟨_, rfl, hfirst⟩

theorem eq_zero_iff (h : Shown needle cs place) : place = 0 ↔ needle <+: cs := by
  cases h with
  | missing hnone => simpa using fun hstart : needle <+: cs => hnone hstart.isInfix
  | found hfirst =>
    rw [Int.natCast_eq_zero]
    constructor
    · rintro rfl
      exact occursAt_zero.mp hfirst.occurs
    · intro hstart
      exact Nat.le_zero.mp (hfirst.first 0 (occursAt_zero.mpr hstart))

end Shown

theorem replaceFirst_of_not_part (h : ¬needle <:+: cs) (replacement : List Char) :
    replaceFirst needle replacement cs = cs := by
  rw [replaceFirst, cut_eq_none_iff.mpr h]

theorem replaceFirst_of_firstAt (h : FirstAt needle cs i) (replacement : List Char) :
    replaceFirst needle replacement cs = cs.take i ++ replacement ++
      cs.drop (i + needle.length) := by
  cases hcut : cut needle cs with
  | none => exact absurd h.occurs.part (cut_eq_none_iff.mp hcut)
  | some found =>
    obtain ⟨before, after⟩ := found
    obtain rfl : i = before.length := h.unique (cut_spec hcut).1
    obtain ⟨hbefore, hafter⟩ := eq_take_drop_of_cut hcut
    rw [replaceFirst, hcut, ← hbefore, ← hafter]

/-! ## Pieces -/

/-- A text is divided at the first place where something occurs, then at the first place behind it,
and so on. -/
inductive Divided (needle : List Char) : List Char → List (List Char) → Prop
  | whole {cs : List Char} : ¬needle <:+: cs → Divided needle cs [cs]
  | further {cs : List Char} {i : Nat} {parts : List (List Char)} : FirstAt needle cs i →
    Divided needle (cs.drop (i + needle.length)) parts → Divided needle cs (cs.take i :: parts)

/-- What a text becomes when the first occurrence is replaced, then the first one behind it, and so
on. -/
inductive Replaced (needle replacement : List Char) : List Char → List Char → Prop
  | whole {cs : List Char} : ¬needle <:+: cs → Replaced needle replacement cs cs
  | further {cs rest : List Char} {i : Nat} : FirstAt needle cs i →
    Replaced needle replacement (cs.drop (i + needle.length)) rest →
    Replaced needle replacement cs (cs.take i ++ replacement ++ rest)

/-- The pieces of a text are what lies between occurrences that do not overlap, each of them the
first one possible. -/
theorem divided_pieces (hne : needle ≠ []) (cs : List Char) :
    Divided needle cs (pieces needle cs) := by
  fun_induction pieces needle cs with
  | case1 cs hcut => exact .whole (cut_eq_none_iff.mp hcut)
  | case2 cs before after hcut _ ih =>
    obtain ⟨hbefore, hafter⟩ := eq_take_drop_of_cut hcut
    rw [hbefore]
    exact .further (cut_spec hcut).1 (hafter ▸ ih)
  | case3 cs before after hcut hlength => exact absurd (length_of_cut hne hcut) hlength

namespace Divided

theorem ne_nil (h : Divided needle cs parts) : parts ≠ [] := by
  cases h <;> exact List.cons_ne_nil _ _

theorem join (h : Divided needle cs parts) : needle.intercalate parts = cs := by
  induction h with
  | whole _ => exact List.intercalate_singleton
  | further hfirst hrest ih =>
    rw [List.intercalate_cons_of_ne_nil hrest.ne_nil, ih]
    simpa using hfirst.occurs.take_append

theorem replaced (h : Divided needle cs parts) (replacement : List Char) :
    Replaced needle replacement cs (replacement.intercalate parts) := by
  induction h with
  | whole hnone =>
    rw [List.intercalate_singleton]
    exact .whole hnone
  | further hfirst hrest ih =>
    rw [List.intercalate_cons_of_ne_nil hrest.ne_nil]
    exact .further hfirst ih

theorem one_lt_length_iff (h : Divided needle cs parts) : 1 < parts.length ↔ needle <:+: cs := by
  cases h with
  | whole hnone => simp [hnone]
  | further hfirst hrest =>
    have hpos := List.length_pos_iff.mpr hrest.ne_nil
    simpa [hfirst.occurs.part] using hpos

theorem not_part (hne : needle ≠ []) (h : Divided needle cs parts) :
    ∀ part ∈ parts, ¬needle <:+: part := by
  induction h with
  | whole hnone => simpa using hnone
  | @further cs i parts hfirst _ ih =>
    refine List.forall_mem_cons.mpr ⟨fun hpart => ?_, ih⟩
    obtain ⟨j, hj⟩ := occursAt_of_part hpart
    obtain ⟨hoccurs, hend⟩ := hj.of_take
    have hle := hfirst.first j hoccurs
    have hpos := List.length_pos_iff.mpr hne
    omega

end Divided

theorem replaceAll_eq_intercalate (hne : needle ≠ []) (replacement : List Char) :
    replaceAll needle replacement cs = replacement.intercalate (pieces needle cs) := by
  rw [replaceAll, if_neg (by simpa using hne), join]

end Luuqad.Text

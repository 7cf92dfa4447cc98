import Luuqad.Text.Search

/-!
# Replacing and cutting texts

What replacing does to a text that is put together from parts. Replacing works part by part where no
occurrence reaches over a boundary (`replaceAll_append`), it leaves parts alone in which nothing
occurs, and a part that is what is searched for is replaced as a whole.
-/

namespace Luuqad.Text

variable {needle xs ys : List Char} {c : Char}

/-! ## Occurrences -/

theorem cut_eq_none (h : ¬ needle <:+: xs) : cut needle xs = none := by
  induction xs with
  | nil =>
    have hempty : needle.isEmpty = false := by
      cases needle with
      | nil => exact absurd List.nil_infix h
      | cons c rest => rfl
    simp [cut, hempty]
  | cons c rest ih =>
    rw [List.infix_cons_iff, not_or] at h
    have hstart : needle.isPrefixOf (c :: rest) = false := by
      rw [Bool.eq_false_iff, Ne, List.isPrefixOf_iff_prefix]
      exact h.1
    simp [cut, hstart, ih h.2]

theorem cut_of_start (h : needle <+: c :: xs) :
    cut needle (c :: xs) = some ([], (c :: xs).drop needle.length) := by
  rw [cut, if_pos (List.isPrefixOf_iff_prefix.mpr h)]

theorem cut_of_not_start (h : ¬ needle <+: c :: xs) :
    cut needle (c :: xs) = (cut needle xs).map fun (before, after) => (c :: before, after) := by
  rw [cut, if_neg (fun hstart => h (List.isPrefixOf_iff_prefix.mp hstart))]

theorem contains_iff : contains needle xs = true ↔ needle <:+: xs := by
  constructor
  · intro h
    refine Classical.byContradiction fun hnot => ?_
    simp [contains, cut_eq_none hnot] at h
  · intro h
    induction xs with
    | nil =>
      obtain rfl : needle = [] := List.infix_nil.mp h
      rfl
    | cons c rest ih =>
      by_cases hstart : needle <+: c :: rest
      · simp [contains, cut_of_start hstart]
      · have hrest := ih ((List.infix_cons_iff.mp h).resolve_left hstart)
        simpa [contains, cut_of_not_start hstart] using hrest

theorem cut_char (h : c ∉ xs) : cut [c] (xs ++ c :: ys) = some (xs, ys) := by
  induction xs with
  | nil => simp [cut]
  | cons d xs ih =>
    simp only [List.mem_cons, not_or] at h
    have hstart : ¬ [c] <+: d :: (xs ++ c :: ys) := by simpa using h.1
    rw [List.cons_append, cut_of_not_start hstart, ih h.2]
    rfl

theorem length_of_cut {before after : List Char} (hne : needle ≠ [])
    (h : cut needle xs = some (before, after)) :
    after.length < xs.length := by
  induction xs generalizing before with
  | nil => simp [cut, hne] at h
  | cons c xs ih =>
    by_cases hstart : needle <+: c :: xs
    · rw [cut_of_start hstart] at h
      cases h
      have hpos : 0 < needle.length := List.length_pos_iff.mpr hne
      simp only [List.length_drop, List.length_cons]
      omega
    · rw [cut_of_not_start hstart, Option.map_eq_some_iff] at h
      obtain ⟨⟨before', after'⟩, hcut, heq⟩ := h
      cases heq
      exact Nat.lt_succ_of_lt (ih hcut)

/-! ## Pieces -/

theorem pieces_of_notMem (h : c ∉ xs) : pieces [c] xs = [xs] := by
  rw [pieces, cut_eq_none (fun hpart => h (hpart.subset List.mem_cons_self))]

theorem pieces_append (h : c ∉ xs) : pieces [c] (xs ++ c :: ys) = xs :: pieces [c] ys := by
  have hlength : ys.length < (xs ++ c :: ys).length := by
    simp only [List.length_append, List.length_cons]
    omega
  rw [pieces, cut_char h]
  simp only [hlength, if_true]

theorem replaceFirst_char (h : c ∉ xs) (replacement : List Char) :
    replaceFirst [c] replacement (xs ++ c :: ys) = xs ++ replacement ++ ys := by
  rw [replaceFirst, cut_char h]

/-! ## Replacing -/

variable (replacement : List Char)

theorem pieces_ne_nil (needle xs : List Char) : pieces needle xs ≠ [] := by
  rw [pieces]
  split
  · exact List.cons_ne_nil _ _
  · split
    · exact List.cons_ne_nil _ _
    · exact List.cons_ne_nil _ _

theorem replaceAll_of_cut {before after : List Char} (hne : needle ≠ [])
    (h : cut needle xs = some (before, after)) :
    replaceAll needle replacement xs =
      before ++ (replacement ++ replaceAll needle replacement after) := by
  have hempty : needle.isEmpty = false := by simpa using hne
  have hlength := length_of_cut hne h
  unfold replaceAll join
  rw [hempty, pieces, h]
  simp only [hlength, if_true, Bool.false_eq_true, if_false]
  obtain ⟨piece, rest, hpieces⟩ := List.exists_cons_of_ne_nil (pieces_ne_nil needle after)
  simp [hpieces, List.intercalate_cons_cons]

theorem replaceAll_of_not_part (h : ¬ needle <:+: xs) : replaceAll needle replacement xs = xs := by
  have hempty : needle.isEmpty = false := by
    cases needle with
    | nil => exact absurd List.nil_infix h
    | cons c rest => rfl
  unfold replaceAll join
  rw [hempty, pieces, cut_eq_none h]
  simp

theorem replaceAll_of_start (hne : needle ≠ []) (h : needle <+: c :: xs) :
    replaceAll needle replacement (c :: xs) =
      replacement ++ replaceAll needle replacement ((c :: xs).drop needle.length) :=
  replaceAll_of_cut replacement hne (cut_of_start h)

theorem replaceAll_of_not_start (h : ¬ needle <+: c :: xs) :
    replaceAll needle replacement (c :: xs) = c :: replaceAll needle replacement xs := by
  have hne : needle ≠ [] := by
    rintro rfl
    exact h List.nil_prefix
  cases hcut : cut needle xs with
  | none =>
    have hrest : ¬ needle <:+: xs := by
      intro hpart
      simp [← contains_iff, contains, hcut] at hpart
    rw [replaceAll_of_not_part replacement hrest, replaceAll_of_not_part]
    rw [List.infix_cons_iff, not_or]
    exact ⟨h, hrest⟩
  | some parts =>
    obtain ⟨before, after⟩ := parts
    have hcons : cut needle (c :: xs) = some (c :: before, after) := by
      rw [cut_of_not_start h, hcut]
      rfl
    rw [replaceAll_of_cut replacement hne hcut, replaceAll_of_cut replacement hne hcons]
    rfl

theorem replaceAll_self (hne : needle ≠ []) :
    replaceAll needle replacement needle = replacement := by
  obtain ⟨c, rest, rfl⟩ := List.exists_cons_of_ne_nil hne
  have hempty : ¬ c :: rest <:+: [] := by simp
  rw [replaceAll_of_start replacement hne List.prefix_rfl, List.drop_length,
    replaceAll_of_not_part replacement hempty, List.append_nil]

/-- No occurrence reaches over the boundary: a character next to it is not part of what is searched
for. -/
def Bounded (needle xs ys : List Char) : Prop :=
  (∀ c ∈ xs.getLast?, c ∉ needle) ∨ ∀ c ∈ ys.head?, c ∉ needle

theorem Bounded.prefix_left (h : Bounded needle (c :: xs) ys) (hstart : needle <+: c :: xs ++ ys) :
    needle <+: c :: xs := by
  obtain ⟨after, hafter⟩ := hstart
  rcases List.append_eq_append_iff.mp hafter with ⟨a, ha, -⟩ | ⟨a, ha, hys⟩
  · exact ⟨a, ha.symm⟩
  · cases a with
    | nil => simp [ha]
    | cons d a =>
      exfalso
      rcases h with hleft | hright
      · have hlast : (c :: xs).getLast? = some ((c :: xs).getLast (by simp)) :=
          List.getLast?_eq_some_getLast _
        refine hleft _ hlast ?_
        rw [ha]
        exact List.mem_append_left _ (List.getLast_mem _)
      · refine hright d (by simp [hys]) ?_
        rw [ha]
        simp

theorem Bounded.of_suffix {zs : List Char} (h : Bounded needle (xs ++ zs) ys) (hzs : zs ≠ []) :
    Bounded needle zs ys := by
  rcases h with hleft | hright
  · refine .inl fun c hc => hleft c ?_
    rw [List.getLast?_append]
    obtain ⟨d, rest, rfl⟩ := List.exists_cons_of_ne_nil hzs
    simpa using hc
  · exact .inr hright

/-- Replacing works part by part. -/
theorem replaceAll_append (hne : needle ≠ []) (h : Bounded needle xs ys) :
    replaceAll needle replacement (xs ++ ys) =
      replaceAll needle replacement xs ++ replaceAll needle replacement ys := by
  have hempty : ¬ needle <:+: [] := by simpa using hne
  induction hn : xs.length using Nat.strongRecOn generalizing xs with
  | ind n ih =>
    cases xs with
    | nil => rw [replaceAll_of_not_part replacement hempty, List.nil_append, List.nil_append]
    | cons c xs =>
      -- what comes after the first occurrence, or after the first character, has the same boundary
      have hrest {zs : List Char} (hzs : zs <:+ c :: xs) (hlength : zs.length < n) :
          replaceAll needle replacement (zs ++ ys) =
            replaceAll needle replacement zs ++ replaceAll needle replacement ys := by
        by_cases hnil : zs = []
        · rw [hnil, replaceAll_of_not_part replacement hempty, List.nil_append, List.nil_append]
        · obtain ⟨before, hbefore⟩ := hzs
          rw [← hbefore] at h
          exact ih _ hlength (h.of_suffix hnil) rfl
      by_cases hstart : needle <+: c :: xs
      · have hlong : needle <+: c :: (xs ++ ys) := hstart.trans (List.prefix_append (c :: xs) ys)
        have hpos : 0 < needle.length := List.length_pos_iff.mpr hne
        have hdrop : (c :: (xs ++ ys)).drop needle.length = (c :: xs).drop needle.length ++ ys := by
          rw [← List.cons_append, List.drop_append_of_le_length hstart.length_le]
        rw [List.cons_append, replaceAll_of_start replacement hne hlong,
          replaceAll_of_start replacement hne hstart, hdrop,
          hrest (List.drop_suffix _ _)
          (by simp only [List.length_drop, List.length_cons] at hn ⊢; omega),
          List.append_assoc]
      · have hlong : ¬ needle <+: c :: (xs ++ ys) := fun hlong => hstart (h.prefix_left hlong)
        rw [List.cons_append, replaceAll_of_not_start replacement hlong,
          replaceAll_of_not_start replacement hstart,
          hrest (List.suffix_cons c xs) (by simp only [List.length_cons] at hn; omega),
          List.cons_append]

/-! ## Stripping -/

def Blank (cs : List Char) : Prop := ∀ c ∈ cs, isBlank c = true

/-- A text that neither starts nor ends with a blank. -/
structure Firm (cs : List Char) : Prop where
  head : ∀ c ∈ cs.head?, isBlank c = false
  last : ∀ c ∈ cs.getLast?, isBlank c = false

theorem isBlank_eq_false {p : Char → Bool} (hp : ∀ {b : Char}, isBlank b = true → p b = false)
    {c : Char} (h : p c = true) : isBlank c = false := by
  cases hblank : isBlank c with
  | false => rfl
  | true =>
    rw [hp hblank] at h
    cases h

theorem dropWhile_blank {lead rest : List Char} (hlead : Blank lead)
    (hrest : ∀ c ∈ rest.head?, isBlank c = false) :
    (lead ++ rest).dropWhile isBlank = rest := by
  rw [List.dropWhile_append_of_pos hlead]
  cases rest with
  | nil => rfl
  | cons c rest => rw [List.dropWhile_cons_of_neg (by simp [hrest c rfl])]

theorem strip_eq {lead core trail : List Char} (hlead : Blank lead) (hcore : Firm core)
    (hne : core ≠ []) (htrail : Blank trail) : strip (lead ++ (core ++ trail)) = core := by
  have hhead : ∀ c ∈ (core ++ trail).head?, isBlank c = false := by
    obtain ⟨d, rest, rfl⟩ := List.exists_cons_of_ne_nil hne
    exact hcore.head
  have htrail' : Blank trail.reverse := fun c hc => htrail c (List.mem_reverse.mp hc)
  have hlast : ∀ c ∈ core.reverse.head?, isBlank c = false := by
    rw [List.head?_reverse]
    exact hcore.last
  rw [strip, dropWhile_blank hlead hhead, stripEnd, List.reverse_append,
    dropWhile_blank htrail' hlast, List.reverse_reverse]

theorem strip_firm {core : List Char} (hcore : Firm core) (hne : core ≠ []) :
    strip core = core := by
  have hnone : Blank [] := by simp [Blank]
  simpa using strip_eq hnone hcore hne hnone

end Luuqad.Text

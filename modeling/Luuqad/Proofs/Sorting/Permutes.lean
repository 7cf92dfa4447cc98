import Luuqad.Sorting

/-!
# Sorting permutes

Whatever the order answers, and also where it fails half-way, a sort only rearranges the items
(`Sorting.perm_sort`). A merge moves items between the lists that are left and the list of those
taken; a sort moves them between runs and what comes after the runs. In both cases a view of the
state lists all items, and every step, however it ends, leaves a permutation of them.
-/

namespace Luuqad.Sorting

variable {α β γ ε σ : Type}

/-! ## Steps that rearrange -/

/-- The state that something was left in. -/
def left : EStateM.Result ε σ β → σ
  | .ok _ s => s
  | .error _ s => s

/-- However the step ends, the items in view are those of before in some order. -/
def RearrangesAt (view : σ → List α) (x : EStateM ε σ β) (s : σ) : Prop :=
  (view (left (x s))).Perm (view s)

namespace RearrangesAt

variable {view : σ → List α} {s : σ}

theorem pure (b : β) : RearrangesAt view (Pure.pure b : EStateM ε σ β) s := .refl _

theorem throw (e : ε) : RearrangesAt view (MonadExcept.throw e : EStateM ε σ β) s := .refl _

theorem bind {x : EStateM ε σ β} {f : β → EStateM ε σ γ} (hx : RearrangesAt view x s)
    (hf : ∀ b t, x s = .ok b t → RearrangesAt view (f b) t) : RearrangesAt view (x >>= f) s := by
  unfold RearrangesAt at hx ⊢
  change (view (left (EStateM.bind x f s))).Perm _
  unfold EStateM.bind
  cases hxs : x s with
  | ok b t =>
    rw [hxs] at hx
    exact (hf b t hxs).trans hx
  | error e t =>
    rw [hxs] at hx
    exact hx

theorem get_bind {f : σ → EStateM ε σ γ} (hf : RearrangesAt view (f s) s) :
    RearrangesAt view (get >>= f) s := hf

theorem modified {g : σ → σ} (hg : (view (g s)).Perm (view s)) :
    RearrangesAt view (modify g : EStateM ε σ PUnit) s := hg

theorem ite {p : Prop} [Decidable p] {x y : EStateM ε σ β} (hx : RearrangesAt view x s)
    (hy : RearrangesAt view y s) : RearrangesAt view (if p then x else y) s := by
  split
  · exact hx
  · exact hy

end RearrangesAt

/-! ## Merging -/

def Merging.items (m : Merging α) : List α := m.taken ++ (m.short ++ m.long)

namespace Merger

variable {less : Less α ε} {side : Side} {m : Merging α}

theorem rearranges_ask (x : Except ε β) : RearrangesAt Merging.items (ask x : Merger α ε β) m := by
  cases x with
  | ok b => exact .pure b
  | error e => exact .throw _

theorem perm_takeShort (m : Merging α) (n : Nat) :
    (Merging.items { m with
      taken := (m.short.take n).reverse ++ m.taken
      short := m.short.drop n }).Perm m.items := by
  have htake : ((m.short.take n).reverse ++ m.taken).Perm (m.taken ++ m.short.take n) :=
    List.perm_append_comm.trans (.append_left _ (List.reverse_perm _))
  refine (htake.append_right _).trans ?_
  simp only [Merging.items, List.append_assoc]
  rw [← List.append_assoc (m.short.take n), List.take_append_drop]

theorem perm_takeLong (m : Merging α) (n : Nat) :
    (Merging.items { m with
      taken := (m.long.take n).reverse ++ m.taken
      long := m.long.drop n }).Perm m.items := by
  have htake : ((m.long.take n).reverse ++ m.taken).Perm (m.taken ++ m.long.take n) :=
    List.perm_append_comm.trans (.append_left _ (List.reverse_perm _))
  refine (htake.append_right _).trans ?_
  have hlong : (m.long.take n ++ (m.short ++ m.long.drop n)).Perm (m.short ++ m.long) := by
    rw [← List.append_assoc]
    refine (List.perm_append_comm.append_right _).trans ?_
    rw [List.append_assoc, List.take_append_drop]
  simp only [Merging.items, List.append_assoc]
  exact .append_left _ hlong

theorem rearranges_takeShort (n : Nat) :
    RearrangesAt Merging.items (takeShort n : Merger α ε Unit) m := by
  refine .bind (.modified (perm_takeShort m n)) fun _ t _ => .get_bind ?_
  split
  · exact .throw _
  · exact .throw _
  · exact .pure _

theorem rearranges_takeLong (n : Nat) :
    RearrangesAt Merging.items (takeLong n : Merger α ε Unit) m := by
  refine .bind (.modified (perm_takeLong m n)) fun _ t _ => .get_bind ?_
  exact .ite (.throw _) (.pure _)

theorem rearranges_step : RearrangesAt Merging.items (step less) m := by
  refine .get_bind ?_
  split
  · refine .bind (rearranges_ask _) fun b t _ => .ite ?_ ?_
    · exact .bind (rearranges_takeLong 1) fun _ _ _ => .pure _
    · exact .bind (rearranges_takeShort 1) fun _ _ _ => .pure _
  · exact .throw _

theorem rearranges_compete (fuel : Nat) (longer : Bool) (wins : Nat) :
    RearrangesAt Merging.items (compete less fuel longer wins) m := by
  induction fuel generalizing longer wins m with
  | zero => exact .pure _
  | succ fuel ih =>
    refine .bind rearranges_step fun winner t _ => .get_bind ?_
    exact .ite (.pure _) (ih _ _)

theorem rearranges_gallopShort : RearrangesAt Merging.items (gallopShort side less) m := by
  refine .get_bind ?_
  split
  · exact .throw _
  · refine .bind (rearranges_ask _) fun n t _ => .bind (rearranges_takeShort n) fun _ u _ => ?_
    exact .bind (rearranges_takeLong 1) fun _ _ _ => .pure _

theorem rearranges_gallopLong : RearrangesAt Merging.items (gallopLong side less) m := by
  refine .get_bind ?_
  split
  · exact .throw _
  · refine .bind (rearranges_ask _) fun n t _ => .bind (rearranges_takeLong n) fun _ u _ => ?_
    exact .bind (rearranges_takeShort 1) fun _ _ _ => .pure _

theorem rearranges_gallop (fuel : Nat) : RearrangesAt Merging.items (gallop side less fuel) m := by
  induction fuel generalizing m with
  | zero => exact .pure _
  | succ fuel ih =>
    refine .bind (.modified (.refl _)) fun _ t _ => ?_
    cases side with
    | front =>
      refine .bind rearranges_gallopShort fun first u _ => .bind rearranges_gallopLong
        fun second v _ => ?_
      exact .bind (.pure _) fun counts w _ => .ite ih (.pure _)
    | back =>
      refine .bind rearranges_gallopLong fun first u _ => .bind rearranges_gallopShort
        fun second v _ => ?_
      exact .bind (.pure _) fun counts w _ => .ite ih (.pure _)

theorem rearranges_rounds (size fuel : Nat) :
    RearrangesAt Merging.items (rounds side less size fuel) m := by
  induction fuel generalizing m with
  | zero => exact .pure _
  | succ fuel ih =>
    refine .bind (rearranges_compete _ _ _) fun _ t _ => .bind (.modified (.refl _)) fun _ u _ => ?_
    exact .bind (rearranges_gallop _) fun _ v _ => .bind (.modified (.refl _)) fun _ w _ => ih

theorem rearranges_merge : RearrangesAt Merging.items (merge side less) m := by
  refine .get_bind (.bind (rearranges_takeLong 1) fun _ t _ => ?_)
  exact .bind (rearranges_takeShort 0) fun _ u _ => rearranges_rounds _ _

end Merger

theorem Side.perm_turn (side : Side) (items : List α) : (side.turn items).Perm items := by
  cases side with
  | front => exact .refl _
  | back => exact List.reverse_perm _

theorem perm_mergeFrom (side : Side) (less : Less α ε) (patience : Nat) (short long : List α) :
    (mergeFrom side less patience short long).items.Perm (short ++ long) := by
  have hmerge : RearrangesAt Merging.items (Merger.merge side (side.order less))
      ⟨[], short, long, patience⟩ :=
    Merger.rearranges_merge
  have hrest (m : Merging α) {rest : List α} (h : rest.Perm (m.short ++ m.long)) :
      (side.turn (m.taken.reverse ++ rest)).Perm m.items :=
    (side.perm_turn _).trans ((List.reverse_perm _).append h)
  unfold RearrangesAt at hmerge
  unfold mergeFrom
  dsimp only
  generalize Merger.merge side (side.order less) ⟨[], short, long, patience⟩ = result at hmerge ⊢
  cases result with
  | ok _ m => exact (hrest m (.refl _)).trans hmerge
  | error halt m =>
    cases halt with
    | lastOne => exact (hrest m List.perm_append_comm).trans hmerge
    | settled => exact (hrest m (.refl _)).trans hmerge
    | failed e => exact (hrest m (.refl _)).trans hmerge

theorem perm_mergeRuns (less : Less α ε) (patience : Nat) (first second : List α) :
    (mergeRuns less patience first second).items.Perm (first ++ second) := by
  unfold mergeRuns
  split
  · exact .refl _
  · rename_i before after _
    dsimp only
    split
    · exact .refl _
    · have hmiddle :
          ((if (first.drop before).length ≤ (second.take (second.length - after)).length then
            mergeFrom .front less patience (first.drop before) (second.take (second.length - after))
          else mergeFrom .back less patience (second.take (second.length - after)).reverse
            (first.drop before).reverse).items).Perm
          (first.drop before ++ second.take (second.length - after)) := by
        split
        · exact perm_mergeFrom _ _ _ _ _
        · refine (perm_mergeFrom _ _ _ _ _).trans (List.perm_append_comm.trans ?_)
          exact (List.reverse_perm _).append (List.reverse_perm _)
      refine ((hmiddle.append_left _).append_right _).trans ?_
      rw [← List.append_assoc, List.take_append_drop, List.append_assoc, List.take_append_drop]

/-! ## Sorting -/

theorem perm_insertAll (less : Less α ε) (sorted items : List α) :
    (insertAll less sorted items).1.Perm (sorted ++ items) := by
  induction items generalizing sorted with
  | nil =>
    rw [List.append_nil]
    exact .refl _
  | cons x rest ih =>
    unfold insertAll
    split
    · rename_i i _
      have hinsert : (sorted.take i ++ x :: sorted.drop i).Perm (sorted ++ [x]) := by
        refine List.perm_middle.trans ?_
        rw [List.take_append_drop]
        exact (List.perm_append_comm : ([x] ++ sorted).Perm (sorted ++ [x]))
      refine (ih _).trans ((hinsert.append_right rest).trans ?_)
      rw [List.append_assoc]
      exact .refl _
    · exact .refl _

theorem drop_length_take (items : List α) (n : Nat) :
    items.drop (items.take n).length = items.drop n := by
  rw [List.length_take]
  rcases Nat.le_total n items.length with h | h
  · rw [Nat.min_eq_left h]
  · rw [Nat.min_eq_right h, List.drop_length, List.drop_eq_nil_of_le h]

namespace Sorter

variable {less : Less α ε} {s : Sorted α}

theorem items_runs (newer older : List (Pending α)) (first second : Pending α) (rest : List α)
    (patience : Nat) :
    Sorted.items ⟨newer ++ second :: first :: older, rest, patience⟩ =
      older.reverse.flatMap Pending.items ++ (first.items ++ second.items) ++
        (newer.reverse.flatMap Pending.items ++ rest) := by
  simp [Sorted.items]

theorem items_run (newer older : List (Pending α)) (run : Pending α) (rest : List α)
    (patience : Nat) :
    Sorted.items ⟨newer ++ run :: older, rest, patience⟩ =
      older.reverse.flatMap Pending.items ++ run.items ++
        (newer.reverse.flatMap Pending.items ++ rest) := by
  simp [Sorted.items]

theorem rearranges_join (newer : List (Pending α)) {older : List (Pending α)}
    {first second : Pending α} (hs : s.runs = newer ++ second :: first :: older) :
    RearrangesAt Sorted.items (join less newer first second older) s ∧
      ∀ joined t, join less newer first second older s = .ok joined t →
        t.runs = newer ++ joined :: older := by
  obtain ⟨runs, rest, patience⟩ := s
  obtain rfl : runs = _ := hs
  have hperm := perm_mergeRuns less patience first.items second.items
  generalize hmerged : mergeRuns less patience first.items second.items = merged at hperm
  let joined : Pending α := ⟨merged.items, second.depth⟩
  let t : Sorted α := ⟨newer ++ joined :: older, rest, merged.patience⟩
  have hitems :
      t.items.Perm (Sorted.items ⟨newer ++ second :: first :: older, rest, patience⟩) := by
    rw [items_run, items_runs]
    exact (hperm.append_left _).append_right _
  unfold RearrangesAt
  cases hfailure : merged.failure with
  | some e =>
    have hrun :
        join less newer first second older ⟨newer ++ second :: first :: older, rest, patience⟩ =
        .error e t := by
      change EStateM.run (join less newer first second older) _ = _
      simp only [join, EStateM.run_bind, EStateM.run_get, EStateM.run_set, hmerged, hfailure]
      rfl
    rw [hrun]
    exact ⟨hitems, fun _ _ h => by cases h⟩
  | none =>
    have hrun :
        join less newer first second older ⟨newer ++ second :: first :: older, rest, patience⟩ =
        .ok joined t := by
      change EStateM.run (join less newer first second older) _ = _
      simp only [join, EStateM.run_bind, EStateM.run_get, EStateM.run_set, hmerged, hfailure]
      rfl
    rw [hrun]
    refine ⟨hitems, fun _ _ h => ?_⟩
    cases h
    rfl

theorem rearranges_joinDeeper (depth : Nat) {last : Pending α} {older : List (Pending α)}
    (hs : s.runs = last :: older) :
    RearrangesAt Sorted.items (joinDeeper less depth last older) s := by
  induction older generalizing last s with
  | nil =>
    refine .modified ?_
    simp [Sorted.items, hs]
  | cons before older ih =>
    refine .ite ?_ (.modified ?_)
    · obtain ⟨hjoin, hruns⟩ := rearranges_join [] hs
      exact .bind hjoin fun joined t ht => ih (hruns joined t ht)
    · simp [Sorted.items, hs]

theorem rearranges_prepare (size length : Nat) :
    RearrangesAt Sorted.items (prepare less size length) s := by
  refine .get_bind ?_
  split
  · exact .pure _
  · rename_i last older hs
    exact rearranges_joinDeeper _ hs

theorem rearranges_findRun (least : Nat) : RearrangesAt Sorted.items (findRun less least) s := by
  refine .get_bind ?_
  dsimp only
  split
  · exact .throw _
  · rename_i n descending _
    have hturned : (if descending = true then (s.rest.take n).reverse else s.rest.take n).Perm
        (s.rest.take n) := by
      split
      · exact List.reverse_perm _
      · exact .refl _
    have hperm :=
      (perm_insertAll less _ ((s.rest.drop n).take (least - n))).trans (hturned.append_right _)
    rw [← List.take_add] at hperm
    generalize insertAll less _ _ = inserted at hperm ⊢
    obtain ⟨start, failure⟩ := inserted
    -- what is left behind the run is the same whether the run was rearranged or not
    have hrest : (start ++ s.rest.drop start.length).Perm s.rest := by
      rw [hperm.length_eq, drop_length_take]
      refine (hperm.append_right _).trans ?_
      rw [List.take_append_drop]
    refine .bind (.modified (hrest.append_left _)) fun _ t _ => ?_
    split
    · exact .throw _
    · exact .pure _

theorem rearranges_cut (size least fuel : Nat) :
    RearrangesAt Sorted.items (cut less size least fuel) s := by
  induction fuel generalizing s with
  | zero => exact .pure _
  | succ fuel ih =>
    refine .get_bind (.ite (.pure _) ?_)
    refine .bind (rearranges_findRun _) fun n t _ => .bind (rearranges_prepare _ _) fun _ u _ => ?_
    refine .bind (.modified ?_) fun _ v _ => ih
    simp [Sorted.items]

theorem rearranges_joinAll (fuel : Nat) : RearrangesAt Sorted.items (joinAll less fuel) s := by
  induction fuel generalizing s with
  | zero => exact .pure _
  | succ fuel ih =>
    refine .get_bind ?_
    split
    · rename_i last middle first older hs
      refine .ite ?_ ?_
      · exact .bind (rearranges_join [last] hs).1 fun _ _ _ => ih
      · exact .bind (rearranges_join [] hs).1 fun _ _ _ => ih
    · rename_i last first hs
      exact .bind (rearranges_join [] hs).1 fun _ _ _ => .pure _
    · exact .pure _

end Sorter

/-- Sorting rearranges the items, also if some of them cannot be compared. -/
theorem perm_sort (less : Less α ε) (items : List α) : (sort less items).1.Perm items := by
  have hsort : RearrangesAt Sorted.items (Sorter.sortAll less items.length)
      ⟨[], items, gallopGain⟩ :=
    .bind (Sorter.rearranges_cut _ _ _) fun _ _ _ => Sorter.rearranges_joinAll _
  unfold RearrangesAt at hsort
  unfold sort
  generalize Sorter.sortAll less items.length ⟨[], items, gallopGain⟩ = result at hsort ⊢
  cases result with
  | ok _ s => exact hsort
  | error e s => exact hsort

end Luuqad.Sorting

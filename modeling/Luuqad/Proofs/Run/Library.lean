import Luuqad.Proofs.Run.Contract

/-!
# The library keeps every contract

Library functions touch neither variables nor functions nor the folder. Only the two that call a
function on each item of a list can do more, and only through that function.
-/

namespace Luuqad

open Run

variable {c : Contract}

namespace Library

theorem keeps_chooseBetween (low high : Num) :
    Keeps c (chooseBetween low high) := by
  unfold chooseBetween
  split
  · exact .bind (.draw _) fun _ => .pure _
  · refine .bind (.act (.ofExcept _)) fun _ => .bind .drawUnit fun _ => ?_
    refine .bind (.act (.ofExcept _)) fun _ => .act ?_
    exact (Action.Plain.ofExcept _).bind fun _ => .number _

theorem keeps_choose (args : List Value) : Keeps c (choose args) := by
  unfold choose
  split
  · exact .bind .drawUnit fun _ => .pure _
  · refine .bind_get fun s _ => ?_
    have hitem (items : Array Value) : Keeps c
        (do return items.getD (← Run.draw items.size) .null) := .bind (.draw _) fun _ => .pure _
    exact .ite (.bind (.raise rfl) fun _ => hitem _) (hitem _)
  · exact .raise rfl
  · split
    · exact .ite (.bind (.raise rfl) fun _ => keeps_chooseBetween _ _) (keeps_chooseBetween _ _)
    · exact .raise rfl
  · exact .raise rfl

end Library

namespace Builtin

theorem keeps_bindArguments {α : Type} (f : Builtin) (positional : List α)
    (named : List (String × α)) :
    Keeps c (f.bindArguments positional named) := by
  unfold bindArguments
  split
  · exact .pure _
  · exact .fail _

theorem keeps_run (f : Builtin) (b : Bound Value) : Keeps c (f.run b) := by
  cases f with
  | print => exact .bind (.act (.reading _)) fun _ => .bind (.print _) fun _ => .pure _
  | readLine => exact .bind (.text _) fun _ => .bind (.readLine _) fun _ => .pure _
  | typeOf | toBool | listFilter | listMap => exact .pure _
  | toInteger => exact .act (.ofExcept _)
  | toFloat => exact .act (Library.plain_toDouble _)
  | toText => exact .bind (.act (.reading _)) fun _ => .pure _
  | makeList => exact .act (.newList _)
  | makeObject => exact .act (.newObject _)
  | floor => exact .act (Library.plain_floor _)
  | ceiling => exact .act (Library.plain_ceiling _)
  | length => exact .act (Library.plain_length _)
  | choose => exact Library.keeps_choose _
  | range => exact .act (Library.plain_range _)
  | listPush => exact .act (Library.Lists.plain_push _ _)
  | listPop => exact .act (Library.Lists.plain_pop _)
  | listLength => exact .act (Library.Lists.plain_length _)
  | listConcat => exact .act (Library.Lists.plain_concat _ _)
  | listContains => exact .act (Library.Lists.plain_contains _ _)
  | listCopy => exact .act (Library.Lists.plain_copy _)
  | listClear => exact .act (Library.Lists.plain_clear _)
  | listGet => exact .act (Library.Lists.plain_itemAt _ _)
  | listSet => exact .act (Library.Lists.plain_setItem _ _ _)
  | listReverse => exact .act (Library.Lists.plain_reverse _)
  | listSort => exact .act (Library.Lists.plain_sort _)
  | listSlice => exact .act (Library.Lists.plain_slice _ _ _)
  | listFind => exact .act (Library.Lists.plain_find _ _)
  | objectGet => exact .act (Library.Objects.plain_valueAt _ _)
  | objectSet => exact .act (Library.Objects.plain_setValue _ _ _)
  | objectKeys => exact .act (Library.Objects.plain_keys _)
  | objectHas => exact .act (Library.Objects.plain_has _ _)
  | objectRemove => exact .act (Library.Objects.plain_remove _ _)
  | objectMerge => exact .act (Library.Objects.plain_merge _ _)
  | objectCopy => exact .act (Library.Objects.plain_copy _)
  | objectClear => exact .act (Library.Objects.plain_clear _)
  | objectValues => exact .act (Library.Objects.plain_values _)
  | objectEntries => exact .act (Library.Objects.plain_pairs _)
  | textSplit => exact .act (Library.Texts.plain_split _ _)
  | textContains => exact .act (Library.Texts.plain_contains _ _)
  | textEndsWith => exact .act (Library.Texts.plain_endsWith _ _)
  | textStartsWith => exact .act (Library.Texts.plain_startsWith _ _)
  | textReplace => exact .act (Library.Texts.plain_replacing _ _ _ _)
  | textReplaceAll => exact .act (Library.Texts.plain_replacing _ _ _ _)
  | textJoin => exact .act (Library.Texts.plain_join _ _)
  | textSlice => exact .act (Library.Texts.plain_slice _ _ _)
  | textUpper => exact .act (Library.Texts.plain_upper _)
  | textLower => exact .act (Library.Texts.plain_lower _)
  | textStrip => exact .act (Library.Texts.plain_strip _)
  | textFind => exact .act (Library.Texts.plain_find _ _)

theorem keeps_callOne (f : Builtin) (v : Value) : Keeps c (f.callOne v) :=
  .bind (keeps_bindArguments f _ _) fun b => keeps_run f b

end Builtin

namespace Library

theorem safe_eachItem {r : Ref} {step step' : Value → Run (List Value)}
    (hstep : ∀ v, Safe c (step v) (step' v)) (i fuel : Nat) :
    Safe c (eachItem r step i fuel) (eachItem r step' i fuel) := by
  induction fuel generalizing i with
  | zero => exact .exhausted
  | succ fuel ih =>
    refine .bind_get fun s _ => ?_
    split
    · exact .pure _
    · exact .bind (hstep _) fun _ => .bind (ih (i + 1)) fun _ => .pure _

/-- A function on items keeps the contract if the callback does so for the functions of the program
among the arguments. -/
theorem safe_throughItems {callback callback' : Callback} {limit : Nat}
    {keep : Value → Value → Run (List Value)} {b : Bound Argument} {listName functionName : String}
    (hkeep : ∀ v w, Keeps c (keep v w))
    (hcallback : ∀ f, b.params.lookup functionName = some (.user f) →
      ∀ v, Safe c (callback f v) (callback' f v)) :
    Safe c (throughItems callback limit keep b listName functionName)
      (throughItems callback' limit keep b listName functionName) := by
  refine .bind (.act (Lists.plain_list _ _)) fun r => ?_
  have hitems {f f' : Value → Run Value} (hf : ∀ v, Safe c (f v) (f' v)) : Safe c
      (do
        let items ← eachItem r (fun v => do keep v (← f v)) 0 limit
        Run.act (Action.newList items.toArray))
      (do
        let items ← eachItem r (fun v => do keep v (← f' v)) 0 limit
        Run.act (Action.newList items.toArray)) :=
    .bind (safe_eachItem (fun v => .bind (hf v) fun w => hkeep v w) 0 limit) fun _ =>
      .act (.newList _)
  cases harg : b.params.lookup functionName with
  | none => exact .raise_bind rfl
  | some a =>
    cases a with
    | user f => exact hitems (hcallback f harg)
    | value v =>
      cases v with
      | function f => exact hitems (Builtin.keeps_callOne f)
      | _ => exact .raise_bind rfl

end Library

/-! ## Calls -/

namespace Signature

variable {α : Type} {s : Signature} {positional : List α} {b : Bound α}

theorem eq_of_bind (h : s.bind positional [] = .ok b) :
    b = ⟨s.names.zip positional, positional.drop s.names.length, []⟩ := by
  simp only [bind, bindNamed] at h
  change (if _ then _ else _) = _ at h
  split at h
  · cases h
  · split at h
    · cases h
    · cases h
      rfl

theorem mem_of_lookup (h : s.bind positional [] = .ok b) {name : String} {a : α}
    (ha : b.params.lookup name = some a) : a ∈ positional := by
  obtain ⟨before, after, hparams, -⟩ := List.lookup_eq_some_iff.mp ha
  have hmem : (name, a) ∈ b.params := by simp [hparams]
  rw [eq_of_bind h] at hmem
  exact (List.of_mem_zip hmem).2

end Signature

/-- A call of the library keeps the contract if the callback does so for the functions of the
program among the arguments. -/
theorem Builtin.safe_call {callback callback' : Library.Callback} {limit : Nat} {f : Builtin}
    {args : List Argument}
    (hcallback : ∀ g, .user g ∈ args → ∀ v, Safe c (callback g v) (callback' g v)) :
    Safe c (f.call callback limit args []) (f.call callback' limit args []) := by
  unfold Builtin.call Builtin.bindArguments
  cases hb : f.signature.bind args [] with
  | error e => exact fun _ hs => ⟨rfl, c.fault rfl hs⟩
  | ok b =>
    have hcallback (functionName : String) (g : UserFunction)
        (hg : b.params.lookup functionName = some (.user g)) (v : Value) :
        Safe c (callback g v) (callback' g v) :=
      hcallback g (Signature.mem_of_lookup hb hg) v
    cases f with
    | listFilter =>
      refine Library.safe_throughItems (fun v w => ?_) fun g hg => hcallback _ g hg
      exact .bind (.isTrue w) fun _ => .pure _
    | listMap =>
      exact Library.safe_throughItems (fun _ _ => .pure _) fun g hg => hcallback _ g hg
    | _ => exact .bind (.pure b) fun _ => Builtin.keeps_run _ _

end Luuqad

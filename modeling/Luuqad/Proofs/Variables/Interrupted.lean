import Luuqad.Proofs.Run.Regime

/-!
# Variables after an interrupted call

The variables of the caller are put back by a call that has a result. A call whose body is
interrupted puts nothing back: whatever catches the interrupt goes on with the variables as the body
left them. No run removes a variable, so the parameters are then still there, and the caller has its
own variables again only if the call neither added a name nor changed a value
(`interrupted_call_vars`).
-/

namespace Luuqad

open Run

/-! ## No run removes a variable -/

/-- Certain names are variables. -/
def Regime.bound (names : String → Prop) : Regime :=
  Discipline.free
    { may := fun _ _ => True
      inv := fun s => ∀ name, names name → s.vars.has name = true
      same := fun hvars _ _ hs => hvars ▸ hs
      change := fun hs hchange name hname => hchange.has (hs name hname)
      restore := fun hs _ _ => hs }
    fun _ _ => trivial

theorem Limits.has_of_functionBody {l : Limits} {f : UserFunction} {s t : State} {e : Interrupt}
    (h : l.evaluator.functionBody f s = .error e t) {name : String}
    (hname : s.vars.has name = true) : t.vars.has name = true := by
  let R := Regime.bound fun other => s.vars.has other = true
  have hruns := R.runs Regime.idle_id l.rounds l.depth
  obtain ⟨-, hmet⟩ := hruns.functionBody (f := f) (fun _ _ => trivial) s fun _ hother => hother
  change (R.contract .top).Met (l.evaluator.functionBody f s) at hmet
  rw [h] at hmet
  exact hmet.2 name hname

/-! ## Calls -/

/-- How a call sets parameters: all of them to its arguments, or the first one to an item of a
list. -/
inductive Passing
  | arguments (args : List Value)
  | item (v : Value)

namespace Passing

def params (p : Passing) (f : UserFunction) : List String :=
  match p with
  | arguments _ => f.params
  | item _ => f.params.take 1

def setting (p : Passing) (f : UserFunction) : Run Unit :=
  match p with
  | arguments args => Evaluator.setParameters f.params args
  | item v =>
    match f.params.head? with
    | some first => Run.setVariable first v
    | none => Run.fail .indexOutOfRange

end Passing

/-- Call a function of the program: by name, or as a list method calls it on an item. -/
def Evaluator.callPassing (self : Evaluator) (f : UserFunction) : Passing → Run Value
  | .arguments args => self.runFunction f (setParameters f.params args)
  | .item v => self.onItem f v

theorem Evaluator.callPassing_eq (self : Evaluator) (f : UserFunction) (p : Passing) :
    self.callPassing f p = self.runFunction f (p.setting f) := by
  cases p <;> rfl

theorem Evaluator.has_of_setParameters {params : List String} {args : List Value} {s t : State}
    (h : setParameters params args s = .ok () t) {name : String}
    (hname : name ∈ params ∨ s.vars.has name = true) : t.vars.has name = true := by
  induction params generalizing args s with
  | nil =>
    cases h
    simpa using hname
  | cons p rest ih =>
    obtain ⟨v, others, hrest⟩ : ∃ v others,
        setParameters rest others { s with vars := s.vars.put p v } = .ok () t := by
      cases args with
      | nil => exact ⟨.null, [], h⟩
      | cons v others => exact ⟨v, others, h⟩
    refine ih hrest ?_
    rw [NameTable.has_put]
    rcases hname with hparam | hold
    · rcases List.mem_cons.mp hparam with hp | hmem
      · exact .inr (.inl hp)
      · exact .inl hmem
    · exact .inr (.inr hold)

theorem Passing.has_of_setting {p : Passing} {f : UserFunction} {s t : State}
    (h : p.setting f s = .ok () t) {name : String}
    (hname : name ∈ p.params f ∨ s.vars.has name = true) : t.vars.has name = true := by
  cases p with
  | arguments args => exact Evaluator.has_of_setParameters h hname
  | item v =>
    unfold setting params at *
    cases hparams : f.params with
    | nil =>
      rw [hparams] at h
      cases h
    | cons first rest =>
      rw [hparams] at h hname
      cases h
      exact (NameTable.has_put _ first name v).mpr (by simpa using hname)

/-- A call whose body is interrupted is left by the same interrupt, in the state that the body
left. -/
theorem Evaluator.callPassing_error {self : Evaluator} {f : UserFunction} {p : Passing}
    {s s₁ t : State} {e : Interrupt} (hset : p.setting f s = .ok () s₁)
    (hbody : self.functionBody f s₁ = .error e t) : self.callPassing f p s = .error e t := by
  rw [callPassing_eq]
  change (p.setting f >>= fun _ => self.functionBody f >>= fun result =>
    modify ({ · with vars := s.vars }) >>= fun _ => pure result) s = _
  rw [bind_ok hset, bind_error hbody]

/-! ## What is around a call -/

/-- The run `r`, started in `s`, comes to run `x` in `s'`, and the interrupt `e` of `x` leaves `r`:
what stands around `x` either follows it or handles other interrupts only. -/
inductive Run.Within (e : Interrupt) {α : Type} (x : Run α) (s' : State) :
    {β : Type} → Run β → State → Prop
  | here : Within e x s' x s'
  | first {β γ : Type} {y : Run β} {k : β → Run γ} {s : State} :
    Within e x s' y s → Within e x s' (y >>= k) s
  | later {β γ : Type} {y : Run β} {k : β → Run γ} {s t : State} {b : β} :
    y s = .ok b t → Within e x s' (k b) t → Within e x s' (y >>= k) s
  | passed {β : Type} {y : Run β} {handler : Interrupt → Run β} {s : State} :
    Within e x s' y s → (∀ t, handler e t = .error e t) → Within e x s' (tryCatch y handler) s

theorem Run.Within.error {e : Interrupt} {α β : Type} {x : Run α} {r : Run β} {s s' t : State}
    (h : Within e x s' r s) (hx : x s' = .error e t) : r s = .error e t := by
  induction h with
  | here => exact hx
  | first _ ih => exact bind_error ih
  | later hy _ ih => rw [bind_ok hy, ih]
  | passed _ hhandler ih => rw [tryCatch_error ih, hhandler]

/-! ## Main result -/

/-- The caller has its variables again: the same names, with the same values. -/
def State.SameVars (s t : State) : Prop := ∀ name, t.vars.get? name = s.vars.get? name

/-- When no name is lost, the variables are the same if no name is added and no value is changed. -/
theorem State.sameVars_iff {s t : State}
    (hkept : ∀ name, s.vars.has name = true → t.vars.has name = true) :
    s.SameVars t ↔ (∀ name, t.vars.has name = true → s.vars.has name = true) ∧
      ∀ name v w, s.vars.get? name = some v → t.vars.get? name = some w → w = v := by
  constructor
  · intro hsame
    constructor
    · intro name ht
      unfold NameTable.has at *
      rwa [hsame name] at ht
    · intro name v w hv hw
      rw [hsame name, hv] at hw
      exact (Option.some.inj hw).symm
  · rintro ⟨hadded, hchanged⟩ name
    cases hv : s.vars.get? name with
    | some v =>
      have ht := hkept name (by simp [NameTable.has, hv])
      obtain ⟨w, hw⟩ := Option.isSome_iff_exists.mp ht
      rw [hw, hchanged name v w hv hw]
    | none =>
      cases hw : t.vars.get? name with
      | none => rfl
      | some w =>
        have hs := hadded name (by simp [NameTable.has, hw])
        simp [NameTable.has, hv] at hs

/-- A call whose body is interrupted puts no variable back. What catches the interrupt goes on in
the state in which the body was left, where the parameters are still variables. The caller has its
variables again exactly if each parameter was a variable before, no other name was added either, and
no variable of the caller has another value. -/
theorem interrupted_call_vars (l : Limits) (f : UserFunction) (p : Passing) (s s₁ t : State)
    (e : Interrupt) (hset : p.setting f s = .ok () s₁)
    (hbody : l.evaluator.functionBody f s₁ = .error e t) :
    (∀ (β : Type) (r : Run β) (handler : Interrupt → Run β) (s₀ : State),
      Within e (l.evaluator.callPassing f p) s r s₀ → tryCatch r handler s₀ = handler e t) ∧
    (∀ name ∈ p.params f, t.vars.has name = true) ∧
    (s.SameVars t ↔
      (∀ name ∈ p.params f, s.vars.has name = true) ∧
      (∀ name, t.vars.has name = true → name ∉ p.params f → s.vars.has name = true) ∧
      ∀ name v w, s.vars.get? name = some v → t.vars.get? name = some w → w = v) := by
  have hkept : ∀ name, name ∈ p.params f ∨ s.vars.has name = true → t.vars.has name = true :=
    fun name hname => Limits.has_of_functionBody hbody (Passing.has_of_setting hset hname)
  refine ⟨?_, fun name hname => hkept name (.inl hname), ?_⟩
  · intro β r handler s₀ hwithin
    exact tryCatch_error (hwithin.error (Evaluator.callPassing_error hset hbody))
  · rw [State.sameVars_iff fun name hname => hkept name (.inr hname), ← and_assoc]
    refine and_congr_left fun _ => ⟨fun hadded => ?_, fun ⟨hparams, hothers⟩ name ht => ?_⟩
    · exact ⟨fun name hname => hadded name (hkept name (.inl hname)),
        fun name ht _ => hadded name ht⟩
    · by_cases hname : name ∈ p.params f
      · exact hparams name hname
      · exact hothers name ht hname

/-- The function `f(p)` sets `x` to two and then divides by zero. -/
def UserFunction.dividing : UserFunction :=
  let literal (i : Int) : Node := { kind := .literal, value := .int i }
  let x : Node := { kind := .identifier, value := .str "x" }
  let quotient : Node :=
    { kind := .binary, value := .str "/", children := [literal 1, literal 0] }
  ⟨["p"], [{ kind := .assignment, children := [x, literal 2] },
    { kind := .returnValue, children := [quotient] }]⟩

/-- After the call `f(5)` the parameter is still a variable, which it was not before. -/
theorem interrupted_call_vars_of_division :
    let f := UserFunction.dividing
    let p := Passing.arguments [.int 5]
    let s : State := { vars := [("x", .int 1)], functions := [("f", f)] }
    ∃ s₁ e t, p.setting f s = .ok () s₁ ∧
      (Limits.mk 9 9).evaluator.functionBody f s₁ = .error e t ∧
      (∀ handler, tryCatch ((Limits.mk 9 9).evaluator.callPassing f p) handler s = handler e t) ∧
      t.vars.has "p" = true ∧ ¬ s.SameVars t := by
  intro f p s
  refine ⟨_, _, _, rfl, rfl, ?_⟩
  obtain ⟨hcaught, hparams, hsame⟩ := interrupted_call_vars ⟨9, 9⟩ f p s _ _ _ rfl rfl
  refine ⟨fun handler => hcaught _ _ handler _ .here, hparams "p" (by decide), fun h => ?_⟩
  have hbefore := (hsame.mp h).1 "p" (by decide)
  revert hbefore
  decide

/-- Where `f(5)` fails in the body of a handler, the handler sees two in `x`, which was one before
the call, and five in the parameter `p`, which was no variable. -/
theorem caught_call_keeps_assignment :
    let f := UserFunction.dividing
    let s : State := { vars := [("x", .int 1)], functions := [("f", f)] }
    let five : Node := { kind := .literal, value := .int 5 }
    let call : Node := { kind := .call, value := .str "f", children := [five] }
    let x : Node := { kind := .identifier, value := .str "x" }
    let declare : Node := { kind := .declaration, value := .str "seen", children := [x] }
    let block (n : Node) : Node := { kind := .block, children := [n] }
    let attempt : Node :=
      { kind := .tryCatch, value := .str "e", children := [block call, block declare] }
    ∃ t, (Limits.mk 9 9).evaluator.execute attempt s = .ok .null t ∧
      t.vars.get? "seen" = some (.int 2) ∧ t.vars.get? "x" = some (.int 2) ∧
      t.vars.get? "p" = some (.int 5) := by
  intro f s five call x declare block attempt
  exact ⟨_, rfl, rfl, rfl, rfl⟩

end Luuqad

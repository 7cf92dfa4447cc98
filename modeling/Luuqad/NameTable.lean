/-!
# Tables by name

A table from names to values that keeps the order in which names were first put.
-/

namespace Luuqad

/-- A table from names to values, in the order of first use. -/
abbrev NameTable (α : Type) := List (String × α)

namespace NameTable

variable {α : Type}

def get? (t : NameTable α) (name : String) : Option α := t.lookup name

def has (t : NameTable α) (name : String) : Bool := (t.get? name).isSome

/-- Put a value under a name: in the place of the old one, or at the end. -/
def put (t : NameTable α) (name : String) (value : α) : NameTable α :=
  match t with
  | [] => [(name, value)]
  | (n, v) :: rest => if n = name then (n, value) :: rest else (n, v) :: put rest name value

def names (t : NameTable α) : List String := t.map (·.1)

theorem get?_cons (n : String) (v : α) (rest : NameTable α) (other : String) :
    get? ((n, v) :: rest) other = if other = n then some v else rest.get? other := by
  unfold get?
  by_cases hother : other = n
  · simp [hother]
  · rw [List.lookup_cons, beq_false_of_ne hother, if_neg hother]

theorem get?_put (t : NameTable α) (name other : String) (value : α) :
    (t.put name value).get? other = if other = name then some value else t.get? other := by
  induction t with
  | nil => exact get?_cons name value [] other
  | cons entry rest ih =>
    obtain ⟨n, v⟩ := entry
    unfold put
    by_cases hn : n = name
    · rw [if_pos hn, get?_cons, get?_cons, hn]
      by_cases hother : other = name
      · rw [if_pos hother, if_pos hother]
      · rw [if_neg hother, if_neg hother, if_neg hother]
    · rw [if_neg hn, get?_cons, get?_cons, ih]
      by_cases hother : other = n
      · rw [if_pos hother, if_pos hother, if_neg (hother ▸ hn)]
      · rw [if_neg hother, if_neg hother]

/-- What is found is what was put or what was there before. -/
theorem get?_put_cases {t : NameTable α} {name other : String} {value found : α}
    (h : (t.put name value).get? other = some found) :
    found = value ∨ t.get? other = some found := by
  rw [get?_put] at h
  by_cases hother : other = name
  · rw [if_pos hother, Option.some.injEq] at h
    exact .inl h.symm
  · rw [if_neg hother] at h
    exact .inr h

theorem has_put (t : NameTable α) (name other : String) (value : α) :
    (t.put name value).has other = true ↔ other = name ∨ t.has other = true := by
  unfold has
  rw [get?_put]
  by_cases hother : other = name
  · simp [hother]
  · simp [hother]

end NameTable

end Luuqad

import Luuqad.Failure

/-!
# Signatures

Which arguments a function takes, and how the arguments of a call are bound to its parameters.
Named arguments are checked first, then the number of positional ones, then whether anything is
missing.
-/

namespace Luuqad

/-- The parameters of a function. -/
structure Signature where
  required : List String := []
  optional : List String := []
  /-- Whether any number of further positional arguments is taken. -/
  anyPositional : Bool := false
  /-- Whether any further named arguments are taken. -/
  anyNamed : Bool := false
deriving Repr, Inhabited

/-- The arguments of a call, bound to parameters. -/
structure Bound (α : Type) where
  /-- Arguments by parameter, in the order of the parameters. -/
  params : List (String × α)
  rest : List α
  named : List (String × α)

namespace Signature

def names (s : Signature) : List String := s.required ++ s.optional

def bindNamed {α : Type} (s : Signature) :
    List (String × α) → Bound α → Except ArgumentFault (Bound α)
  | [], b => .ok b
  | (name, value) :: more, b =>
    if s.names.contains name then
      if (b.params.lookup name).isSome then .error (.repeated name)
      else s.bindNamed more { b with params := b.params ++ [(name, value)] }
    else if s.anyNamed then s.bindNamed more { b with named := b.named ++ [(name, value)] }
    else .error (.unexpected name)

def bind {α : Type} (s : Signature) (positional : List α) (named : List (String × α)) :
    Except ArgumentFault (Bound α) := do
  let most := s.names.length
  let b ← s.bindNamed named ⟨s.names.zip positional, positional.drop most, []⟩
  if !s.anyPositional && most < positional.length then
    throw (.tooMany s.required.length most positional.length)
  let missing := s.required.filter fun n => (b.params.lookup n).isNone
  if !missing.isEmpty then throw (.missing missing)
  return b

end Signature

end Luuqad

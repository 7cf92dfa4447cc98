import Luuqad.Number.Complex
import Luuqad.Number.Power
import Luuqad.Number.Read
import Luuqad.Value.Arithmetic

/-!
# The calculator

Formulas of whole numbers: sums and differences, products and quotients, signs, powers, parentheses.
A sign binds more loosely than a power to its right and more tightly than one to its left, and
powers group to the right. `scan` cuts a text into symbols, `read` builds the formula,
`Formula.value` computes it.
-/

namespace Luuqad.Calculator

inductive Operation
  | add | sub | mul | div | floorDiv | pow
deriving DecidableEq, Repr, Inhabited

inductive Symbol
  | number (n : Nat)
  | operation (o : Operation)
  | opening
  | closing
deriving DecidableEq, Repr, Inhabited

inductive Formula
  | number (n : Nat)
  /-- A pair of parentheses with nothing between them. -/
  | empty
  | negated (f : Formula)
  | signed (f : Formula)
  | joined (o : Operation) (left right : Formula)
deriving DecidableEq, Repr, Inhabited

def isFormulaChar (c : Char) : Bool := "0123456789+-*/() ".toList.contains c

/-- The number that a run of digits writes; a number other than zero does not start with a zero. -/
def literal? (digits : List Char) : Option Nat :=
  if digits.all (· == '0') then some 0
  else if digits.head? == some '0' || Number.digitLimit < digits.length then none
  else some (Number.valueOf digits)

def scan (cs : List Char) : Option (List Symbol) :=
  match cs with
  | [] => some []
  | ' ' :: rest => scan rest
  | '(' :: rest => (scan rest).map (.opening :: ·)
  | ')' :: rest => (scan rest).map (.closing :: ·)
  | '+' :: rest => (scan rest).map (.operation .add :: ·)
  | '-' :: rest => (scan rest).map (.operation .sub :: ·)
  | '*' :: '*' :: rest => (scan rest).map (.operation .pow :: ·)
  | '*' :: rest => (scan rest).map (.operation .mul :: ·)
  | '/' :: '/' :: rest => (scan rest).map (.operation .floorDiv :: ·)
  | '/' :: rest => (scan rest).map (.operation .div :: ·)
  | c :: rest =>
    if c.isDigit then do
      let n ← literal? (c :: rest.takeWhile Char.isDigit)
      return .number n :: (← scan (rest.dropWhile Char.isDigit))
    else none
termination_by cs.length
decreasing_by
  all_goals simp only [List.length_cons]
  all_goals first
    | omega
    | exact Nat.lt_succ_of_le (List.dropWhile_suffix _).length_le

/-- Reads a formula from the front of the symbols. -/
abbrev Reader := List Symbol → Option (Formula × List Symbol)

/-- Operands joined from left to right by operations that `joins` accepts, after the first. -/
def chain (joins : Operation → Bool) (operand : Reader) : Nat → Formula → Reader
  | 0, _, _ => none
  | n + 1, left, .operation o :: rest =>
    if joins o then do
      let (right, rest) ← operand rest
      chain joins operand n (.joined o left right) rest
    else some (left, .operation o :: rest)
  | _ + 1, left, rest => some (left, rest)

/-- An atom with signs before it and powers after it. -/
def signed (atom : Reader) : Nat → Reader
  | 0, _ => none
  | n + 1, .operation .add :: rest => do
    let (f, rest) ← signed atom n rest
    return (.signed f, rest)
  | n + 1, .operation .sub :: rest => do
    let (f, rest) ← signed atom n rest
    return (.negated f, rest)
  | n + 1, symbols => do
    let (base, rest) ← atom symbols
    match rest with
    | .operation .pow :: rest =>
      let (exponent, rest) ← signed atom n rest
      return (.joined .pow base exponent, rest)
    | rest => return (base, rest)

/-- Products and quotients. -/
def product (bound : Nat) (atom : Reader) : Reader := fun symbols => do
  let (first, rest) ← signed atom bound symbols
  chain (fun o => o = .mul ∨ o = .div ∨ o = .floorDiv) (signed atom bound) bound first rest

/-- Sums and differences. -/
def sum (bound : Nat) (atom : Reader) : Reader := fun symbols => do
  let (first, rest) ← product bound atom symbols
  chain (fun o => o = .add ∨ o = .sub) (product bound atom) bound first rest

/-- A number, or parentheses nested less than `depth` deep. -/
def atom (bound : Nat) : Nat → Reader
  | 0, _ => none
  | _ + 1, .number n :: rest => some (.number n, rest)
  | depth + 1, .opening :: rest =>
    match rest with
    | .closing :: rest => some (.empty, rest)
    | rest => do
      let (f, rest) ← sum bound (atom bound depth) rest
      match rest with
      | .closing :: rest => return (f, rest)
      | _ => none
  | _, _ => none

def nestingLimit : Nat := 200

def depthLimit : Nat := 2900

def Formula.depth : Formula → Nat
  | number _ | empty => 1
  | negated f | signed f => f.depth + 1
  | joined _ left right => max left.depth right.depth + 1

/-- Read a formula that takes up all symbols. -/
def readAll (symbols : List Symbol) : Option Formula :=
  let bound := symbols.length + 1
  match sum bound (atom bound (nestingLimit + 1)) symbols with
  | some (f, []) => if f.depth ≤ depthLimit then some f else none
  | _ => none

def read (text : List Char) : Option Formula := do readAll (← scan text)

/-- What a formula can amount to. -/
inductive Result
  /-- The value of an empty pair of parentheses. -/
  | unit
  | real (n : Num)
  | complex (z : Number.Complex)
deriving Inhabited

def isZero : Num → Bool
  | .int i => i == 0
  | .float x => x == 0

/-- A power of a double. A negative one has only complex powers if the exponent is not whole. -/
def floatPower? (base exponent : Float) : Option Result :=
  if Number.isFinite base && Number.isFinite exponent && base < 0 && exponent != exponent.floor then
    ((Number.Complex.ofFloat base).power? (.ofFloat exponent)).map .complex
  else (Number.power? base exponent).map fun x => .real (.float x)

def power? : Num → Num → Option Result
  | .int a, .int b =>
    if 0 ≤ b then (Number.wholePower? a b.toNat).map fun i => .real (.int i)
    else do floatPower? (← Number.ofInt? a) (← Number.ofInt? b)
  | a, b => do floatPower? (← a.toFloat.toOption) (← b.toFloat.toOption)

/-- A quotient rounded down. -/
def floorDiv? : Num → Num → Option Num
  | .int a, .int b => some (.int (a.fdiv b))
  | a, b => do return .float (Number.flooredQuotient (← a.toFloat.toOption) (← b.toFloat.toOption))

def Operation.onNumbers (o : Operation) (a b : Num) : Option Result :=
  match o with
  | add => (a.add b).toOption.map .real
  | sub => (a.sub b).toOption.map .real
  | mul => (a.mul b).toOption.map .real
  | div => if isZero b then none else (a.div b).toOption.map .real
  | floorDiv => if isZero b then none else (floorDiv? a b).map .real
  | pow => power? a b

/-- The result of an operation on complex numbers; no quotient of them is rounded down. -/
def Operation.onComplex (o : Operation) (a b : Number.Complex) : Option Number.Complex :=
  match o with
  | add => some (a.add b)
  | sub => some (a.sub b)
  | mul => some (a.mul b)
  | div => a.div? b
  | floorDiv => none
  | pow => a.power? b

/-- Whether a number can count repetitions. -/
def isCount (i : Int) : Bool := -(Number.pow2 63 : Int) ≤ i && i < Number.pow2 63

def Result.complex? : Result → Option Number.Complex
  | unit => none
  | real n => n.toFloat.toOption.map .ofFloat
  | complex z => some z

/-- The result of an operation. Empty parentheses can be joined to each other and repeated. -/
def Operation.apply : Operation → Result → Result → Option Result
  | add, .unit, .unit => some .unit
  | mul, .unit, .real (.int i) | mul, .real (.int i), .unit =>
    if isCount i then some .unit else none
  | o, .real a, .real b => o.onNumbers a b
  | o, a, b => do return .complex (← o.onComplex (← a.complex?) (← b.complex?))

def Result.negated? : Result → Option Result
  | unit => none
  | real (.int i) => some (.real (.int (-i)))
  | real (.float x) => some (.real (.float (-x)))
  | complex z => some (.complex z.neg)

/-- A result that can have a sign, as it is. -/
def Result.signed? : Result → Option Result
  | unit => none
  | r => some r

/-- The value of a formula; nothing if some operation has no result. -/
def Formula.value : Formula → Option Result
  | number n => some (.real (.int n))
  | empty => some .unit
  | negated f => do (← f.value).negated?
  | signed f => do (← f.value).signed?
  | joined o left right => do o.apply (← left.value) (← right.value)

/-- The value that a variable is bound to for a result. `Value` has no form for complex numbers, so
there is none for them, and they can be shown (`Result.text?`) but not kept. -/
def Result.toValue? : Result → Option Value
  | unit => some .unit
  | real (.int i) => some (.int i)
  | real (.float x) => some (.float x)
  | complex _ => none

/-- A result as the language shows it, unless it has too many digits. -/
def Result.text? : Result → Option String
  | unit => some "()"
  | real (.int i) => (Number.writeInt i).toOption
  | real (.float x) => some (Number.writeFloat x)
  | complex z => some z.text

def calculate (text : List Char) : Option Result := do (← read text).value

end Luuqad.Calculator

import Luuqad.Value.Compare

/-!
# Arithmetic

Whole numbers are unbounded. As soon as a double takes part, whole numbers are converted to doubles,
which fails if they are out of range. A quotient is always a double; of whole numbers it is the
nearest one to the exact quotient. A remainder has the sign of the divisor.
-/

namespace Luuqad.Num

/-- The nearest double, if it is in range. -/
def toFloat : Num → Except Failure Float
  | float x => .ok x
  | int i => (Number.ofInt? i).elim (.error .integerTooLargeForFloat) .ok

def toValue (h : Heap) : Num → Value × Heap
  | int i => (.int i, h)
  | float x => h.double x

/-- An operation that keeps whole numbers whole. -/
def lift (ints : Int → Int → Int) (floats : Float → Float → Float) :
    Num → Num → Except Failure Num
  | int i, int j => .ok (int (ints i j))
  | a, b => do return float (floats (← a.toFloat) (← b.toFloat))

def add : Num → Num → Except Failure Num := lift (· + ·) (· + ·)

def sub : Num → Num → Except Failure Num := lift (· - ·) (· - ·)

def mul : Num → Num → Except Failure Num := lift (· * ·) (· * ·)

/-- Remainder by a number other than zero. -/
def mod : Num → Num → Except Failure Num := lift Int.fmod Number.flooredRemainder

/-- Quotient by a number other than zero. -/
def div : Num → Num → Except Failure Num
  | int i, int j => (Number.divide? i j).elim (.error .quotientTooLargeForFloat) (.ok ∘ float)
  | a, b => do return float ((← a.toFloat) / (← b.toFloat))

/-- The whole part, toward zero. -/
def truncate : Num → Except Failure Int
  | int i => .ok i
  | float x =>
    match Number.decode x with
    | .nan => .error .nanToInteger
    | .infinite _ => .error .infinityToInteger
    | .finite d => .ok d.truncate

def floor : Num → Except Failure Int
  | int i => .ok i
  | float x =>
    match Number.decode x with
    | .nan => .error .nanToInteger
    | .infinite _ => .error .infinityToInteger
    | .finite d => .ok d.floor

def ceil : Num → Except Failure Int
  | int i => .ok i
  | float x =>
    match Number.decode x with
    | .nan => .error .nanToInteger
    | .infinite _ => .error .infinityToInteger
    | .finite d => .ok d.ceil

end Luuqad.Num

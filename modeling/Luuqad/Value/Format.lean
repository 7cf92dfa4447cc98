import Luuqad.Number.Fixed
import Luuqad.Value.Compare
import Luuqad.Value.Written

/-!
# Filling a format

The remainder operator on a text fills it with values. A directive starts with a percent sign, then
come a key in parentheses, flags, a width, a precision and a letter that says how the value is
written:

* `s`, `r` and `a` for any value: as text, in quotes, in quotes and with ASCII characters only;
* `d`, `i` and `u` for numbers in decimal, `o`, `x` and `X` for whole numbers in base 8 and 16;
* `e`, `f` and `g`, and their capitals, for doubles;
* `c` for a character or its code.

Two percent signs write one.
-/

namespace Luuqad.Format

/-- The values that are still to be written. -/
inductive Supply
  /-- One value, and whether it was written already. -/
  | one (v : Value) (used : Bool)
  | several (rest : List Value)
deriving Inhabited

/-- What filling a format keeps track of. -/
structure Filling where
  /-- The part of the format that is still to be read. -/
  rest : List Char
  supply : Supply

/-- Steps of filling a format. -/
abbrev Fill := EStateM Failure Filling

def nextChar : Fill Char := do
  match (← get).rest with
  | [] => throw .formatIncomplete
  | c :: rest =>
    modify ({ · with rest })
    return c

def nextValue : Fill Value := do
  match (← get).supply with
  | .one v false =>
    modify ({ · with supply := .one v true })
    return v
  | .several (v :: rest) =>
    modify ({ · with supply := .several rest })
    return v
  | _ => throw .formatArgumentsMissing

/-- How a value is to be written. -/
structure Directive where
  left : Bool := false
  signed : Bool := false
  spaced : Bool := false
  alternate : Bool := false
  zero : Bool := false
  width : Option Nat := none
  precision : Option Nat := none
deriving Inhabited

/-- The key and what follows its closing parenthesis; `depth` parentheses are open. -/
def splitKey (depth : Nat) : List Char → Option (List Char × List Char)
  | [] => none
  | c :: rest =>
    let depth := if c == ')' then depth - 1 else if c == '(' then depth + 1 else depth
    if depth == 0 then some ([], rest)
    else (splitKey depth rest).map fun (key, rest) => (c :: key, rest)

/-- The value that a key names. -/
def lookUp (h : Heap) (mapping : Value) (key : String) : Except Failure Value :=
  match mapping with
  | .object r => ((h.entries r).get? (.str key)).elim (.error (.missingKey key)) .ok
  | _ => .error (.badListIndex .str)

/-- Whether values can be looked up by key. -/
def isMapping : Value → Bool
  | .list _ | .object _ => true
  | _ => false

/-- A key in parentheses, if there is one. -/
def key (h : Heap) (values : Value) : Fill Unit := do
  match (← get).rest with
  | '(' :: rest =>
    if !isMapping values then throw .formatNeedsMapping
    match splitKey 1 rest with
    | none => throw .formatIncompleteKey
    | some (k, rest) =>
      match lookUp h values (String.ofList k) with
      | .ok v => set (⟨rest, .one v false⟩ : Filling)
      | .error f => throw f
  | _ => return

def flag? (d : Directive) : Char → Option Directive
  | '-' => some { d with left := true }
  | '+' => some { d with signed := true }
  | ' ' => some { d with spaced := true }
  | '#' => some { d with alternate := true }
  | '0' => some { d with zero := true }
  | _ => none

/-- The flags that some characters start with, and the rest. -/
def flags (d : Directive) : List Char → Directive × List Char
  | [] => (d, [])
  | c :: rest =>
    match flag? d c with
    | some d => flags d rest
    | none => (d, c :: rest)

/-- Whether a character is one of the ten digits. -/
def isFigure (c : Char) : Bool := '0' ≤ c && c ≤ '9'

def figures (cs : List Char) : Nat := cs.foldl (fun n c => n * 10 + (c.toNat - '0'.toNat)) 0

/-- A number, or a star for the next value; the number may be missing. -/
def size (limit : Nat) (tooBig tooBigValue : Failure) : Fill (Option Int) := do
  match (← get).rest with
  | '*' :: rest =>
    modify ({ · with rest })
    match (← nextValue).int? with
    | some i =>
      if i < -(limit : Int) - 1 ∨ (limit : Int) < i then throw tooBigValue
      return some i
    | none => throw .formatNeedsStar
  | cs =>
    let digits := cs.takeWhile isFigure
    if digits.isEmpty then return none
    modify ({ · with rest := cs.dropWhile isFigure })
    if limit < figures digits then throw tooBig
    return some (figures digits)

def precision : Fill (Option Nat) := do
  match (← get).rest with
  | '.' :: rest =>
    modify ({ · with rest })
    let p ← size (Number.pow2 31 - 1) .formatPrecisionTooBig .precisionTooLong
    return some ((p.map Int.toNat).getD 0)
  | _ => return none

/-- A directive up to its letter, and the letter. A length letter before it is passed. -/
def directive (h : Heap) (values : Value) : Fill (Directive × Char) := do
  if (← get).rest.isEmpty then throw .formatIncomplete
  key h values
  let (d, rest) := flags {} (← get).rest
  modify ({ · with rest })
  let d ← match ← size (Number.pow2 63 - 1) .formatWidthTooBig .rangeTooLong with
    | none => pure d
    | some w => pure { d with left := d.left || decide (w < 0), width := some w.natAbs }
  let d := { d with precision := ← precision }
  let c ← nextChar
  let c ← if c == 'h' || c == 'l' || c == 'L' then nextChar else pure c
  return (d, c)

/-- A text in a field. `sign` and `lead` stand before the fill of zeros and after one of blanks. -/
def Directive.field (d : Directive) (zeros : Bool) (sign lead body : List Char) : List Char :=
  let padding := d.width.getD 0 - (sign.length + lead.length + body.length)
  if d.left then sign ++ lead ++ body ++ List.replicate padding ' '
  else if zeros then sign ++ lead ++ List.replicate padding '0' ++ body
  else List.replicate padding ' ' ++ sign ++ lead ++ body

/-- The sign of a number in a field. -/
def Directive.sign (d : Directive) (negative : Bool) : List Char :=
  if negative then ['-'] else if d.signed then ['+'] else if d.spaced then [' '] else []

/-- A text in a field, cut to the precision. -/
def Directive.textField (d : Directive) (cs : List Char) : List Char :=
  d.field false [] [] (d.precision.elim cs cs.take)

/-- The whole number that a decimal directive writes for a value. -/
def wholeOf (letter : Char) (v : Value) : Except Failure Int :=
  match v.num? with
  | some (.int i) => .ok i
  | some (.float x) =>
    match Number.decode x with
    | .nan => .error .nanToInteger
    | .infinite _ => .error .infinityToInteger
    | .finite d => .ok d.truncate
  | none => .error (.formatNeedsNumber letter v.typeName)

def Directive.wholeField (d : Directive) (letter : Char) (v : Value) :
    Except Failure (List Char) := do
  let (negative, lead, digits) ←
    if letter == 'd' || letter == 'i' || letter == 'u' then do
      let i ← wholeOf letter v
      let _ ← Number.writeInt i
      pure (decide (i < 0), [], Number.digitsOf i.natAbs)
    else
      match v.int? with
      | none => throw (.formatNeedsInteger letter v.typeName)
      | some i =>
        let digits := Nat.toDigits (if letter == 'o' then 8 else 16) i.natAbs
        let lead := if d.alternate then ['0', letter] else []
        pure (decide (i < 0), lead, if letter == 'X' then digits.map Char.toUpper else digits)
  let digits := Number.padDigits (d.precision.getD 0) digits
  return d.field d.zero (d.sign negative) lead digits

def doubleOf (v : Value) : Except Failure Float :=
  match v.num? with
  | some (.float x) => .ok x
  | some (.int i) => (Number.ofInt? i).elim (.error .integerTooLargeForFloat) .ok
  | none => .error (.floatRequired v.typeName)

/-- The size of a double as a letter writes it. -/
def Directive.double (d : Directive) (letter : Char) (x : Float) : List Char :=
  let places := d.precision.getD 6
  match Number.decode x with
  | .nan => "nan".toList
  | .infinite _ => "inf".toList
  | .finite y =>
    if letter == 'f' || letter == 'F' then Number.writeFixed d.alternate y places
    else if letter == 'e' || letter == 'E' then Number.writeScientific d.alternate y places
    else Number.writeGeneral d.alternate y places

/-- Whether the sign of a double is shown. -/
def isNegative (x : Float) : Bool :=
  match Number.decode x with
  | .nan => false
  | .infinite negative => negative
  | .finite y => y.negative

def Directive.doubleField (d : Directive) (letter : Char) (v : Value) :
    Except Failure (List Char) := do
  let x ← doubleOf v
  let body := d.double letter x
  let body := if letter == 'E' || letter == 'F' || letter == 'G' then body.map Char.toUpper
    else body
  return d.field d.zero (d.sign (isNegative x)) [] body

/-- The character that a value is, or whose code it is. -/
def charOf (v : Value) : Except Failure Char :=
  match v, v.int? with
  | .str s, _ =>
    match s.toList with
    | [c] => .ok c
    | _ => .error .formatNeedsChar
  | _, some i => if 0 ≤ i ∧ i < 0x110000 then .ok (Char.ofNat i.toNat)
      else .error .formatCharOutOfRange
  | _, none => .error .formatNeedsChar

/-- A value in a field, as the letter says. `index` is the place of the letter. -/
def Directive.write (d : Directive) (h : Heap) (letter : Char) (index : Nat) (v : Value) :
    Except Failure (List Char) :=
  match letter with
  | 's' => do return d.textField (← v.text h).toList
  | 'r' => do return d.textField (← v.shown h).toList
  | 'a' => do return d.textField (Text.asciiOnly (← v.shown h).toList)
  | 'd' | 'i' | 'u' | 'o' | 'x' | 'X' => d.wholeField letter v
  | 'e' | 'E' | 'f' | 'F' | 'g' | 'G' => d.doubleField letter v
  | 'c' => do return d.field false [] [] [← charOf v]
  | _ => .error (.formatUnknown letter index)

/-- Fill the rest of a format of `length` characters, with at most `fuel` directives. -/
def fillRest (h : Heap) (values : Value) (length : Nat) : Nat → Fill (List Char)
  | 0 => return []
  | fuel + 1 => do
    let plain := (← get).rest.takeWhile (· != '%')
    match (← get).rest.dropWhile (· != '%') with
    | [] =>
      modify ({ · with rest := [] })
      return plain
    | _ :: '%' :: rest =>
      modify ({ · with rest })
      return plain ++ '%' :: (← fillRest h values length fuel)
    | _ :: rest =>
      modify ({ · with rest })
      let (d, letter) ← directive h values
      let index := length - (← get).rest.length - 1
      let v ← nextValue
      match d.write h letter index v with
      | .ok written => return plain ++ written ++ (← fillRest h values length fuel)
      | .error f => throw f

/-- The values that a format is filled with. -/
def supplyOf : Value → Supply
  | .tuple t => .several t.toList
  | v => .one v false

/-- Whether all values were written. A list or an object need not be. -/
def Supply.isSpent (values : Value) : Supply → Bool
  | .one _ used => used || isMapping values
  | .several rest => rest.isEmpty

def fill (h : Heap) (format : String) (values : Value) : Except Failure String :=
  let cs := format.toList
  match fillRest h values cs.length (cs.length + 1) ⟨cs, supplyOf values⟩ with
  | .error f _ => .error f
  | .ok written s =>
    if s.supply.isSpent values then .ok (String.ofList written) else .error .formatArgumentsLeft

end Luuqad.Format

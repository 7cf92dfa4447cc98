import Luuqad.Chance
import Luuqad.Folder
import Luuqad.Heap.Action
import Luuqad.NameTable
import Luuqad.Value.Compare

/-!
# The state of a program

Everything that a running program reads and changes. All variables live in one table; types and
constants are recorded by name. A run ends with a value, or is interrupted: by a fault, by one of
the three statements that leave a loop, a round or a function, or by the user.
-/

namespace Luuqad

structure UserFunction where
  params : List String
  body : List Node
deriving Inhabited

/-- The type that a name was declared with. -/
inductive DeclaredType
  /-- A declared type that assignments have to keep to. -/
  | checked (k : TokenKind)
  /-- A type that was only noted. -/
  | noted (label : String)
deriving DecidableEq, Repr, Inhabited

def DeclaredType.label : DeclaredType → String
  | checked k => k.label
  | noted label => label

/-- What a user enters when a line is asked for. -/
inductive Entry
  | line (text : String)
  /-- The user wants to stop what is going on. -/
  | interrupt
deriving DecidableEq, Repr, Inhabited

/-- The lines of a text as entries. A line feed ends a line, and the last line needs none. -/
def Entry.lines (text : String) : List Entry :=
  let lines := Text.lines text
  (if lines.getLast? = some "" then lines.dropLast else lines).map .line

structure State where
  vars : NameTable Value := []
  types : NameTable DeclaredType := []
  constants : List String := []
  /-- Functions that the program defined; they hide those of the library. -/
  functions : NameTable UserFunction := []
  /-- Class definitions, each an object on the heap. -/
  classes : NameTable Ref := []
  heap : Heap := {}
  /-- What was printed so far. -/
  out : String := ""
  /-- What is still to be read. -/
  input : List Entry := []
  folder : Folder := {}
  chance : Chance := {}
deriving Inhabited

inductive Interrupt
  | fault (f : Fault)
  | breaking
  | continuing
  | returning (v : Value)
  | stopped
  /-- The run went deeper, or on for longer, than its limits allow. -/
  | exhausted
deriving DecidableEq, Inhabited

/-- What a program sees of an interrupt that it catches. It does not catch that the user stops it or
that it is exhausted. -/
def Interrupt.caught? : Interrupt → Option String
  | fault f => some f.message
  | breaking | continuing | returning _ => some ""
  | stopped | exhausted => none

abbrev Run := EStateM Interrupt State

namespace Run

def fail {α : Type} (f : Failure) : Run α := throw (.fault (.failure f))

/-- Fail with an error of the language. -/
def raise {α : Type} (c : Cause) : Run α := throw (.fault c.fault)

/-- Fail with an error of the language at the place of a node. -/
def raiseAt {α : Type} (n : Node) (c : Cause) : Run α := throw (.fault (c.faultAt n.line n.column))

def act {α : Type} (a : Action α) : Run α := fun s =>
  let h := s.heap
  let s := { s with heap := {} }
  match a h with
  | .ok v h => .ok v { s with heap := h }
  | .error f h => .error (.fault f) { s with heap := h }

def text (v : Value) : Run String := act (Action.text v)

def isTrue (v : Value) : Run Bool := return v.isTrue (← get).heap

/-- A value as a name. Names are texts; any other value that could be a key stands for its text. -/
def nameOf (v : Value) : Run String :=
  match v, v.unhashable? with
  | .str s, _ => return s
  | _, some t => fail (.unhashable t)
  | v, none => text v

def print (s : String) : Run Unit := modify fun st => { st with out := st.out ++ s }

def setVariable (name : String) (v : Value) : Run Unit :=
  modify fun s => { s with vars := s.vars.put name v }

/-- Read a line, after a prompt. -/
def readLine (prompt : String) : Run String := do
  print prompt
  match (← get).input with
  | [] => fail .endOfInput
  | e :: rest =>
    modify ({ · with input := rest })
    match e with
    | .line text => return text
    | .interrupt => throw .stopped

/-- A number below `n`, by chance. -/
def draw (n : Nat) : Run Nat := do
  let (k, chance) := (← get).chance.below n
  modify ({ · with chance })
  return k

def drawUnit : Run Float := do
  let (x, chance) := (← get).chance.unit
  modify ({ · with chance })
  return x

end Run

end Luuqad

import Luuqad.Number.Read

/-!
# The words of a command line

A command line is a row of words. Words that start with a hyphen are options: one letter after one
hyphen, where letters may be bundled, or a name after two hyphens, which may be cut short as long as
it stays unique. The value of an option is the rest of its word, what follows an equals sign, or the
next word. One word that is no option names a file. After two hyphens alone no word is an option.
-/

namespace Luuqad

inductive Flag
  | help | version | file | exampleNumber | interactive | command
deriving DecidableEq, Repr, Inhabited

namespace Flag

def spellings : List (String × Flag) := [
  ("-h", help), ("--help", help), ("-v", version), ("--version", version), ("-f", file),
  ("--file", file), ("-e", exampleNumber), ("--example", exampleNumber), ("-i", interactive),
  ("--interactive", interactive), ("-c", command), ("--command", command)]

def ofSpelling? (s : String) : Option Flag := spellings.lookup s

def ofLetter? (c : Char) : Option Flag := ofSpelling? (String.ofList ['-', c])

def takesValue : Flag → Bool
  | file | exampleNumber | command => true
  | help | version | interactive => false

end Flag

/-- What a command line asks for. -/
structure Options where
  version : Bool := false
  file : Option String := none
  exampleNumber : Option Int := none
  interactive : Bool := false
  command : Option String := none
  /-- The word that is no option. -/
  name : Option String := none
deriving DecidableEq, Repr, Inhabited

/-- Why a command line is not carried out. -/
inductive Refusal
  | help
  /-- It cannot be understood. -/
  | misuse
deriving DecidableEq, Repr, Inhabited

namespace Options

/-- What a word is. -/
inductive Word
  | plain
  /-- Two hyphens alone. -/
  | divider
  /-- The letter of an option, and the rest of the word. -/
  | letter (f : Flag) (rest : List Char)
  /-- The name of an option, and the value in the same word. -/
  | named (f : Flag) (value : Option String)
  | unknown
deriving DecidableEq, Repr, Inhabited

def isNegativeNumber (text : List Char) : Bool :=
  let isDigit (c : Char) : Bool := (Text.decimalValue? c).isSome
  match text with
  | '-' :: body =>
    let body := if body.getLast? = some '\n' then body.dropLast else body
    let fraction := (body.dropWhile isDigit).drop 1
    (!body.isEmpty && body.all isDigit) ||
      ((body.dropWhile isDigit).head? = some '.' && !fraction.isEmpty && fraction.all isDigit)
  | _ => false

/-- The text before and after the first equals sign. -/
def splitEquals (text : List Char) : List Char × Option String :=
  match text.dropWhile (· != '=') with
  | [] => (text, none)
  | _ :: value => (text.takeWhile (· != '='), some (String.ofList value))

/-- What a word after two hyphens is: the option that it names, in full or cut short. -/
def classifyName (text : List Char) : Except Refusal (Option Word) :=
  let (start, value) := splitEquals text
  match Flag.ofSpelling? (String.ofList start) with
  | some f => .ok (some (.named f value))
  | none =>
    match Flag.spellings.filter fun (s, _) => start.isPrefixOf s.toList with
    | [] => .ok none
    | [(_, f)] => .ok (some (.named f value))
    | _ => .error .misuse

/-- What a word is, before two hyphens alone. A word with a hyphen that is no option counts as plain
if it is a number or has a space in it. -/
def classify (word : String) : Except Refusal Word := do
  let text := word.toList
  let option ← match text with
    | '-' :: '-' :: _ => classifyName text
    | '-' :: c :: rest => .ok ((Flag.ofLetter? c).map (.letter · rest))
    | _ => .ok (some .plain)
  return option.getD (if isNegativeNumber text || text.contains ' ' then .plain else .unknown)

def classifyAll : List String → Except Refusal (List (String × Word))
  | [] => .ok []
  | word :: rest =>
    if word = "--" then .ok ((word, .divider) :: rest.map (·, .plain))
    else do
      let w ← classify word
      return (word, w) :: (← classifyAll rest)

/-- What the options in one word say. -/
structure Bundle where
  /-- Options with their values. -/
  settings : List (Flag × String) := []
  /-- The last option, if its value is still to come. -/
  pending : Option Flag := none
  /-- Whether the bundle ends in a letter that is no option. -/
  useless : Bool := false
deriving DecidableEq, Repr, Inhabited

/-- What an option at the end of its word says. -/
def alone (f : Flag) : Bundle :=
  if f.takesValue then { pending := some f } else { settings := [(f, "")] }

/-- What the letter of an option and the rest of the word say: the value, after an equals sign or
without one, or further letters. -/
def bundle (f : Flag) : List Char → Except Refusal Bundle
  | [] => .ok (alone f)
  | c :: rest =>
    if f.takesValue then
      .ok { settings := [(f, String.ofList (if c = '=' then rest else c :: rest))] }
    else if c = '=' ∨ c = '-' then .error .misuse
    else
      match Flag.ofLetter? c with
      | none => .ok { settings := [(f, "")], useless := true }
      | some g => do
        let b ← bundle g rest
        return { b with settings := (f, "") :: b.settings }

/-- What the name of an option and the value in the same word say. -/
def byName (f : Flag) : Option String → Except Refusal Bundle
  | none => .ok (alone f)
  | some value => if f.takesValue then .ok { settings := [(f, value)] } else .error .misuse

def set (o : Options) : Flag × String → Except Refusal Options
  | (.help, _) => .error .help
  | (.version, _) => .ok { o with version := true }
  | (.interactive, _) => .ok { o with interactive := true }
  | (.file, value) => .ok { o with file := some value }
  | (.command, value) => .ok { o with command := some value }
  | (.exampleNumber, value) =>
    match Number.readInt value with
    | .ok i => .ok { o with exampleNumber := some i }
    | .error _ => .error .misuse

/-- Where the reader is with the word that names a file. -/
inductive Naming
  | awaited
  /-- The word before was the name. -/
  | justDone
  | done
deriving DecidableEq, Repr, Inhabited

/-- Where the reader is after an option. -/
def Naming.next : Naming → Naming
  | awaited => awaited
  | justDone | done => done

/-- Carry out a bundle; a value that is still to come is the next word, if that is plain. -/
def apply (o : Options) (b : Bundle) (next : Option (String × Word)) : Except Refusal Options :=
  match b.pending, next with
  | none, _ => b.settings.foldlM set o
  | some f, some (value, .plain) => (b.settings ++ [(f, value)]).foldlM set o
  | some _, _ => .error .misuse

/-- Read words one after the other. `skip` says that the value of the option before is next. A word
that has no use makes the line a misuse in the end, but not before all options are read. -/
def readWords (o : Options) (naming : Naming) (useless skip : Bool) :
    List (String × Word) → Except Refusal Options
  | [] => if useless then .error .misuse else .ok o
  | (text, w) :: rest =>
    let option (b : Bundle) : Except Refusal Options := do
      let o ← apply o b rest.head?
      readWords o naming.next (useless || b.useless) b.pending.isSome rest
    if skip then readWords o naming useless false rest
    else
      match w with
      | .plain =>
        if naming = .awaited then
          readWords { o with name := some text } .justDone useless false rest
        else readWords o .done true false rest
      | .divider => readWords o naming (useless || naming = .done) false rest
      | .unknown => readWords o naming.next true false rest
      | .letter f more => do option (← bundle f more)
      | .named f value => do option (← byName f value)

def read (words : List String) : Except Refusal Options := do
  readWords {} .awaited false false (← classifyAll words)

end Options

end Luuqad

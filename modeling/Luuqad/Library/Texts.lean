import Luuqad.Library.Lists
import Luuqad.Text.Case
import Luuqad.Text.Search

/-!
# Texts

The library functions on texts. A text is a sequence of characters; places are counted in
characters.
-/

namespace Luuqad.Library.Texts

/-- The text that an argument has to be. -/
def text (c : Complaint) (v : Value) : Action (List Char) :=
  match v with
  | .str s => pure s.toList
  | _ => .raise (.complaint c)

def ofChars (cs : List Char) : Value := .str (String.ofList cs)

def split (s delimiter : Value) : Action Value := do
  let cs ← text .notText s
  let d ← text .delimiterNotText delimiter
  if d.isEmpty then Action.fail .emptySeparator
  Action.newList ((Text.pieces d cs).map ofChars).toArray

def contains (s part : Value) : Action Value := do
  let cs ← text .notText s
  return .bool (Text.contains (← text .substringNotText part) cs)

def endsWith (s ending : Value) : Action Value := do
  let cs ← text .notText s
  return .bool ((← text .suffixNotText ending).isSuffixOf cs)

def startsWith (s beginning : Value) : Action Value := do
  let cs ← text .notText s
  return .bool ((← text .prefixNotText beginning).isPrefixOf cs)

/-- Replace occurrences of a text, as `how` says. -/
def replacing (how : List Char → List Char → List Char → List Char)
    (s target replacement : Value) : Action Value := do
  let cs ← text .notText s
  let t ← text .targetNotText target
  let r ← text .replacementNotText replacement
  return ofChars (how t r cs)

/-- Replace the first occurrence of a text. -/
def replace : Value → Value → Value → Action Value := replacing Text.replaceFirst

def replaceAll : Value → Value → Value → Action Value := replacing Text.replaceAll

def join (separator items : Value) : Action Value := do
  let glue ← text .notText separator
  let parts ← (← Action.items (← Lists.list .secondNotList items)).toList.mapM (text .itemNotText)
  return ofChars (Text.join glue parts)

/-- What lies between two places, or from a place to the end. -/
def slice (s start stop : Value) : Action Value := do
  let cs ← text .notText s
  let first ← integer .startNotNumber start
  let last ← match stop with
    | .null => pure (cs.length : Int)
    | v => integer .endNotNumber v
  return ofChars (Library.slice cs first last)

def upper (s : Value) : Action Value := return ofChars (Text.upper (← text .notText s))

def lower (s : Value) : Action Value := return ofChars (Text.lower (← text .notText s))

def strip (s : Value) : Action Value := return ofChars (Text.strip (← text .notText s))

/-- The place of the first occurrence of a text, or minus one. -/
def find (s part : Value) : Action Value := do
  let cs ← text .notText s
  let p ← text .substringNotText part
  return .int ((Text.find? p cs).elim (-1) fun i => i)

end Luuqad.Library.Texts

import Luuqad.Library.Choice
import Luuqad.Library.Objects
import Luuqad.Library.Texts

/-!
# Calling the library

Arguments are bound to the parameters of a function, then the function runs. Two functions on lists
call another function on each item, which may be one of the program's own.
-/

namespace Luuqad

/-- An argument: a value, or a function that the program defined. -/
inductive Argument
  | value (v : Value)
  | user (f : UserFunction)
deriving Inhabited

def Argument.toValue : Argument → Value
  | value v => v
  | user _ => .null

namespace Builtin

def bindArguments {α : Type} (f : Builtin) (positional : List α) (named : List (String × α)) :
    Run (Bound α) :=
  match f.signature.bind positional named with
  | .ok b => pure b
  | .error e => Run.fail (.arguments f.fullName e)

def param (b : Bound Value) (name : String) : Value := (b.params.lookup name).getD .null

/-- Run a function that calls no other. -/
def run (f : Builtin) (b : Bound Value) : Run Value :=
  let p := param b
  match f with
  | print => do
    let s ← Run.act (Action.reading ((b.params.lookup "message").getD (.str "")).display)
    Run.print (s ++ "\n")
    return .str s
  | readLine => do
    let prompt ← Run.text ((b.params.lookup "prompt").getD (.str ""))
    return .str (← Run.readLine prompt)
  | typeOf => return .str (p "value").kindName
  | toInteger => Run.act (Action.ofExcept (Library.toInteger (p "value")))
  | toFloat => Run.act (Library.toDouble (p "value"))
  | toText => return .str (← Run.act (Action.reading (p "value").display))
  | toBool => return Library.toBool (p "value")
  | makeList => Run.act (Action.newList b.rest.toArray)
  | makeObject => Run.act (Action.newObject (b.named.map fun (n, v) => (.str n, v)))
  | floor => Run.act (Library.floor (p "value"))
  | ceiling => Run.act (Library.ceiling (p "value"))
  | length => Run.act (Library.length (p "value"))
  | choose => Library.choose b.rest
  | range => Run.act (Library.range b.rest)
  | listPush => Run.act (Library.Lists.push (p "lst") (p "item"))
  | listPop => Run.act (Library.Lists.pop (p "lst"))
  | listLength => Run.act (Library.Lists.length (p "lst"))
  | listConcat => Run.act (Library.Lists.concat (p "lst1") (p "lst2"))
  | listContains => Run.act (Library.Lists.contains (p "lst") (p "item"))
  | listCopy => Run.act (Library.Lists.copy (p "lst"))
  | listClear => Run.act (Library.Lists.clear (p "lst"))
  | listGet => Run.act (Library.Lists.itemAt (p "lst") (p "index"))
  | listSet => Run.act (Library.Lists.setItem (p "lst") (p "index") (p "value"))
  | listReverse => Run.act (Library.Lists.reverse (p "lst"))
  | listSort => Run.act (Library.Lists.sort (p "lst"))
  | listSlice => Run.act (Library.Lists.slice (p "lst") (p "start") (p "end"))
  | listFind => Run.act (Library.Lists.find (p "lst") (p "item"))
  | listFilter | listMap => return .null
  | objectGet => Run.act (Library.Objects.valueAt (p "obj") (p "key"))
  | objectSet => Run.act (Library.Objects.setValue (p "obj") (p "key") (p "value"))
  | objectKeys => Run.act (Library.Objects.keys (p "obj"))
  | objectHas => Run.act (Library.Objects.has (p "obj") (p "key"))
  | objectRemove => Run.act (Library.Objects.remove (p "obj") (p "key"))
  | objectMerge => Run.act (Library.Objects.merge (p "obj1") (p "obj2"))
  | objectCopy => Run.act (Library.Objects.copy (p "obj"))
  | objectClear => Run.act (Library.Objects.clear (p "obj"))
  | objectValues => Run.act (Library.Objects.values (p "obj"))
  | objectEntries => Run.act (Library.Objects.pairs (p "obj"))
  | textSplit => Run.act (Library.Texts.split (p "s") (p "delimiter"))
  | textContains => Run.act (Library.Texts.contains (p "s") (p "substring"))
  | textEndsWith => Run.act (Library.Texts.endsWith (p "s") (p "suffix"))
  | textStartsWith => Run.act (Library.Texts.startsWith (p "s") (p "prefix"))
  | textReplace => Run.act (Library.Texts.replace (p "s") (p "target") (p "replacement"))
  | textReplaceAll => Run.act (Library.Texts.replaceAll (p "s") (p "target") (p "replacement"))
  | textJoin => Run.act (Library.Texts.join (p "separator") (p "items"))
  | textSlice => Run.act (Library.Texts.slice (p "s") (p "start") (p "end"))
  | textUpper => Run.act (Library.Texts.upper (p "s"))
  | textLower => Run.act (Library.Texts.lower (p "s"))
  | textStrip => Run.act (Library.Texts.strip (p "s"))
  | textFind => Run.act (Library.Texts.find (p "s") (p "substring"))

/-- Call a function with one argument. The two functions that call others need more. -/
def callOne (f : Builtin) (v : Value) : Run Value := do f.run (← f.bindArguments [v] [])

end Builtin

namespace Library

/-- What the program can do besides calling the library: run one of its own functions on a value. -/
abbrev Callback := UserFunction → Value → Run Value

/-- The function that an argument has to be. -/
def function (callback : Callback) : Argument → Run (Value → Run Value)
  | .user f => return callback f
  | .value (.function f) => return f.callOne
  | .value _ => Run.raise (.complaint .secondNotFunction)

/-- Go through the items of a list from place `i` on, with the items as they are when it is their
turn; at most `fuel` items. -/
def eachItem (r : Ref) (step : Value → Run (List Value)) (i : Nat) :
    Nat → Run (List Value)
  | 0 => throw .exhausted
  | fuel + 1 => do
    match ((← get).heap.items r)[i]? with
    | none => return []
    | some v =>
      let here ← step v
      return here ++ (← eachItem r step (i + 1) fuel)

/-- A new list of what a function makes of each item, as `keep` says. -/
def throughItems (callback : Callback) (limit : Nat) (keep : Value → Value → Run (List Value))
    (b : Bound Argument) (listName functionName : String) : Run Value := do
  let lst := ((b.params.lookup listName).map Argument.toValue).getD .null
  let r ← Run.act (Lists.list .notList lst)
  let f ← function callback ((b.params.lookup functionName).getD (.value .null))
  let items ← eachItem r (fun v => do keep v (← f v)) 0 limit
  Run.act (Action.newList items.toArray)

end Library

/-- Call a library function. `callback` runs the program's own functions, and no loop goes on for
more than `limit` rounds. -/
def Builtin.call (callback : Library.Callback) (limit : Nat) (f : Builtin)
    (positional : List Argument) (named : List (String × Argument)) : Run Value := do
  let b ← f.bindArguments positional named
  match f with
  | .listFilter =>
    let keep (v answer : Value) : Run (List Value) := do
      return if ← Run.isTrue answer then [v] else []
    Library.throughItems callback limit keep b "lst" "condition_func"
  | .listMap =>
    Library.throughItems callback limit (fun _ answer => return [answer]) b "lst" "transform_func"
  | f =>
    f.run ⟨b.params.map fun (n, a) => (n, a.toValue), b.rest.map Argument.toValue,
      b.named.map fun (n, a) => (n, a.toValue)⟩

end Luuqad

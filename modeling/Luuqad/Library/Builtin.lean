import Luuqad.Library.Signature

/-!
# The functions of the library

The functions that come with the language, the names under which a program reaches them, and their
parameters. What they do is in the modules beside this one.
-/

namespace Luuqad

/-- The functions that come with the language. -/
inductive Builtin
  | print | readLine | typeOf | toInteger | toFloat | toText | toBool | makeList | makeObject
  | floor | ceiling | length | choose | range
  | listPush | listPop | listLength | listConcat | listContains | listCopy | listClear | listGet
  | listSet | listReverse | listSort | listFilter | listSlice | listMap | listFind
  | objectGet | objectSet | objectKeys | objectHas | objectRemove | objectMerge | objectCopy
  | objectClear | objectValues | objectEntries
  | textSplit | textContains | textEndsWith | textStartsWith | textReplace | textReplaceAll
  | textJoin | textSlice | textUpper | textLower | textStrip | textFind
deriving DecidableEq, Repr, Inhabited

namespace Builtin

def all : List Builtin := [
  print, readLine, typeOf, toInteger, toFloat, toText, toBool, makeList, makeObject,
  floor, ceiling, length, choose, range,
  listPush, listPop, listLength, listConcat, listContains, listCopy, listClear, listGet,
  listSet, listReverse, listSort, listFilter, listSlice, listMap, listFind,
  objectGet, objectSet, objectKeys, objectHas, objectRemove, objectMerge, objectCopy,
  objectClear, objectValues, objectEntries,
  textSplit, textContains, textEndsWith, textStartsWith, textReplace, textReplaceAll,
  textJoin, textSlice, textUpper, textLower, textStrip, textFind]

/-- The name of a function in messages. -/
def label : Builtin → String
  | print => "qor"
  | readLine => "gelin"
  | typeOf => "nooc"
  | toInteger => "abn"
  | toFloat => "jajab"
  | toText => "qoraal"
  | toBool => "bool"
  | makeList => "teed"
  | makeObject => "walax"
  | floor => "daji"
  | ceiling => "kor"
  | length => "dherer"
  | choose => "xul"
  | range => "baaxad"
  | listPush => "list_push"
  | listPop => "list_pop"
  | listLength => "list_length"
  | listConcat => "list_concat"
  | listContains => "list_contains"
  | listCopy => "list_copy"
  | listClear => "list_clear"
  | listGet => "list_get"
  | listSet => "list_set"
  | listReverse => "list_reverse"
  | listSort => "list_sort"
  | listFilter => "list_filter"
  | listSlice => "list_jar"
  | listMap => "list_map"
  | listFind => "list_muuji"
  | objectGet => "object_get"
  | objectSet => "object_set"
  | objectKeys => "object_keys"
  | objectHas => "object_has"
  | objectRemove => "object_remove"
  | objectMerge => "object_merge"
  | objectCopy => "object_copy"
  | objectClear => "object_clear"
  | objectValues => "object_values"
  | objectEntries => "object_entries"
  | textSplit => "string_split"
  | textContains => "string_contains"
  | textEndsWith => "string_endswith"
  | textStartsWith => "string_startswith"
  | textReplace => "string_replace"
  | textReplaceAll => "string_replace_all"
  | textJoin => "string_join"
  | textSlice => "string_jar"
  | textUpper => "string_upper"
  | textLower => "string_lower"
  | textStrip => "string_strip"
  | textFind => "string_find"

/-- The name of a function in messages about its arguments. -/
def fullName (f : Builtin) : String := "SoplangBuiltins." ++ f.label

def ofLabel? (label : String) : Option Builtin := all.find? (·.label == label)

def signature : Builtin → Signature
  | print => { optional := ["message"] }
  | readLine => { optional := ["prompt"] }
  | typeOf | toInteger | toFloat | toText | toBool | floor | ceiling | length =>
    { required := ["value"] }
  | makeList | choose | range => { anyPositional := true }
  | makeObject => { anyNamed := true }
  | listPush | listContains | listFind => { required := ["lst", "item"] }
  | listPop | listLength | listCopy | listClear | listReverse | listSort =>
    { required := ["lst"] }
  | listConcat => { required := ["lst1", "lst2"] }
  | listGet => { required := ["lst", "index"] }
  | listSet => { required := ["lst", "index", "value"] }
  | listFilter => { required := ["lst", "condition_func"] }
  | listSlice => { required := ["lst", "start", "end"] }
  | listMap => { required := ["lst", "transform_func"] }
  | objectGet | objectHas | objectRemove => { required := ["obj", "key"] }
  | objectSet => { required := ["obj", "key", "value"] }
  | objectKeys | objectCopy | objectClear | objectValues | objectEntries =>
    { required := ["obj"] }
  | objectMerge => { required := ["obj1", "obj2"] }
  | textSplit => { required := ["s", "delimiter"] }
  | textContains | textFind => { required := ["s", "substring"] }
  | textEndsWith => { required := ["s", "suffix"] }
  | textStartsWith => { required := ["s", "prefix"] }
  | textReplace | textReplaceAll => { required := ["s", "target", "replacement"] }
  | textJoin => { required := ["separator", "items"] }
  | textSlice => { required := ["s", "start"], optional := ["end"] }
  | textUpper | textLower | textStrip => { required := ["s"] }

/-- The functions that a program calls by name. -/
def functions : List (String × Builtin) := [
  ("qor", print), ("gelin", readLine), ("nooc", typeOf), ("abn", toInteger), ("jajab", toFloat),
  ("qoraal", toText), ("bool", toBool), ("teed", makeList), ("walax", makeObject),
  ("daji", floor), ("kor", ceiling), ("dherer", length), ("xul", choose), ("baaxad", range)]

def objectMethods : List (String × Builtin) := [
  ("fure", objectKeys), ("leeyahay", objectHas), ("tir", objectRemove), ("kudar", objectMerge),
  ("nuqul", objectCopy), ("nadiifi", objectClear), ("qiime", objectValues),
  ("lamaane", objectEntries)]

def listMethods : List (String × Builtin) := [
  ("kasaar", listPop), ("dherer", listLength), ("kudar", listConcat),
  ("leeyahay", listContains), ("nuqul", listCopy), ("nadiifi", listClear), ("rog", listReverse),
  ("habee", listSort), ("shaandhee", listFilter), ("jar", listSlice), ("aaddin", listMap),
  ("muuji", listFind)]

def textMethods : List (String × Builtin) := [
  ("qeybi", textSplit), ("leeyahay", textContains), ("dhamaad", textEndsWith),
  ("bilow", textStartsWith), ("beddel", textReplace), ("beddel_dhammaan", textReplaceAll),
  ("kudar", textJoin), ("jar", textSlice), ("xarafaha_weyn", textUpper),
  ("xarfaha_yaryar", textLower), ("masax", textStrip), ("raadi", textFind)]

end Builtin

end Luuqad

import Luuqad.Failure
import Luuqad.Text.Search

/-!
# The working folder

The files that a program can read, by their paths. A file is found under the path that it is known
by, and otherwise the path is followed part by part from the working folder: a point stays where it
is, two points go up, a name goes down. What lies outside the folder is unknown, and no other file
is found there.
-/

namespace Luuqad

/-- The files that can be read, by their paths. -/
structure Folder where
  files : List (String × String) := []
deriving Inhabited

namespace Folder

def parts (path : String) : List String := (Text.pieces ['/'] path.toList).map String.ofList

def entries (f : Folder) : List (List String × String) :=
  f.files.map fun (path, text) => ((parts path).filter fun p => p != "" && p != ".", text)

/-- Where a path has led so far. -/
inductive Place
  /-- A folder, by its parts. -/
  | folder (here : List String)
  | file (text : String)
  /-- A folder outside the working folder. -/
  | outside
deriving Inhabited

/-- The greatest length of a part of a path, in bytes. -/
def partLimit : Nat := 255

/-- The greatest length of a path, in bytes. -/
def pathLimit : Nat := 4095

/-- What lies under given parts. -/
def look? (f : Folder) (here : List String) : Option Place :=
  match f.entries.lookup here with
  | some text => some (.file text)
  | none => if f.entries.any fun e => here.isPrefixOf e.1 then some (.folder here) else none

/-- Follow the rest of a path. -/
def follow (f : Folder) (path : String) : List String → Place → Except Failure Place
  | [], place => .ok place
  | _ :: _, .file _ => .error (.notDirectory path)
  | part :: rest, .outside =>
    if part = "" ∨ part = "." ∨ part = ".." then f.follow path rest .outside
    else .error (.fileMissing path)
  | part :: rest, .folder here =>
    if part = "" ∨ part = "." then f.follow path rest (.folder here)
    else if part = ".." then
      f.follow path rest (if here.isEmpty then .outside else .folder here.dropLast)
    else if partLimit < part.utf8ByteSize then .error (.nameTooLong path)
    else
      match f.look? (here ++ [part]) with
      | some place => f.follow path rest place
      | none => .error (.fileMissing path)

/-- The place that a path leads to. -/
def find (f : Folder) (path : String) : Except Failure Place :=
  if path.toList.contains '\x00' then .error .nulInPath
  else if path = "" then .error (.fileMissing path)
  else if pathLimit < path.utf8ByteSize then .error (.nameTooLong path)
  else
    match f.files.lookup path with
    | some text => .ok (.file text)
    | none => f.follow path (parts path) (if path.startsWith "/" then .outside else .folder [])

/-- Line ends of any kind as single line feeds. -/
def plainLines : List Char → List Char
  | '\r' :: '\n' :: rest => '\n' :: plainLines rest
  | '\r' :: rest => '\n' :: plainLines rest
  | c :: rest => c :: plainLines rest
  | [] => []

def read (f : Folder) (path : String) : Except Failure String :=
  match f.find path with
  | .error e => .error e
  | .ok (.file text) => .ok (String.ofList (plainLines text.toList))
  | .ok (.folder _) | .ok .outside => .error (.isDirectory path)

def isFile (f : Folder) (path : String) : Bool :=
  match f.find path with
  | .ok (.file _) => true
  | _ => false

def isFolder (f : Folder) (path : String) : Bool :=
  match f.find path with
  | .ok (.folder _) | .ok .outside => true
  | _ => false

/-- Names of what lies directly in a folder below the working folder. -/
def listing (f : Folder) (here : List String) : List String :=
  (f.entries.filterMap fun (parts, _) =>
    if here.isPrefixOf parts then (parts.drop here.length).head? else none).eraseDups

end Folder

end Luuqad

import Luuqad.Error.Catalogue
import Luuqad.Error.Complaint

/-!
# Errors of the language

A `Cause` says what went wrong, with the data that its message shows. A `Diagnostic` is a cause with
the place where it arose, if that is known. Its message comes from the catalogue.
-/

namespace Luuqad

inductive Cause
  -- reading a text
  | unexpectedChar (c : Char)
  | unterminatedString
  | unterminatedComment
  -- reading tokens
  | expectedToken (expected found : String)
  | unexpectedToken (found : String)
  -- kinds of values
  | typeMismatch (name value expected : String)
  | notAnObject (property : String)
  | notAList
  | badIndex
  | noMethods (method kind : String)
  | badLoopBounds
  | complaint (c : Complaint)
  -- running
  | undefinedVariable (name : String)
  | undefinedFunction (name : String)
  | divisionByZero
  | moduloByZero
  | indexOutOfRange (index : String)
  | propertyNotFound (property : String)
  | methodNotFound (method kind : String)
  | missingArgument (function expected provided : String)
  | parentNotFound (parent : String)
  | breakOutsideLoop
  | continueOutsideLoop
  | returnOutsideFunction
  | unknownNode (kind : String)
  | unknownOperator (operator : String)
  | constantReassigned (name : String)
  | malformed
  | other (text : String)
  -- bad values
  | badValue (v : BadValue)
  -- importing
  | fileNotFound (file : String)
  | importFailed (file error : String)
deriving DecidableEq, Repr, Inhabited

/-- The classes of errors that a program can tell apart from outside. -/
inductive ErrorClass
  | lexer | parser | type | value | name | importing | runtime
deriving DecidableEq, Repr, Inhabited

/-- The family whose catalogue a class uses. -/
def ErrorClass.family : ErrorClass → Family
  | lexer => .lexer
  | parser => .parser
  | type => .type
  | importing => .importing
  | value | name | runtime => .runtime

def valueErrorText (text : String) : String := "Khalad qiimaha ah (Value Error): " ++ text

def nameErrorText (name : String) : String :=
  "Khalad magaca ah (Name Error): '" ++ name ++ "' ma jiro"

namespace Cause

def errorClass : Cause → ErrorClass
  | unexpectedChar _ | unterminatedString | unterminatedComment => .lexer
  | expectedToken .. | unexpectedToken _ => .parser
  | typeMismatch .. | notAnObject _ | notAList | badIndex | noMethods .. | badLoopBounds
  | complaint _ => .type
  | badValue _ => .value
  | fileNotFound _ | importFailed .. => .importing
  | _ => .runtime

/-- The code of a cause in the catalogue of its family, or its text if it has none. -/
def code : Cause → String
  | unexpectedChar _ => "unexpected_char"
  | unterminatedString => "unterminated_string"
  | unterminatedComment => "unterminated_comment"
  | expectedToken .. => "expected_token"
  | unexpectedToken _ => "unexpected_token"
  | typeMismatch .. => "type_mismatch"
  | notAnObject _ => "property_access"
  | notAList => "index_access"
  | badIndex => "invalid_operand"
  | noMethods .. => "invalid_method"
  | badLoopBounds => "invalid_for_loop"
  | complaint c => c.text
  | undefinedVariable _ => "undefined_variable"
  | undefinedFunction _ => "undefined_function"
  | divisionByZero => "division_by_zero"
  | moduloByZero => "modulo_by_zero"
  | indexOutOfRange _ => "index_out_of_range"
  | propertyNotFound _ => "property_not_found"
  | methodNotFound .. => "method_not_found"
  | missingArgument .. => "missing_argument"
  | parentNotFound _ => "parent_class_not_found"
  | breakOutsideLoop => "break_outside_loop"
  | continueOutsideLoop => "continue_outside_loop"
  | returnOutsideFunction => "return_outside_function"
  | unknownNode _ => "unknown_node_type"
  | unknownOperator _ => "unknown_operator"
  | constantReassigned _ => "constant_reassignment"
  | malformed => "invalid_syntax"
  | other text => text
  | badValue v => valueErrorText v.text
  | fileNotFound _ => "file_not_found"
  | importFailed .. => "import_error"

/-- The data that the message of a cause shows, by slot. -/
def data : Cause → List (String × String)
  | unexpectedChar c => [("char", c.toString)]
  | expectedToken expected found => [("expected", expected), ("found", found)]
  | unexpectedToken found => [("token", found)]
  | typeMismatch name value expected =>
    [("var_name", name), ("value", value), ("expected_type", expected)]
  | notAnObject property => [("prop", property)]
  | badIndex => [("operator", "[]"), ("type_name", "abn")]
  | noMethods method kind => [("method", method), ("type_name", kind)]
  | undefinedVariable name | undefinedFunction name | constantReassigned name =>
    [("name", name)]
  | indexOutOfRange index => [("index", index)]
  | propertyNotFound property => [("prop_name", property)]
  | methodNotFound method kind => [("method_name", method), ("type_name", kind)]
  | missingArgument function expected provided =>
    [("func_name", function), ("expected", expected), ("provided", provided)]
  | parentNotFound parent => [("parent_name", parent)]
  | unknownNode kind => [("node_type", kind)]
  | unknownOperator operator => [("operator", operator)]
  | fileNotFound file => [("module", file)]
  | importFailed file error => [("filename", file), ("error", error)]
  | _ => []

end Cause

/-- A cause with the place where it arose. -/
structure Diagnostic where
  cause : Cause
  line : Option Nat := none
  column : Option Nat := none
deriving DecidableEq, Repr, Inhabited

def Diagnostic.message (d : Diagnostic) : String :=
  (d.cause.errorClass.family.errorMessage d.cause.code (d.line.map toString)
    (d.column.map toString) (d.cause.data.map fun (n, t) => (n, .ok t))).toOption.getD ""

/-- An error of the language, or a failure of an operation on values. -/
inductive Fault
  | error (d : Diagnostic)
  | failure (f : Failure)
deriving DecidableEq, Repr, Inhabited

def Fault.message : Fault → String
  | error d => d.message
  | failure f => f.message

def Cause.fault (c : Cause) : Fault := .error ⟨c, none, none⟩

def Cause.faultAt (c : Cause) (line column : Option Nat) : Fault := .error ⟨c, line, column⟩

end Luuqad

/-!
# Kinds of nodes
-/

namespace Luuqad

/-- What a node of a program tree stands for. -/
inductive NodeKind
  | program | declaration | function | call | conditional | switch | loop | whileLoop | block
  | binary | unary | literal | identifier | classDefinition | importFile | tryCatch
  | breakLoop | continueLoop | returnValue
  | list | object | property | methodCall | index | assignment
deriving DecidableEq, Repr, Inhabited

namespace NodeKind

def all : List NodeKind := [
  program, declaration, function, call, conditional, switch, loop, whileLoop, block,
  binary, unary, literal, identifier, classDefinition, importFile, tryCatch,
  breakLoop, continueLoop, returnValue, list, object, property, methodCall, index, assignment]

def label : NodeKind → String
  | program => "PROGRAM"
  | declaration => "VARIABLE_DECLARATION"
  | function => "FUNCTION_DEFINITION"
  | call => "FUNCTION_CALL"
  | conditional => "IF_STATEMENT"
  | switch => "SWITCH_STATEMENT"
  | loop => "LOOP_STATEMENT"
  | whileLoop => "WHILE_STATEMENT"
  | block => "BLOCK"
  | binary => "BINARY_OPERATION"
  | unary => "UNARY_OPERATION"
  | literal => "LITERAL"
  | identifier => "IDENTIFIER"
  | classDefinition => "CLASS_DEFINITION"
  | importFile => "IMPORT_STATEMENT"
  | tryCatch => "TRY_CATCH"
  | breakLoop => "BREAK_STATEMENT"
  | continueLoop => "CONTINUE_STATEMENT"
  | returnValue => "RETURN_STATEMENT"
  | list => "LIST_LITERAL"
  | object => "OBJECT_LITERAL"
  | property => "PROPERTY_ACCESS"
  | methodCall => "METHOD_CALL"
  | index => "INDEX_ACCESS"
  | assignment => "ASSIGNMENT"

def ofLabel? (label : String) : Option NodeKind := all.find? (·.label == label)

def shown (k : NodeKind) : String := "NodeType." ++ k.label

end NodeKind

end Luuqad

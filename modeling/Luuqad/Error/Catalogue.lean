import Luuqad.Error.Template

/-!
# The catalogue of messages

Errors belong to five families. Each family has a table of codes and templates; the same code may
mean something in one family and nothing in another.
-/

namespace Luuqad

inductive Family
  | lexer | parser | type | runtime | importing
deriving DecidableEq, Repr, Inhabited

namespace Family

def label : Family → String
  | lexer => "lexer"
  | parser => "parser"
  | type => "type"
  | runtime => "runtime"
  | importing => "import"

def all : List Family := [lexer, parser, runtime, type, importing]

def ofLabel? (label : String) : Option Family := all.find? (·.label == label)

/-- Codes and templates of a family. -/
def table : Family → List (String × Template)
  | lexer => [
    ("unexpected_char", [.text "Xaraf aan la filayn: ", .slot "char"]),
    ("unterminated_string", [.text "Qoraal aan la dhammaystirin"]),
    ("unterminated_comment", [.text "Faallo aan la dhammaystirin"])]
  | parser => [
    ("expected_token", [.text "Waxaa la filayay ", .slot "expected",
      .text ", laakiin waxaa la helay ", .slot "found"]),
    ("unexpected_token", [.text "Calaamad aan la filayn: ", .slot "token"]),
    ("invalid_syntax", [.text "Qoraalka syntax-kiisa waa khalad: ", .slot "detail"]),
    ("missing_paren", [.text "Waxaa ka maqan hal ')'"]),
    ("missing_brace", [.text "Waxaa ka maqan hal '", .brace, .text "'"]),
    ("missing_bracket", [.text "Waxaa ka maqan hal ']'"])]
  | type => [
    ("type_mismatch", [.text "'", .slot "var_name", .text "' waa ", .slot "expected_type",
      .text " laakin qiimaheeda '", .slot "value", .text "' ma ahan ", .slot "expected_type"]),
    ("cannot_convert", [.text "'", .slot "value", .text "' ma badali karo ",
      .slot "target_type"]),
    ("invalid_operand", [.text "Ma isticmaali karo '", .slot "operator",
      .text "' oo ku shaqeeya ", .slot "type_name"]),
    ("property_access", [.text "Ma heli karo astaanta '", .slot "prop",
      .text "' ee qiimaha aan ahayn walax"]),
    ("index_access", [.text "Ma heli karo tirooyinka ee qiimaha aan ahayn teed"]),
    ("invalid_method", [.text "Ma wici karo habka '", .slot "method", .text "' ee qiimaha ",
      .slot "type_name"])]
  | runtime => [
    ("undefined_variable", [.text "Doorsame aan la qeexin: '", .slot "name", .text "'"]),
    ("undefined_function", [.text "Hawl aan la qeexin: '", .slot "name", .text "'"]),
    ("division_by_zero", [.text "Ma suurtogali karto qeybinta eber"]),
    ("modulo_by_zero", [.text "Ma suurtogali karto modulo eber"]),
    ("index_out_of_range", [.text "Tirada fihris-ku waa ka baxsan xadka: ", .slot "index"]),
    ("property_not_found", [.text "Astaanta '", .slot "prop_name",
      .text "' kuma jirto walaxga"]),
    ("method_not_found", [.text "Habka '", .slot "method_name", .text "' kuma jirto ",
      .slot "type_name"]),
    ("missing_argument", [.text "Howsha '", .slot "func_name", .text "' waxay u baahan tahay ",
      .slot "expected", .text " dood, laakiin waxaa la siiyay ", .slot "provided"]),
    ("parent_class_not_found", [.text "Fasalka waalidka '", .slot "parent_name",
      .text "' ma jiro"]),
    ("break_outside_loop", [.text "Jooji waa in ay ku jiraan xalqad"]),
    ("continue_outside_loop", [.text "soco waa in ay ku jiraan xalqad"]),
    ("return_outside_function", [.text "celi waa in ay ku jirto hawl"]),
    ("invalid_for_loop",
      [.text "kuceli billowga, dhamaadka iyo tallaabada waa in ay yihiin abn"]),
    ("unknown_node_type", [.text "Nooca cladka aan la aqoon: ", .slot "node_type"]),
    ("unknown_operator", [.text "Hawl-gal aan la aqoon: ", .slot "operator"]),
    ("constant_reassignment", [.text "Ma bedeli kartid qiimaha doorsamaha madoor '",
      .slot "name", .text "'. Doorsooyin madoor ah ma dib loo qiimeyn karo."])]
  | importing => [
    ("file_not_found", [.text "Faylka '", .slot "module", .text "' ma helin"]),
    ("import_error", [.text "Qalad baa ka jira file-ka ", .slot "filename", .text ": ",
      .slot "error"])]

def template? (f : Family) (code : String) : Option Template := f.table.lookup code

/-- What precedes a text that is no code of the family when it is looked up as one. -/
def unlisted : Family → String
  | lexer => "Khalad markii loo qaybinayay: "
  | parser => "Khalad markii la falanqaynayay: "
  | type => "Khalad nooca ah: "
  | runtime => "Khalad fulinta ah: "
  | importing => "Khalad soo dejinta ah: "

/-- A message of the family: the family, the text, and the place if it is known. A column is shown
only after a line. -/
def render (f : Family) (text : String) (line column : Option String) : String :=
  "Khalad " ++ f.label ++ ": " ++ text ++
    match line with
    | none => ""
    | some l => " sadar " ++ l ++ (match column with
      | none => ""
      | some c => ", goobta " ++ c)

/-- A message for a code or a free text: a code is replaced by its template, filled if there is
anything to fill it with. -/
def format (f : Family) (code : String) (line column : Option String) (params : List Param) :
    Except Failure String :=
  match f.template? code with
  | some t => do return f.render (← t.fillIfAny params) line column
  | none => .ok (f.render code line column)

/-- A message looked up by its code: the template is shown as it stands, whatever the parameters. A
text that is no code is reported as such, without a place. -/
def lookupMessage (f : Family) (code : String) (line column : Option String)
    (params : List Param) : Except Failure String :=
  match f.template? code with
  | some t => f.format t.shown line column params
  | none => .ok (f.unlisted ++ code)

/-- The message of an error: the template of the code, filled with the parameters and the place. -/
def errorMessage (f : Family) (code : String) (line column : Option String)
    (params : List Param) : Except Failure String :=
  match f.template? code with
  | some t => do
    let place : List Param :=
      (column.map fun c => ("position", .ok c)).toList ++
        (line.map fun l => ("line", .ok l)).toList
    f.format (← t.fillIfAny (params ++ place)) line column []
  | none => f.format code line column []

end Family

end Luuqad

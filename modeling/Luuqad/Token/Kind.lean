/-!
# Kinds of tokens

Keywords, operators and punctuation, and the three kinds of token that carry a value of their own.
Every kind has a label, under which it is reported, and a text: the spelling of a keyword or an
operator.
-/

namespace Luuqad

/-- The kinds of tokens. Keywords are named by their spelling. -/
inductive TokenKind
  | door | madoor | hawl | celi | qor | gelin | haddii | haddiiKale | ugudambeyn | dooro | xaalad
  | kuceli | intay | jooji | soco | iskuDay | qabo | kaKeen | fasalka | kaDhaxal | cusub | nafta
  | abn | jajab | qoraal | bool | teed | walax
  | identifier | number | string
  | plus | minus | star | slash | modulo | equal | notEqual | greater | less | greaterEqual
  | lessEqual | and | or | not | assign | comma | colon | semicolon | leftParen | rightParen
  | leftBrace | rightBrace | leftBracket | rightBracket | dot
  | true | false | null | eof
deriving DecidableEq, Repr, Inhabited

namespace TokenKind

def all : List TokenKind := [
  door, madoor, hawl, celi, qor, gelin, haddii, haddiiKale, ugudambeyn, dooro, xaalad,
  kuceli, intay, jooji, soco, iskuDay, qabo, kaKeen, fasalka, kaDhaxal, cusub, nafta,
  abn, jajab, qoraal, bool, teed, walax, identifier, number, string,
  plus, minus, star, slash, modulo, equal, notEqual, greater, less, greaterEqual,
  lessEqual, and, or, not, assign, comma, colon, semicolon, leftParen, rightParen,
  leftBrace, rightBrace, leftBracket, rightBracket, dot, .true, .false, null, eof]

def label : TokenKind → String
  | door => "DOOR"
  | madoor => "MADOOR"
  | hawl => "HAWL"
  | celi => "CELI"
  | qor => "qor"
  | gelin => "GELIN"
  | haddii => "HADDII"
  | haddiiKale => "HADDII_KALE"
  | ugudambeyn => "UGUDAMBEYN"
  | dooro => "DOORO"
  | xaalad => "XAALAD"
  | kuceli => "kuceli"
  | intay => "INTAY"
  | jooji => "JOOJI"
  | soco => "soco"
  | iskuDay => "ISKU_DAY"
  | qabo => "QABO"
  | kaKeen => "KA_KEEN"
  | fasalka => "FASALKA"
  | kaDhaxal => "KA_DHAXAL"
  | cusub => "CUSUB"
  | nafta => "NAFTA"
  | abn => "abn"
  | jajab => "JAJAB"
  | qoraal => "QORAAL"
  | bool => "BOOL"
  | teed => "teed"
  | walax => "WALAX"
  | identifier => "IDENTIFIER"
  | number => "NUMBER"
  | string => "STRING"
  | plus => "PLUS"
  | minus => "MINUS"
  | star => "STAR"
  | slash => "SLASH"
  | modulo => "MODULO"
  | equal => "EQUAL"
  | notEqual => "NOT_EQUAL"
  | greater => "GREATER"
  | less => "LESS"
  | greaterEqual => "GREATER_EQUAL"
  | lessEqual => "LESS_EQUAL"
  | and => "AND"
  | or => "OR"
  | not => "NOT"
  | assign => "ASSIGN"
  | comma => "COMMA"
  | colon => "COLON"
  | semicolon => "SEMICOLON"
  | leftParen => "LEFT_PAREN"
  | rightParen => "RIGHT_PAREN"
  | leftBrace => "LEFT_BRACE"
  | rightBrace => "RIGHT_BRACE"
  | leftBracket => "LEFT_BRACKET"
  | rightBracket => "RIGHT_BRACKET"
  | dot => "DOT"
  | .true => "TRUE"
  | .false => "FALSE"
  | null => "NULL"
  | eof => "EOF"

def ofLabel? (label : String) : Option TokenKind := all.find? (·.label == label)

def shown (k : TokenKind) : String := "TokenType." ++ k.label

def keywords : List (String × TokenKind) := [
  ("door", door), ("madoor", madoor), ("hawl", hawl), ("celi", celi), ("qor", qor),
  ("gelin", gelin), ("haddii", haddii), ("haddii_kale", haddiiKale),
  ("ugudambeyn", ugudambeyn), ("dooro", dooro), ("xaalad", xaalad), ("kuceli", kuceli),
  ("intay", intay), ("jooji", jooji), ("soco", soco), ("isku_day", iskuDay), ("qabo", qabo),
  ("ka_keen", kaKeen), ("fasalka", fasalka), ("ka_dhaxal", kaDhaxal), ("cusub", cusub),
  ("nafta", nafta), ("abn", abn), ("qoraal", qoraal), ("bool", bool), ("teed", teed),
  ("walax", walax), ("run", .true), ("been", .false), ("null", null), ("jajab", jajab)]

/-- The kind of a word: a keyword, or else an identifier. -/
def ofWord (word : String) : TokenKind := (keywords.lookup word).getD identifier

def isTypeName : TokenKind → Bool
  | abn | jajab | qoraal | bool | teed | walax => Bool.true
  | _ => Bool.false

/-- What a kind stands for in a program: a keyword, an operator, or the name of the class. -/
def spelling : TokenKind → String
  | door => "door"
  | madoor => "madoor"
  | hawl => "hawl"
  | celi => "celi"
  | qor => "qor"
  | gelin => "gelin"
  | haddii => "haddii"
  | haddiiKale => "haddii_kale"
  | ugudambeyn => "ugudambeyn"
  | dooro => "dooro"
  | xaalad => "xaalad"
  | kuceli => "kuceli"
  | intay => "intay"
  | jooji => "jooji"
  | soco => "soco"
  | iskuDay => "isku_day"
  | qabo => "qabo"
  | kaKeen => "ka_keen"
  | fasalka => "fasalka"
  | kaDhaxal => "ka_dhaxal"
  | cusub => "cusub"
  | nafta => "nafta"
  | abn => "abn"
  | jajab => "jajab"
  | qoraal => "qoraal"
  | bool => "bool"
  | teed => "teed"
  | walax => "walax"
  | identifier => "IDENTIFIER"
  | number => "NUMBER"
  | string => "STRING"
  | plus => "+"
  | minus => "-"
  | star => "*"
  | slash => "/"
  | modulo => "%"
  | equal => "=="
  | notEqual => "!="
  | greater => ">"
  | less => "<"
  | greaterEqual => ">="
  | lessEqual => "<="
  | and => "&&"
  | or => "||"
  | not => "!"
  | assign => "="
  | comma => ","
  | colon => ":"
  | semicolon => ";"
  | leftParen => "("
  | rightParen => ")"
  | leftBrace => "\x7b"
  | rightBrace => "\x7d"
  | leftBracket => "["
  | rightBracket => "]"
  | dot => "."
  | .true => "true"
  | .false => "false"
  | null => "null"
  | eof => "EOF"

/-- Whether a keyword may be used like a function name. -/
def isFunctionWord : TokenKind → Bool
  | qor | gelin => Bool.true
  | k => k.isTypeName

/-- What a kind is called in an error about an unexpected token. -/
def described : TokenKind → String
  | leftParen => "opening parenthesis '('"
  | rightParen => "closing parenthesis ')'"
  | leftBrace => "opening brace '\x7b'"
  | rightBrace => "closing brace '\x7d'"
  | leftBracket => "opening bracket '['"
  | rightBracket => "closing bracket ']'"
  | comma => "comma ','"
  | dot => "dot '.'"
  | colon => "colon ':'"
  | semicolon => "semicolon ';'"
  | plus => "plus '+'"
  | minus => "minus '-'"
  | star => "multiplication '*'"
  | slash => "division '/'"
  | modulo => "modulo '%'"
  | equal => "equals sign '='"
  | greater => "greater than '>'"
  | less => "less than '<'"
  | greaterEqual => "greater than or equal '>='"
  | lessEqual => "less than or equal '<='"
  | notEqual => "not equal '!='"
  | and => "logical AND '&&'"
  | or => "logical OR '||'"
  | not => "logical NOT '!'"
  | identifier => "variable or function name"
  | string => "string"
  | number => "number"
  | .true => "boolean 'run' (true)"
  | .false => "boolean 'been' (false)"
  | null => "null"
  | door => "keyword 'door'"
  | hawl => "keyword 'hawl' (function)"
  | celi => "keyword 'celi' (return)"
  | qor => "keyword 'qor' (print)"
  | haddii => "keyword 'haddii' (if)"
  | haddiiKale => "keyword 'haddii_kale' (else if)"
  | ugudambeyn => "keyword 'ugudambeyn' (else)"
  | dooro => "keyword 'dooro' (switch)"
  | xaalad => "keyword 'xaalad' (case)"
  | kuceli => "keyword 'kuceli' (for)"
  | intay => "keyword 'intay' (while)"
  | abn => "keyword 'abn' (integer type)"
  | jajab => "keyword 'jajab' (decimal type)"
  | qoraal => "keyword 'qoraal' (string type)"
  | bool => "keyword 'bool' (boolean type)"
  | teed => "keyword 'teed' (list type)"
  | walax => "keyword 'walax' (object type)"
  | k => k.shown

end TokenKind

end Luuqad

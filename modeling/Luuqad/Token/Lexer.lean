import Luuqad.Error.Diagnostic
import Luuqad.Number.Read
import Luuqad.Text.Digit
import Luuqad.Token

/-!
# Reading tokens

A program text is a sequence of tokens between blanks and comments. Each token is the longest that
starts where it stands. After the last token an end token follows, but only if the text goes on with
blanks or comments.
-/

namespace Luuqad.Lexer

def isNameChar (c : Char) : Bool := Text.isWordChar c || c == '_'

def isNumberChar (c : Char) : Bool := Text.isDigit c || c == '.'

/-- Whether a character opens, and closes, a string. -/
def isQuote (c : Char) : Bool := c == '\x22' || c == '\x27'

/-- How many characters a block comment has after its opening, its closing included. -/
def commentLength? : List Char → Option Nat
  | [] => none
  | '*' :: '/' :: _ => some 2
  | _ :: rest => (commentLength? rest).map (· + 1)

/-- The operators and punctuation of two characters. -/
def twoCharOperator? : Char → Char → Option TokenKind
  | '>', '=' => some .greaterEqual
  | '<', '=' => some .lessEqual
  | '!', '=' => some .notEqual
  | '&', '&' => some .and
  | '|', '|' => some .or
  | _, _ => none

/-- The operators and punctuation of one character. -/
def operator? : Char → Option TokenKind
  | '+' => some .plus
  | '-' => some .minus
  | '*' => some .star
  | '/' => some .slash
  | '%' => some .modulo
  | '=' => some .equal
  | '(' => some .leftParen
  | ')' => some .rightParen
  | '\x7b' => some .leftBrace
  | '\x7d' => some .rightBrace
  | '>' => some .greater
  | '<' => some .less
  | '!' => some .not
  | ',' => some .comma
  | ':' => some .colon
  | ';' => some .semicolon
  | '[' => some .leftBracket
  | ']' => some .rightBracket
  | '.' => some .dot
  | _ => none

/-- The number that digits and points write. -/
def readNumber (digits : List Char) : Except Failure Value :=
  if digits.contains '.' then do return .float (← Number.readFloat (String.ofList digits))
  else do return .int (← Number.readInt (String.ofList digits))

/-- The name or keyword that starts with `c`, and how many of the following characters belong to
it. -/
def word (c : Char) (rest : List Char) (p : Position) : Token × Nat :=
  let more := rest.takeWhile isNameChar
  let name := String.ofList (c :: more)
  (.at (.ofWord name) (.str name) p, more.length)

def number (c : Char) (rest : List Char) (p : Position) : Except Fault (Token × Nat) :=
  let more := rest.takeWhile isNumberChar
  match readNumber (c :: more) with
  | .ok v => .ok (.at .number v p, more.length)
  | .error f => .error (.failure f)

def string (c : Char) (rest : List Char) (p : Position) : Except Fault (Token × Nat) :=
  let body := rest.takeWhile (· != c)
  if body.length < rest.length then
    .ok (.at .string (.str (String.ofList body)) p, body.length + 1)
  else
    let endPlace := p.past (c :: rest)
    .error (Cause.unterminatedString.faultAt endPlace.line endPlace.column)

def operator (c : Char) (rest : List Char) (p : Position) : Except Fault (Token × Nat) :=
  match rest.head?.bind (twoCharOperator? c), operator? c with
  | some kind, _ => .ok (.at kind (.str (String.ofList (c :: rest.take 1))) p, 1)
  | none, some kind => .ok (.at kind (.str c.toString) p, 0)
  | none, none => .error ((Cause.unexpectedChar c).faultAt p.line p.column)

/-- The token that starts with `c`, and how many of the following characters belong to it. -/
def lexeme (c : Char) (rest : List Char) (p : Position) : Except Fault (Token × Nat) :=
  if Text.isLetter c then .ok (word c rest p)
  else if Text.isDigit c then number c rest p
  else if isQuote c then string c rest p
  else operator c rest p

/-- The tokens of a text from a place on. `fresh` holds just after a token and at the start of the
text, where the end is not marked by a token. -/
def scan (fresh : Bool) (p : Position) : List Char → Except Fault (List Token)
  | [] => .ok (if fresh then [] else [.at .eof .null p])
  | c :: rest =>
    if Text.isBlank c then scan false (p.after c) rest
    else if c == '/' && rest.head? == some '/' then
      scan false (p.past (c :: rest.takeWhile (· != '\n'))) (rest.dropWhile (· != '\n'))
    else if c == '/' && rest.head? == some '*' then
      match commentLength? (rest.drop 1) with
      | none =>
        let endPlace := p.past (c :: rest)
        .error (Cause.unterminatedComment.faultAt endPlace.line endPlace.column)
      | some n => scan false (p.past (c :: rest.take (n + 1))) (rest.drop (n + 1))
    else
      match lexeme c rest p with
      | .error e => .error e
      | .ok (token, n) => do
        return token :: (← scan true (p.past (c :: rest.take n)) (rest.drop n))
termination_by cs => cs.length
decreasing_by
  · exact Nat.lt_succ_self _
  · exact Nat.lt_succ_of_le (List.dropWhile_suffix _).length_le
  · exact Nat.lt_succ_of_le (List.length_drop ▸ Nat.sub_le _ _)
  · exact Nat.lt_succ_of_le (List.length_drop ▸ Nat.sub_le _ _)

end Luuqad.Lexer

namespace Luuqad

def tokenize (source : String) : Except Fault (List Token) :=
  Lexer.scan true .start source.toList

end Luuqad

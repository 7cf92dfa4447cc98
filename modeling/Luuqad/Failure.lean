import Luuqad.Text.Quoted

/-!
# Failures

A `Failure` is the reason why an operation on values has no answer: operands of the wrong kind, a
text that is not a number, an index outside a list. Unlike the errors of the language these are
raised below it, by arithmetic, by text formatting, by passing arguments; a program can catch them
like any other error and sees `Failure.message`.
-/

namespace Luuqad

/-- The kinds of values as failures name them. -/
inductive TypeName
  | null | bool | int | float | str | list | object | tuple | function
  | tokenKind | nodeKind | code | token
deriving DecidableEq, Repr, Inhabited

/-- The word for a kind of value in the text of a failure. -/
def TypeName.label : TypeName → String
  | null => "NoneType"
  | bool => "bool"
  | int => "int"
  | float => "float"
  | str => "str"
  | list => "list"
  | object => "dict"
  | tuple => "tuple"
  | function => "function"
  | tokenKind => "TokenType"
  | nodeKind => "NodeType"
  | code => "ASTNode"
  | token => "Token"

/-- What is wrong with the arguments of a call. -/
inductive ArgumentFault
  /-- More positional arguments than the function takes. -/
  | tooMany (least most given : Nat)
  /-- Parameters that got no argument. -/
  | missing (names : List String)
  /-- A named argument that is no parameter. -/
  | unexpected (name : String)
  /-- A parameter given both by place and by name. -/
  | repeated (name : String)
deriving DecidableEq, Repr, Inhabited

/-- Why an operation on values has no answer. -/
inductive Failure
  | unsupportedOperands (operator : String) (left right : TypeName)
  | unordered (operator : String) (left right : TypeName)
  | endlessComparison
  | cannotConcatenate (left right : TypeName)
  | cannotRepeatBy (count : TypeName)
  | countTooLarge
  | repeatedTextTooLong
  | outOfMemory
  | integerTooLargeForFloat
  | quotientTooLargeForFloat
  | infinityToInteger
  | nanToInteger
  | notFloatText (text : String)
  | notIntegerText (text : String)
  | notNumeric (type : TypeName)
  | tooManyDigits
  | tooManyDigitsInText (digits : Nat)
  | indexOutOfRange
  | unhashable (type : TypeName)
  | emptySeparator
  | zeroStep
  | rangeTooLong
  | precisionTooLong
  | endOfInput
  | notIterable (type : TypeName)
  | notEnoughToUnpack (given : Nat)
  | tooManyToUnpack
  | missingKey (key : String)
  | badListIndex (type : TypeName)
  | formatArgumentsLeft
  | formatArgumentsMissing
  | formatIncomplete
  | formatIncompleteKey
  | formatUnknown (conversion : Char) (index : Nat)
  | formatNeedsMapping
  | formatNeedsStar
  | formatWidthTooBig
  | formatPrecisionTooBig
  | formatNeedsNumber (conversion : Char) (type : TypeName)
  | formatNeedsInteger (conversion : Char) (type : TypeName)
  | formatNeedsChar
  | formatCharOutOfRange
  | floatRequired (type : TypeName)
  | loneClosingBrace
  | loneOpeningBrace
  | arguments (function : String) (fault : ArgumentFault)
  | notPath (type : TypeName)
  | negativeDescriptor
  | badDescriptor
  | fileMissing (path : String)
  | isDirectory (path : String)
  | notDirectory (path : String)
  | nameTooLong (path : String)
  | nulInPath
deriving DecidableEq, Repr, Inhabited

inductive FailureCategory
  | type | value | index | key | overflow | memory | endOfInput
  | missingFile | directory | notDirectory | system | depth
deriving DecidableEq, Repr, Inhabited

def Failure.category : Failure → FailureCategory
  | unsupportedOperands .. | unordered .. | cannotConcatenate .. | cannotRepeatBy ..
  | notNumeric .. | unhashable .. | notIterable .. | badListIndex ..
  | formatArgumentsLeft | formatArgumentsMissing | formatNeedsMapping | formatNeedsStar
  | formatNeedsNumber .. | formatNeedsInteger .. | formatNeedsChar | floatRequired ..
  | arguments .. | notPath .. => .type
  | notFloatText .. | notIntegerText .. | tooManyDigits | tooManyDigitsInText ..
  | nanToInteger | emptySeparator | zeroStep | notEnoughToUnpack .. | tooManyToUnpack
  | negativeDescriptor | formatIncomplete
  | formatIncompleteKey | formatUnknown .. | formatWidthTooBig | formatPrecisionTooBig
  | loneClosingBrace | loneOpeningBrace | nulInPath => .value
  | countTooLarge | repeatedTextTooLong | integerTooLargeForFloat | quotientTooLargeForFloat
  | infinityToInteger | formatCharOutOfRange | rangeTooLong | precisionTooLong => .overflow
  | outOfMemory => .memory
  | indexOutOfRange => .index
  | missingKey .. => .key
  | endOfInput => .endOfInput
  | fileMissing .. => .missingFile
  | isDirectory .. => .directory
  | notDirectory .. => .notDirectory
  | nameTooLong .. | badDescriptor => .system
  | endlessComparison => .depth

/-- Names in quotes as an English enumeration: `'a'`, `'a' and 'b'`, `'a', 'b', and 'c'`. -/
def enumerate : List String → String
  | [] => ""
  | [a] => a
  | [a, b] => a ++ " and " ++ b
  | names => ", ".intercalate names.dropLast ++ ", and " ++ names.getLastD ""

def ArgumentFault.message : ArgumentFault → String
  | tooMany least most given =>
    let takes :=
      if least == most then
        toString most ++ " positional argument" ++ (if most == 1 then "" else "s")
      else "from " ++ toString least ++ " to " ++ toString most ++ " positional arguments"
    "takes " ++ takes ++ " but " ++ toString given ++
      (if given == 1 then " was given" else " were given")
  | missing names =>
    "missing " ++ toString names.length ++ " required positional argument" ++
      (if names.length == 1 then "" else "s") ++ ": " ++
      enumerate (names.map fun n => "'" ++ n ++ "'")
  | unexpected name => "got an unexpected keyword argument '" ++ name ++ "'"
  | repeated name => "got multiple values for argument '" ++ name ++ "'"

/-- How an unknown conversion character and its code are shown. -/
def showConversion (c : Char) : String :=
  let shown := if 31 ≤ c.toNat && c.toNat < 128 then c else '?'
  "'" ++ shown.toString ++ "' (0x" ++ String.ofList (Nat.toDigits 16 c.toNat) ++ ")"

def Failure.message : Failure → String
  | unsupportedOperands operator left right =>
    "unsupported operand type(s) for " ++ operator ++ ": '" ++ left.label ++ "' and '" ++
      right.label ++ "'"
  | unordered operator left right =>
    "'" ++ operator ++ "' not supported between instances of '" ++ left.label ++ "' and '" ++
      right.label ++ "'"
  | endlessComparison => "maximum recursion depth exceeded in comparison"
  | cannotConcatenate left right =>
    "can only concatenate " ++ left.label ++ " (not \"" ++ right.label ++ "\") to " ++ left.label
  | cannotRepeatBy count => "can't multiply sequence by non-int of type '" ++ count.label ++ "'"
  | countTooLarge => "cannot fit 'int' into an index-sized integer"
  | repeatedTextTooLong => "repeated string is too long"
  | outOfMemory => ""
  | integerTooLargeForFloat => "int too large to convert to float"
  | quotientTooLargeForFloat => "integer division result too large for a float"
  | infinityToInteger => "cannot convert float infinity to integer"
  | nanToInteger => "cannot convert float NaN to integer"
  | notFloatText text => "could not convert string to float: " ++ Text.quote text
  | notIntegerText text =>
    "invalid literal for int() with base 10: " ++
      String.ofList ((Text.quoted text.toList).take 200)
  | notNumeric type =>
    "float() argument must be a string or a real number, not '" ++ type.label ++ "'"
  | tooManyDigits =>
    "Exceeds the limit (4300 digits) for integer string conversion; " ++
      "use sys.set_int_max_str_digits() to increase the limit"
  | tooManyDigitsInText digits =>
    "Exceeds the limit (4300 digits) for integer string conversion: value has " ++
      toString digits ++ " digits; use sys.set_int_max_str_digits() to increase the limit"
  | indexOutOfRange => "list index out of range"
  | unhashable type => "unhashable type: '" ++ type.label ++ "'"
  | emptySeparator => "empty separator"
  | zeroStep => "range() arg 3 must not be zero"
  | rangeTooLong => "Python int too large to convert to C ssize_t"
  | precisionTooLong => "Python int too large to convert to C int"
  | endOfInput => "EOF when reading a line"
  | notIterable type => "argument of type '" ++ type.label ++ "' is not iterable"
  | notEnoughToUnpack given =>
    "not enough values to unpack (expected 2, got " ++ toString given ++ ")"
  | tooManyToUnpack => "too many values to unpack (expected 2)"
  | missingKey key => Text.quote key
  | badListIndex type => "list indices must be integers or slices, not " ++ type.label
  | formatArgumentsLeft => "not all arguments converted during string formatting"
  | formatArgumentsMissing => "not enough arguments for format string"
  | formatIncomplete => "incomplete format"
  | formatIncompleteKey => "incomplete format key"
  | formatUnknown conversion index =>
    "unsupported format character " ++ showConversion conversion ++ " at index " ++
      toString index
  | formatNeedsMapping => "format requires a mapping"
  | formatNeedsStar => "* wants int"
  | formatWidthTooBig => "width too big"
  | formatPrecisionTooBig => "precision too big"
  | formatNeedsNumber conversion type =>
    "%" ++ conversion.toString ++ " format: a real number is required, not " ++ type.label
  | formatNeedsInteger conversion type =>
    "%" ++ conversion.toString ++ " format: an integer is required, not " ++ type.label
  | formatNeedsChar => "%c requires int or char"
  | formatCharOutOfRange => "%c arg not in range(0x110000)"
  | floatRequired type => "must be real number, not " ++ type.label
  | loneClosingBrace => "Single '\x7d' encountered in format string"
  | loneOpeningBrace => "Single '\x7b' encountered in format string"
  | arguments function fault => function ++ "() " ++ fault.message
  | notPath type => "expected str, bytes or os.PathLike object, not " ++ type.label
  | negativeDescriptor => "negative file descriptor"
  | badDescriptor => "[Errno 9] Bad file descriptor"
  | fileMissing path => "[Errno 2] No such file or directory: " ++ Text.quote path
  | isDirectory path => "[Errno 21] Is a directory: " ++ Text.quote path
  | notDirectory path => "[Errno 20] Not a directory: " ++ Text.quote path
  | nameTooLong path => "[Errno 36] File name too long: " ++ Text.quote path
  | nulInPath => "embedded null byte"

end Luuqad

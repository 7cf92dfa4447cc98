import Luuqad.Chance
import Luuqad.CommandLine.Checker
import Luuqad.CommandLine.Front
import Luuqad.CommandLine.Options
import Luuqad.CommandLine.Sources
import Luuqad.Error.Catalogue
import Luuqad.Error.Complaint
import Luuqad.Error.Diagnostic
import Luuqad.Error.Template
import Luuqad.Failure
import Luuqad.Folder
import Luuqad.Heap
import Luuqad.Heap.Action
import Luuqad.Interpreter.Call
import Luuqad.Interpreter.Evaluator
import Luuqad.Interpreter.Expression
import Luuqad.Interpreter.File
import Luuqad.Interpreter.Program
import Luuqad.Interpreter.Statement
import Luuqad.Interpreter.Variable
import Luuqad.Library.Builtin
import Luuqad.Library.Call
import Luuqad.Library.Choice
import Luuqad.Library.Convert
import Luuqad.Library.Lists
import Luuqad.Library.Objects
import Luuqad.Library.Signature
import Luuqad.Library.Texts
import Luuqad.Main
import Luuqad.NameTable
import Luuqad.Number.Binary
import Luuqad.Number.Complex
import Luuqad.Number.Fixed
import Luuqad.Number.Power
import Luuqad.Number.Read
import Luuqad.Number.Scale
import Luuqad.Number.Shortest
import Luuqad.Number.Written
import Luuqad.Parser.Cursor
import Luuqad.Parser.Expression
import Luuqad.Parser.Program
import Luuqad.Parser.Statement
import Luuqad.Proofs.Control.Bounded
import Luuqad.Proofs.Control.Conditional
import Luuqad.Proofs.Control.Counting
import Luuqad.Proofs.Control.Definitions
import Luuqad.Proofs.Control.Guarded
import Luuqad.Proofs.Control.Imports
import Luuqad.Proofs.Control.LoopParts
import Luuqad.Proofs.Control.Scoped
import Luuqad.Proofs.Control.Switch
import Luuqad.Proofs.Error.Messages
import Luuqad.Proofs.Error.Renderings
import Luuqad.Proofs.Error.Verbatim
import Luuqad.Proofs.Grammar.Expressions
import Luuqad.Proofs.Grammar.Facing
import Luuqad.Proofs.Grammar.Levels
import Luuqad.Proofs.Grammar.Phrase
import Luuqad.Proofs.Grammar.Render
import Luuqad.Proofs.Grammar.RoundTrip
import Luuqad.Proofs.Grammar.Statements
import Luuqad.Proofs.Grammar.Written
import Luuqad.Proofs.Heap.Cells
import Luuqad.Proofs.Heap.Evolution
import Luuqad.Proofs.Lexing.Ending
import Luuqad.Proofs.Lexing.Faults
import Luuqad.Proofs.Lexing.Lexemes
import Luuqad.Proofs.Lexing.Numbers
import Luuqad.Proofs.Lexing.Printing
import Luuqad.Proofs.Lexing.Scan
import Luuqad.Proofs.Lexing.Tiling
import Luuqad.Proofs.Library.Slices
import Luuqad.Proofs.Library.Texts
import Luuqad.Proofs.Lists.Callbacks
import Luuqad.Proofs.Lists.Indexing
import Luuqad.Proofs.Lockstep.Basic
import Luuqad.Proofs.Lockstep.Expressions
import Luuqad.Proofs.Lockstep.Statements
import Luuqad.Proofs.Number.Exact
import Luuqad.Proofs.Objects.Keys
import Luuqad.Proofs.Objects.Ordered
import Luuqad.Proofs.Parsing.Chains
import Luuqad.Proofs.Parsing.Expressions
import Luuqad.Proofs.Parsing.Items
import Luuqad.Proofs.Parsing.Juxtaposed
import Luuqad.Proofs.Parsing.Kinds
import Luuqad.Proofs.Parsing.Names
import Luuqad.Proofs.Parsing.Newline
import Luuqad.Proofs.Parsing.Outcome
import Luuqad.Proofs.Parsing.Places
import Luuqad.Proofs.Parsing.Program
import Luuqad.Proofs.Parsing.Shapes
import Luuqad.Proofs.Parsing.Statements
import Luuqad.Proofs.Parsing.Steps
import Luuqad.Proofs.Parsing.Transfer
import Luuqad.Proofs.Run.Binding
import Luuqad.Proofs.Run.Children
import Luuqad.Proofs.Run.Conduct
import Luuqad.Proofs.Run.Contract
import Luuqad.Proofs.Run.Evolution
import Luuqad.Proofs.Run.Expressions
import Luuqad.Proofs.Run.Library
import Luuqad.Proofs.Run.Narrow
import Luuqad.Proofs.Run.Observed
import Luuqad.Proofs.Run.Outlasting
import Luuqad.Proofs.Run.Plain
import Luuqad.Proofs.Run.Regime
import Luuqad.Proofs.Shell.Agreement
import Luuqad.Proofs.Shell.Answering
import Luuqad.Proofs.Shell.Calculation
import Luuqad.Proofs.Shell.Effects
import Luuqad.Proofs.Shell.Formula
import Luuqad.Proofs.Shell.Multiline
import Luuqad.Proofs.Shell.Numerals
import Luuqad.Proofs.Shell.Reading
import Luuqad.Proofs.Shell.Running
import Luuqad.Proofs.Shell.Sums
import Luuqad.Proofs.Sorting.Permutes
import Luuqad.Proofs.Text.Matching
import Luuqad.Proofs.Text.Occurrences
import Luuqad.Proofs.Text.Replace
import Luuqad.Proofs.Tree.Shape
import Luuqad.Proofs.Variables.Constants
import Luuqad.Proofs.Variables.Declared
import Luuqad.Proofs.Variables.Discipline
import Luuqad.Proofs.Variables.Frame
import Luuqad.Proofs.Variables.Interrupted
import Luuqad.Proofs.Variables.Scope
import Luuqad.Proofs.Variables.Types
import Luuqad.Proofs.Variables.Unmentioned
import Luuqad.Shell.Calculator
import Luuqad.Shell.Delegate
import Luuqad.Shell.Line
import Luuqad.Shell.Session
import Luuqad.Shell.Style
import Luuqad.Sorting
import Luuqad.Sorting.Merge
import Luuqad.Sorting.Search
import Luuqad.State
import Luuqad.Text.Blank
import Luuqad.Text.Case
import Luuqad.Text.Digit
import Luuqad.Text.Letter
import Luuqad.Text.Pattern
import Luuqad.Text.Printable
import Luuqad.Text.Quoted
import Luuqad.Text.Ranges
import Luuqad.Text.Search
import Luuqad.Token
import Luuqad.Token.Kind
import Luuqad.Token.Lexer
import Luuqad.Tree.Kind
import Luuqad.Tree.Node
import Luuqad.Value
import Luuqad.Value.Arithmetic
import Luuqad.Value.Compare
import Luuqad.Value.Format
import Luuqad.Value.Operator
import Luuqad.Value.Written

import Offside.Text.Shown
import Offside.Text.Letter
import Offside.Text.Blank
import Offside.Text.Case
import Offside.Number.FloatText
import Offside.Number.FloatReading
import Offside.Source.Stream
import Offside.Syntax.Stmt
import Offside.Syntax.Ladder
import Offside.Syntax.Group
import Offside.Syntax.Reading
import Offside.Syntax.Block
import Offside.Value.Table
import Offside.Value.Builtin
import Offside.Value.World
import Offside.Value.Key
import Offside.Value.Display
import Offside.Eval.Complaint
import Offside.Eval.Protocol
import Offside.Library.Numbers
import Offside.Library.Positions
import Offside.Library.Sorting
import Offside.Library.Sequences
import Offside.Text.Search
import Offside.Library.Strings
import Offside.Library.Ranges
import Offside.Library.Mappings
import Offside.Library.Kinds
import Offside.Library.Streams
import Offside.Library.Functions
import Offside.Library.Methods
import Offside.Library.Conversions
import Offside.Eval.Beginning
import Offside.Eval.Scope
import Offside.Eval.Arguments
import Offside.Eval.Calling
import Offside.Eval.Expression
import Offside.Eval.Registry
import Offside.Eval.Import
import Offside.Eval.Handling
import Offside.Eval.Statement
import Offside.Eval.Interpreter
import Offside.Eval.Traceback
import Offside.Session
import Offside.Number.Power
import Offside.Settings.Toml
import Offside.Settings.Manifest
import Offside.CommandLine
import Offside.Main
import Offside.Proofs.Precedence
import Offside.Proofs.Layout
import Offside.Proofs.Conduct.Basic
import Offside.Proofs.Conduct.Library
import Offside.Proofs.Conduct.Evaluation
import Offside.Proofs.Soundness
import Offside.Proofs.Reached
import Offside.Proofs.Exactness
import Offside.Proofs.Literal.Basic
import Offside.Proofs.Literal.Lexing
import Offside.Proofs.Literal.Heap
import Offside.Proofs.Literal.Keys
import Offside.Proofs.Literal.Evaluation
import Offside.Proofs.Literal.Beginning
import Offside.Proofs.Literal.Parsing
import Offside.Proofs.Literal.Writing
import Offside.Proofs.Literal.RoundTrip
import Offside.Proofs.Literal.Undecodable
import Offside.Proofs.Raising
import Offside.Proofs.Arithmetic
import Offside.Proofs.Lexing.Spans
import Offside.Proofs.Lexing.Rendering
import Offside.Proofs.Lexing.Lines
import Offside.Proofs.Lexing.LineNumbers
import Offside.Proofs.Lexing.Locality
import Offside.Proofs.Located.Program
import Offside.Proofs.Terminals.Groups
import Offside.Proofs.Terminals.Reading
import Offside.Proofs.Terminals.Program
import Offside.Proofs.Refusal
import Offside.Proofs.Located.Expressions
import Offside.Proofs.Mapping.Keys
import Offside.Proofs.Mapping.Dicts
import Offside.Proofs.Mapping.Refinement
import Offside.Proofs.Course
import Offside.Proofs.Modules.Journal
import Offside.Proofs.Modules.Registry
import Offside.Proofs.Modules.Housing
import Offside.Proofs.Modules.Loading
import Offside.Proofs.Modules.Sessions
import Offside.Proofs.Modules.Deferring
import Offside.Proofs.Modules.Cache
import Offside.Proofs.Modules.Packages
import Offside.Proofs.Modules.Pending
import Offside.Proofs.Modules.Dotted
import Offside.Proofs.Modules.Accumulation
import Offside.Proofs.Passage.Basic
import Offside.Proofs.Passage.Execution
import Offside.Proofs.Passage.Sessions
import Offside.Proofs.Passage.Trail
import Offside.Proofs.Balance
import Offside.Proofs.Chains
import Offside.Proofs.Traces
import Offside.Proofs.Signals.Layers
import Offside.Proofs.Signals.Places
import Offside.Proofs.Signals.Origin
import Offside.Proofs.Signals.Delivery
import Offside.Proofs.Signals.Failures
import Offside.Proofs.Arguments
import Offside.Proofs.Inheritance
import Offside.Proofs.Subtraction
import Offside.Proofs.Slicing
import Offside.Proofs.Ranges.Numbers
import Offside.Proofs.Ranges.Operations
import Offside.Proofs.Items.Lists
import Offside.Proofs.Handlers.Routing
import Offside.Proofs.Hashing.Agreement
import Offside.Proofs.Sorting.Methods
import Offside.Proofs.Scoping.Sessions
import Offside.Proofs.Items.Collecting
import Offside.Proofs.Rows.Loops
import Offside.Proofs.Searching.Texts
import Offside.Proofs.Display
import Offside.Proofs.Moving.Expressions
import Offside.Proofs.Moving.Streams
import Offside.Proofs.Moving.Lines
import Offside.Proofs.Moving.Blocks
import Offside.Proofs.Moving.Comments
import Offside.Proofs.Naming

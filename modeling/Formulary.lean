import Formulary.CommandLine.Arguments
import Formulary.CommandLine.Run
import Formulary.Config
import Formulary.Disk
import Formulary.Document
import Formulary.Evaluation
import Formulary.Evaluation.Arithmetic
import Formulary.Evaluation.Samples
import Formulary.Fault
import Formulary.Formula.Basic
import Formulary.Formula.Build
import Formulary.Formula.Document
import Formulary.Formula.Parse
import Formulary.Formula.Render
import Formulary.Journal.Clock
import Formulary.Journal.Event
import Formulary.Journal.Log
import Formulary.Journal.Sink
import Formulary.Json.Basic
import Formulary.Json.Printer
import Formulary.Json.Reader
import Formulary.Main
import Formulary.Number.Binary64
import Formulary.Number.Conversion
import Formulary.Number.Layout
import Formulary.Number.Reader
import Formulary.Number.Shortest
import Formulary.Proofs.Bits
import Formulary.Proofs.Building
import Formulary.Proofs.CommandEndings
import Formulary.Proofs.Comparisons
import Formulary.Proofs.Composition
import Formulary.Proofs.Configurations
import Formulary.Proofs.Conservation
import Formulary.Proofs.Contradictions
import Formulary.Proofs.Counting
import Formulary.Proofs.Decimals
import Formulary.Proofs.Declarations
import Formulary.Proofs.Dependence
import Formulary.Proofs.Documents
import Formulary.Proofs.EarliestFault
import Formulary.Proofs.Failures
import Formulary.Proofs.Frame
import Formulary.Proofs.Grammar
import Formulary.Proofs.JsonNumbers
import Formulary.Proofs.JsonRemnants
import Formulary.Proofs.JsonTexts
import Formulary.Proofs.Lexing
import Formulary.Proofs.Listings
import Formulary.Proofs.LogWindow
import Formulary.Proofs.Modes
import Formulary.Proofs.NumberTokens
import Formulary.Proofs.Numerals
import Formulary.Proofs.Order
import Formulary.Proofs.Overflow
import Formulary.Proofs.PositionalText
import Formulary.Proofs.Postorder
import Formulary.Proofs.Precedence
import Formulary.Proofs.Queries
import Formulary.Proofs.Recording
import Formulary.Proofs.Remainders
import Formulary.Proofs.Renaming
import Formulary.Proofs.RoundTrip
import Formulary.Proofs.Rounding
import Formulary.Proofs.Rows
import Formulary.Proofs.SafeMode
import Formulary.Proofs.Scoping
import Formulary.Proofs.Segmentation
import Formulary.Proofs.Separation
import Formulary.Proofs.SessionLogs
import Formulary.Proofs.Sessions
import Formulary.Proofs.Sums
import Formulary.Proofs.TornLines
import Formulary.Proofs.Truncation
import Formulary.Proofs.WindowEdge
import Formulary.Session
import Formulary.Store
import Formulary.Table
import Formulary.Table.Csv
import Formulary.Text.Alphanumeric
import Formulary.Text.Blank
import Formulary.Text.CodeRanges
import Formulary.Text.DecimalDigit
import Formulary.Text.Hex
import Formulary.Text.Printable
import Formulary.Text.Quoted
import Formulary.Text.Sorting
import Formulary.Text.Split
import Formulary.Text.Utf8
import Formulary.Token
import Formulary.Token.Grammar
import Formulary.Token.Lexer
import Formulary.Token.Postorder

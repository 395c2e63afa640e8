import Formula.Calendar.Date
import Formula.Calendar.Instant
import Formula.Calendar.Text
import Formula.Command
import Formula.Decimal.Basic
import Formula.Decimal.Conversion
import Formula.Error
import Formula.Json.Basic
import Formula.Json.Reader
import Formula.Json.Writer
import Formula.Library.Criterion
import Formula.Library.Dates
import Formula.Library.Function
import Formula.Library.Logic
import Formula.Library.Math
import Formula.Library.Text
import Formula.Main
import Formula.Number.Binary
import Formula.Number.Layout
import Formula.Number.Quotient
import Formula.Number.Reading
import Formula.Number.Shortest
import Formula.Operator
import Formula.Options
import Formula.Registry
import Formula.Report
import Formula.Run
import Formula.Signature
import Formula.Term.Basic
import Formula.Term.Check
import Formula.Term.Eval
import Formula.Term.Parser
import Formula.Term.References
import Formula.Text.Blank
import Formula.Text.Case
import Formula.Text.CaseTable
import Formula.Text.Cut
import Formula.Text.Digit
import Formula.Text.Glyph
import Formula.Text.Quoted
import Formula.Text.Ranges
import Formula.Token.Basic
import Formula.Token.Lexer
import Formula.TypeTag
import Formula.Value.Access
import Formula.Value.Basic
import Formula.Value.Comparison
import Formula.Value.Json
import Formula.Proofs.Grammar
import Formula.Proofs.Reading
import Formula.Proofs.Depth
import Formula.Proofs.Parsing
import Formula.Proofs.Lexing
import Formula.Proofs.Writing
import Formula.Proofs.References
import Formula.Proofs.Levels
import Formula.Proofs.Registry
import Formula.Proofs.Library
import Formula.Proofs.Agreement
import Formula.Proofs.Languages
import Formula.Proofs.Steps
import Formula.Proofs.Locating
import Formula.Proofs.Placement
import Formula.Proofs.Spacing
import Formula.Proofs.Lookahead
import Formula.Proofs.Continuation
import Formula.Proofs.Legality
import Formula.Proofs.Safety
import Formula.Proofs.Leniency
import Formula.Proofs.Limits
import Formula.Proofs.Grouping
import Formula.Proofs.Widening
import Formula.Proofs.Digits
import Formula.Proofs.Documents
import Formula.Proofs.Reports
import Formula.Proofs.Counting
import Formula.Proofs.Resuming
import Formula.Proofs.Strings
import Formula.Proofs.Doubles
import Formula.Proofs.Rounding
import Formula.Proofs.Shortest
import Formula.Proofs.Decimals
import Formula.Proofs.RoundTrips
import Formula.Proofs.Sums
import Formula.Proofs.Totals
import Formula.Proofs.Remainders
import Formula.Proofs.Returns
import Formula.Proofs.Integers
import Formula.Proofs.Calendar
import Formula.Proofs.Instants
import Formula.Proofs.Carrying
import Formula.Proofs.DateParts
import Formula.Proofs.DayShifts
import Formula.Proofs.Months
import Formula.Proofs.DateTexts
import Formula.Proofs.Ordering
import Formula.Proofs.Ranks
import Formula.Proofs.Pieces
import Formula.Proofs.Criteria
import Formula.Proofs.ConditionalSums
import Formula.Proofs.Equality
import Formula.Proofs.Positions
import Formula.Proofs.Paths
import Formula.Proofs.Searching
import Formula.Proofs.Signs
import Formula.Proofs.Differences
import Formula.Proofs.Slicing
import Formula.Proofs.Distinct
import Formula.Proofs.Interchange
import Formula.Proofs.Residues
import Formula.Proofs.Bits
import Formula.Proofs.Numerals
import Formula.Proofs.NameOrder
import Formula.Proofs.Registering

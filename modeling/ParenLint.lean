import ParenLint.Calendar.Date
import ParenLint.Cli.Invocation
import ParenLint.Cli.Program
import ParenLint.Config.Settings
import ParenLint.Config.Value
import ParenLint.Json.Basic
import ParenLint.Json.Printer
import ParenLint.Json.Reader
import ParenLint.Main
import ParenLint.Number.Binary64
import ParenLint.Number.Decimal
import ParenLint.Order.Sort
import ParenLint.Path.Basic
import ParenLint.Path.Discovery
import ParenLint.Path.FileTree
import ParenLint.Path.Selection
import ParenLint.Report.Render
import ParenLint.Report.Reporter
import ParenLint.Rule.Check
import ParenLint.Rule.Correct
import ParenLint.Rule.Description
import ParenLint.Rule.Severity
import ParenLint.Rule.Violation
import ParenLint.Run.Autocorrect
import ParenLint.Run.Configuration
import ParenLint.Run.Event
import ParenLint.Run.Lint
import ParenLint.Run.Registry
import ParenLint.Run.Workspace
import ParenLint.Source.Location
import ParenLint.Source.SourceFile
import ParenLint.Statement.Kind
import ParenLint.Statement.Match
import ParenLint.Statement.Pattern
import ParenLint.Statement.Wrapping
import ParenLint.Suppression.Command
import ParenLint.Suppression.Region
import ParenLint.Swift.Keyword
import ParenLint.Swift.Lexeme
import ParenLint.Swift.Token
import ParenLint.Text.Blank
import ParenLint.Text.Bytes
import ParenLint.Text.CharSet
import ParenLint.Text.Digit
import ParenLint.Text.Lower
import ParenLint.Text.Newline
import ParenLint.Text.Printable
import ParenLint.Text.Quoted
import ParenLint.Text.Stream
import ParenLint.Text.Utf8
import ParenLint.Text.Word
import ParenLint.Yaml.Cursor
import ParenLint.Yaml.Document
import ParenLint.Yaml.Fault
import ParenLint.Yaml.Input
import ParenLint.Yaml.Merge
import ParenLint.Yaml.Node
import ParenLint.Yaml.Number
import ParenLint.Yaml.Scalar
import ParenLint.Yaml.ScalarValue
import ParenLint.Yaml.Tag
import ParenLint.Yaml.Token
import ParenLint.Yaml.TokenStream
import ParenLint.Proofs.Order.StableSort
import ParenLint.Proofs.Text.Utf8
import ParenLint.Proofs.Text.Newline
import ParenLint.Proofs.Path.FileTree
import ParenLint.Proofs.Path.Spelling
import ParenLint.Proofs.Path.Sources
import ParenLint.Proofs.Path.Discovery
import ParenLint.Proofs.Statement.Grammar
import ParenLint.Proofs.Statement.Search
import ParenLint.Proofs.Statement.Leftmost
import ParenLint.Proofs.Statement.Nesting
import ParenLint.Proofs.Statement.Pairing
import ParenLint.Proofs.Statement.Shadowing
import ParenLint.Proofs.Statement.StaysOpen
import ParenLint.Proofs.Swift.Readers
import ParenLint.Proofs.Swift.TokenStream
import ParenLint.Proofs.Swift.Scan
import ParenLint.Proofs.Swift.Classification
import ParenLint.Proofs.Swift.StringBody
import ParenLint.Proofs.Swift.Element
import ParenLint.Proofs.Swift.RoundTrip
import ParenLint.Proofs.Swift.Locality
import ParenLint.Proofs.Swift.Replacement
import ParenLint.Proofs.Rule.Rewriting
import ParenLint.Proofs.Rule.Substitution
import ParenLint.Proofs.Rule.RawMatch
import ParenLint.Proofs.Rule.DeletedParentheses
import ParenLint.Proofs.Rule.Coverage
import ParenLint.Proofs.Rule.MatchIn
import ParenLint.Proofs.Rule.TokensKept
import ParenLint.Proofs.Rule.Reported
import ParenLint.Proofs.Rule.MultilineString
import ParenLint.Proofs.Rule.Balance
import ParenLint.Proofs.Rule.Rescan
import ParenLint.Proofs.Source.Position
import ParenLint.Proofs.Suppression.Deciding
import ParenLint.Proofs.Suppression.PlainCommands
import ParenLint.Proofs.Suppression.LineCommands
import ParenLint.Proofs.Config.RuleEntries
import ParenLint.Proofs.Run.Workspace
import ParenLint.Proofs.Run.Agreement
import ParenLint.Proofs.Run.Convergence
import ParenLint.Proofs.Run.CorrectedFile
import ParenLint.Proofs.Run.KeptBytes
import ParenLint.Proofs.Run.StoredBytes
import ParenLint.Proofs.Run.FirstFailure
import ParenLint.Proofs.Run.ChangedFiles
import ParenLint.Proofs.Rule.Exchanges
import ParenLint.Proofs.Rule.SingleConditional
import ParenLint.Proofs.Source.LineIndex
import ParenLint.Proofs.Swift.ClosedText
import ParenLint.Proofs.Run.OrderIndependence
import ParenLint.Proofs.Path.Selection
import ParenLint.Proofs.Json.Scalar
import ParenLint.Proofs.Json.RoundTrip
import ParenLint.Proofs.Report.JsonReport
import ParenLint.Proofs.Text.Stretch
import ParenLint.Proofs.Suppression.Spelling
import ParenLint.Proofs.Suppression.RoundTrip

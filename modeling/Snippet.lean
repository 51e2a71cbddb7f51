import Snippet.Command
import Snippet.Decimal.Double
import Snippet.Decimal.Reader
import Snippet.Decimal.Shortest
import Snippet.Digest
import Snippet.Evaluation
import Snippet.Grammar.Matching
import Snippet.Grammar.Pattern
import Snippet.Host.Context
import Snippet.Host.Identity
import Snippet.Host.Snapshot
import Snippet.Instant
import Snippet.Json.Basic
import Snippet.Json.Number
import Snippet.Json.Reader
import Snippet.Json.Schema
import Snippet.Json.Writer
import Snippet.Lifecycle
import Snippet.Message.Basic
import Snippet.Message.Wire
import Snippet.Outcome
import Snippet.PipelineError
import Snippet.Proofs.Computation
import Snippet.Report.Basic
import Snippet.Report.Classified
import Snippet.Report.Render
import Snippet.Run.Exec
import Snippet.Run.Fault
import Snippet.Run.Library
import Snippet.Run.Machine
import Snippet.Run.Operator
import Snippet.Run.Path
import Snippet.Script.Builtin
import Snippet.Script.Check
import Snippet.Script.Checked
import Snippet.Script.Lexeme
import Snippet.Script.Nesting
import Snippet.Script.Parse
import Snippet.Script.Problem
import Snippet.Script.Symbols
import Snippet.Script.Tree
import Snippet.Service.Basic
import Snippet.Service.Counters
import Snippet.Service.Request
import Snippet.Settings.Basic
import Snippet.Settings.Reader
import Snippet.Source.Bytes
import Snippet.Source.Diagnostic
import Snippet.Source.Span
import Snippet.Template.Comparison
import Snippet.Template.Helper
import Snippet.Template.Lexeme
import Snippet.Template.Parse
import Snippet.Template.Render
import Snippet.Template.Scope
import Snippet.Template.Symbols
import Snippet.Template.Tree
import Snippet.Text.Alphanumeric
import Snippet.Text.Blank
import Snippet.Text.Bounded
import Snippet.Text.CaseMap
import Snippet.Text.CaseTable
import Snippet.Text.CharSet
import Snippet.Text.Quoted
import Snippet.Text.Shorten
import Snippet.Text.Unprintable
import Snippet.Value.Basic
import Snippet.Value.Display
import Snippet.Value.Equality
import Snippet.Value.Shape
import Snippet.Word
import Snippet.Yaml.Cursor
import Snippet.Yaml.Node
import Snippet.Yaml.Scalar
import Snippet.Yaml.Token
import Snippet.Proofs.Execution
import Snippet.Proofs.Scopes
import Snippet.Proofs.TypedLocals
import Snippet.Proofs.Paths
import Snippet.Proofs.Budget
import Snippet.Proofs.ValueBounds
import Snippet.Proofs.ValueDepth
import Snippet.Proofs.ElementLimit
import Snippet.Proofs.Faults
import Snippet.Proofs.WellScoped
import Snippet.Proofs.CheckSoundness
import Snippet.Proofs.ReportSize
import Snippet.Proofs.PlainText
import Snippet.Proofs.Derivation
import Snippet.Proofs.Places
import Snippet.Proofs.Lexemes
import Snippet.Proofs.NodePlaces
import Snippet.Proofs.ReportedPlaces
import Snippet.Proofs.Reading
import Snippet.Proofs.Layout
import Snippet.Proofs.Printing
import Snippet.Proofs.PrintedTokens
import Snippet.Proofs.PrintedReading
import Snippet.Proofs.PrintedScript
import Snippet.Proofs.PrintedBuilding
import Snippet.Proofs.RoundTrip
import Snippet.Proofs.Comments
import Snippet.Proofs.TreeDepth
import Snippet.Proofs.SourcePlaces
import Snippet.Proofs.HostFailure
import Snippet.Proofs.Reports
import Snippet.Proofs.CheckPlaces
import Snippet.Proofs.Divergence
import Snippet.Proofs.Unreachable
import Snippet.Proofs.Calls
import Snippet.Proofs.Parallel
import Snippet.Proofs.HostIndependence
import Snippet.Proofs.Replies
import Snippet.Proofs.Traffic
import Snippet.Proofs.UnreadLocals
import Snippet.Proofs.Exchange
import Snippet.Proofs.HiddenValues
import Snippet.Proofs.UnusedLiteral
import Snippet.Proofs.ReadBack
import Snippet.Proofs.ValueText
import Snippet.Proofs.OutputBlock
import Snippet.Proofs.Fences
import Snippet.Proofs.DisplayCap
import Snippet.Proofs.Untouched
import Snippet.Proofs.JoinedText
import Snippet.Proofs.TimeAndPlace
import Snippet.Proofs.CompoundAssignment
import Snippet.Proofs.Cancellation
import Snippet.Proofs.Visits
import Snippet.Proofs.LiveNames
import Snippet.Proofs.LiteralTypes
import Snippet.Proofs.TextLimits
import Snippet.Proofs.EqualValues
import Snippet.Proofs.StringBodies
import Snippet.Proofs.QuotedText
import Snippet.Proofs.SoleOperand
import Snippet.Proofs.StringLiterals
import Snippet.Proofs.FirstOperand
import Snippet.Proofs.Signs
import Snippet.Proofs.SignedIntegers
import Snippet.Proofs.SourceRegions
import Snippet.Proofs.BracketDepth
import Snippet.Proofs.BalancedScripts
import Snippet.Proofs.OpenBrackets
import Snippet.Proofs.ScopeDiscipline
import Snippet.Proofs.Partials
import Snippet.Proofs.CalendarDates
import Snippet.Proofs.InstantText
import Snippet.Proofs.JsonText
import Snippet.Proofs.Wire
import Snippet.Proofs.ClosingBracket
import Snippet.Proofs.PlacedMatches
import Snippet.Proofs.BracketedText
import Snippet.Proofs.ShiftedTrees
import Snippet.Proofs.SoleExpression
import Snippet.Proofs.Inspection
import Snippet.Proofs.ShapeLimits
import Snippet.Proofs.MatchedTexts
import Snippet.Proofs.StatementParts

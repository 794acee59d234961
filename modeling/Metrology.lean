import Metrology.CommandLine.Check
import Metrology.CommandLine.Command
import Metrology.CommandLine.Run
import Metrology.CommandLine.Words
import Metrology.Converter
import Metrology.Document
import Metrology.Document.Reader
import Metrology.Document.Writer
import Metrology.Double
import Metrology.Double.Logarithm
import Metrology.Double.Places
import Metrology.Double.Power
import Metrology.Double.Shortest
import Metrology.Expression
import Metrology.Expression.Parts
import Metrology.Failure
import Metrology.Journal
import Metrology.Journal.Tree
import Metrology.Main
import Metrology.Registry
import Metrology.Rendering.Angle
import Metrology.Rendering.Cell
import Metrology.Rendering.Number
import Metrology.Rendering.Quantity
import Metrology.Rendering.Style
import Metrology.Settings
import Metrology.SymbolMap
import Metrology.Text.Blank
import Metrology.Text.Front
import Metrology.Text.Literal
import Metrology.Text.Printable
import Metrology.Text.Quoted
import Metrology.Text.Template
import Metrology.Units.Definition
import Metrology.Units.Kind
import Metrology.Units.Table
import Metrology.Value
import Metrology.Workspace
import Metrology.Proofs.Converter.Call
import Metrology.Proofs.Converter.Doubles
import Metrology.Proofs.Converter.Resolution
import Metrology.Proofs.Expression.Depth
import Metrology.Proofs.Expression.Derivation
import Metrology.Proofs.Expression.Evaluation
import Metrology.Proofs.Expression.Value
import Metrology.Proofs.Expression.Nesting
import Metrology.Proofs.Expression.Reach
import Metrology.Proofs.Workspace.Locality
import Metrology.Proofs.Registry.Growth
import Metrology.Proofs.Registry.Valid
import Metrology.Proofs.Workspace.Action
import Metrology.Proofs.Workspace.Registries
import Metrology.Proofs.Workspace.Staleness
import Metrology.Proofs.Workspace.Transparency
import Metrology.Proofs.Converter.Failures
import Metrology.Proofs.Converter.Modes
import Metrology.Proofs.Converter.Entries
import Metrology.Proofs.Converter.Spending
import Metrology.Proofs.Workspace.Ledger
import Metrology.Proofs.Workspace.Agreement
import Metrology.Proofs.Workspace.Isolation
import Metrology.Proofs.Converter.Twin
import Metrology.Proofs.Workspace.Default
import Metrology.Proofs.Double.Rounding
import Metrology.Proofs.Double.Nearest
import Metrology.Proofs.Double.Decimal
import Metrology.Proofs.Double.Arithmetic
import Metrology.Proofs.Double.Order
import Metrology.Proofs.Double.Remainder
import Metrology.Proofs.Double.Series
import Metrology.Proofs.Double.Logarithm
import Metrology.Proofs.Double.CommonLogarithm
import Metrology.Proofs.Double.Scaling
import Metrology.Proofs.Double.Exponent
import Metrology.Proofs.Double.Mantissa
import Metrology.Proofs.Rendering.Numeral
import Metrology.Proofs.Rendering.Reading
import Metrology.Proofs.Rendering.Significant
import Metrology.Proofs.Rendering.Totality
import Metrology.Proofs.Rendering.Base
import Metrology.Proofs.Rendering.Prefix
import Metrology.Proofs.Rendering.Rounding
import Metrology.Proofs.Rendering.Digits
import Metrology.Proofs.Rendering.Exponent
import Metrology.Proofs.Rendering.Mantissa
import Metrology.Proofs.Rendering.Normal
import Metrology.Proofs.Rendering.Sexagesimal
import Metrology.Proofs.Rendering.Longitude
import Metrology.Proofs.Double.Shortest
import Metrology.Proofs.Document.Number
import Metrology.Proofs.Document.Reading
import Metrology.Proofs.Document.RoundTrip
import Metrology.Proofs.Settings.Loading
import Metrology.Proofs.Settings.RoundTrip
import Metrology.Proofs.Journal.Action
import Metrology.Proofs.Journal.Messages
import Metrology.Proofs.Journal.Routing
import Metrology.Proofs.Journal.Turn
import Metrology.Proofs.Journal.Run
import Metrology.Proofs.Journal.Loss
import Metrology.Proofs.Journal.Statistics
import Metrology.Proofs.CommandLine.Log
import Metrology.Proofs.Settings.Registry
import Metrology.Proofs.CommandLine.Outcome
import Metrology.Proofs.CommandLine.Check
import Metrology.Proofs.Journal.Tree
import Metrology.Proofs.Expression.Balance
import Metrology.Proofs.Registry.InPlace
import Metrology.Proofs.Registry.Seeding
import Metrology.Proofs.Converter.Steps
import Metrology.Proofs.Converter.Acceptance
import Metrology.Proofs.CommandLine.Acceptance
import Metrology.Proofs.Double.Reading
import Metrology.Proofs.Expression.Literal
import Metrology.Proofs.Workspace.Probe
import Metrology.Proofs.Settings.Checking
import Metrology.Proofs.Settings.Building

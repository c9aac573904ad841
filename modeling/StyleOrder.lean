import StyleOrder.Command.Context
import StyleOrder.Command.Options
import StyleOrder.Command.Program
import StyleOrder.Command.Run
import StyleOrder.Decimal.Shortest
import StyleOrder.Decimal.Written
import StyleOrder.Files.Discovery
import StyleOrder.Files.Disk
import StyleOrder.Files.Glob
import StyleOrder.Files.Path
import StyleOrder.Lint.Batch
import StyleOrder.Lint.ExitStatus
import StyleOrder.Lint.Report
import StyleOrder.Lint.Rule
import StyleOrder.Lint.RuleSettings
import StyleOrder.Lint.Similarity
import StyleOrder.Lint.Violation
import StyleOrder.Main
import StyleOrder.Order.Finding
import StyleOrder.Order.Group
import StyleOrder.Outline.Basic
import StyleOrder.Outline.Nesting
import StyleOrder.Output.Document
import StyleOrder.Output.Notice
import StyleOrder.Output.Paint
import StyleOrder.Output.Print
import StyleOrder.Position
import StyleOrder.Settings.Basic
import StyleOrder.Settings.Document
import StyleOrder.Settings.Load
import StyleOrder.Severity
import StyleOrder.Sheet.Line
import StyleOrder.Sheet.Mark
import StyleOrder.Sheet.Specimen
import StyleOrder.Text.Blank
import StyleOrder.Text.Hidden
import StyleOrder.Text.Letter
import StyleOrder.Text.Lines
import StyleOrder.Text.Number
import StyleOrder.Toml.Reader
import StyleOrder.Toml.Table
import StyleOrder.Value.Basic
import StyleOrder.Value.Canonical
import StyleOrder.Value.Json
import StyleOrder.Value.Mismatch
import StyleOrder.Value.Writer
import StyleOrder.Yaml.Content
import StyleOrder.Yaml.Cursor
import StyleOrder.Yaml.Node
import StyleOrder.Yaml.Reader
import StyleOrder.Yaml.Scalar
import StyleOrder.Yaml.Token
import StyleOrder.Yaml.Token.Lexer
import StyleOrder.Proofs.Outline.Links
import StyleOrder.Proofs.Nesting.Run
import StyleOrder.Proofs.Nesting.WellFormed
import StyleOrder.Proofs.Outline.Nearest
import StyleOrder.Proofs.Nesting.Offside
import StyleOrder.Proofs.Nesting.Columns
import StyleOrder.Proofs.Order.Findings
import StyleOrder.Proofs.Sheet.Sources
import StyleOrder.Proofs.Nesting.Provenance
import StyleOrder.Proofs.Nesting.Growth
import StyleOrder.Proofs.Nesting.Depth
import StyleOrder.Proofs.Outline.Relocation
import StyleOrder.Proofs.Sheet.Layout
import StyleOrder.Proofs.Nesting.Recasting
import StyleOrder.Proofs.Nesting.Repositioning
import StyleOrder.Proofs.Nesting.Concatenation
import StyleOrder.Proofs.Lint.Renumbering
import StyleOrder.Proofs.Lint.Layout
import StyleOrder.Proofs.Lint.Scheduling
import StyleOrder.Proofs.Command.Independence
import StyleOrder.Proofs.Lint.Anchors
import StyleOrder.Proofs.Output.Notices
import StyleOrder.Proofs.Output.Agreement
import StyleOrder.Proofs.Output.Classic
import StyleOrder.Proofs.Lint.Removal
import StyleOrder.Proofs.Nesting.Faults
import StyleOrder.Proofs.Nesting.Selectors
import StyleOrder.Proofs.Sheet.Declarations
import StyleOrder.Proofs.Lint.Values
import StyleOrder.Proofs.Sheet.Grammar
import StyleOrder.Proofs.Order.Groups
import StyleOrder.Proofs.Lint.Extremes
import StyleOrder.Proofs.Lint.Levels
import StyleOrder.Proofs.Files.Segments
import StyleOrder.Proofs.Files.Sorting
import StyleOrder.Proofs.Files.Patterns
import StyleOrder.Proofs.Files.Places
import StyleOrder.Proofs.Files.Trails
import StyleOrder.Proofs.Files.Agreement
import StyleOrder.Proofs.Files.Relocation
import StyleOrder.Proofs.Reading
import StyleOrder.Proofs.Files.Selection
import StyleOrder.Proofs.Files.Ancestors
import StyleOrder.Proofs.Settings.Nearest
import StyleOrder.Proofs.Settings.Usable
import StyleOrder.Proofs.Value.Canonical
import StyleOrder.Proofs.Settings.RoundTrip
import StyleOrder.Proofs.Lint.RuleNames
import StyleOrder.Proofs.Nesting.Moments
import StyleOrder.Proofs.Output.Colour
import StyleOrder.Proofs.Yaml.Mappings
import StyleOrder.Proofs.Value.Objects
import StyleOrder.Proofs.Settings.Notations

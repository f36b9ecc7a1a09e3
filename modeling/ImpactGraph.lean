import ImpactGraph.Change.Fault
import ImpactGraph.Change.Git
import ImpactGraph.Change.Join
import ImpactGraph.Change.ListFile
import ImpactGraph.Change.NameStatus
import ImpactGraph.Change.Record
import ImpactGraph.Change.Records
import ImpactGraph.Command.Arguments
import ImpactGraph.Command.Colors
import ImpactGraph.Command.Fault
import ImpactGraph.Command.Host
import ImpactGraph.Command.Reading
import ImpactGraph.Command.Run
import ImpactGraph.Component.Script
import ImpactGraph.Component.Tag
import ImpactGraph.Decimal.Shortest
import ImpactGraph.Descriptor
import ImpactGraph.Dialogue
import ImpactGraph.Files.Basic
import ImpactGraph.Files.Disk
import ImpactGraph.Files.Stored
import ImpactGraph.Files.SystemError
import ImpactGraph.Files.Writing
import ImpactGraph.Graph.Encoding
import ImpactGraph.Graph.Ledger
import ImpactGraph.Graph.Snapshot
import ImpactGraph.Json.Decode
import ImpactGraph.Json.Printer
import ImpactGraph.Json.Reader
import ImpactGraph.Json.Value
import ImpactGraph.Main
import ImpactGraph.Path.Basic
import ImpactGraph.Path.Clean
import ImpactGraph.Path.Units
import ImpactGraph.Report.Diff
import ImpactGraph.Report.Lines
import ImpactGraph.Report.Scan
import ImpactGraph.Report.Style
import ImpactGraph.Resolve.Alias
import ImpactGraph.Resolve.Probe
import ImpactGraph.Resolve.Resolver
import ImpactGraph.Scan.Config
import ImpactGraph.Scan.Encoding
import ImpactGraph.Scan.Issue
import ImpactGraph.Scan.Quiescence
import ImpactGraph.Scan.Run
import ImpactGraph.Scan.System
import ImpactGraph.Settings.Basic
import ImpactGraph.Settings.Check
import ImpactGraph.Settings.Decode
import ImpactGraph.Settings.Fault
import ImpactGraph.Settings.Layer
import ImpactGraph.Settings.Load
import ImpactGraph.Settings.Variables
import ImpactGraph.SortedMap
import ImpactGraph.Source.Alphabet
import ImpactGraph.Source.Dialect
import ImpactGraph.Source.Imports
import ImpactGraph.Source.Lexer
import ImpactGraph.Source.Load
import ImpactGraph.Source.Parser
import ImpactGraph.Source.Parser.Basic
import ImpactGraph.Source.Parser.Class
import ImpactGraph.Source.Parser.Declaration
import ImpactGraph.Source.Parser.Expression
import ImpactGraph.Source.Parser.Function
import ImpactGraph.Source.Parser.Markup
import ImpactGraph.Source.Parser.Modifier
import ImpactGraph.Source.Parser.Module
import ImpactGraph.Source.Parser.Statement
import ImpactGraph.Source.Parser.Type
import ImpactGraph.Source.Token
import ImpactGraph.Source.Tree
import ImpactGraph.Text.Blank
import ImpactGraph.Text.Cut
import ImpactGraph.Text.Utf8
import ImpactGraph.Toml.Document
import ImpactGraph.Toml.Scalar
import ImpactGraph.Toml.Text
import ImpactGraph.Proofs.Path
import ImpactGraph.Proofs.SortedMap
import ImpactGraph.Proofs.Resolve
import ImpactGraph.Proofs.Graph.Dependents
import ImpactGraph.Proofs.Graph.Ledger
import ImpactGraph.Proofs.Scan.Graph
import ImpactGraph.Proofs.Source.Load
import ImpactGraph.Proofs.Scan.Step
import ImpactGraph.Proofs.Scan.Quiescence
import ImpactGraph.Proofs.Scan.Complete
import ImpactGraph.Proofs.Scan.Outcome
import ImpactGraph.Proofs.Scan.Anchored
import ImpactGraph.Proofs.Scan.Reported
import ImpactGraph.Proofs.Scan.Issues
import ImpactGraph.Proofs.Scan.Log
import ImpactGraph.Proofs.Scan.Once
import ImpactGraph.Proofs.Scan.Finish
import ImpactGraph.Proofs.Scan.Cancel
import ImpactGraph.Proofs.Scan.Reproducible
import ImpactGraph.Proofs.Files.Place
import ImpactGraph.Proofs.Files.Walk
import ImpactGraph.Proofs.Files.Canonical
import ImpactGraph.Proofs.Scan.Canonical
import ImpactGraph.Proofs.Files.Lexical
import ImpactGraph.Proofs.Files.Disk
import ImpactGraph.Proofs.Settings.Check
import ImpactGraph.Proofs.Settings.Field
import ImpactGraph.Proofs.Settings.Decode
import ImpactGraph.Proofs.Settings.Load
import ImpactGraph.Proofs.Settings.Spelling
import ImpactGraph.Proofs.Resolve.FirstMatch
import ImpactGraph.Proofs.Scan.Depicted
import ImpactGraph.Proofs.Scan.Filters
import ImpactGraph.Proofs.Scan.Isolated
import ImpactGraph.Proofs.Path.Clean
import ImpactGraph.Proofs.Path.Units
import ImpactGraph.Proofs.Resolve.Aliased
import ImpactGraph.Proofs.Graph.Display
import ImpactGraph.Proofs.Text.Cut
import ImpactGraph.Proofs.Text.Bytes
import ImpactGraph.Proofs.Component.Script
import ImpactGraph.Proofs.Component.Rendered
import ImpactGraph.Proofs.Component.Sliced
import ImpactGraph.Proofs.Source.Bounded
import ImpactGraph.Proofs.Source.Imports
import ImpactGraph.Proofs.Descriptor
import ImpactGraph.Proofs.Descriptor.Marked
import ImpactGraph.Proofs.Change.Join
import ImpactGraph.Proofs.Change.NameStatus
import ImpactGraph.Proofs.Change.Records
import ImpactGraph.Proofs.Report.Diff
import ImpactGraph.Proofs.Graph.History
import ImpactGraph.Proofs.Scan.Waiting
import ImpactGraph.Proofs.Scan.Tracked
import ImpactGraph.Proofs.Component.Closing

import PropertyWrapper.Command.Action
import PropertyWrapper.Command.Console
import PropertyWrapper.Command.Help
import PropertyWrapper.Command.Log
import PropertyWrapper.Command.Option
import PropertyWrapper.Command.Program
import PropertyWrapper.Document.Composition
import PropertyWrapper.Document.Construction
import PropertyWrapper.Document.Content
import PropertyWrapper.Document.Hash
import PropertyWrapper.Document.Lexer
import PropertyWrapper.Document.Members
import PropertyWrapper.Document.Node
import PropertyWrapper.Document.Number
import PropertyWrapper.Document.Order
import PropertyWrapper.Document.Scalar
import PropertyWrapper.Document.Token
import PropertyWrapper.Document.Value
import PropertyWrapper.Example.Hash
import PropertyWrapper.Example.Wrapper
import PropertyWrapper.Expansion.Imports
import PropertyWrapper.Expansion.Introspect
import PropertyWrapper.Expansion.Module
import PropertyWrapper.Expansion.Property
import PropertyWrapper.Expansion.Rendering
import PropertyWrapper.Expansion.Trace
import PropertyWrapper.Files.Folder
import PropertyWrapper.Files.Path
import PropertyWrapper.Lifting.Attribute
import PropertyWrapper.Lifting.Declaration
import PropertyWrapper.Lifting.Member
import PropertyWrapper.Lifting.Pattern
import PropertyWrapper.Lifting.Reference
import PropertyWrapper.Main
import PropertyWrapper.Model.Attribute
import PropertyWrapper.Model.Config
import PropertyWrapper.Model.Declaration
import PropertyWrapper.Model.Diagnostic
import PropertyWrapper.Model.Introspection
import PropertyWrapper.Model.Mapping
import PropertyWrapper.Model.Marker
import PropertyWrapper.Model.Member
import PropertyWrapper.Model.Synthesis
import PropertyWrapper.Number.Binary64
import PropertyWrapper.Number.DigitLimit
import PropertyWrapper.Number.FloatValue
import PropertyWrapper.Number.Shortest
import PropertyWrapper.Proofs.Source.Closed
import PropertyWrapper.Registry.Basic
import PropertyWrapper.Registry.File
import PropertyWrapper.Registry.Plugin
import PropertyWrapper.Registry.Session
import PropertyWrapper.Report.Json
import PropertyWrapper.Report.Schema
import PropertyWrapper.Report.Record
import PropertyWrapper.Report.Reporter
import PropertyWrapper.Report.Terminal
import PropertyWrapper.Report.Time
import PropertyWrapper.Sorting.Stable
import PropertyWrapper.Source.ExprReader
import PropertyWrapper.Source.Grammar
import PropertyWrapper.Source.Lexer
import PropertyWrapper.Source.Literal
import PropertyWrapper.Source.Module
import PropertyWrapper.Source.PatternReader
import PropertyWrapper.Source.Printer
import PropertyWrapper.Source.StmtReader
import PropertyWrapper.Source.TextValue
import PropertyWrapper.Source.Token
import PropertyWrapper.Source.Tree
import PropertyWrapper.Text.Base64
import PropertyWrapper.Text.Blank
import PropertyWrapper.Text.Digit
import PropertyWrapper.Text.Identifier
import PropertyWrapper.Text.LowerCase
import PropertyWrapper.Text.Newline
import PropertyWrapper.Text.Printable
import PropertyWrapper.Text.Quoted
import PropertyWrapper.Text.Ranges
import PropertyWrapper.Text.Similar
import PropertyWrapper.Text.Utf8
import PropertyWrapper.Proofs.Expansion.Counts
import PropertyWrapper.Proofs.Expansion.Reach
import PropertyWrapper.Proofs.Expansion.Accounting
import PropertyWrapper.Proofs.Lifting.Values
import PropertyWrapper.Proofs.Expansion.Declared
import PropertyWrapper.Proofs.Expansion.Hygiene
import PropertyWrapper.Proofs.Expansion.Provided
import PropertyWrapper.Proofs.Expansion.Failures
import PropertyWrapper.Proofs.Expansion.Agreement
import PropertyWrapper.Proofs.Expansion.Rewritten
import PropertyWrapper.Proofs.Expansion.Emitted
import PropertyWrapper.Proofs.Expansion.Sequence
import PropertyWrapper.Proofs.Expansion.Inserted
import PropertyWrapper.Proofs.Expansion.Replacement
import PropertyWrapper.Proofs.Expansion.Frame
import PropertyWrapper.Proofs.Expansion.Unchanged
import PropertyWrapper.Proofs.Expansion.Reordering
import PropertyWrapper.Proofs.Expansion.Nesting
import PropertyWrapper.Proofs.Registry.Sessions
import PropertyWrapper.Proofs.Registry.Bootstrap
import PropertyWrapper.Proofs.Report.Notices
import PropertyWrapper.Proofs.Command.InPlace
import PropertyWrapper.Proofs.Lifting.Arguments
import PropertyWrapper.Proofs.Lifting.Creations
import PropertyWrapper.Proofs.Lifting.Properties
import PropertyWrapper.Proofs.Expansion.Labels
import PropertyWrapper.Proofs.Lifting.Stripped
import PropertyWrapper.Proofs.Expansion.Synthesis
import PropertyWrapper.Proofs.Expansion.Placement
import PropertyWrapper.Proofs.Expansion.Configuration
import PropertyWrapper.Proofs.Registry.Refusals
import PropertyWrapper.Proofs.Registry.Layers
import PropertyWrapper.Proofs.Lifting.Ordered
import PropertyWrapper.Proofs.Lifting.Chains
import PropertyWrapper.Proofs.Lifting.Immutable
import PropertyWrapper.Proofs.Example.Histories

import WiredGraph.CommandLine.Files
import WiredGraph.CommandLine.Invocation
import WiredGraph.CommandLine.Run
import WiredGraph.Compile.Error
import WiredGraph.Compile.Sources
import WiredGraph.Decimal.Binary64
import WiredGraph.Decimal.Literal
import WiredGraph.Decimal.Shortest
import WiredGraph.Descriptor.Basic
import WiredGraph.Descriptor.Callable
import WiredGraph.Descriptor.Codec
import WiredGraph.Descriptor.Table
import WiredGraph.Digest.Sha256
import WiredGraph.Document.Codec
import WiredGraph.Document.Definition
import WiredGraph.Document.Parser.Cursor
import WiredGraph.Document.Parser.Definition
import WiredGraph.Document.Parser.Selection
import WiredGraph.Document.Parser.Value
import WiredGraph.Document.Printer
import WiredGraph.Document.Selection
import WiredGraph.Document.Value
import WiredGraph.Graph.Bindings
import WiredGraph.Graph.Chain
import WiredGraph.Graph.Codec
import WiredGraph.Graph.Context
import WiredGraph.Graph.Error
import WiredGraph.Graph.Handlers
import WiredGraph.Graph.Node
import WiredGraph.Graph.Resolver
import WiredGraph.Graph.TypeGraph
import WiredGraph.Host.Codec
import WiredGraph.Host.Script
import WiredGraph.Host.ValueType
import WiredGraph.Json.Basic
import WiredGraph.Json.Decode
import WiredGraph.Json.Reader
import WiredGraph.Json.Sorted
import WiredGraph.Json.Writer
import WiredGraph.Literal.Block
import WiredGraph.Literal.Quoted
import WiredGraph.Main
import WiredGraph.Module.Label
import WiredGraph.Module.Layout
import WiredGraph.Operation.Body
import WiredGraph.Operation.Codec
import WiredGraph.Operation.Compiler
import WiredGraph.Operation.ConstantName
import WiredGraph.Operation.Fragments
import WiredGraph.Operation.Metadata
import WiredGraph.Operation.Record
import WiredGraph.Operation.Template
import WiredGraph.Operation.Typename
import WiredGraph.OrderedMap
import WiredGraph.Proofs.Document.Content
import WiredGraph.Proofs.Document.ContentLexemes
import WiredGraph.Proofs.Document.Lexemes
import WiredGraph.Proofs.Document.Parser.Completeness
import WiredGraph.Proofs.Document.Parser.Parts
import WiredGraph.Proofs.Document.Parser.Reads
import WiredGraph.Proofs.Document.Parser.Soundness
import WiredGraph.Proofs.Document.Parser.Steps
import WiredGraph.Proofs.Document.Printing
import WiredGraph.Proofs.Document.WellFormed
import WiredGraph.Proofs.Literal.Quoted
import WiredGraph.Proofs.Operation.Acceptance
import WiredGraph.Proofs.Operation.AllowList
import WiredGraph.Proofs.Operation.Compilation
import WiredGraph.Proofs.Operation.FragmentClosure
import WiredGraph.Proofs.Operation.Hashing
import WiredGraph.Proofs.Operation.Normalization
import WiredGraph.Proofs.Operation.Rendering
import WiredGraph.Proofs.Operation.Routing
import WiredGraph.Proofs.Operation.SelfContained
import WiredGraph.Proofs.Operation.Sources
import WiredGraph.Proofs.Operation.Typenames
import WiredGraph.Proofs.OrderedMap
import WiredGraph.Proofs.Success
import WiredGraph.Proofs.Token.Lexeme
import WiredGraph.Proofs.Token.Number
import WiredGraph.Proofs.Token.Spelling
import WiredGraph.Schema.Compiler
import WiredGraph.Schema.Declaration
import WiredGraph.Schema.Field
import WiredGraph.Schema.Literal
import WiredGraph.Schema.Wiring
import WiredGraph.Source.Diagnostic
import WiredGraph.Source.File
import WiredGraph.Source.LineIndex
import WiredGraph.Source.Span
import WiredGraph.Source.Utf8
import WiredGraph.Source.Vocabulary
import WiredGraph.Text.Ascii
import WiredGraph.Text.Blank
import WiredGraph.Text.CaseTable
import WiredGraph.Text.Cut
import WiredGraph.Text.LowerCase
import WiredGraph.Token.Kind
import WiredGraph.Token.Location
import WiredGraph.Token.Scan
import WiredGraph.Wiring.Reference
import WiredGraph.Wiring.Settings
import WiredGraph.Proofs.Document.RoundTrip
import WiredGraph.Proofs.Schema.Field
import WiredGraph.Proofs.Schema.Declaration
import WiredGraph.Proofs.Schema.Description
import WiredGraph.Proofs.Schema.Compilation
import WiredGraph.Proofs.Schema.Acceptance
import WiredGraph.Proofs.Schema.Partition
import WiredGraph.Proofs.Schema.Invocations
import WiredGraph.Proofs.Graph.Merging
import WiredGraph.Proofs.Graph.LoadOrder
import WiredGraph.Proofs.Graph.Lookup
import WiredGraph.Proofs.Graph.Request
import WiredGraph.Proofs.Graph.Memoization
import WiredGraph.Proofs.Graph.Serving
import WiredGraph.Proofs.Graph.Building
import WiredGraph.Proofs.Graph.Access
import WiredGraph.Proofs.Graph.BuiltOnce
import WiredGraph.Proofs.Graph.FailedBuild
import WiredGraph.Proofs.SameOutcome
import WiredGraph.Proofs.Document.Parser.Agreement
import WiredGraph.Proofs.Document.Reformatting
import WiredGraph.Proofs.Operation.Formatting
import WiredGraph.Proofs.Operation.InputOrder
import WiredGraph.Proofs.Document.Recognition
import WiredGraph.Proofs.Artifact
import WiredGraph.Proofs.Schema.Defaults
import WiredGraph.Proofs.Operation.Templates
import WiredGraph.Proofs.Operation.Constants
import WiredGraph.Proofs.Token.Append
import WiredGraph.Proofs.Document.Parser.Persistence
import WiredGraph.Proofs.Document.Parser.Closing
import WiredGraph.Proofs.Document.Continuation
import WiredGraph.Proofs.Document.TypeSystem.Content
import WiredGraph.Proofs.Document.TypeSystem.WellFormed
import WiredGraph.Proofs.Document.TypeSystem.Grammar
import WiredGraph.Proofs.Document.TypeSystem.Lexemes
import WiredGraph.Proofs.Document.TypeSystem.Completeness
import WiredGraph.Proofs.Document.TypeSystem.Printing
import WiredGraph.Proofs.Document.TypeSystem.RoundTrip
import WiredGraph.Proofs.Operation.DefinitionOrder
import WiredGraph.Proofs.Schema.Agreement
import WiredGraph.Proofs.Schema.MergedExtensions
import WiredGraph.Proofs.CommandLine.Paths
import WiredGraph.Proofs.CommandLine.FileMap
import WiredGraph.Proofs.CommandLine.Running
import WiredGraph.Proofs.CommandLine.Outputs
import WiredGraph.Proofs.Operation.TypenamePlaces
import WiredGraph.Proofs.Graph.Layers
import WiredGraph.Proofs.Graph.MergeRules
import WiredGraph.Proofs.Wiring.Reference
import WiredGraph.Proofs.Source.Lines
import WiredGraph.Proofs.Source.Bytes
import WiredGraph.Proofs.Source.LineStarts
import WiredGraph.Proofs.Source.Positions
import WiredGraph.Proofs.Source.Vocabulary
import WiredGraph.Proofs.Operation.HostLines
import WiredGraph.Proofs.Text.Cutting
import WiredGraph.Proofs.Literal.Block
import WiredGraph.Proofs.Source.Boundaries
import WiredGraph.Proofs.Literal.BlockLayout
import WiredGraph.Proofs.Document.BlockStrings
import WiredGraph.Proofs.Document.SpanTree
import WiredGraph.Proofs.Document.Parser.Passing
import WiredGraph.Proofs.Document.Parser.Places
import WiredGraph.Proofs.Document.Parser.Placement
import WiredGraph.Proofs.Document.Parser.Completion
import WiredGraph.Proofs.Document.InPlace
import WiredGraph.Proofs.Document.Parser.Bounds
import WiredGraph.Proofs.Document.Consumption
import WiredGraph.Proofs.Token.Tiling
import WiredGraph.Proofs.Token.Quoted
import WiredGraph.Proofs.Module.NestedLayout
import WiredGraph.Proofs.Document.BlockIndentation
import WiredGraph.Proofs.Literal.Escapes
import WiredGraph.Proofs.Operation.WordBreaks

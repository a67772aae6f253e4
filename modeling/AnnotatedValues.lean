import AnnotatedValues.Annotation.Basic
import AnnotatedValues.Annotation.Line
import AnnotatedValues.Annotation.Literal
import AnnotatedValues.Annotation.Modifier
import AnnotatedValues.Annotation.Scan
import AnnotatedValues.Builtin
import AnnotatedValues.CommandLine.Arguments
import AnnotatedValues.CommandLine.Run
import AnnotatedValues.Decimal.Binary64
import AnnotatedValues.Decimal.Shortest
import AnnotatedValues.Decimal.Text
import AnnotatedValues.DefaultValue
import AnnotatedValues.Document.Basic
import AnnotatedValues.Document.Json
import AnnotatedValues.Error
import AnnotatedValues.Files.Basic
import AnnotatedValues.Files.Directory
import AnnotatedValues.Files.Matching
import AnnotatedValues.Files.Path
import AnnotatedValues.Files.Wildcard
import AnnotatedValues.Go.Declaration
import AnnotatedValues.Go.Default
import AnnotatedValues.Go.File
import AnnotatedValues.Go.Type
import AnnotatedValues.Graph.Arena
import AnnotatedValues.Graph.Basic
import AnnotatedValues.Graph.Build
import AnnotatedValues.Graph.Samples
import AnnotatedValues.Main
import AnnotatedValues.Proofs.Annotation.Attachment
import AnnotatedValues.Proofs.Annotation.Brackets
import AnnotatedValues.Proofs.Annotation.Collections
import AnnotatedValues.Proofs.Annotation.Directives
import AnnotatedValues.Proofs.Annotation.Line
import AnnotatedValues.Proofs.Annotation.Modifiers
import AnnotatedValues.Proofs.Annotation.Scan
import AnnotatedValues.Proofs.Annotation.Sections
import AnnotatedValues.Proofs.Annotation.Skipped
import AnnotatedValues.Proofs.Annotation.Spellings
import AnnotatedValues.Proofs.Arena.Build
import AnnotatedValues.Proofs.Arena.Graph
import AnnotatedValues.Proofs.Arena.Layout
import AnnotatedValues.Proofs.Arena.Links
import AnnotatedValues.Proofs.Arena.Samples
import AnnotatedValues.Proofs.CommandLine.Generate
import AnnotatedValues.Proofs.Decimal.Digits
import AnnotatedValues.Proofs.Decimal.Text
import AnnotatedValues.Proofs.Document.Json
import AnnotatedValues.Proofs.Document.Order
import AnnotatedValues.Proofs.Equivalence
import AnnotatedValues.Proofs.Expansions
import AnnotatedValues.Proofs.Fallible
import AnnotatedValues.Proofs.Files.Directory
import AnnotatedValues.Proofs.Generation
import AnnotatedValues.Proofs.Go.Declared
import AnnotatedValues.Proofs.Go.Default
import AnnotatedValues.Proofs.Go.Distinct
import AnnotatedValues.Proofs.Go.Imports
import AnnotatedValues.Proofs.Go.Legal
import AnnotatedValues.Proofs.Go.LineForm
import AnnotatedValues.Proofs.Go.Lines
import AnnotatedValues.Proofs.Go.Texts
import AnnotatedValues.Proofs.Go.Writer
import AnnotatedValues.Proofs.Graph.Alias
import AnnotatedValues.Proofs.Graph.Descent
import AnnotatedValues.Proofs.Graph.Equivalence
import AnnotatedValues.Proofs.Graph.Filling
import AnnotatedValues.Proofs.Graph.Lookup
import AnnotatedValues.Proofs.Graph.Members
import AnnotatedValues.Proofs.Graph.Order
import AnnotatedValues.Proofs.Graph.Redeclaration
import AnnotatedValues.Proofs.Graph.Rows
import AnnotatedValues.Proofs.Graph.Samples
import AnnotatedValues.Proofs.Graph.Texts
import AnnotatedValues.Proofs.Graph.WellFormed
import AnnotatedValues.Proofs.Keyed
import AnnotatedValues.Proofs.MissingSchemas
import AnnotatedValues.Proofs.Nesting
import AnnotatedValues.Proofs.Parameters
import AnnotatedValues.Proofs.Positions
import AnnotatedValues.Proofs.Reading
import AnnotatedValues.Proofs.Report
import AnnotatedValues.Proofs.Resolved.Collisions
import AnnotatedValues.Proofs.Resolved.Emitted
import AnnotatedValues.Proofs.Resolved.Equivalence
import AnnotatedValues.Proofs.Resolved.Identifiers
import AnnotatedValues.Proofs.Resolved.LetterCase
import AnnotatedValues.Proofs.Resolved.Members
import AnnotatedValues.Proofs.Resolved.Reachability
import AnnotatedValues.Proofs.Resolved.Resolution
import AnnotatedValues.Proofs.Resolved.Spelling
import AnnotatedValues.Proofs.Resolved.Structs
import AnnotatedValues.Proofs.Resolved.Sweep
import AnnotatedValues.Proofs.Resolved.Undefined
import AnnotatedValues.Proofs.RowOrder
import AnnotatedValues.Proofs.Sampling
import AnnotatedValues.Proofs.Schema.Admission
import AnnotatedValues.Proofs.Schema.Agreement
import AnnotatedValues.Proofs.Schema.Annotated
import AnnotatedValues.Proofs.Schema.Choices
import AnnotatedValues.Proofs.Schema.Compile
import AnnotatedValues.Proofs.Schema.Default
import AnnotatedValues.Proofs.Schema.Enumerated
import AnnotatedValues.Proofs.Schema.Nesting
import AnnotatedValues.Proofs.Table.Build
import AnnotatedValues.Proofs.Table.CodeSpan
import AnnotatedValues.Proofs.Table.Coverage
import AnnotatedValues.Proofs.Table.Default
import AnnotatedValues.Proofs.Table.Layout
import AnnotatedValues.Proofs.Table.Markdown
import AnnotatedValues.Proofs.Table.Nesting
import AnnotatedValues.Proofs.Table.Parameters
import AnnotatedValues.Proofs.Table.Paths
import AnnotatedValues.Proofs.Table.Readme
import AnnotatedValues.Proofs.Table.Splice
import AnnotatedValues.Proofs.Text.Lines
import AnnotatedValues.Proofs.Text.Trimming
import AnnotatedValues.Proofs.TypeExpr.Grammar
import AnnotatedValues.Proofs.TypeExpr.Written
import AnnotatedValues.Proofs.Validation
import AnnotatedValues.Proofs.Walk
import AnnotatedValues.Proofs.Yaml.Number
import AnnotatedValues.Proofs.Yaml.Word
import AnnotatedValues.Resolved.Identifier
import AnnotatedValues.Resolved.Reach
import AnnotatedValues.Resolved.Resolver
import AnnotatedValues.Resolved.Type
import AnnotatedValues.Schema.Basic
import AnnotatedValues.Schema.Compile
import AnnotatedValues.Schema.Resource
import AnnotatedValues.Table.Basic
import AnnotatedValues.Table.Build
import AnnotatedValues.Table.Cell
import AnnotatedValues.Table.Markdown
import AnnotatedValues.Table.Readme
import AnnotatedValues.Text.Blank
import AnnotatedValues.Text.Case
import AnnotatedValues.Text.CaseTable
import AnnotatedValues.Text.Word
import AnnotatedValues.Text.WordRanges
import AnnotatedValues.TypeExpr.Basic
import AnnotatedValues.TypeExpr.Parser
import AnnotatedValues.Validation
import AnnotatedValues.ValuesFile
import AnnotatedValues.Yaml.Block
import AnnotatedValues.Yaml.Character
import AnnotatedValues.Yaml.Event
import AnnotatedValues.Yaml.Plain
import AnnotatedValues.Yaml.Reading
import AnnotatedValues.Yaml.Token
import AnnotatedValues.Yaml.Token.Property
import AnnotatedValues.Yaml.Token.Scalar
import AnnotatedValues.Yaml.Token.Stream

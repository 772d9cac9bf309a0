import MaterialGraph.CommandLine.Arguments
import MaterialGraph.CommandLine.Directory
import MaterialGraph.CommandLine.Report
import MaterialGraph.CommandLine.Run
import MaterialGraph.Document.Basic
import MaterialGraph.Document.Json
import MaterialGraph.Document.Literal
import MaterialGraph.Document.Load
import MaterialGraph.Error
import MaterialGraph.Formula.Basic
import MaterialGraph.Formula.Operand
import MaterialGraph.Graph.Basic
import MaterialGraph.Graph.Edit
import MaterialGraph.Graph.Order
import MaterialGraph.Json.Decoder
import MaterialGraph.Json.Fault
import MaterialGraph.Json.Number
import MaterialGraph.Json.Printer
import MaterialGraph.Json.Token
import MaterialGraph.Json.Tree
import MaterialGraph.Json.Value
import MaterialGraph.Kind.Basic
import MaterialGraph.Kind.Formula
import MaterialGraph.Kind.Schema
import MaterialGraph.Main
import MaterialGraph.Mode
import MaterialGraph.Number.Binary
import MaterialGraph.Number.Decimal
import MaterialGraph.Number.Fixed
import MaterialGraph.Number.Rounding
import MaterialGraph.Number.Shortest
import MaterialGraph.Options.Basic
import MaterialGraph.Options.Json
import MaterialGraph.Proofs.CommandLine.Arguments
import MaterialGraph.Proofs.CommandLine.Run
import MaterialGraph.Proofs.Document.Loaded
import MaterialGraph.Proofs.Document.Loading
import MaterialGraph.Proofs.Document.Modes
import MaterialGraph.Proofs.Document.Rearrangement
import MaterialGraph.Proofs.Document.Writing
import MaterialGraph.Proofs.Expression.Grammar
import MaterialGraph.Proofs.Expression.Operand
import MaterialGraph.Proofs.Expression.Reader
import MaterialGraph.Proofs.Expression.Token
import MaterialGraph.Proofs.Expression.Typing
import MaterialGraph.Proofs.Formula.Characters
import MaterialGraph.Proofs.Formula.Reading
import MaterialGraph.Proofs.Graph.Authoring
import MaterialGraph.Proofs.Graph.Invariant
import MaterialGraph.Proofs.Graph.Relocation
import MaterialGraph.Proofs.Json.Canonical
import MaterialGraph.Proofs.Json.Decoder
import MaterialGraph.Proofs.Json.Reading
import MaterialGraph.Proofs.Kind.Naming
import MaterialGraph.Proofs.Kind.Operation
import MaterialGraph.Proofs.Kind.Typing
import MaterialGraph.Proofs.Order.Dependence
import MaterialGraph.Proofs.Order.Evaluate
import MaterialGraph.Proofs.Order.Marks
import MaterialGraph.Proofs.Order.Relocation
import MaterialGraph.Proofs.Order.Search
import MaterialGraph.Proofs.Scope.Allocation
import MaterialGraph.Proofs.Scope.Blocks
import MaterialGraph.Proofs.Scope.History
import MaterialGraph.Proofs.Scope.Nesting
import MaterialGraph.Proofs.Scope.Within
import MaterialGraph.Proofs.Shader.Comments
import MaterialGraph.Proofs.Shader.Emission
import MaterialGraph.Proofs.Shader.Execution
import MaterialGraph.Proofs.Shader.Hosting
import MaterialGraph.Proofs.Shader.Outcome
import MaterialGraph.Proofs.Shader.Shape
import MaterialGraph.Proofs.Shader.Typing
import MaterialGraph.Proofs.Shader.Wrapping
import MaterialGraph.Proofs.Text.Lines
import MaterialGraph.Scope
import MaterialGraph.Shader.Body
import MaterialGraph.Shader.Fragment
import MaterialGraph.Shader.Listing
import MaterialGraph.Shader.Program
import MaterialGraph.Text.Blank
import MaterialGraph.Text.Lines
import MaterialGraph.Text.Printable
import MaterialGraph.Text.Quoted
import MaterialGraph.Value
import MaterialGraph.Proofs.Graph.Locality
import MaterialGraph.Proofs.Order.Recursion
import MaterialGraph.Proofs.Shader.Presentation
import MaterialGraph.Proofs.Number.Binary
import MaterialGraph.Proofs.Number.Fixed
import MaterialGraph.Proofs.Number.Rereading
import MaterialGraph.Proofs.Json.Numeral
import MaterialGraph.Proofs.Document.Literal
import MaterialGraph.Proofs.Formula.Brackets
import MaterialGraph.Proofs.Shader.Brackets

import TemplateTree.Calendar
import TemplateTree.CommandLine.Run
import TemplateTree.Document.Parse
import TemplateTree.Expr.Check
import TemplateTree.Main
import TemplateTree.Module
import TemplateTree.Session
import TemplateTree.Settings.File
import TemplateTree.Text.Identifier
import TemplateTree.Yaml.Load
import TemplateTree.Proofs.Target.Lexer
import TemplateTree.Proofs.Target.Reader
import TemplateTree.Proofs.Target.Reading
import TemplateTree.Proofs.Code.Term
import TemplateTree.Proofs.Code.Binding
import TemplateTree.Proofs.Code.Reading
import TemplateTree.Proofs.Settings.Names
import TemplateTree.Proofs.Expr.Induction
import TemplateTree.Proofs.Target.Datum
import TemplateTree.Proofs.Target.Evaluation
import TemplateTree.Proofs.Expr.Meaning
import TemplateTree.Proofs.Code.Denotation
import TemplateTree.Proofs.Code.Loops
import TemplateTree.Proofs.Code.Correctness
import TemplateTree.Proofs.Code.Unambiguous
import TemplateTree.Proofs.Code.Context
import TemplateTree.Proofs.Text.Hanging
import TemplateTree.Proofs.Code.Layout
import TemplateTree.Proofs.Rendering
import TemplateTree.Proofs.Document.Token
import TemplateTree.Proofs.Document.Image
import TemplateTree.Proofs.Expr.Parts
import TemplateTree.Proofs.Code.Depth
import TemplateTree.Proofs.Session
import TemplateTree.Proofs.Target.Identity
import TemplateTree.Proofs.Target.Scoping
import TemplateTree.Proofs.Code.Hygiene
import TemplateTree.Proofs.Number.Rounding
import TemplateTree.Proofs.Number.Shortest
import TemplateTree.Proofs.Json.Basic
import TemplateTree.Proofs.Json.Literal
import TemplateTree.Proofs.Json.Word
import TemplateTree.Proofs.Json.Spot
import TemplateTree.Proofs.Json.Lexemes
import TemplateTree.Proofs.Json.Nodes
import TemplateTree.Proofs.Json.Decoding
import TemplateTree.Proofs.Document.Agreement
import TemplateTree.Proofs.Document.Likeness
import TemplateTree.Proofs.Json.Meaning
import TemplateTree.Proofs.Code.StringLiteral
import TemplateTree.Proofs.Json.Quotation
import TemplateTree.Proofs.Docstring
import TemplateTree.Proofs.Code.Characters
import TemplateTree.Proofs.CommandLine.Arguments
import TemplateTree.Proofs.FileSystem
import TemplateTree.Proofs.Text.Terminal
import TemplateTree.Proofs.CommandLine.Output
import TemplateTree.Proofs.Value.Parts
import TemplateTree.Proofs.Document.Sharing
import TemplateTree.Proofs.Document.Rearrangement
import TemplateTree.Proofs.Document.Respelling
import TemplateTree.Proofs.Document.Visit
import TemplateTree.Proofs.Document.Faults
import TemplateTree.Proofs.Document.Refusal
import TemplateTree.Proofs.Document.Grammar
import TemplateTree.Proofs.Document.Acceptance
import TemplateTree.Proofs.Expr.Classification
import TemplateTree.Proofs.Document.Inheritance
import TemplateTree.Proofs.Settings.Fields
import TemplateTree.Proofs.Settings.File
import TemplateTree.Proofs.FileSystem.Way
import TemplateTree.Proofs.CommandLine.Delivery
import TemplateTree.Proofs.Failing
import TemplateTree.Proofs.Document.Snags
import TemplateTree.Proofs.Yaml.Scalar
import TemplateTree.Proofs.Yaml.Stumble
import TemplateTree.Proofs.Yaml.Node
import TemplateTree.Proofs.Yaml.Decode
import TemplateTree.Proofs.Document.Outcome

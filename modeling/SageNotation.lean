import SageNotation.Reading
import SageNotation.Text.Blank
import SageNotation.Text.Lines
import SageNotation.Text.Ranges
import SageNotation.Text.Similar
import SageNotation.Text.Alphanumeric
import SageNotation.Text.Printable
import SageNotation.Text.Quoted
import SageNotation.Text.Escapes
import SageNotation.Source.Position
import SageNotation.Source.Text
import SageNotation.Token.Kind
import SageNotation.Token.Basic
import SageNotation.Token.Scan
import SageNotation.Document.Basic
import SageNotation.Document.Signature
import SageNotation.Document.Data
import SageNotation.Document.Tree
import SageNotation.Grammar.Reading
import SageNotation.Grammar.Types
import SageNotation.Grammar.Statements
import SageNotation.Grammar.Declarations
import SageNotation.Grammar.Refinements
import SageNotation.Grammar.Documents
import SageNotation.Diagnostic.Basic
import SageNotation.Diagnostic.Finding
import SageNotation.Diagnostic.Check
import SageNotation.Diagnostic.Render
import SageNotation.Editor.Range
import SageNotation.Editor.Symbol
import SageNotation.Editor.Word
import SageNotation.Editor.Help
import SageNotation.Editor.Session
import SageNotation.Highlight.Category
import SageNotation.Highlight.Scan
import SageNotation.Highlight.Terminal
import SageNotation.Files.Path
import SageNotation.Files.Tree
import SageNotation.Files.Pattern
import SageNotation.Config.Decimal
import SageNotation.Config.Value
import SageNotation.Config.Lexical
import SageNotation.Config.Moment
import SageNotation.Config.Reader
import SageNotation.Config.Settings
import SageNotation.Command.Report
import SageNotation.Command.Arguments
import SageNotation.Command.Request
import SageNotation.Command.Check
import SageNotation.Command.Help
import SageNotation.Command.Run
import SageNotation.Main
import SageNotation.Proofs.Source.Order
import SageNotation.Proofs.Source.Table
import SageNotation.Proofs.Source.Rows
import SageNotation.Proofs.Source.Lookup
import SageNotation.Proofs.Source.Lines
import SageNotation.Proofs.Files.Names
import SageNotation.Proofs.Config.Search
import SageNotation.Proofs.Token.Lexeme
import SageNotation.Proofs.Token.Partition
import SageNotation.Proofs.Token.Spelling
import SageNotation.Proofs.Token.Places
import SageNotation.Proofs.Token.Breaks
import SageNotation.Proofs.Token.Seams
import SageNotation.Proofs.Token.Rendered
import SageNotation.Proofs.Token.Landmarks
import SageNotation.Proofs.Document.Nesting
import SageNotation.Proofs.Document.Unplaced
import SageNotation.Proofs.Document.Prose
import SageNotation.Proofs.Document.View
import SageNotation.Proofs.Document.Faithful
import SageNotation.Proofs.Document.Schema
import SageNotation.Proofs.Document.PlainData
import SageNotation.Proofs.Grammar.Extent
import SageNotation.Proofs.Grammar.Types
import SageNotation.Proofs.Grammar.Nodes
import SageNotation.Proofs.Grammar.Coverage
import SageNotation.Proofs.Grammar.Progress
import SageNotation.Proofs.Grammar.Origins
import SageNotation.Proofs.Cut.Reading
import SageNotation.Proofs.Cut.Statements
import SageNotation.Proofs.Cut.Types
import SageNotation.Proofs.Cut.Declarations
import SageNotation.Proofs.Cut.Refinements
import SageNotation.Proofs.Cut.Documents
import SageNotation.Proofs.Signature.Types
import SageNotation.Proofs.Signature.Declarations
import SageNotation.Proofs.Signature.Documents
import SageNotation.Proofs.Prose.Words
import SageNotation.Proofs.Prose.Statements
import SageNotation.Proofs.Prose.Declarations
import SageNotation.Proofs.Prose.Refinements
import SageNotation.Proofs.Prose.Documents
import SageNotation.Proofs.Likeness.Reading
import SageNotation.Proofs.Likeness.Types
import SageNotation.Proofs.Likeness.Statements
import SageNotation.Proofs.Likeness.Declarations
import SageNotation.Proofs.Likeness.Refinements
import SageNotation.Proofs.Likeness.Documents
import SageNotation.Proofs.Likeness.Comments
import SageNotation.Proofs.Token.Firm
import SageNotation.Proofs.Token.Symbols
import SageNotation.Proofs.Grammar.Wrapping
import SageNotation.Proofs.Grammar.Derivations
import SageNotation.Proofs.Signature.Printed
import SageNotation.Proofs.Grammar.Bindings
import SageNotation.Proofs.Grammar.Fallback
import SageNotation.Proofs.Grammar.Inferences
import SageNotation.Proofs.Grammar.Decisions
import SageNotation.Proofs.Diagnostic.Findings
import SageNotation.Proofs.Diagnostic.Spans
import SageNotation.Proofs.Diagnostic.Errors
import SageNotation.Proofs.Diagnostic.Passes
import SageNotation.Proofs.Diagnostic.Registry
import SageNotation.Proofs.Diagnostic.Duplicates
import SageNotation.Proofs.Diagnostic.Carets
import SageNotation.Proofs.Highlight.Pieces
import SageNotation.Proofs.Highlight.Agreement
import SageNotation.Proofs.Highlight.Errors
import SageNotation.Proofs.Editor.Histories
import SageNotation.Proofs.Editor.Ranges
import SageNotation.Proofs.Editor.Words
import SageNotation.Proofs.Editor.Completions
import SageNotation.Proofs.Command.Totals

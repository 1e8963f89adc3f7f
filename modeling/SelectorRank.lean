import SelectorRank.CommandLine.Flag
import SelectorRank.CommandLine.Program
import SelectorRank.CommandLine.Report
import SelectorRank.CommandLine.Request
import SelectorRank.CommandLine.Settings
import SelectorRank.CommandLine.Usage
import SelectorRank.CommandLine.Word
import SelectorRank.Datum
import SelectorRank.Datum.Check
import SelectorRank.Datum.Fault
import SelectorRank.Datum.Load
import SelectorRank.Datum.Render
import SelectorRank.Decimal.Shortest
import SelectorRank.Declaration
import SelectorRank.Declaration.Item
import SelectorRank.Declaration.Order
import SelectorRank.Diagnostic
import SelectorRank.Failure
import SelectorRank.Files.Directory
import SelectorRank.Files.FileName
import SelectorRank.Grammar.Conversion
import SelectorRank.Grammar.Cursor
import SelectorRank.Grammar.Fault
import SelectorRank.Grammar.Piece
import SelectorRank.Grammar.Selector
import SelectorRank.Grammar.Tree
import SelectorRank.Lexeme
import SelectorRank.Lexeme.Scan
import SelectorRank.Lexeme.Unescape
import SelectorRank.Main
import SelectorRank.Outline
import SelectorRank.Parse
import SelectorRank.Series
import SelectorRank.Session
import SelectorRank.Sorting.Insertion
import SelectorRank.Sorting.Merge
import SelectorRank.Sorting.Runs
import SelectorRank.Source.Excerpt
import SelectorRank.Source.Position
import SelectorRank.Specificity
import SelectorRank.Store
import SelectorRank.Spelling
import SelectorRank.Text.Blank
import SelectorRank.Text.Digit
import SelectorRank.Text.Printable
import SelectorRank.Text.Quoted
import SelectorRank.Text.Utf8
import SelectorRank.Token
import SelectorRank.Token.Text
import SelectorRank.Toml.Blank
import SelectorRank.Toml.Document
import SelectorRank.Toml.Fault
import SelectorRank.Toml.Item
import SelectorRank.Toml.Moment
import SelectorRank.Toml.Number
import SelectorRank.Toml.Quote
import SelectorRank.Toml.Table
import SelectorRank.Toml.Value
import SelectorRank.Proofs.Outcome
import SelectorRank.Proofs.Sorting.Insertion
import SelectorRank.Proofs.Sorting.Merge
import SelectorRank.Proofs.Sorting.Runs
import SelectorRank.Proofs.Declaration.Order
import SelectorRank.Proofs.Declaration.Comparable
import SelectorRank.Proofs.Spelling
import SelectorRank.Proofs.Series
import SelectorRank.Proofs.Token.Shape
import SelectorRank.Proofs.Token.Text
import SelectorRank.Proofs.Lexeme.Scan
import SelectorRank.Proofs.Lexeme.Place
import SelectorRank.Proofs.Grammar.Named
import SelectorRank.Proofs.Grammar.Cursor
import SelectorRank.Proofs.Grammar.Piece
import SelectorRank.Proofs.Grammar.Part
import SelectorRank.Proofs.Grammar.Selector
import SelectorRank.Proofs.Parse
import SelectorRank.Proofs.Lexeme.Lexicon
import SelectorRank.Proofs.Grammar.Conversion
import SelectorRank.Proofs.Grammar.Intake
import SelectorRank.Proofs.Grammar.Weight
import SelectorRank.Proofs.Grammar.Refusal
import SelectorRank.Proofs.Grammar.Output
import SelectorRank.Proofs.Grammar.Alike
import SelectorRank.Proofs.Grammar.Tally
import SelectorRank.Proofs.Token.Tally
import SelectorRank.Proofs.Lexeme.Margin
import SelectorRank.Proofs.Lexeme.Trail
import SelectorRank.Proofs.Lexeme.Edge
import SelectorRank.Proofs.Token.Lexemes
import SelectorRank.Proofs.Lexeme.Spelled
import SelectorRank.Proofs.Token.Canonical
import SelectorRank.Proofs.Normalize
import SelectorRank.Proofs.Text.Lines
import SelectorRank.Proofs.Source.Excerpt
import SelectorRank.Proofs.Datum.Check
import SelectorRank.Proofs.Datum.Lookup
import SelectorRank.Proofs.Datum.Load
import SelectorRank.Proofs.Parse.Shape
import SelectorRank.Proofs.Parse.Place
import SelectorRank.Proofs.Store
import SelectorRank.Proofs.Diagnostic
import SelectorRank.Proofs.Declaration.Preorder
import SelectorRank.Proofs.Declaration.Deletion
import SelectorRank.Proofs.Diagnostic.Repetition
import SelectorRank.Proofs.Diagnostic.Workspace
import SelectorRank.Proofs.CommandLine.Settings
import SelectorRank.Proofs.CommandLine.Program
import SelectorRank.Proofs.Parse.Strip
import SelectorRank.Datum.Outline
import SelectorRank.Proofs.Specificity
import SelectorRank.Proofs.Datum.Render
import SelectorRank.Proofs.Datum.Outline
import SelectorRank.Proofs.Declaration.Weight
import SelectorRank.Proofs.Datum.Encoding
import SelectorRank.Proofs.Token.Control
import SelectorRank.Proofs.CommandLine.Report
import SelectorRank.Proofs.Text.Quoted
import SelectorRank.Proofs.Outline
import SelectorRank.Proofs.Source.Position
import SelectorRank.Proofs.Series.Shortest

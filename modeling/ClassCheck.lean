import ClassCheck.ClassTable.Ancestors
import ClassCheck.ClassTable.Basic
import ClassCheck.ClassTable.Resolve
import ClassCheck.CommandLine
import ClassCheck.Compile
import ClassCheck.Declare.Classes
import ClassCheck.Declare.Members
import ClassCheck.Diagnostic.Basic
import ClassCheck.Diagnostic.Ink
import ClassCheck.Diagnostic.Render
import ClassCheck.Grammar.Decl
import ClassCheck.Grammar.Expr
import ClassCheck.Grammar.Literal
import ClassCheck.Grammar.Reader
import ClassCheck.Grammar.Recovery
import ClassCheck.Grammar.Stmt
import ClassCheck.Layout
import ClassCheck.Log
import ClassCheck.Main
import ClassCheck.Program.Basic
import ClassCheck.Program.Outline
import ClassCheck.Proofs.Program.Trees
import ClassCheck.Report
import ClassCheck.SemanticError
import ClassCheck.Source
import ClassCheck.Span
import ClassCheck.Text.Align
import ClassCheck.Text.Blank
import ClassCheck.Text.Alphabet
import ClassCheck.Text.Unicode
import ClassCheck.Text.Quoted
import ClassCheck.Text.Ranges
import ClassCheck.Text.Visible
import ClassCheck.Token.Basic
import ClassCheck.Token.Piece
import ClassCheck.Token.Scan
import ClassCheck.Ty
import ClassCheck.Typing
import ClassCheck.Proofs.Parser.Basic
import ClassCheck.Proofs.Parser.Expr
import ClassCheck.Proofs.Parser.Stmt
import ClassCheck.Proofs.Parser.Decl
import ClassCheck.Proofs.Grammar.Words
import ClassCheck.Proofs.Grammar.Levels
import ClassCheck.Proofs.Grammar.Steps
import ClassCheck.Proofs.Parser.Refines
import ClassCheck.Proofs.Grammar.Soundness
import ClassCheck.Proofs.Grammar.Reading
import ClassCheck.Proofs.Grammar.ReadBack
import ClassCheck.Proofs.Grammar.Completeness
import ClassCheck.Proofs.Grammar.Decimal
import ClassCheck.Proofs.Grammar.WholeFile
import ClassCheck.Proofs.Token.Lexemes
import ClassCheck.Proofs.Grammar.RoundTrip
import ClassCheck.Proofs.ClassTable.Order
import ClassCheck.Proofs.Declare.Classes
import ClassCheck.Proofs.Declare.Members
import ClassCheck.Proofs.Declare.Overriding
import ClassCheck.Proofs.ClassTable.Plain
import ClassCheck.Proofs.ClassTable.Marks
import ClassCheck.Proofs.Declare.Distinct
import ClassCheck.Proofs.ClassTable.Lookup
import ClassCheck.Proofs.Typing.Grounded
import ClassCheck.Proofs.Typing.Names
import ClassCheck.Proofs.Typing.Rules
import ClassCheck.Proofs.Typing.Blind
import ClassCheck.Proofs.Layout.Blocks
import ClassCheck.Proofs.Layout.Table
import ClassCheck.Proofs.Layout.Fields
import ClassCheck.Proofs.Layout.Slots
import ClassCheck.Proofs.Passes
import ClassCheck.Proofs.ClassTable.Lineage
import ClassCheck.Proofs.ClassTable.Retype
import ClassCheck.Proofs.Typing.Narrowing
import ClassCheck.Proofs.Grammar.Locality
import ClassCheck.Proofs.Grammar.Segments
import ClassCheck.Proofs.Text.Slice
import ClassCheck.Proofs.Token.Cut
import ClassCheck.Proofs.Token.Places
import ClassCheck.Proofs.Grammar.Spelling
import ClassCheck.Proofs.Grammar.Locations
import ClassCheck.Proofs.Grammar.Spans
import ClassCheck.Proofs.Token.Comments
import ClassCheck.Proofs.Token.Account
import ClassCheck.Proofs.Text.Lines
import ClassCheck.Proofs.Token.NextLine
import ClassCheck.Proofs.Text.Classes
import ClassCheck.Proofs.Token.Printing
import ClassCheck.Proofs.Grammar.Bare
import ClassCheck.Proofs.Typing.Bare
import ClassCheck.Proofs.SameTokens
import ClassCheck.Proofs.Phases
import ClassCheck.Proofs.Grammar.Bounds
import ClassCheck.Proofs.Grammar.Progress
import ClassCheck.Proofs.Layout.Insertion
import ClassCheck.Proofs.Text.Positions
import ClassCheck.Proofs.Typing.Sites
import ClassCheck.Proofs.Grammar.Stops
import ClassCheck.Proofs.Pointing
import ClassCheck.Proofs.ClassTable.Assignability
import ClassCheck.Proofs.Declare.Acceptance
import ClassCheck.Proofs.Declare.Hierarchy
import ClassCheck.Proofs.Declare.WellFormed
import ClassCheck.Proofs.Layout.Listing
import ClassCheck.Proofs.ClassTable.Building
import ClassCheck.Proofs.ClassTable.Addresses
import ClassCheck.Proofs.ClassTable.Variables
import ClassCheck.Proofs.Text.Offsets
import ClassCheck.Proofs.Reports
import ClassCheck.Proofs.Typing.Codes
import ClassCheck.Proofs.Grammar.Replies
import ClassCheck.Proofs.Underlines

import NameResolution.Analysis.Analyzer
import NameResolution.Analysis.Declaration
import NameResolution.Analysis.Program
import NameResolution.Analysis.Resolve
import NameResolution.Analysis.Statement
import NameResolution.Analysis.Use
import NameResolution.CommandLine.Arguments
import NameResolution.CommandLine.FileTree
import NameResolution.CommandLine.Message
import NameResolution.CommandLine.Path
import NameResolution.CommandLine.Run
import NameResolution.CommandLine.Switch
import NameResolution.Diagnostic
import NameResolution.Dump.Tree
import NameResolution.Dump.Value
import NameResolution.Grammar.Capture
import NameResolution.Grammar.Expression
import NameResolution.Grammar.Lexeme
import NameResolution.Grammar.Parser
import NameResolution.Grammar.Program
import NameResolution.Grammar.Statement
import NameResolution.Main
import NameResolution.Proofs.Analysis.Chains
import NameResolution.Proofs.Analysis.Declared
import NameResolution.Proofs.Analysis.Discipline
import NameResolution.Proofs.Analysis.Failures
import NameResolution.Proofs.Analysis.Globals
import NameResolution.Proofs.Analysis.Inert
import NameResolution.Proofs.Analysis.Journal
import NameResolution.Proofs.Analysis.Kinds
import NameResolution.Proofs.Analysis.Links
import NameResolution.Proofs.Analysis.Mirror
import NameResolution.Proofs.Analysis.Moments
import NameResolution.Proofs.Analysis.Order
import NameResolution.Proofs.Analysis.Outcome
import NameResolution.Proofs.Analysis.Reach
import NameResolution.Proofs.Analysis.RenamedTables
import NameResolution.Proofs.Analysis.Renaming
import NameResolution.Proofs.Analysis.Retouch
import NameResolution.Proofs.Analysis.Scoping
import NameResolution.Proofs.Analysis.Sessions
import NameResolution.Proofs.Analysis.Settled
import NameResolution.Proofs.Analysis.Shift
import NameResolution.Proofs.Analysis.Shown
import NameResolution.Proofs.Analysis.Simulation
import NameResolution.Proofs.Analysis.StructTypes
import NameResolution.Proofs.Analysis.Structs
import NameResolution.Proofs.Analysis.Trace
import NameResolution.Proofs.Analysis.TwoRuns
import NameResolution.Proofs.Analysis.Unread
import NameResolution.Proofs.Analysis.Unused
import NameResolution.Proofs.Analysis.Uses
import NameResolution.Proofs.Analysis.Verdicts
import NameResolution.Proofs.Analysis.Walk
import NameResolution.Proofs.Analysis.Yields
import NameResolution.Proofs.CommandLine.Dumps
import NameResolution.Proofs.CommandLine.Endings
import NameResolution.Proofs.CommandLine.Named
import NameResolution.Proofs.CommandLine.Reading
import NameResolution.Proofs.CommandLine.Report
import NameResolution.Proofs.CommandLine.Switches
import NameResolution.Proofs.Dump.Texts
import NameResolution.Proofs.Dump.Trees
import NameResolution.Proofs.Dump.Values
import NameResolution.Proofs.Grammar.Accepting
import NameResolution.Proofs.Grammar.AcceptingBlock
import NameResolution.Proofs.Grammar.AcceptingExpression
import NameResolution.Proofs.Grammar.AcceptingProgram
import NameResolution.Proofs.Grammar.AcceptingStatement
import NameResolution.Proofs.Grammar.Captures
import NameResolution.Proofs.Grammar.CarriageReturns
import NameResolution.Proofs.Grammar.Commas
import NameResolution.Proofs.Grammar.Comparing
import NameResolution.Proofs.Grammar.Composition
import NameResolution.Proofs.Grammar.Conservation
import NameResolution.Proofs.Grammar.Derivation
import NameResolution.Proofs.Grammar.Dialects
import NameResolution.Proofs.Grammar.ErasedProgram
import NameResolution.Proofs.Grammar.Erasing
import NameResolution.Proofs.Grammar.Folding
import NameResolution.Proofs.Grammar.Forked
import NameResolution.Proofs.Grammar.Halting
import NameResolution.Proofs.Grammar.Joining
import NameResolution.Proofs.Grammar.Layout
import NameResolution.Proofs.Grammar.Levels
import NameResolution.Proofs.Grammar.Lexing
import NameResolution.Proofs.Grammar.Lockstep
import NameResolution.Proofs.Grammar.Overlong
import NameResolution.Proofs.Grammar.Positions
import NameResolution.Proofs.Grammar.PrintedExpression
import NameResolution.Proofs.Grammar.PrintedProgram
import NameResolution.Proofs.Grammar.PrintedTokens
import NameResolution.Proofs.Grammar.ReadingExpression
import NameResolution.Proofs.Grammar.ReadingProgram
import NameResolution.Proofs.Grammar.Relabelled
import NameResolution.Proofs.Grammar.Relayout
import NameResolution.Proofs.Grammar.Reparsing
import NameResolution.Proofs.Grammar.Respelling
import NameResolution.Proofs.Grammar.Run
import NameResolution.Proofs.Grammar.Sentences
import NameResolution.Proofs.Grammar.Shortened
import NameResolution.Proofs.Grammar.Signed
import NameResolution.Proofs.Grammar.Soundness
import NameResolution.Proofs.Grammar.Spelling
import NameResolution.Proofs.Grammar.Stripped
import NameResolution.Proofs.Grammar.Token
import NameResolution.Proofs.Grammar.Unprinting
import NameResolution.Proofs.Grammar.Visible
import NameResolution.Proofs.Scope.Flattened
import NameResolution.Proofs.Scope.Frame
import NameResolution.Proofs.Scope.History
import NameResolution.Proofs.Scope.Table
import NameResolution.Proofs.Text.Classes
import NameResolution.Proofs.Text.Decimal
import NameResolution.Proofs.Text.Escape
import NameResolution.Proofs.Text.LineEnds
import NameResolution.Proofs.Text.Lines
import NameResolution.Proofs.Tree.Access
import NameResolution.Proofs.Tree.Events
import NameResolution.Proofs.Tree.Indentation
import NameResolution.Proofs.Tree.Leads
import NameResolution.Proofs.Tree.Marks
import NameResolution.Proofs.Tree.PartSites
import NameResolution.Proofs.Tree.Parts
import NameResolution.Proofs.Tree.Placed
import NameResolution.Proofs.Tree.Relabel
import NameResolution.Proofs.Tree.Removal
import NameResolution.Proofs.Tree.Rename
import NameResolution.Proofs.Tree.Sites
import NameResolution.Scope.Bindings
import NameResolution.Scope.Symbol
import NameResolution.Scope.SymbolTable
import NameResolution.Text.Alphanumeric
import NameResolution.Text.Blank
import NameResolution.Text.Decimal
import NameResolution.Text.Escape
import NameResolution.Text.Newline
import NameResolution.Text.Position
import NameResolution.Text.Printable
import NameResolution.Text.Quoted
import NameResolution.Text.Ranges
import NameResolution.Tree.Basic
import NameResolution.Tree.Idents
import NameResolution.Tree.Printer

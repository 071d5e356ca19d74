import NameResolution.Analysis.Program

/-!
# The analyzer — runs of name analysis and where their errors go

An analyzer keeps the symbol table and the errors of its latest run, and a sink that every error is
reported to. A sink of its own is emptied before each run; one that was handed to it is not.
-/

namespace NameResolution

open Analysis

/-- The state between two runs. -/
structure Analyzer where
  /-- The symbol table that the latest run has left. -/
  table : SymbolTable := .new
  /-- The errors of the latest run, in report order. -/
  errors : List Diagnostic := []
  sink : Collector := {}
  /-- Whether the sink belongs to the analyzer. -/
  ownsSink : Bool := true
deriving Repr

namespace Analyzer

/-- An analyzer with a sink of its own. -/
def new : Analyzer := {}

/-- An analyzer that reports to a given sink. -/
def reportingTo (sink : Collector) : Analyzer :=
  { sink := sink, ownsSink := false }

/-- Whether the latest run found errors. -/
def hasErrors (a : Analyzer) : Bool :=
  !a.errors.isEmpty

/-- The state in which a run begins: one empty global scope, no errors, and the sink, emptied if it
is the analyzer's own. -/
def start (a : Analyzer) : State :=
  { table := a.table.restart, sink := if a.ownsSink then {} else a.sink }

/-- Analyzes a program from an empty global scope on. The answer holds the program with a symbol on
every identifier that the run could bind; the others keep what they had. -/
def analyze (a : Analyzer) (p : Program) : Except ScopeError (Program × Analyzer) := do
  let (p, s) ← p.resolve.run a.start
  pure (p, { a with table := s.table, errors := s.diagnostics, sink := s.sink })

end Analyzer

end NameResolution

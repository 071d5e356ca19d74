import NameResolution.Text.Decimal
import NameResolution.Text.Position

/-!
# Diagnostics — what name analysis reports

A diagnostic is one of six kinds of name error, at a position as far as one is known. A collector
keeps the diagnostics that are reported to it, in report order.
-/

namespace NameResolution

/-- The kinds of name error. -/
inductive DiagnosticKind where
  /-- The name is bound in the same scope already. -/
  | multiplyDeclared
  /-- The name is bound in no enclosing scope. -/
  | undeclared
  /-- The name after `struct` is not that of a visible struct. -/
  | invalidStructType
  /-- A variable or a field has the type `void`. -/
  | declaredVoid
  /-- The struct has no field of this name. -/
  | invalidField
  /-- A colon follows the name of something that is no struct variable. -/
  | nonStructAccess
deriving DecidableEq, Repr

/-- What is said about an error of this kind. -/
def DiagnosticKind.message : DiagnosticKind → String
  | multiplyDeclared => "Identifier multiply-declared"
  | undeclared => "Identifier undeclared"
  | invalidStructType => "Name of struct type invalid"
  | declaredVoid => "Non-function declared void"
  | invalidField => "Name of struct field invalid"
  | nonStructAccess => "Colon-access of non-struct type"

/-- A name error. -/
structure Diagnostic where
  kind : DiagnosticKind
  line? : Option Int := none
  col? : Option Int := none
deriving DecidableEq, Repr

namespace Diagnostic

/-- The error of this kind at a known position. -/
def located (kind : DiagnosticKind) (p : Position) : Diagnostic :=
  ⟨kind, some p.line, some p.col⟩

/-- Where the error is, as said in front of its message; a column without a line says nothing. -/
def location (d : Diagnostic) : String :=
  match d.line?, d.col? with
  | some line, some col =>
    "(line " ++ Text.decimalText line ++ ", col " ++ Text.decimalText col ++ ") "
  | some line, none => "(line " ++ Text.decimalText line ++ ") "
  | none, _ => ""

/-- The diagnostic as it is shown. -/
def text (d : Diagnostic) : String :=
  d.location ++ d.kind.message

end Diagnostic

/-- A sink that keeps every diagnostic reported to it, the first one first. -/
structure Collector where
  diagnostics : List Diagnostic := []
deriving DecidableEq, Repr

/-- The collector after one more report. -/
def Collector.report (sink : Collector) (d : Diagnostic) : Collector :=
  ⟨sink.diagnostics ++ [d]⟩

/-- How many diagnostics were reported. -/
def Collector.size (sink : Collector) : Nat :=
  sink.diagnostics.length

end NameResolution

import NameResolution.Diagnostic
import NameResolution.Scope.SymbolTable
import NameResolution.Tree.Basic

/-!
# Uses of names — expressions under a symbol table

What an expression means depends on the symbol table alone and changes nothing in it. So three
functions of the table say all about it: which symbol a location denotes, how the expression looks
with a symbol on each of its identifiers, and which errors it holds.

A chain of field accesses is followed link by link from its left end. Where it breaks, that link is
reported, and everything to the right denotes the undefined symbol without a further report.

* `Loc.denote` — the symbol of a location.
* `Expr.annotate` — the expression with its symbols.
* `Expr.diagnose` — the errors in the order of the text.
-/

namespace NameResolution

/-! ## Names -/

namespace SymbolTable

/-- The struct that is visible under a name, if the name stands for one. -/
def lookupStruct (t : SymbolTable) (name : String) : Option Symbol :=
  (t.lookup name).filter Symbol.isStructDecl

/-- The symbol that a use of a name denotes. -/
def denote (t : SymbolTable) (name : String) : Symbol :=
  (t.lookup name).getD .undefined

end SymbolTable

/-- The use of a name with the symbol it denotes. -/
def Ident.annotate (t : SymbolTable) (id : Ident) : Ident :=
  id.bind (t.denote id.name)

/-- A use of a name that no open scope binds is an error. -/
def Ident.diagnose (t : SymbolTable) (id : Ident) : List Diagnostic :=
  match t.lookup id.name with
  | some _ => []
  | none => [.located .undeclared id.pos]

/-! ## Field accesses -/

/-- What a field access comes to, given the symbol of its left side. -/
inductive Access where
  /-- The left side has a field of this name. -/
  | found (symbol : Symbol)
  /-- The left side is undefined already. -/
  | broken
  /-- The left side is no struct variable. -/
  | notStruct
  /-- The struct of the left side is not visible under its name here. -/
  | hidden
  /-- The struct has no field of this name. -/
  | noField
deriving DecidableEq, Repr

/-- The symbol that the access denotes. -/
def Access.symbol : Access → Symbol
  | found symbol => symbol
  | _ => .undefined

/-- Looks a field up in the struct that `left` is a variable of. -/
def SymbolTable.access (t : SymbolTable) (left : Symbol) (field : String) : Access :=
  if left.isUndefined then .broken
  else if !left.isStructVar then .notStruct
  else
    match left.meaning.struct?.bind t.lookupStruct with
    | none => .hidden
    | some struct =>
      match struct.meaning.fields?.bind fun fields => (t.scope fields).lookup field with
      | none => .noField
      | some symbol => .found symbol

/-- The error in accessing the field `id` of `left`. -/
def Access.diagnose (left : Loc) (id : Ident) : Access → List Diagnostic
  | found _ => []
  | broken => []
  | notStruct => [.located .nonStructAccess left.last.pos]
  | hidden => [.located .invalidStructType left.last.pos]
  | noField => [.located .invalidField id.pos]

/-! ## Locations -/

/-- The symbol that a location denotes. -/
def Loc.denote (t : SymbolTable) : Loc → Symbol
  | var id => t.denote id.name
  | field left id => (t.access (left.denote t) id.name).symbol

/-- The location with a symbol on each link. -/
def Loc.annotate (t : SymbolTable) : Loc → Loc
  | var id => .var (id.annotate t)
  | field left id => .field (left.annotate t) (id.bind ((Loc.field left id).denote t))

/-- The error at the link where the location breaks, if it does. -/
def Loc.diagnose (t : SymbolTable) : Loc → List Diagnostic
  | var id => id.diagnose t
  | field left id => left.diagnose t ++ (t.access (left.denote t) id.name).diagnose left id

/-! ## Expressions -/

mutual

/-- The expression with a symbol on every identifier. -/
def Expr.annotate (t : SymbolTable) : Expr → Expr
  | .trueLit pos => .trueLit pos
  | .falseLit pos => .falseLit pos
  | .intLit pos value => .intLit pos value
  | .strLit pos literal => .strLit pos literal
  | .loc location => .loc (location.annotate t)
  | .assign target value => .assign (target.annotate t) (value.annotate t)
  | .call callee args => .call (callee.annotate t) (Expr.annotateAll t args)
  | .unary op operand => .unary op (operand.annotate t)
  | .binary op left right => .binary op (left.annotate t) (right.annotate t)

def Expr.annotateAll (t : SymbolTable) : List Expr → List Expr
  | [] => []
  | e :: es => e.annotate t :: Expr.annotateAll t es

end

mutual

/-- The errors in an expression, a call's name before its arguments and a left side before a
right one. -/
def Expr.diagnose (t : SymbolTable) : Expr → List Diagnostic
  | .trueLit _ | .falseLit _ | .intLit _ _ | .strLit _ _ => []
  | .loc location => location.diagnose t
  | .assign target value => target.diagnose t ++ value.diagnose t
  | .call callee args => callee.diagnose t ++ Expr.diagnoseAll t args
  | .unary _ operand => operand.diagnose t
  | .binary _ left right => left.diagnose t ++ right.diagnose t

def Expr.diagnoseAll (t : SymbolTable) : List Expr → List Diagnostic
  | [] => []
  | e :: es => e.diagnose t ++ Expr.diagnoseAll t es

end

end NameResolution
